import SpanRelay.Map.Table

/-! # Tables keyed by a field of their values

A table is `Keyed f` if each of its values stands under the key that `f` reads off it, and no key
stands twice. Its values are then known by their keys (`mem_values_iff`), and they have the keys in
the same order (`map_values`). -/

namespace SpanRelay.Map.Table

variable {κ α : Type} [DecidableEq κ]

/-- No key stands twice, and each value stands under its own key. -/
structure Keyed (f : α → κ) (t : Table κ α) : Prop where
  nodup : t.keys.Nodup
  key : ∀ row ∈ t.rows, f row.2 = row.1

namespace Keyed

variable {f : α → κ} {t : Table κ α}

omit [DecidableEq κ] in
theorem empty (f : α → κ) : Keyed f (Table.empty : Table κ α) := ⟨List.nodup_nil, by simp [Table.empty]⟩

theorem insert (h : t.Keyed f) (value : α) : (t.insert (f value) value).Keyed f := by
  refine ⟨nodup_keys_insert h.nodup _ _, fun row hrow => ?_⟩
  rcases mem_rows_insert hrow with rfl | hrow
  · rfl
  · exact h.key row hrow

theorem modify (h : t.Keyed f) (key : κ) {g : α → α} (hg : ∀ value, f (g value) = f value) :
    (t.modify key g).Keyed f := by
  refine ⟨by rw [keys_modify]; exact h.nodup, fun row hrow => ?_⟩
  obtain ⟨old, hold, rfl⟩ := List.mem_map.1 hrow
  split
  · rw [hg]; exact h.key old hold
  · exact h.key old hold

omit [DecidableEq κ] in
theorem map_values (h : t.Keyed f) : t.values.map f = t.keys := by
  unfold values keys
  rw [List.map_map]
  exact List.map_congr_left h.key

omit [DecidableEq κ] in
theorem nodup_values (h : t.Keyed f) : (t.values.map f).Nodup := h.map_values ▸ h.nodup

theorem eq_key_of_get? (h : t.Keyed f) {key : κ} {value : α} (hv : t.get? key = some value) :
    f value = key := h.key _ (mem_rows_of_get? hv)

theorem mem_values_iff (h : t.Keyed f) {value : α} :
    value ∈ t.values ↔ t.get? (f value) = some value := by
  constructor
  · intro hv
    obtain ⟨row, hrow, rfl⟩ := List.mem_map.1 hv
    rw [h.key row hrow]
    exact get?_of_mem_rows h.nodup hrow
  · exact fun hv => List.mem_map.2 ⟨_, mem_rows_of_get? hv, rfl⟩

end Keyed

end SpanRelay.Map.Table
