/-! # Tables

A `Table κ α` holds one value for each of finitely many keys, in the order in which the keys came
in. Setting a key that is there keeps its place. `get?` is the view through which the operations
are described. -/

namespace SpanRelay.Map

/-- A finite map whose rows stand in the order in which their keys were first set. -/
structure Table (κ α : Type) where
  rows : List (κ × α)

namespace Table

variable {κ α : Type} [DecidableEq κ]

def empty : Table κ α := ⟨[]⟩

/-- What a key is set to. -/
def get? (t : Table κ α) (key : κ) : Option α :=
  (t.rows.find? fun row => row.1 = key).map Prod.snd

/-- Whether a key is set. -/
def contains (t : Table κ α) (key : κ) : Bool := (t.get? key).isSome

/-- The table with a key set: a key that was set before keeps its place, a new one comes last. -/
def insert (t : Table κ α) (key : κ) (value : α) : Table κ α :=
  if t.contains key then
    ⟨t.rows.map fun row => if row.1 = key then (key, value) else row⟩
  else ⟨t.rows ++ [(key, value)]⟩

/-- The table without a key, the others in their order. -/
def erase (t : Table κ α) (key : κ) : Table κ α :=
  ⟨t.rows.filter fun row => row.1 ≠ key⟩

/-- The table with the value of `key`, if there is one, changed by `f`. -/
def modify (t : Table κ α) (key : κ) (f : α → α) : Table κ α :=
  ⟨t.rows.map fun row => if row.1 = key then (row.1, f row.2) else row⟩

/-- The values in the order of the rows. -/
def values (t : Table κ α) : List α := t.rows.map Prod.snd

/-- The keys in the order of the rows. -/
def keys (t : Table κ α) : List κ := t.rows.map Prod.fst

/-- How many keys are set. -/
def size (t : Table κ α) : Nat := t.rows.length

def isEmpty (t : Table κ α) : Bool := t.rows.isEmpty

@[simp] theorem get?_empty (key : κ) : (empty : Table κ α).get? key = none := rfl

theorem find?_map_self {rows : List (κ × α)} {key : κ} {value : α} (key' : κ)
    (h : key' ≠ key) :
    ((rows.map fun row => if row.1 = key then (key, value) else row).find?
      fun row => row.1 = key') = rows.find? fun row => row.1 = key' := by
  induction rows with
  | nil => rfl
  | cons row rows ih =>
    rw [List.map_cons, List.find?_cons, List.find?_cons, ih]
    by_cases hr : row.1 = key
    · simp [hr, Ne.symm h]
    · simp [hr]

theorem find?_map_of_mem {rows : List (κ × α)} {key : κ} {value : α}
    (h : (rows.find? fun row => row.1 = key).isSome) :
    ((rows.map fun row => if row.1 = key then (key, value) else row).find?
      fun row => row.1 = key) = some (key, value) := by
  induction rows with
  | nil => simp at h
  | cons row rows ih =>
    by_cases hr : row.1 = key
    · simp [hr]
    · simp only [List.map_cons, hr, if_false, List.find?_cons, decide_false] at h ⊢
      exact ih h

@[simp] theorem get?_insert_self (t : Table κ α) (key : κ) (value : α) :
    (t.insert key value).get? key = some value := by
  unfold insert contains
  split
  · rename_i h
    have h' : (t.rows.find? fun row => row.1 = key).isSome := by simpa [get?] using h
    rw [get?, find?_map_of_mem h']
    rfl
  · rename_i h
    have h' : t.rows.find? (fun row => row.1 = key) = none := by
      simpa only [get?, Option.isSome_map, Option.not_isSome_iff_eq_none] using h
    simp [get?, List.find?_append, h']

theorem get?_insert_of_ne (t : Table κ α) {key key' : κ} (value : α) (h : key' ≠ key) :
    (t.insert key value).get? key' = t.get? key' := by
  unfold insert
  split
  · simp only [get?, find?_map_self key' h]
  · simp [get?, List.find?_append, Ne.symm h]

theorem get?_insert (t : Table κ α) (key key' : κ) (value : α) :
    (t.insert key value).get? key' = if key' = key then some value else t.get? key' := by
  split
  · rename_i h; subst h; simp
  · rename_i h; exact t.get?_insert_of_ne value h

@[simp] theorem get?_erase_self (t : Table κ α) (key : κ) : (t.erase key).get? key = none := by
  simp [get?, erase, List.find?_filter]

theorem get?_erase_of_ne (t : Table κ α) {key key' : κ} (h : key' ≠ key) :
    (t.erase key).get? key' = t.get? key' := by
  unfold get? erase
  rw [List.find?_filter]
  congr 2
  funext row
  by_cases hr : row.1 = key' <;> simp [hr, h]

theorem get?_erase (t : Table κ α) (key key' : κ) :
    (t.erase key).get? key' = if key' = key then none else t.get? key' := by
  split
  · rename_i h; subst h; simp
  · rename_i h; exact t.get?_erase_of_ne h

theorem get?_modify (t : Table κ α) (key key' : κ) (f : α → α) :
    (t.modify key f).get? key' = if key' = key then (t.get? key).map f else t.get? key' := by
  unfold get? modify
  induction t.rows with
  | nil => simp
  | cons row rows ih =>
    simp only [List.map_cons, List.find?_cons]
    by_cases hr : row.1 = key <;> by_cases hk : key' = key
    · subst hk; simp [hr]
    · simp only [hr, if_true, hk, if_false, Ne.symm hk, decide_false] at ih ⊢
      exact ih
    · subst hk
      simp only [hr, if_true, if_false, decide_false] at ih ⊢
      exact ih
    · by_cases hr' : row.1 = key'
      · simp [hr', hk]
      · simp only [hr, hr', hk, if_false, decide_false] at ih ⊢
        exact ih

/-! ### Keys -/

@[simp] theorem keys_modify (t : Table κ α) (key : κ) (f : α → α) :
    (t.modify key f).keys = t.keys := by
  unfold keys modify
  rw [List.map_map]
  refine List.map_congr_left fun row _ => ?_
  simp only [Function.comp_apply]
  split <;> rfl

theorem contains_iff_mem_keys {t : Table κ α} {key : κ} : t.contains key ↔ key ∈ t.keys := by
  simp [contains, get?, keys, List.find?_isSome]

theorem keys_insert (t : Table κ α) (key : κ) (value : α) :
    (t.insert key value).keys = if key ∈ t.keys then t.keys else t.keys ++ [key] := by
  unfold insert
  simp only [contains_iff_mem_keys]
  split
  · unfold keys
    rw [List.map_map]
    refine List.map_congr_left fun row _ => ?_
    simp only [Function.comp_apply]
    split
    · rename_i hr; exact hr.symm
    · rfl
  · simp [keys]

theorem mem_keys_insert {t : Table κ α} {key key' : κ} {value : α} :
    key' ∈ (t.insert key value).keys ↔ key' = key ∨ key' ∈ t.keys := by
  rw [keys_insert]
  split
  · rename_i h
    exact ⟨Or.inr, fun h' => h'.elim (fun he => he ▸ h) id⟩
  · simp [or_comm]

theorem nodup_keys_insert {t : Table κ α} (h : t.keys.Nodup) (key : κ) (value : α) :
    (t.insert key value).keys.Nodup := by
  rw [keys_insert]
  split
  · exact h
  · rename_i hk
    exact List.nodup_append.2 ⟨h, by simp, fun a ha b hb => by
      rw [List.mem_singleton.1 hb]; exact fun he => hk (he ▸ ha)⟩

theorem mem_rows_insert {t : Table κ α} {key : κ} {value : α} {row : κ × α}
    (h : row ∈ (t.insert key value).rows) : row = (key, value) ∨ row ∈ t.rows := by
  unfold insert at h
  split at h
  · obtain ⟨old, hold, rfl⟩ := List.mem_map.1 h
    split
    · exact Or.inl rfl
    · exact Or.inr hold
  · rcases List.mem_append.1 h with h | h
    · exact Or.inr h
    · exact Or.inl (List.mem_singleton.1 h)

theorem mem_rows_of_get? {t : Table κ α} {key : κ} {value : α} (h : t.get? key = some value) :
    (key, value) ∈ t.rows := by
  obtain ⟨row, hrow, rfl⟩ := Option.map_eq_some_iff.1 h
  have hk : row.1 = key := by simpa using List.find?_some hrow
  exact hk ▸ List.mem_of_find?_eq_some hrow

theorem get?_of_mem_rows {t : Table κ α} (h : t.keys.Nodup) {row : κ × α} (hrow : row ∈ t.rows) :
    t.get? row.1 = some row.2 := by
  unfold get? keys at *
  generalize t.rows = rows at h hrow ⊢
  induction rows with
  | nil => simp at hrow
  | cons d rows ih =>
    obtain ⟨hd, hrows⟩ := List.nodup_cons.1 h
    rcases List.mem_cons.1 hrow with rfl | hrow
    · simp
    · have hne : d.1 ≠ row.1 := fun he => hd (he ▸ List.mem_map_of_mem hrow)
      rw [List.find?_cons_of_neg (by simpa using hne)]
      exact ih hrows hrow

end Table

end SpanRelay.Map
