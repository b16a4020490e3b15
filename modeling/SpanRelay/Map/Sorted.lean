/-! # Maps sorted by name

A `Sorted α` holds one value for each of finitely many names, in the order of the names by code
points, which is also their order by UTF-8 bytes. The order is part of the type, so two maps with
the same entries are equal. -/

namespace SpanRelay.Map

/-- The entries with `name` set to `value`: put in its place, or in place of its old value. -/
def insertEntry {α : Type} (name : String) (value : α) : List (String × α) → List (String × α)
  | [] => [(name, value)]
  | e :: es =>
    if name < e.1 then (name, value) :: e :: es
    else if name = e.1 then (name, value) :: es
    else e :: insertEntry name value es

theorem mem_insertEntry {α : Type} {name : String} {value : α} {e : String × α} :
    ∀ {es : List (String × α)}, e ∈ insertEntry name value es → e = (name, value) ∨ e ∈ es
  | [], h => by simp [insertEntry] at h; exact Or.inl h
  | d :: es, h => by
    unfold insertEntry at h
    split at h
    · simpa using h
    split at h
    · rcases List.mem_cons.1 h with h | h <;> simp [h]
    · rcases List.mem_cons.1 h with h | h
      · simp [h]
      · rcases mem_insertEntry h with h | h <;> simp [h]

theorem pairwise_insertEntry {α : Type} {name : String} {value : α} :
    ∀ {es : List (String × α)}, es.Pairwise (fun a b => a.1 < b.1) →
      (insertEntry name value es).Pairwise (fun a b => a.1 < b.1)
  | [], _ => by simp [insertEntry]
  | d :: es, h => by
    obtain ⟨hd, hes⟩ := List.pairwise_cons.1 h
    unfold insertEntry
    split
    · rename_i hlt
      refine List.pairwise_cons.2 ⟨fun e he => ?_, h⟩
      rcases List.mem_cons.1 he with rfl | he
      · exact hlt
      · exact String.lt_trans hlt (hd e he)
    split
    · rename_i heq
      exact List.pairwise_cons.2 ⟨fun e he => heq ▸ hd e he, hes⟩
    · rename_i hlt hne
      refine List.pairwise_cons.2 ⟨fun e he => ?_, pairwise_insertEntry hes⟩
      rcases mem_insertEntry he with rfl | he
      · exact Std.lt_of_le_of_ne (String.not_lt.1 hlt) (Ne.symm hne)
      · exact hd e he

/-- A map from names to values, its entries in the order of their names. -/
structure Sorted (α : Type) where
  entries : List (String × α)
  sorted : entries.Pairwise (fun a b => a.1 < b.1)

namespace Sorted

variable {α : Type}

def empty : Sorted α := ⟨[], List.Pairwise.nil⟩

/-- The map with a name set. Its place is where the order wants it. -/
def insert (m : Sorted α) (name : String) (value : α) : Sorted α :=
  ⟨insertEntry name value m.entries, pairwise_insertEntry m.sorted⟩

/-- The map of the given entries, a later one replacing an earlier one of the same name. -/
def ofList (es : List (String × α)) : Sorted α :=
  es.foldl (fun m e => m.insert e.1 e.2) empty

theorem eq_of_entries_eq {m n : Sorted α} (h : m.entries = n.entries) : m = n := by
  cases m; cases n; cases h; rfl

end Sorted

end SpanRelay.Map
