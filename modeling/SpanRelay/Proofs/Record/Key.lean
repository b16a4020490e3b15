import SpanRelay.Record.Element

/-! # Execution keys

An execution key stands for a `Place`: an element, in a branch or in none. It joins the two by a
separator that either of them may hold as well, so the key alone does not tell where it is to be split:
a part of the branch may just as well belong to the id (`executionKey_executionKey`). This is the only
way in which two places come to share a key (`Place.key_eq_iff`), and one of the ids holds a separator
then. So the key tells the place where no id does (`executionKey_eq_iff`). -/

namespace SpanRelay

/-! ### Keys and their separators -/

/-- A part of the branch may just as well belong to the id. -/
theorem executionKey_executionKey (a c : String) (y : Option String) :
    executionKey a (some (executionKey c y)) = executionKey (executionKey a (some c)) y := by
  cases y with
  | none => rfl
  | some y => simp only [executionKey, String.append_assoc]

theorem toList_executionKey_some (elementId branch : String) :
    (executionKey elementId (some branch)).toList = elementId.toList ++ '#' :: branch.toList := by
  rw [executionKey, String.toList_append, String.toList_append, List.append_assoc]
  rfl

theorem eq_executionKey_of_toList {text : String} {as bs : List Char}
    (h : text.toList = as ++ '#' :: bs) :
    text = executionKey (.ofList as) (some (.ofList bs)) := by
  apply String.toList_injective
  rw [toList_executionKey_some, h, String.toList_ofList, String.toList_ofList]

/-- Two ways to split a list at a separator: at the same one, at a later one or at an earlier one. -/
theorem append_separator_cases {c : Char} {as bs xs ys : List Char}
    (h : as ++ c :: xs = bs ++ c :: ys) :
    (as = bs ∧ xs = ys) ∨ (∃ cs, bs = as ++ c :: cs ∧ xs = cs ++ c :: ys) ∨
      ∃ cs, as = bs ++ c :: cs ∧ ys = cs ++ c :: xs := by
  rcases List.append_eq_append_iff.1 h with ⟨cs, rfl, hrest⟩ | ⟨cs, rfl, hrest⟩
  · rcases List.cons_eq_append_iff.1 hrest with ⟨rfl, hys⟩ | ⟨cs, rfl, hxs⟩
    · exact Or.inl ⟨(List.append_nil as).symm, (List.cons.inj hys).2.symm⟩
    · exact Or.inr (Or.inl ⟨cs, rfl, hxs⟩)
  · rcases List.cons_eq_append_iff.1 hrest with ⟨rfl, hxs⟩ | ⟨cs, rfl, hys⟩
    · exact Or.inl ⟨List.append_nil bs, (List.cons.inj hxs).2⟩
    · exact Or.inr (Or.inr ⟨cs, rfl, hys⟩)

/-! ### Places -/

/-- What an execution key stands for. -/
structure Place where
  elementId : String
  branchKey : Option String
deriving DecidableEq, Repr

/-- The place of the element's occurrences. -/
def Element.place (e : Element) : Place := ⟨e.elementId, e.branchKey⟩

/-- The place of the parent's occurrences. -/
def ParentHint.place (h : ParentHint) : Place := ⟨h.elementId, h.branchKey⟩

namespace Place

def key (p : Place) : String := executionKey p.elementId p.branchKey

/-- The id of `q` is that of `p` with the separator and a part `c` of the branch of `p`, and the branch
of `q` is what is left of it behind a separator, if anything is. -/
def Absorbs (q p : Place) : Prop :=
  ∃ c, q.elementId = p.elementId ++ "#" ++ c ∧
    p.branchKey = some (q.branchKey.elim c fun rest => c ++ "#" ++ rest)

/-- One of two places takes in a part of the branch of the other one. -/
def Clashes (p q : Place) : Prop := p.Absorbs q ∨ q.Absorbs p

variable {p q : Place}

theorem absorbs_iff : q.Absorbs p ↔ ∃ c, q.elementId = executionKey p.elementId (some c) ∧
    p.branchKey = some (executionKey c q.branchKey) := by
  unfold Absorbs
  cases q.branchKey <;> rfl

theorem Absorbs.key_eq (h : q.Absorbs p) : q.key = p.key := by
  obtain ⟨c, hid, hbranch⟩ := absorbs_iff.1 h
  rw [key, key, hid, hbranch, executionKey_executionKey]

theorem Absorbs.separator_mem (h : q.Absorbs p) : '#' ∈ q.elementId.toList := by
  obtain ⟨c, hid, -⟩ := absorbs_iff.1 h
  rw [hid, toList_executionKey_some]
  exact List.mem_append_right _ List.mem_cons_self

theorem Absorbs.elementId_ne (h : q.Absorbs p) : q.elementId ≠ p.elementId := by
  intro heq
  obtain ⟨c, hid, -⟩ := absorbs_iff.1 h
  have hlength := congrArg List.length (congrArg String.toList (heq.symm.trans hid))
  rw [toList_executionKey_some, List.length_append, List.length_cons] at hlength
  omega

theorem Clashes.elementId_ne (h : p.Clashes q) : p.elementId ≠ q.elementId :=
  h.elim Absorbs.elementId_ne fun h => h.elementId_ne.symm

theorem Clashes.ne (h : p.Clashes q) : p ≠ q := fun heq => h.elementId_ne (congrArg elementId heq)

theorem eq_or_clashes_of_key_eq (h : p.key = q.key) : p = q ∨ p.Clashes q := by
  obtain ⟨a, x⟩ := p
  obtain ⟨b, y⟩ := q
  cases x with
  | none =>
    cases y with
    | none => exact Or.inl (congrArg (Place.mk · none) h)
    | some y => exact Or.inr (Or.inl ⟨y, h, rfl⟩)
  | some x =>
    cases y with
    | none => exact Or.inr (Or.inr ⟨x, h.symm, rfl⟩)
    | some y =>
      have hlists : a.toList ++ '#' :: x.toList = b.toList ++ '#' :: y.toList := by
        rw [← toList_executionKey_some, ← toList_executionKey_some]
        exact congrArg String.toList h
      -- `p` and `q` split the key at one separator, or `q` or `p` splits it at a later one
      rcases append_separator_cases hlists with ⟨hab, hxy⟩ | ⟨cs, hb, hx⟩ | ⟨cs, ha, hy⟩
      · obtain rfl := String.toList_injective hab
        obtain rfl := String.toList_injective hxy
        exact Or.inl rfl
      · refine Or.inr (Or.inr (absorbs_iff.2 ⟨.ofList cs, ?_, congrArg some ?_⟩))
        · simpa using eq_executionKey_of_toList hb
        · simpa using eq_executionKey_of_toList hx
      · refine Or.inr (Or.inl (absorbs_iff.2 ⟨.ofList cs, ?_, congrArg some ?_⟩))
        · simpa using eq_executionKey_of_toList ha
        · simpa using eq_executionKey_of_toList hy

/-- **Places with one key** are the same or clash. -/
theorem key_eq_iff : p.key = q.key ↔ p = q ∨ p.Clashes q := by
  refine ⟨eq_or_clashes_of_key_eq, ?_⟩
  rintro (rfl | h | h)
  · rfl
  · exact h.key_eq
  · exact h.key_eq.symm

/-- The branch of a loop and an element named like it. -/
example : executionKey "loop" (some "iter-2") = executionKey "loop#iter-2" none := by decide

/-- **A collision** of the keys of different places. -/
theorem clashes_iff : p.Clashes q ↔ p ≠ q ∧ p.key = q.key :=
  ⟨fun h => ⟨h.ne, key_eq_iff.2 (Or.inr h)⟩, fun ⟨hne, hkey⟩ => (key_eq_iff.1 hkey).resolve_left hne⟩

instance (p q : Place) : Decidable (p.Clashes q) := decidable_of_iff _ clashes_iff.symm

theorem Clashes.separator_mem (h : p.Clashes q) :
    '#' ∈ p.elementId.toList ∨ '#' ∈ q.elementId.toList :=
  h.imp Absorbs.separator_mem Absorbs.separator_mem

end Place

theorem Element.executionKey_eq_key (e : Element) (p : Place) :
    e.executionKey = p.key ↔ e.place = p ∨ e.place.Clashes p :=
  Place.key_eq_iff (p := e.place)

/-- **The element and the branch** are told by the key where the ids are without the separator. -/
theorem executionKey_eq_iff {a b : String} (ha : '#' ∉ a.toList) (hb : '#' ∉ b.toList)
    (x y : Option String) : executionKey a x = executionKey b y ↔ a = b ∧ x = y := by
  refine ⟨fun h => ?_, fun ⟨hab, hxy⟩ => by rw [hab, hxy]⟩
  rcases Place.eq_or_clashes_of_key_eq (p := ⟨a, x⟩) (q := ⟨b, y⟩) h with heq | hclash
  · exact Place.mk.inj heq
  · exact absurd hclash.separator_mem (not_or.2 ⟨ha, hb⟩)

end SpanRelay
