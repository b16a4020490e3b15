import Mathlib.Data.List.Nodup
import SpanRelay.Proofs.Json.Exact

/-! # The fields of a written record

A record is written with a slot for each field, some of them empty, and only the filled ones become
members (`filled`). If the names of the slots are distinct then a reader finds in each name what its
slot holds, whatever else the record has (`ofMembers?_filled`), and an absent value is told from a
present one (`optionally_map`, `optionally_orNull`). -/

namespace SpanRelay.Json

variable {α : Type}

/-- The members of a record: the slots that hold a value. -/
def filled (slots : List (String × Option Json)) : List (String × Json) :=
  slots.filterMap fun s => s.2.map fun v => (s.1, v)

theorem filled_append (slots slots' : List (String × Option Json)) :
    filled (slots ++ slots') = filled slots ++ filled slots' := List.filterMap_append

theorem field_eq_filled (name : String) (v : Json) : field name v = filled [(name, some v)] := rfl

theorem optionalField_eq_filled (name : String) (write : α → Json) (o : Option α) :
    optionalField name write o = filled [(name, o.map write)] := by cases o <;> rfl

variable {slots : List (String × Option Json)}

theorem exists_slot_of_mem {m : String × Json} (h : m ∈ filled slots) :
    ∃ s ∈ slots, s.1 = m.1 ∧ s.2 = some m.2 := by
  obtain ⟨s, hs, hm⟩ := List.mem_filterMap.1 h
  obtain ⟨v, hv, rfl⟩ := Option.map_eq_some_iff.1 hm
  exact ⟨s, hs, rfl, hv⟩

/-! ### Finding fields -/

theorem keys_filled_sublist (slots : List (String × Option Json)) :
    ((filled slots).map Prod.fst).Sublist (slots.map Prod.fst) := by
  induction slots with
  | nil => exact List.Sublist.slnil
  | cons s slots ih =>
    obtain ⟨name, _ | v⟩ := s
    · exact ih.cons name
    · exact ih.cons_cons name

theorem occurrences_le_one {ms : List (String × Json)} (h : (ms.map Prod.fst).Nodup) (name : String) :
    Fields.occurrences name ms ≤ 1 := by
  have hcount : Fields.occurrences name ms = (ms.map Prod.fst).count name := by
    rw [List.count, List.countP_map]
    rfl
  rw [hcount]
  exact List.nodup_iff_count_le_one.1 h name

theorem find?_filled (h : (slots.map Prod.fst).Nodup) {s : String × Option Json} (hs : s ∈ slots) :
    ((filled slots).find? fun m => m.1 = s.1).map Prod.snd = s.2 := by
  induction slots with
  | nil => cases hs
  | cons t slots ih =>
    obtain ⟨hname, hnodup⟩ := List.nodup_cons.1 h
    obtain ⟨name, o⟩ := t
    rcases List.mem_cons.1 hs with rfl | hs
    · cases o with
      | none =>
        have hnone : ((filled slots).find? fun m => m.1 = name) = none := by
          refine List.find?_eq_none.2 fun m hm he => hname ?_
          obtain ⟨s, hs, hs1, -⟩ := exists_slot_of_mem hm
          exact List.mem_map.2 ⟨s, hs, hs1.trans (of_decide_eq_true he)⟩
        exact congrArg (Option.map Prod.snd) hnone
      | some v => exact congrArg (Option.map Prod.snd) (List.find?_cons_of_pos (by simp))
    · have hne : name ≠ s.1 := fun he => hname (List.mem_map.2 ⟨s, hs, he.symm⟩)
      have ih := ih hnodup hs
      cases o with
      | none => exact ih
      | some v =>
        rw [← ih]
        exact congrArg (Option.map Prod.snd) (List.find?_cons_of_neg (by simpa using hne))

/-- **The fields of a written record**: no name is repeated, and each leads to what its slot holds. -/
theorem ofMembers?_filled (h : (slots.map Prod.fst).Nodup) (names : List String) :
    ∃ f, Fields.ofMembers? names (filled slots) = some f ∧ f.listed = false ∧
      ∀ s ∈ slots, f.find? s.1 = s.2 := by
  have hmembers : ((filled slots).map Prod.fst).Nodup := h.sublist (keys_filled_sublist slots)
  have hall : names.all (fun name => Fields.occurrences name (filled slots) ≤ 1) = true :=
    List.all_eq_true.2 fun name _ => decide_eq_true (occurrences_le_one hmembers name)
  rw [Fields.ofMembers?, if_pos hall]
  exact ⟨_, rfl, rfl, fun s hs => find?_filled h hs⟩

theorem filter_filled (p : String → Bool) (slots : List (String × Option Json)) :
    (filled slots).filter (fun m => p m.1) = filled (slots.filter fun s => p s.1) := by
  induction slots with
  | nil => rfl
  | cons s slots ih =>
    obtain ⟨name, _ | v⟩ := s <;> cases hp : p name <;> simp_all [filled]

/-! ### Lasting values -/

/-- The value can be written, and it is read back as it was. -/
structure Lasting (v : Json) : Prop where
  inRange : v.inRange = true
  reread : v.reread = v

theorem rereadMembers_of_lasting {ms : List (String × Json)} (h : ∀ m ∈ ms, m.2.Lasting) :
    rereadMembers ms = ms := by
  induction ms with
  | nil => rfl
  | cons m ms ih =>
    rw [rereadMembers, (h m List.mem_cons_self).reread,
      ih fun m' hm' => h m' (List.mem_cons_of_mem _ hm')]

theorem rereadItems_of_lasting {vs : List Json} (h : ∀ v ∈ vs, v.Lasting) : rereadItems vs = vs := by
  induction vs with
  | nil => rfl
  | cons v vs ih =>
    rw [rereadItems, (h v List.mem_cons_self).reread, ih fun w hw => h w (List.mem_cons_of_mem _ hw)]

theorem lasting_object {ms : List (String × Json)} (h : ∀ m ∈ ms, m.2.Lasting) :
    (Json.object ms).Lasting :=
  ⟨inRangeMembers_of_forall fun m hm => (h m hm).inRange,
    congrArg Json.object (rereadMembers_of_lasting h)⟩

theorem lasting_list {vs : List Json} (h : ∀ v ∈ vs, v.Lasting) : (Json.list vs).Lasting :=
  ⟨inRangeItems_of_forall fun v hv => (h v hv).inRange, congrArg Json.list (rereadItems_of_lasting h)⟩

theorem forall_filled {P : Json → Prop} (h : ∀ s ∈ slots, ∀ v ∈ s.2, P v) :
    ∀ m ∈ filled slots, P m.2 := by
  intro m hm
  obtain ⟨s, hs, -, hv⟩ := exists_slot_of_mem hm
  exact h s hs m.2 hv

/-! ### Reading fields -/

/-- The value that a field holds, if it is there. -/
def optionally (read : Json → Option α) : Option Json → Option (Option α)
  | none => some none
  | some .null => some none
  | some v => (read v).map some

theorem Fields.required_eq (f : Fields) (name : String) (read : Json → Option α) :
    f.required name read = (f.find? name).bind read := rfl

theorem Fields.optional_eq {f : Fields} (h : f.listed = false) (name : String)
    (read : Json → Option α) : f.optional name read = optionally read (f.find? name) := by
  unfold optional optionally
  rw [h]
  rfl

theorem Fields.orAbsent_eq (f : Fields) (name : String) (read : Json → Option α) :
    f.orAbsent name read = optionally read (f.find? name) := by
  unfold orAbsent defaulted optionally
  rcases f.find? name with _ | v
  · rfl
  · cases v <;> rfl

theorem Fields.defaulted_of_find? {f : Fields} {name : String} {v : Json} (h : f.find? name = some v)
    (read : Json → Option α) (default : α) : f.defaulted name read default = read v := by
  rw [defaulted, h]

theorem optionally_some {v : Json} (h : v ≠ .null) (read : Json → Option α) :
    optionally read (some v) = (read v).map some := by
  cases v <;> first | rfl | exact absurd rfl h

/-- **A field that is left out** when it is absent is read. -/
theorem optionally_map {write : α → Json} {read : Json → Option α} {o : Option α}
    (h : ∀ a, o = some a → write a ≠ .null ∧ read (write a) = some a) :
    optionally read (o.map write) = some o := by
  cases o with
  | none => rfl
  | some a =>
    obtain ⟨hne, hread⟩ := h a rfl
    rw [Option.map_some, optionally_some hne, hread]
    rfl

/-- **A field that is `null`** when it is absent is read. -/
theorem optionally_orNull {write : α → Json} {read : Json → Option α} {o : Option α}
    (h : ∀ a, o = some a → write a ≠ .null ∧ read (write a) = some a) :
    optionally read (some (orNull write o)) = some o := by
  cases o with
  | none => rfl
  | some a =>
    obtain ⟨hne, hread⟩ := h a rfl
    rw [orNull, optionally_some hne, hread]
    rfl

end SpanRelay.Json
