import SpanRelay.Proofs.Registry.Folder

/-! # The walk to a parent

Where a hint may have intermediate parents, the parent is found by a walk from the occurrence latest
recorded to open children of it. A walk that has begun stays among open spans
(`isInProgress_walkDown`), so its end is open or is where it began (`Folder.resolveParent?_cases`). -/

namespace SpanRelay

variable {hint : ParentHint} {executions : ExecutionMap} {spans : List Span}

theorem isInProgress_walkDown : ∀ (fuel : Nat) (visited : List String) (id : String),
    (∃ x ∈ spans, x.id = id ∧ x.isInProgress = true) →
    ∃ x ∈ spans, x.id = walkDown hint executions spans fuel visited id ∧ x.isInProgress = true
  | 0, _, _, h => h
  | fuel + 1, visited, id, h => by
    unfold walkDown
    split
    · exact h
    · split
      · exact h
      · rename_i x hx
        have hstep := List.find?_some hx
        simp only [isParentStep, Bool.and_eq_true] at hstep
        exact isInProgress_walkDown fuel (id :: visited) x.id
          ⟨x, List.mem_of_find?_eq_some hx, rfl, hstep.2⟩

/-- A walk visits only the latest spans of execution keys, if it begins at one. -/
theorem walkDown_mem : ∀ (fuel : Nat) (visited : List String) (id : String),
    id ∈ executions.values → walkDown hint executions spans fuel visited id ∈ executions.values
  | 0, _, _, h => h
  | fuel + 1, visited, id, h => by
    unfold walkDown
    split
    · exact h
    · split
      · exact h
      · rename_i x hx
        have hstep := List.find?_some hx
        simp only [isParentStep, Bool.and_eq_true, List.contains_iff_mem] at hstep
        exact walkDown_mem fuel (id :: visited) x.id hstep.1.2

namespace Folder

variable {f : Folder}

/-- The span latest recorded under an execution key. -/
def latest? (f : Folder) (key : String) : Option String :=
  f.executions.bind fun executions => executions.get? key

theorem latest?_record (f : Folder) (key key' id : String) :
    (f.record key id).latest? key' = if key' = key then some id else f.latest? key' := by
  unfold latest? record
  dsimp only
  rw [Option.bind_some, Map.Table.get?_insert]
  cases f.executions <;> rfl

/-- **The parent of a new child** is the latest span of some execution key, whatever the hint is. -/
theorem mem_values_of_resolveParent? {p : String} (h : f.resolveParent? hint = some p) :
    ∃ executions, f.executions = some executions ∧ p ∈ executions.values := by
  obtain ⟨executions, he, h⟩ := Option.bind_eq_some_iff.1 h
  obtain ⟨first, hfirst, h⟩ := Option.bind_eq_some_iff.1 h
  have hmem : first ∈ executions.values :=
    List.mem_map.2 ⟨_, Map.Table.mem_rows_of_get? hfirst, rfl⟩
  refine ⟨executions, he, ?_⟩
  split at h
  · cases h
    exact walkDown_mem _ _ _ hmem
  · cases h
    exact hmem

/-- A span is one to which the walk from a span goes on: an open child of it that executes the hinted
element and is the latest of an execution key. -/
structure Leads (f : Folder) (hint : ParentHint) (id : String) (x : Span) : Prop where
  cached : x ∈ f.cached
  parent : x.parentId = some id
  element : x.elementId = hint.elementId
  latest : ∃ executions, f.executions = some executions ∧ x.id ∈ executions.values
  inProgress : x.isInProgress = true

theorem leads_iff {executions : ExecutionMap} (he : f.executions = some executions) {id : String}
    {x : Span} : f.Leads hint id x ↔ x ∈ f.cached ∧ isParentStep hint executions id x = true := by
  simp only [isParentStep, Bool.and_eq_true, decide_eq_true_eq, List.contains_iff_mem]
  constructor
  · rintro ⟨hx, hp, hel, ⟨_, he', hmem⟩, hopen⟩
    rw [he] at he'
    cases he'
    exact ⟨hx, ⟨⟨hp, hel⟩, hmem⟩, hopen⟩
  · rintro ⟨hx, ⟨⟨hp, hel⟩, hmem⟩, hopen⟩
    exact ⟨hx, hp, hel, ⟨_, he, hmem⟩, hopen⟩

/-- The parent of a new child is found if and only if there is an occurrence to begin with. -/
theorem resolveParent?_eq (hm : hint.hasIntermediateParents = true) :
    f.resolveParent? hint = (f.latest? hint.executionKey).map
      (walkDown hint (f.executions.getD .empty) f.cached (f.cached.length + 1) []) := by
  unfold resolveParent? latest? cached SpanRelay.resolveParent?
  cases f.executions with
  | none => rfl
  | some executions =>
    dsimp only [Option.bind_some, Option.getD_some]
    rw [hm]
    cases f.spans with
    | none =>
      have hempty : ∀ id, walkDown hint executions [] 1 [] id = id := fun _ => rfl
      cases executions.get? hint.executionKey with
      | none => rfl
      | some first => exact congrArg some (hempty first).symm
    | some spans => cases executions.get? hint.executionKey <;> rfl

/-- A plain hint means the occurrence latest recorded. -/
theorem resolveParent?_of_plain (hm : hint.hasIntermediateParents = false) :
    f.resolveParent? hint = f.latest? hint.executionKey := by
  unfold resolveParent? latest? SpanRelay.resolveParent?
  cases f.executions with
  | none => rfl
  | some executions =>
    dsimp only [Option.bind_some]
    rw [hm]
    cases executions.get? hint.executionKey <;> rfl

/-- **Where the walk ends**: at the occurrence latest recorded if it leads nowhere, and else at an
open span. -/
theorem resolveParent?_cases (hm : hint.hasIntermediateParents = true) {first : String}
    (h : f.latest? hint.executionKey = some first) :
    ∃ p, f.resolveParent? hint = some p ∧
      (((∀ x, ¬ f.Leads hint first x) ∧ p = first) ∨
        ((∃ x, f.Leads hint first x) ∧ ∃ x ∈ f.cached, x.id = p ∧ x.isInProgress = true)) := by
  rw [resolveParent?_eq hm, h]
  refine ⟨_, rfl, ?_⟩
  obtain ⟨executions, he, -⟩ := Option.bind_eq_some_iff.1 h
  rw [he, Option.getD_some, walkDown, if_neg (by simp)]
  cases hfind : f.cached.find? (isParentStep hint executions first) with
  | none =>
    refine Or.inl ⟨fun x hx => ?_, rfl⟩
    obtain ⟨hmem, hstep⟩ := (leads_iff he).1 hx
    exact List.find?_eq_none.1 hfind x hmem hstep
  | some x =>
    have hmem := List.mem_of_find?_eq_some hfind
    have hleads : f.Leads hint first x := (leads_iff he).2 ⟨hmem, List.find?_some hfind⟩
    exact Or.inr ⟨⟨x, hleads⟩, isInProgress_walkDown _ _ _ ⟨x, hmem, rfl, hleads.inProgress⟩⟩

end Folder

end SpanRelay
