import Mathlib.Data.Finset.Card
import Mathlib.Logic.Relation
import SpanRelay.Proofs.Queue.Bytes
import SpanRelay.Registry.Parent

/-! # The search for a parent

Cached spans are joined by steps: a step from a span is an open child of it that executes the hinted
element and is the latest of some execution key (`IsStep`). `walkDown` follows steps and counts its
rounds beforehand. A `Search` does not count: it goes on as long as there is a span in front of it.

* `walk_walkDown`: the count is no limit, since each round visits another span.
* `Walk.endsAt`: the search ends, with the span that the walk finds.
* `Walk.reaches`, `Walk.stops`: this span is reached by steps, and it has no step or lies on a cycle of
  steps.
* `resolveParent?_innermost`: hence the parent is an innermost span where no parent links form a cycle,
  and where each span has at most one step it is the same one in whatever order spans are cached. -/

namespace SpanRelay

/-- A step from the span `id`: a cached span in progress that is a child of it, executes the hinted
element, and is the latest of some execution key. -/
structure IsStep (hint : ParentHint) (executions : ExecutionMap) (spans : List Span) (id : String)
    (x : Span) : Prop where
  cached : x ∈ spans
  parent : x.parentId = some id
  element : x.elementId = hint.elementId
  latest : x.id ∈ executions.values
  inProgress : x.isInProgress = true

/-- One span is the next one after another. -/
def Next (hint : ParentHint) (executions : ExecutionMap) (spans : List Span) (p q : String) : Prop :=
  ∃ x, IsStep hint executions spans p x ∧ x.id = q

/-- No span is its own ancestor, whatever it executes and whether it is open or not. -/
def Acyclic (spans : List Span) : Prop :=
  ∀ id, ¬ Relation.TransGen (fun p q => ∃ x ∈ spans, x.parentId = some p ∧ x.id = q) id id

theorem acyclic_of_rank {spans : List Span} (rank : String → Nat)
    (h : ∀ x ∈ spans, ∀ p, x.parentId = some p → rank p < rank x.id) : Acyclic spans := by
  intro id hcycle
  have hrank : ∀ {q}, Relation.TransGen (fun p q => ∃ x ∈ spans, x.parentId = some p ∧ x.id = q) id q →
      rank id < rank q := by
    intro q hq
    induction hq with
    | single hlink =>
      obtain ⟨x, hx, hp, rfl⟩ := hlink
      exact h x hx _ hp
    | tail _ hlink ih =>
      obtain ⟨x, hx, hp, rfl⟩ := hlink
      exact ih.trans (h x hx _ hp)
  exact Nat.lt_irrefl _ (hrank hcycle)

/-- A search for the innermost span. -/
structure Search where
  /-- The spans to go on from, the next one first. -/
  frontier : List String
  /-- The spans from which it went on. -/
  visited : List String
  /-- The innermost span so far. -/
  best : String

namespace Search

/-- The search that begins at a span. -/
def start (id : String) : Search := ⟨[id], [], id⟩

/-- The search after one round; `none` if there is no span to go on from. -/
def round? (hint : ParentHint) (executions : ExecutionMap) (spans : List Span) (s : Search) :
    Option Search :=
  match s.frontier with
  | [] => none
  | id :: frontier =>
    if id ∈ s.visited then some { s with frontier }
    else
      match spans.find? (isParentStep hint executions id) with
      | none => some { s with frontier, visited := id :: s.visited }
      | some x => some ⟨frontier ++ [x.id], id :: s.visited, x.id⟩

/-- After finitely many rounds there is no span to go on from, and `id` is the innermost one. -/
def EndsAt (hint : ParentHint) (executions : ExecutionMap) (spans : List Span) (s : Search)
    (id : String) : Prop :=
  ∃ t : Search, Relation.ReflTransGen (fun s t => s.round? hint executions spans = some t) s t ∧
    t.frontier = [] ∧ t.best = id

end Search

variable {hint : ParentHint} {executions : ExecutionMap} {spans : List Span} {visited : List String}
  {id last p q : String} {x : Span}

theorem isStep_iff : IsStep hint executions spans id x ↔
    x ∈ spans ∧ isParentStep hint executions id x = true := by
  simp only [isParentStep, Bool.and_eq_true, decide_eq_true_eq, List.contains_iff_mem]
  constructor
  · rintro ⟨hx, hp, he, hl, ho⟩
    exact ⟨hx, ⟨⟨hp, he⟩, hl⟩, ho⟩
  · rintro ⟨hx, ⟨⟨hp, he⟩, hl⟩, ho⟩
    exact ⟨hx, hp, he, hl, ho⟩

theorem isStep_of_find? (h : spans.find? (isParentStep hint executions id) = some x) :
    IsStep hint executions spans id x :=
  isStep_iff.2 ⟨List.mem_of_find?_eq_some h, List.find?_some h⟩

theorem not_isStep_of_find? (h : spans.find? (isParentStep hint executions id) = none) (x : Span) :
    ¬ IsStep hint executions spans id x := by
  intro hx
  obtain ⟨hmem, hstep⟩ := isStep_iff.1 hx
  exact List.find?_eq_none.1 h x hmem hstep

/-! ### The walk without a count -/

/-- The walk from `id` that has visited some spans ends at `last`. -/
inductive Walk (hint : ParentHint) (executions : ExecutionMap) (spans : List Span) :
    List String → String → String → Prop
  /-- It comes back to a span. -/
  | back {visited : List String} {id : String} (h : id ∈ visited) :
      Walk hint executions spans visited id id
  /-- It comes to a span without a step. -/
  | stop {visited : List String} {id : String} (h : id ∉ visited)
      (hx : spans.find? (isParentStep hint executions id) = none) :
      Walk hint executions spans visited id id
  /-- It goes on. -/
  | step {visited : List String} {id last : String} {x : Span} (h : id ∉ visited)
      (hx : spans.find? (isParentStep hint executions id) = some x)
      (hrest : Walk hint executions spans (id :: visited) x.id last) :
      Walk hint executions spans visited id last

/-- The spans that a walk at `id` may still visit. -/
def unvisited (spans : List Span) (visited : List String) (id : String) : Finset String :=
  insert id (spans.map Span.id).toFinset \ visited.toFinset

theorem mem_unvisited_self (spans : List Span) (h : id ∉ visited) :
    id ∈ unvisited spans visited id := by
  simp [unvisited, h]

/-- A step leaves fewer spans to visit. -/
theorem card_unvisited_lt (h : id ∉ visited) (hx : x ∈ spans) :
    (unvisited spans (id :: visited) x.id).card < (unvisited spans visited id).card := by
  have hsub : unvisited spans (id :: visited) x.id ⊆ (unvisited spans visited id).erase id := by
    intro q hq
    simp only [unvisited, List.toFinset_cons, Finset.mem_sdiff, Finset.mem_insert, Finset.mem_erase,
      List.mem_toFinset, List.mem_map, not_or] at hq ⊢
    obtain ⟨hmem, hne, hnew⟩ := hq
    refine ⟨hne, Or.inr ?_, hnew⟩
    rcases hmem with rfl | hmem
    · exact ⟨x, hx, rfl⟩
    · exact hmem
  have hle := Finset.card_le_card hsub
  have herase := Finset.card_erase_lt_of_mem (mem_unvisited_self spans h)
  omega

/-- **The count is no limit** as long as it is not below the number of spans that are left. -/
theorem walk_walkDown : ∀ (fuel : Nat) (visited : List String) (id : String),
    (unvisited spans visited id).card ≤ fuel →
      Walk hint executions spans visited id (walkDown hint executions spans fuel visited id)
  | 0, visited, id, h => by
    have hmem : id ∈ visited := by
      by_contra hnew
      have hpos := Finset.card_pos.2 ⟨id, mem_unvisited_self spans hnew⟩
      omega
    exact .back hmem
  | fuel + 1, visited, id, h => by
    unfold walkDown
    simp only [List.contains_iff_mem]
    by_cases hmem : id ∈ visited
    · rw [if_pos hmem]
      exact .back hmem
    · rw [if_neg hmem]
      cases hx : spans.find? (isParentStep hint executions id) with
      | none => exact .stop hmem hx
      | some x =>
        have hlt := card_unvisited_lt hmem (List.mem_of_find?_eq_some hx)
        exact .step hmem hx (walk_walkDown fuel (id :: visited) x.id (by omega))

theorem card_unvisited_nil (spans : List Span) (id : String) :
    (unvisited spans [] id).card ≤ spans.length + 1 := by
  have hle := Finset.card_insert_le id (spans.map Span.id).toFinset
  have hids := List.toFinset_card_le (spans.map Span.id)
  rw [List.length_map] at hids
  have hall : unvisited spans [] id = insert id (spans.map Span.id).toFinset := by
    simp [unvisited]
  rw [hall]
  omega

/-! ### Where a walk ends -/

namespace Walk

/-- **The search ends** with the span at which the walk ends. -/
theorem endsAt (h : Walk hint executions spans visited id last) :
    Search.EndsAt hint executions spans ⟨[id], visited, id⟩ last := by
  induction h with
  | @back visited id hmem =>
    refine ⟨⟨[], visited, id⟩, .single ?_, rfl, rfl⟩
    simp [Search.round?, hmem]
  | @stop visited id hnew hx =>
    refine ⟨⟨[], id :: visited, id⟩, .single ?_, rfl, rfl⟩
    simp [Search.round?, hnew, hx]
  | @step visited id last x hnew hx _ ih =>
    obtain ⟨t, hrounds, hend⟩ := ih
    refine ⟨t, .head ?_ hrounds, hend⟩
    simp [Search.round?, hnew, hx]

theorem reaches (h : Walk hint executions spans visited id last) :
    Relation.ReflTransGen (Next hint executions spans) id last := by
  induction h with
  | back | stop => exact .refl
  | step _ hx _ ih => exact .head ⟨_, isStep_of_find? hx, rfl⟩ ih

/-- **Why a walk ends**: there is no step, or the steps form a cycle. The spans that were visited
before lead to the one at which the walk is. -/
theorem stops (h : Walk hint executions spans visited id last)
    (hvisited : ∀ v ∈ visited, Relation.TransGen (Next hint executions spans) v id) :
    (∀ x, ¬ IsStep hint executions spans last x) ∨
      Relation.TransGen (Next hint executions spans) last last := by
  induction h with
  | back hmem => exact Or.inr (hvisited _ hmem)
  | stop _ hx => exact Or.inl (not_isStep_of_find? hx)
  | @step visited id last x _ hx _ ih =>
    have hnext : Next hint executions spans id x.id := ⟨x, isStep_of_find? hx, rfl⟩
    apply ih
    intro v hv
    rcases List.mem_cons.1 hv with rfl | hv
    · exact .single hnext
    · exact (hvisited v hv).tail hnext

end Walk

/-! ### Cycles -/

theorem not_transGen_next (h : Acyclic spans) (id : String) :
    ¬ Relation.TransGen (Next hint executions spans) id id := by
  intro hcycle
  have hlinks : ∀ p q, Next hint executions spans p q →
      ∃ x ∈ spans, x.parentId = some p ∧ x.id = q := by
    rintro p q ⟨x, hx, hid⟩
    exact ⟨x, hx.cached, hx.parent, hid⟩
  exact h id (Relation.TransGen.mono hlinks _ _ hcycle)

theorem transGen_of_reaches (hone : Relator.RightUnique (Next hint executions spans))
    (hcycle : Relation.TransGen (Next hint executions spans) p p)
    (hpq : Relation.ReflTransGen (Next hint executions spans) p q) :
    Relation.TransGen (Next hint executions spans) q q := by
  induction hpq with
  | refl => exact hcycle
  | @tail b c _ hbc ih =>
    obtain ⟨d, hbd, hdb⟩ := Relation.TransGen.head'_iff.1 ih
    obtain rfl := hone hbd hbc
    exact .tail' hdb hbc

/-- Where each span has at most one step, one chain of steps has one end. -/
theorem eq_of_reaches (hone : Relator.RightUnique (Next hint executions spans))
    (hlast : (∀ x, ¬ IsStep hint executions spans last x) ∨
      Relation.TransGen (Next hint executions spans) last last)
    (hreach : Relation.ReflTransGen (Next hint executions spans) id last)
    (hq : Relation.ReflTransGen (Next hint executions spans) id q)
    (hend : ∀ x, ¬ IsStep hint executions spans q x) : q = last := by
  have hstuck : ∀ {r}, ¬ Next hint executions spans q r := by
    rintro r ⟨x, hx, -⟩
    exact hend x hx
  rcases Relation.ReflTransGen.total_of_right_unique hone hreach hq with hpath | hpath
  · rcases hlast with hlast | hcycle
    · rcases Relation.ReflTransGen.cases_head hpath with heq | ⟨r, ⟨x, hx, -⟩, -⟩
      · exact heq.symm
      · exact absurd hx (hlast x)
    · obtain ⟨r, hqr, -⟩ := Relation.TransGen.head'_iff.1 (transGen_of_reaches hone hcycle hpath)
      exact absurd hqr hstuck
  · rcases Relation.ReflTransGen.cases_head hpath with heq | ⟨r, hqr, -⟩
    · exact heq
    · exact absurd hqr hstuck

/-! ### The order of the cached spans -/

theorem find?_eq_of_perm {P : Span → Bool} {spans' : List Span} (h : spans'.Perm spans)
    (hone : ∀ x ∈ spans, ∀ y ∈ spans, P x = true → P y = true → x = y) :
    spans'.find? P = spans.find? P := by
  cases hx : spans.find? P with
  | none =>
    rw [List.find?_eq_none] at hx ⊢
    intro y hy
    exact hx y (h.subset hy)
  | some x =>
    have hmem := List.mem_of_find?_eq_some hx
    have hP := List.find?_some hx
    cases hy : spans'.find? P with
    | none => exact absurd hP (List.find?_eq_none.1 hy x (h.symm.subset hmem))
    | some y =>
      have hy' := h.subset (List.mem_of_find?_eq_some hy)
      rw [hone y hy' x hmem (List.find?_some hy) hP]

theorem walkDown_congr {spans' : List Span}
    (h : ∀ id, spans'.find? (isParentStep hint executions id) =
      spans.find? (isParentStep hint executions id)) :
    ∀ (fuel : Nat) (visited : List String) (id : String),
      walkDown hint executions spans' fuel visited id = walkDown hint executions spans fuel visited id
  | 0, _, _ => rfl
  | fuel + 1, visited, id => by
    unfold walkDown
    rw [h id]
    cases spans.find? (isParentStep hint executions id) with
    | none => rfl
    | some x =>
      dsimp only
      rw [walkDown_congr h fuel (id :: visited) x.id]

/-! ### The parent -/

theorem resolveParent?_of_candidate {spans : Option (List Span)} {first : String}
    (hm : hint.hasIntermediateParents = true)
    (hfirst : executions.get? hint.executionKey = some first) :
    resolveParent? hint executions spans = some
      (walkDown hint executions (spans.getD []) ((spans.getD []).length + 1) [] first) := by
  unfold resolveParent?
  rw [hfirst, hm]
  cases spans <;> rfl

/-- **The parent of a new child** below a hint that may have intermediate parents, if some span is
recorded under the key of the hint. The search from this span ends, also where steps or parent links
form a cycle, and its end is the parent. The parent is reached by steps; if no parent links form a
cycle, it has no step itself. If each span has at most one step, the parent is the only end of the
chain of steps, if the chain has one, and it does not depend on the order of the cached spans. -/
theorem resolveParent?_innermost (hint : ParentHint) (executions : ExecutionMap)
    (spans : Option (List Span)) {first : String} (hm : hint.hasIntermediateParents = true)
    (hfirst : executions.get? hint.executionKey = some first) :
    let cached := spans.getD []
    ∃ last, resolveParent? hint executions spans = some last ∧
      (Search.start first).EndsAt hint executions cached last ∧
      Relation.ReflTransGen (Next hint executions cached) first last ∧
      (Acyclic cached → ∀ x, ¬ IsStep hint executions cached last x) ∧
      ((∀ id x y, IsStep hint executions cached id x → IsStep hint executions cached id y → x = y) →
        (∀ id, Relation.ReflTransGen (Next hint executions cached) first id →
          (∀ x, ¬ IsStep hint executions cached id x) → id = last) ∧
        ∀ spans', spans'.Perm cached → resolveParent? hint executions (some spans') = some last) := by
  intro cached
  have hwalk : Walk hint executions cached [] first _ :=
    walk_walkDown _ [] first (card_unvisited_nil cached first)
  have hstops := hwalk.stops fun v hv => absurd hv List.not_mem_nil
  refine ⟨_, resolveParent?_of_candidate hm hfirst, hwalk.endsAt, hwalk.reaches, fun hacyclic => ?_,
    fun hone => ⟨fun id hid hend => ?_, fun spans' hperm => ?_⟩⟩
  · exact hstops.resolve_right (not_transGen_next hacyclic _)
  · have hunique : Relator.RightUnique (Next hint executions cached) := by
      rintro p q r ⟨x, hx, rfl⟩ ⟨y, hy, rfl⟩
      rw [hone p x y hx hy]
    exact eq_of_reaches hunique hstops hwalk.reaches hid hend
  · have hfind : ∀ id, spans'.find? (isParentStep hint executions id) =
        cached.find? (isParentStep hint executions id) := by
      intro id
      refine find?_eq_of_perm hperm fun x hx y hy hsx hsy => ?_
      exact hone id x y (isStep_iff.2 ⟨hx, hsx⟩) (isStep_iff.2 ⟨hy, hsy⟩)
    rw [resolveParent?_of_candidate hm hfirst, Option.getD_some, walkDown_congr hfind, hperm.length_eq]

/-- Of three occurrences of an element in one another the innermost one is the parent. -/
theorem resolveParent?_innermost_nested :
    let hint : ParentHint := ⟨"step", none, true⟩
    let executions : ExecutionMap := ⟨[("step", "a"), ("step#1", "b"), ("step#2", "c")]⟩
    let cached : List Span :=
      [{ Span.bare "c" with parentId := some "b" }, { Span.bare "b" with parentId := some "a" },
        Span.bare "a"]
    hint.hasIntermediateParents = true ∧ executions.get? hint.executionKey = some "a" ∧
      Acyclic cached ∧
      (∀ id x y, IsStep hint executions cached id x → IsStep hint executions cached id y → x = y) ∧
      (∀ x, ¬ IsStep hint executions cached "c" x) ∧
      resolveParent? hint executions (some cached) = some "c" ∧
      resolveParent? hint executions (some cached.reverse) = some "c" := by
  intro hint executions cached
  have hm : hint.hasIntermediateParents = true := rfl
  have hfirst : executions.get? hint.executionKey = some "a" := by decide +kernel
  have hacyclic : Acyclic cached :=
    acyclic_of_rank (fun id => ["a", "b", "c"].idxOf id) (by decide +kernel)
  have hparents : (cached.map Span.parentId).Nodup := by decide +kernel
  have hone : ∀ id x y, IsStep hint executions cached id x → IsStep hint executions cached id y →
      x = y := by
    intro id x y hx hy
    exact List.inj_on_of_nodup_map hparents hx.cached hy.cached (hx.parent.trans hy.parent.symm)
  obtain ⟨last, hlast, -, -, hinner, hchain⟩ :=
    resolveParent?_innermost hint executions (some cached) hm hfirst
  have hc : resolveParent? hint executions (some cached) = some "c" := by decide +kernel
  obtain rfl : last = "c" := Option.some.inj (hlast.symm.trans hc)
  obtain ⟨-, hperm⟩ := hchain hone
  exact ⟨hm, hfirst, hacyclic, hone, hinner hacyclic, hc,
    hperm cached.reverse cached.reverse_perm⟩

/-- Where two occurrences contain each other the search comes back to the first one. -/
example :
    resolveParent? ⟨"step", none, true⟩ ⟨[("step", "a"), ("step#1", "b")]⟩
      (some [{ Span.bare "a" with parentId := some "b" },
        { Span.bare "b" with parentId := some "a" }]) = some "a" := by
  decide +kernel

end SpanRelay
