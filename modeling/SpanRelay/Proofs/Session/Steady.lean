import Mathlib.Data.List.Perm.Basic
import SpanRelay.Proofs.Registry.Stale
import SpanRelay.Proofs.Session.Race

/-! # Races in which sessions start anew

If a session may be started again while hooks of its former start are under way, a race is still
`Steady` at every moment (`steady_turn`, `steady_run`): each hook under way has a registration of its
session, and some hook that has done its work has opened each span that is kept or was handed over.
If the spans that the turns open are distinct, no two hooks open the same span
(`nodup_openedRefs`). -/

namespace SpanRelay

/-- The span that a turn is about to open. -/
def Turn.opened? : Turn → Option SpanRef
  | look hook => hook.opened?
  | start .. | work _ => none

namespace Race

variable {policy : Policy} {race : Race}

/-- The spans handed over so far. -/
def handed (race : Race) : List Span := race.works.flatMap Work.spans

/-- The spans that the hooks under way are about to open, and those that were opened. -/
def openedRefs (race : Race) : List SpanRef :=
  race.flight.filterMap (fun p => p.1.opened?) ++ race.works.filterMap fun w => w.hook.opened?

theorem turn_work {index : Nat} {hook : Hook} {number : Nat}
    (hi : race.flight[index]? = some (hook, number)) :
    race.turn policy (.work index) = race.finish policy index hook number := by
  dsimp only [turn]
  rw [hi]

theorem run_work {turns : List Turn} {index : Nat} {hook : Hook} {number : Nat}
    (hi : (race.run policy turns).flight[index]? = some (hook, number)) :
    race.run policy (turns ++ [.work index]) =
      (race.run policy turns).finish policy index hook number := by
  rw [run_append]
  exact turn_work hi

theorem exists_mem_works_finish (policy : Policy) (race : Race) (index : Nat) (hook : Hook)
    (number : Nat) : ∃ w ∈ (race.finish policy index hook number).works, w.hook = hook :=
  ⟨_, List.mem_append_right _ (List.mem_singleton.2 rfl), rfl⟩

theorem handed_finish (policy : Policy) (race : Race) (index : Nat) (hook : Hook) (number : Nat) :
    (race.finish policy index hook number).handed =
      race.handed ++ (hook.body policy number race.registry).spans := by
  unfold handed finish
  dsimp only
  rw [List.flatMap_append, List.flatMap_singleton]

/-! ### The hooks under way -/

theorem mem_flight_turn {p : Hook × Nat} (hp : p ∈ race.flight) (t : Turn) :
    p ∈ (race.turn policy t).flight ∨ ∃ i, t = .work i ∧ race.flight[i]? = some p := by
  cases t with
  | start start sampled =>
    dsimp only [turn]
    split <;> exact Or.inl hp
  | look hook =>
    dsimp only [turn]
    split
    · exact Or.inl hp
    · exact Or.inl (List.mem_append_left _ hp)
  | work i =>
    dsimp only [turn]
    split
    · exact Or.inl hp
    · rename_i hook number hi
      obtain ⟨j, hj⟩ := List.mem_iff_getElem?.1 hp
      by_cases hij : j = i
      · exact Or.inr ⟨i, rfl, hij ▸ hj⟩
      · exact Or.inl (List.mem_eraseIdx_iff_getElem?.2 ⟨j, hij, hj⟩)

/-- If no hook is left under way, each has done its work. -/
theorem exists_work_of_mem_flight {p : Hook × Nat} : ∀ (turns : List Turn) {race : Race},
    p ∈ race.flight → (race.run policy turns).flight = [] →
    ∃ before i after, turns = before ++ .work i :: after ∧
      (race.run policy before).flight[i]? = some p
  | [], _, hp, hnil => absurd (hnil ▸ hp) List.not_mem_nil
  | t :: turns, race, hp, hnil => by
    rcases mem_flight_turn hp t with hp | ⟨i, rfl, hi⟩
    · obtain ⟨before, i, after, rfl, hi⟩ := exists_work_of_mem_flight turns hp hnil
      exact ⟨t :: before, i, after, rfl, hi⟩
    · exact ⟨[], i, turns, rfl, hi⟩

theorem perm_openedRefs_turn (policy : Policy) (race : Race) (t : Turn) :
    ∃ refs, refs.Sublist t.opened?.toList ∧
      (race.turn policy t).openedRefs.Perm (refs ++ race.openedRefs) := by
  cases t with
  | start start sampled =>
    dsimp only [turn]
    split <;> exact ⟨[], List.nil_sublist _, .refl _⟩
  | look hook =>
    dsimp only [turn]
    split
    · exact ⟨[], List.nil_sublist _, .refl _⟩
    · refine ⟨hook.opened?.toList, List.Sublist.refl _, ?_⟩
      unfold openedRefs
      dsimp only
      have hone : ∀ number, List.filterMap (fun p : Hook × Nat => p.1.opened?) [(hook, number)] =
          hook.opened?.toList := fun _ => by cases h : hook.opened? <;> simp [h]
      rw [List.filterMap_append, hone, ← List.append_assoc]
      exact List.perm_append_comm.append_right _
  | work i =>
    refine ⟨[], List.nil_sublist _, ?_⟩
    dsimp only [turn]
    split
    · exact .refl _
    · rename_i hook number hi
      obtain ⟨hlt, hi⟩ := List.getElem?_eq_some_iff.1 hi
      -- the hook goes from those under way to those that have done their work
      have hflight : race.flight.Perm ((hook, number) :: race.flight.eraseIdx i) :=
        hi ▸ (List.getElem_cons_eraseIdx_perm hlt).symm
      have hrefs := hflight.filterMap fun p => p.1.opened?
      unfold openedRefs finish
      dsimp only
      rw [List.nil_append, List.filterMap_append, ← List.append_assoc]
      refine List.Perm.trans ?_ (hrefs.append_right _).symm
      cases ho : hook.opened? with
      | none => simp [ho]
      | some ref =>
        simp only [List.filterMap_cons, List.filterMap_nil, ho, List.cons_append]
        exact List.perm_append_singleton ref _

theorem perm_openedRefs_run (policy : Policy) : ∀ (turns : List Turn) (race : Race),
    ∃ refs, refs.Sublist (turns.filterMap Turn.opened?) ∧
      (race.run policy turns).openedRefs.Perm (refs ++ race.openedRefs)
  | [], race => ⟨[], List.Sublist.refl _, .refl _⟩
  | t :: turns, race => by
    obtain ⟨refs, hsub, hperm⟩ := perm_openedRefs_turn policy race t
    obtain ⟨more, hmore, hperm'⟩ := perm_openedRefs_run policy turns (race.turn policy t)
    refine ⟨refs ++ more, ?_, ?_⟩
    · have hcons : (t :: turns).filterMap Turn.opened? =
          t.opened?.toList ++ turns.filterMap Turn.opened? := by
        cases ht : t.opened? <;> simp [ht]
      rw [hcons]
      exact hsub.append hmore
    · refine hperm'.trans ((hperm.append_left more).trans ?_)
      rw [← List.append_assoc]
      exact List.perm_append_comm.append_right _

/-- If no two turns open the same span, no two hooks do. -/
theorem nodup_openedRefs (policy : Policy) {turns : List Turn}
    (h : (turns.filterMap Turn.opened?).Nodup) : (empty.run policy turns).openedRefs.Nodup := by
  obtain ⟨refs, hsub, hperm⟩ := perm_openedRefs_run policy turns empty
  rw [show empty.openedRefs = [] from rfl, List.append_nil] at hperm
  exact hperm.nodup_iff.2 (h.sublist hsub)

/-! ### Any race -/

/-- What is true at every moment, whatever sessions are started. -/
structure Steady (race : Race) : Prop where
  sound : race.registry.Sound
  flight : ∀ p ∈ race.flight, ∃ g, race.registry.registration? p.2 = some g ∧
    g.session.id = p.1.sessionId
  /-- Some work has opened each span that is kept or was handed over. -/
  origin : ∀ x, (x ∈ race.handed ∨ ∃ s, x ∈ (race.registry.folder s).kept) →
    ∃ w ∈ race.works, w.hook.opened? = some ⟨x.sessionId, x.id⟩

theorem steady_empty : empty.Steady where
  sound := Registry.sound_empty
  flight _ hp := absurd hp List.not_mem_nil
  origin x hx := by
    rcases hx with hx | ⟨s, hx⟩
    · exact absurd hx List.not_mem_nil
    · exact absurd hx List.not_mem_nil

theorem steady_put (h : race.Steady) (session : Session) :
    { race with registry := race.registry.put session }.Steady where
  sound := Registry.sound_put h.sound session
  flight p hp := by
    obtain ⟨g, hg, hid⟩ := h.flight p hp
    refine ⟨g, ?_, hid⟩
    rw [Registry.registration?_put_of_lt session (Registry.lt_length_of_registration? hg)]
    exact hg
  origin x hx := by
    refine h.origin x (hx.imp_right fun ⟨s, hx⟩ => ⟨s, ?_⟩)
    rw [Registry.edits_put h.sound.numbered session s] at hx
    split at hx <;> exact hx

theorem steady_finish (h : race.Steady) {index : Nat} {hook : Hook} {number : Nat}
    (hi : race.flight[index]? = some (hook, number)) :
    (race.finish policy index hook number).Steady := by
  obtain ⟨g, hg, hid⟩ := h.flight _ (List.mem_of_getElem? hi)
  refine ⟨Registry.sound_body_of_registration policy hg hid h.sound, fun p hp => ?_, fun x hx => ?_⟩
  · obtain ⟨g, hg, hid⟩ := h.flight p (List.mem_of_mem_eraseIdx hp)
    obtain ⟨g', hg', hc⟩ :=
      (Registry.succeeds_body policy hook number race.registry).registration _ _ hg
    exact ⟨g', hg', hc.id.trans hid⟩
  · have hold : ∀ y, (y ∈ race.handed ∨ ∃ s, y ∈ (race.registry.folder s).kept) →
        y.id = x.id → y.sessionId = x.sessionId →
        ∃ w ∈ (race.finish policy index hook number).works,
          w.hook.opened? = some ⟨x.sessionId, x.id⟩ := by
      intro y hy hyid hys
      obtain ⟨w, hw, ho⟩ := h.origin y hy
      exact ⟨w, List.mem_append_left _ hw, by rw [ho, hyid, hys]⟩
    have hnew : x ∈ race.handed ∨ (x ∈ (hook.body policy number race.registry).spans ∨
        ∃ s, x ∈ ((hook.body policy number race.registry).registry.folder s).kept) := by
      rw [handed_finish, List.mem_append] at hx
      rcases hx with (hx | hx) | hx
      · exact Or.inl hx
      · exact Or.inr (Or.inl hx)
      · exact Or.inr (Or.inr hx)
    rcases hnew with hx | hx
    · exact hold x (Or.inl hx) rfl rfl
    rcases Registry.origin_body_of_registration policy hg hid h.sound.numbered hx with
      ⟨s, y, hy, hyid, hys⟩ | ho
    · exact hold y (Or.inr ⟨s, hy⟩) hyid hys
    · exact ⟨_, List.mem_append_right _ (List.mem_singleton.2 rfl), ho⟩

theorem steady_turn (h : race.Steady) (t : Turn) : (race.turn policy t).Steady := by
  cases t with
  | start start sampled =>
    dsimp only [turn]
    split
    · exact h
    · exact steady_put h _
  | look hook =>
    dsimp only [turn]
    cases hf : hook.find? race.registry with
    | none => exact h
    | some number =>
      refine ⟨h.sound, fun p hp => ?_, h.origin⟩
      rcases List.mem_append.1 hp with hp | hp
      · exact h.flight p hp
      · obtain rfl := List.mem_singleton.1 hp
        exact h.sound.numbered _ _ hf
  | work index =>
    dsimp only [turn]
    cases hi : race.flight[index]? with
    | none => exact h
    | some p => exact steady_finish h hi

theorem steady_run : ∀ (turns : List Turn) {race : Race}, race.Steady →
    (race.run policy turns).Steady
  | [], _, h => h
  | t :: turns, _, h => steady_run turns (steady_turn h t)

end Race

end SpanRelay
