import SpanRelay.Proofs.Registry.Sound

/-! # Hooks between one another

A hook looks its session up and does its work later, and any number of hooks may be under way at
once. A `Race` is a registry with these hooks, and a run of it is any order of starts, lookups and
works. `Orderly` is what is true at every moment if no session is started twice (`orderly_turn`,
`orderly_run`): in particular a session that has ended stays away, whatever hooks had found it. -/

namespace SpanRelay

/-- Whether anything but the registration is kept for a session. -/
def Registry.Keeps (r : Registry) (s : String) : Prop :=
  (r.spans.view? s).isSome = true ∨ (r.slots.held? s).isSome = true ∨
    (r.executions.get? s).isSome = true

/-- A hook that has done its work. -/
structure Work where
  hook : Hook
  /-- Whether the work found the session registered. -/
  registered : Bool
  /-- The spans handed over to be written. -/
  spans : List Span

/-- Whether the work has ended a session. -/
def Work.ends (s : String) (w : Work) : Bool := w.hook.ends s && w.registered

/-- A registry with the hooks that use it. -/
structure Race where
  registry : Registry
  /-- The hooks under way, each with the registration that it has found. -/
  flight : List (Hook × Nat)
  /-- What was done so far. -/
  works : List Work

/-- What happens in a race. -/
inductive Turn
  /-- A session starts, sampled or not. -/
  | start (s : SessionStart) (sampled : Bool)
  /-- A hook looks its session up; if there is none, the hook is over. -/
  | look (hook : Hook)
  /-- One of the hooks under way does its work. -/
  | work (index : Nat)

/-- The session that is started. -/
def Turn.started? : Turn → Option String
  | start s _ => some s.sessionId
  | look _ | work _ => none

namespace Race

/-- The race before the first session. -/
def empty : Race := ⟨.empty, [], []⟩

/-- The race after a hook under way has done its work. -/
def finish (policy : Policy) (race : Race) (index : Nat) (hook : Hook) (number : Nat) : Race :=
  let result := hook.body policy number race.registry
  { registry := result.registry
    flight := race.flight.eraseIdx index
    works := race.works ++ [⟨hook, race.registry.isRegistered hook.sessionId, result.spans⟩] }

/-- The race after a turn. A session whose chain is not traced is not registered. -/
def turn (policy : Policy) (race : Race) : Turn → Race
  | .start s sampled =>
    let level := policy.sessionLevel s.chainId
    if level = .off then race
    else { race with registry := race.registry.put (.start s level sampled) }
  | .look hook =>
    match hook.find? race.registry with
    | none => race
    | some number => { race with flight := race.flight ++ [(hook, number)] }
  | .work index =>
    match race.flight[index]? with
    | none => race
    | some (hook, number) => race.finish policy index hook number

/-- The race after some turns. -/
def run (policy : Policy) (race : Race) (turns : List Turn) : Race := turns.foldl (turn policy) race

/-- The works by which a session has ended. -/
def endings (race : Race) (s : String) : List Work := race.works.filter (Work.ends s)

/-- What is true of a hook under way: its registration is one of its session, which is the present
one unless the session is over. -/
structure Underway (r : Registry) (started : List String) (hook : Hook) (number : Nat) : Prop where
  started : hook.sessionId ∈ started
  registration : ∃ g, r.registration? number = some g ∧ g.session.id = hook.sessionId
  find : r.find? hook.sessionId = some number ∨ r.find? hook.sessionId = none

/-- What is true at every moment, when the sessions `started` were started so far. -/
structure Orderly (race : Race) (started : List String) : Prop where
  sound : race.registry.Sound
  known : ∀ s, race.registry.isRegistered s = true → s ∈ started
  flight : ∀ p ∈ race.flight, Underway race.registry started p.1 p.2
  gone : ∀ w ∈ race.works, ∀ s, w.ends s = true →
    s ∈ started ∧ race.registry.isRegistered s = false
  once : ∀ s, (race.endings s).length ≤ 1
  silent : ∀ w ∈ race.works, ∀ s, w.hook.ends s = true → w.registered = false → w.spans = []

variable {policy : Policy} {race : Race} {started : List String}

theorem orderly_empty : empty.Orderly [] where
  sound := Registry.sound_empty
  known _ hs := nomatch hs
  flight _ hp := absurd hp List.not_mem_nil
  gone _ hw := absurd hw List.not_mem_nil
  once _ := Nat.zero_le 1
  silent _ hw := absurd hw List.not_mem_nil

/-! ### One turn -/

theorem Underway.mono {r : Registry} {more : List String} {hook : Hook} {number : Nat}
    (h : Underway r started hook number) (hm : ∀ s ∈ started, s ∈ more) :
    Underway r more hook number := ⟨hm _ h.started, h.registration, h.find⟩

theorem isRegistered_of_find? {r : Registry} {s : String} {number : Nat}
    (h : r.find? s = some number) : r.isRegistered s = true := by
  rw [Registry.isRegistered, h]
  rfl

theorem Orderly.mono (h : race.Orderly started) {more : List String} (hm : ∀ s ∈ started, s ∈ more) :
    race.Orderly more where
  sound := h.sound
  known s hs := hm s (h.known s hs)
  flight p hp := (h.flight p hp).mono hm
  gone w hw s hs := ⟨hm s (h.gone w hw s hs).1, (h.gone w hw s hs).2⟩
  once := h.once
  silent := h.silent

theorem orderly_put (h : race.Orderly started) (session : Session) (hs : session.id ∉ started) :
    { race with registry := race.registry.put session }.Orderly (started ++ [session.id]) where
  sound := Registry.sound_put h.sound session
  known s hreg := by
    rw [Registry.isRegistered, Registry.find?_put] at hreg
    split at hreg
    · rename_i he
      simp [he]
    · exact List.mem_append_left _ (h.known s hreg)
  flight p hp := by
    have hp := h.flight p hp
    obtain ⟨g, hg, hid⟩ := hp.registration
    have hne : p.1.sessionId ≠ session.id := fun he => hs (he ▸ hp.started)
    refine ⟨List.mem_append_left _ hp.started, ⟨g, ?_, hid⟩, ?_⟩
    · rw [Registry.registration?_put_of_lt session (Registry.lt_length_of_registration? hg)]
      exact hg
    · rw [Registry.find?_put, if_neg hne]
      exact hp.find
  gone w hw s he := by
    obtain ⟨hmem, hreg⟩ := h.gone w hw s he
    refine ⟨List.mem_append_left _ hmem, ?_⟩
    have hne : s ≠ session.id := fun he => hs (he ▸ hmem)
    rw [Registry.isRegistered, Registry.find?_put, if_neg hne]
    exact hreg
  once := h.once
  silent := h.silent

/-- A work that ends a session leaves it unregistered, and hands nothing over if it was so before. -/
theorem body_of_ends {r : Registry} {hook : Hook} {number : Nat} {s : String} (hr : r.Sound)
    (hu : Underway r started hook number) (hs : hook.ends s = true) :
    (r.isRegistered s = true → (hook.body policy number r).registry.isRegistered s = false) ∧
      (r.isRegistered s = false → (hook.body policy number r).spans = []) := by
  obtain ⟨g, hg, hid⟩ := hu.registration
  obtain ⟨f, heff, hedit⟩ := Hook.body_local policy hr.numbered hg hid hu.find
  have hnum := (Registry.succeeds_body policy hook number r).numbered hr.numbered
  obtain ⟨hclosed, hnil⟩ := heff.of_ends hs
  obtain rfl := Hook.sessionId_of_ends hs
  rw [← Registry.isOpen_folder hr.numbered, ← Registry.isOpen_folder hnum, hedit, if_pos rfl]
  exact ⟨fun ho => by rw [hclosed ho]; rfl, hnil⟩

theorem Underway.succeeds {r r' : Registry} {hook : Hook} {number : Nat}
    (h : Underway r started hook number) (hs : r.Succeeds r') : Underway r' started hook number := by
  obtain ⟨g, hg, hid⟩ := h.registration
  obtain ⟨g', hg', hc⟩ := hs.registration _ _ hg
  refine ⟨h.started, ⟨g', hg', hc.id.trans hid⟩, ?_⟩
  rcases hs.find hook.sessionId with hf | hf
  · exact h.find.imp hf.trans hf.trans
  · exact Or.inr hf

/-- A work ends a session that is registered, so no other work has ended it before. -/
theorem Orderly.length_endings_concat (h : race.Orderly started) {w : Work} {s : String}
    (hw : w.ends s = true → race.registry.isRegistered s = true) :
    ((race.works ++ [w]).filter (Work.ends s)).length ≤ 1 := by
  have honce : (race.works.filter (Work.ends s)).length ≤ 1 := h.once s
  rw [List.filter_append, List.length_append]
  by_cases he : w.ends s = true
  · have hnil : race.works.filter (Work.ends s) = [] := by
      refine List.filter_eq_nil_iff.2 fun w' hw' hends => ?_
      exact absurd ((h.gone w' hw' s hends).2.symm.trans (hw he)) (by decide)
    rw [hnil, List.filter_cons_of_pos he]
    exact Nat.le_refl 1
  · rw [List.filter_cons_of_neg he]
    exact honce

theorem orderly_finish (h : race.Orderly started) {index : Nat} {hook : Hook} {number : Nat}
    (hi : race.flight[index]? = some (hook, number)) :
    (race.finish policy index hook number).Orderly started := by
  have hu : Underway race.registry started hook number := h.flight _ (List.mem_of_getElem? hi)
  have hsucc := Registry.succeeds_body policy hook number race.registry
  -- what it takes that the work ends a session
  have hends : ∀ s, Work.ends s ⟨hook, race.registry.isRegistered hook.sessionId,
      (hook.body policy number race.registry).spans⟩ = true →
      hook.ends s = true ∧ hook.sessionId = s ∧ race.registry.isRegistered s = true := by
    intro s he
    obtain ⟨he, hreg⟩ := Bool.and_eq_true_iff.1 he
    exact ⟨he, Hook.sessionId_of_ends he, Hook.sessionId_of_ends he ▸ hreg⟩
  refine ⟨?_, fun s hs => h.known s ?_, fun p hp => ?_, fun w hw s he => ?_, fun s => ?_,
    fun w hw s he hreg => ?_⟩
  · refine Registry.sound_body policy h.sound (fun g hg => ?_) hu.find
    obtain ⟨g', hg', hid⟩ := hu.registration
    rw [hg'] at hg
    cases hg
    exact hid
  · cases hn : race.registry.isRegistered s with
    | true => rfl
    | false => exact (hsucc.isRegistered_eq_false hn).symm.trans hs
  · exact (h.flight p (List.mem_of_mem_eraseIdx hp)).succeeds hsucc
  · rcases List.mem_append.1 hw with hw | hw
    · exact ⟨(h.gone w hw s he).1, hsucc.isRegistered_eq_false (h.gone w hw s he).2⟩
    · obtain rfl := List.mem_singleton.1 hw
      obtain ⟨he, hid, hreg⟩ := hends s he
      exact ⟨hid ▸ hu.started, (body_of_ends h.sound hu he).1 hreg⟩
  · exact h.length_endings_concat fun he => (hends s he).2.2
  · rcases List.mem_append.1 hw with hw | hw
    · exact h.silent w hw s he hreg
    · obtain rfl := List.mem_singleton.1 hw
      dsimp only at he hreg
      rw [Hook.sessionId_of_ends he] at hreg
      exact (body_of_ends h.sound hu he).2 hreg

theorem orderly_turn (h : race.Orderly started) {t : Turn}
    (ht : ∀ s, t.started? = some s → s ∉ started) :
    (race.turn policy t).Orderly (started ++ t.started?.toList) := by
  cases t with
  | start s sampled =>
    dsimp only [turn]
    split
    · exact h.mono fun _ hs => List.mem_append_left _ hs
    · exact orderly_put h (.start s _ sampled) (ht s.sessionId rfl)
  | look hook =>
    rw [show (Turn.look hook).started?.toList = [] from rfl, List.append_nil]
    dsimp only [turn]
    cases hf : hook.find? race.registry with
    | none => exact h
    | some number =>
      refine ⟨h.sound, h.known, fun p hp => ?_, h.gone, h.once, h.silent⟩
      rcases List.mem_append.1 hp with hp | hp
      · exact h.flight p hp
      · obtain rfl := List.mem_singleton.1 hp
        obtain ⟨g, hg, hid⟩ := h.sound.numbered _ _ hf
        exact ⟨h.known _ (isRegistered_of_find? hf), ⟨g, hg, hid⟩, Or.inl hf⟩
  | work index =>
    rw [show (Turn.work index).started?.toList = [] from rfl, List.append_nil]
    dsimp only [turn]
    cases hi : race.flight[index]? with
    | none => exact h
    | some p => exact orderly_finish h hi

/-- **A whole run** keeps a race orderly. -/
theorem orderly_run (turns : List Turn) (h : race.Orderly started)
    (hn : (started ++ turns.filterMap Turn.started?).Nodup) :
    (race.run policy turns).Orderly (started ++ turns.filterMap Turn.started?) := by
  induction turns generalizing race started with
  | nil =>
    rw [List.filterMap_nil, List.append_nil]
    exact h
  | cons t turns ih =>
    have hsplit : started ++ (t :: turns).filterMap Turn.started? =
        started ++ t.started?.toList ++ turns.filterMap Turn.started? := by
      cases ht : t.started? <;> simp [ht]
    rw [hsplit] at hn ⊢
    refine ih (orderly_turn h fun s hs => ?_) hn
    have hold := (List.nodup_append.1 (List.nodup_append.1 hn).1).2.2
    rw [hs] at hold
    exact fun hmem => hold s hmem s (by simp) rfl

theorem run_append (policy : Policy) (race : Race) (turns more : List Turn) :
    race.run policy (turns ++ more) = (race.run policy turns).run policy more := List.foldl_append

theorem works_turn (policy : Policy) (race : Race) (t : Turn) :
    ∃ ws, (race.turn policy t).works = race.works ++ ws := by
  cases t with
  | start s sampled =>
    dsimp only [turn]
    split <;> exact ⟨[], (List.append_nil _).symm⟩
  | look hook =>
    dsimp only [turn]
    split <;> exact ⟨[], (List.append_nil _).symm⟩
  | work index =>
    dsimp only [turn]
    split
    · exact ⟨[], (List.append_nil _).symm⟩
    · exact ⟨_, rfl⟩

theorem mem_works_run : ∀ (turns : List Turn) (race : Race) {w : Work}, w ∈ race.works →
    w ∈ (race.run policy turns).works
  | [], _, _, hw => hw
  | t :: turns, race, w, hw => by
    obtain ⟨ws, hws⟩ := works_turn policy race t
    exact mem_works_run turns (race.turn policy t) (hws ▸ List.mem_append_left _ hw)

theorem Orderly.isRegistered_of_keeps (h : race.Orderly started) {s : String}
    (hk : race.registry.Keeps s) : race.registry.isRegistered s = true := by
  cases hreg : race.registry.isRegistered s with
  | true => rfl
  | false =>
    rw [← Registry.isOpen_folder h.sound.numbered] at hreg
    have hclosed := (h.sound.folder s).closed hreg
    have hspans : race.registry.spans.view? s = none := congrArg Folder.spans hclosed
    have hslot : race.registry.slots.held? s = none := congrArg Folder.slot hclosed
    have hexecutions : race.registry.executions.get? s = none := congrArg Folder.executions hclosed
    unfold Registry.Keeps at hk
    rw [hspans, hslot, hexecutions] at hk
    exact absurd hk (by simp)

theorem Orderly.length_handing (h : race.Orderly started) (s : String) :
    (race.works.filter fun w => w.hook.ends s && !w.spans.isEmpty).length ≤ 1 := by
  -- only a work that has ended the session hands anything over
  have heq : race.works.filter (fun w => w.hook.ends s && !w.spans.isEmpty) =
      (race.endings s).filter fun w => !w.spans.isEmpty := by
    unfold endings
    rw [List.filter_filter]
    refine List.filter_congr fun w hw => ?_
    cases he : w.hook.ends s with
    | false => simp [Work.ends, he]
    | true =>
      cases hreg : w.registered with
      | false => simp [h.silent w hw s he hreg]
      | true => simp [Work.ends, he, hreg]
  rw [heq]
  exact Nat.le_trans (List.length_filter_le _ _) (h.once s)

end Race

/-- **A session that has ended is gone.** What is kept is kept for sessions that are registered.
Once a hook has ended a session, it is not registered and nothing is kept for it at any later
moment. Of all hooks that were to end it, one at most has ended it, and one at most has handed spans
over. -/
theorem ended_session_gone (policy : Policy) (turns more : List Turn)
    (h : ((turns ++ more).filterMap Turn.started?).Nodup) :
    let race := Race.empty.run policy turns
    let later := race.run policy more
    (∀ s, race.registry.Keeps s → race.registry.isRegistered s = true) ∧
    (∀ s, (∃ w ∈ race.works, w.ends s = true) →
      later.registry.isRegistered s = false ∧ ¬ later.registry.Keeps s) ∧
    ∀ s, (race.endings s).length ≤ 1 ∧
      (race.works.filter fun w => w.hook.ends s && !w.spans.isEmpty).length ≤ 1 := by
  intro race later
  have hlater : later = Race.empty.run policy (turns ++ more) :=
    (Race.run_append policy .empty turns more).symm
  have ho : later.Orderly ((turns ++ more).filterMap Turn.started?) :=
    hlater ▸ Race.orderly_run (turns ++ more) Race.orderly_empty h
  have hrace : race.Orderly (turns.filterMap Turn.started?) := by
    rw [List.filterMap_append] at h
    exact Race.orderly_run turns Race.orderly_empty (List.nodup_append.1 h).1
  refine ⟨fun s => hrace.isRegistered_of_keeps, fun s hs => ?_, fun s =>
    ⟨hrace.once s, hrace.length_handing s⟩⟩
  obtain ⟨w, hw, he⟩ := hs
  have hoff := (ho.gone w (Race.mem_works_run more race hw) s he).2
  exact ⟨hoff, fun hk => absurd (hoff.symm.trans (ho.isRegistered_of_keeps hk)) (by decide)⟩

/-- A session of an untitled chain that starts at midnight. -/
def SessionStart.bare (id : String) : SessionStart :=
  ⟨id, "chain", "Orders", none, none, none, none, none, simulationStart⟩

/-- A hook that opens a span in the session `s`. -/
def Hook.bareBefore (spanId : String) : Hook :=
  .before "s" spanId ⟨"step", "Step", "script", none, none⟩ none .empty
    (SessionStart.bare "s").startedAt

/-- A hook that ends the session `s`. -/
def Hook.bareFinish : Hook := .finish "s" .completedNormally (SessionStart.bare "s").startedAt 0

/-- Two hooks end a session that a third one has found before and opens a span in afterwards. -/
theorem ended_session_gone_late :
    let race := Race.empty.run (StaticPolicy.of .debug).toPolicy [.start (.bare "s") true,
      .look (.bareBefore "a"), .work 0, .look (.bareBefore "b"), .look .bareFinish, .look .bareFinish,
      .work 1]
    let later := race.run (StaticPolicy.of .debug).toPolicy [.work 0, .work 0]
    (race.endings "s").length = 1 ∧ later.registry.isRegistered "s" = false ∧
      ¬ later.registry.Keeps "s" := by
  intro race later
  have h := ended_session_gone (StaticPolicy.of .debug).toPolicy [.start (.bare "s") true,
    .look (.bareBefore "a"), .work 0, .look (.bareBefore "b"), .look .bareFinish, .look .bareFinish,
    .work 1] [.work 0, .work 0] (by decide)
  have hone : (race.endings "s").length = 1 := by decide +kernel
  obtain ⟨w, hw⟩ := List.length_pos_iff_exists_mem.1 (Nat.lt_of_lt_of_eq Nat.zero_lt_one hone.symm)
  obtain ⟨hw, he⟩ := List.mem_filter.1 hw
  exact ⟨hone, h.2.1 "s" ⟨w, hw, he⟩⟩

end SpanRelay
