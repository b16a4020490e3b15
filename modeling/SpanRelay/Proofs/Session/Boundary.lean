import SpanRelay.Proofs.Registry.Finished
import SpanRelay.Proofs.Session.Steady
import SpanRelay.Proofs.Writer.Offers
import SpanRelay.Store.Memory

/-! # The end of a session that is being written to

A span may be opened before, during or after the end of its session. If the session is fully tracked,
some hook answers for the span at every moment (`Race.Tracks`): until the hook that opens it has done
its work, that hook; then the session, which has it cached; and when it is not cached any more, a
version of it was handed over. Every version that is handed over is finished. A hook that opens a
span after the end hands over the only version of it, and leaves the registry as it is. All this
holds whatever happens to other sessions, also if these are started again. -/

namespace SpanRelay

/-! ### Effects on a session that is fully tracked -/

namespace Effect

variable {h : HookScope} {hook : Hook} {f f' : Folder} {spans : List Span} {s b : String} {x : Span}

/-- A cached span stays cached, or a version of it is handed over. -/
theorem get?_or_handed (he : Effect h f hook f' spans)
    (hk : ∀ spans, f.spans = some spans → spans.Keyed Span.id) (hx : f.get? b = some x) :
    (∃ y, f'.get? b = some y) ∨ ∃ y ∈ spans, y.id = b := by
  have hcache : ∀ (f : Folder) (y x : Span), f.get? b = some x → ∃ z, (f.cache y).get? b = some z := by
    intro f y x hx
    rw [Folder.get?_cache]
    split
    · exact ⟨y, rfl⟩
    · exact ⟨x, hx⟩
  have hpromoted : ∀ (f : Folder) (x : Span), f.get? b = some x → ∃ z, f.promoted.get? b = some z := by
    intro f x hx
    unfold Folder.promoted
    cases f.slot with
    | none => exact ⟨x, hx⟩
    | some y => exact hcache f.free y x hx
  cases he with
  | late | skipped | held | heldLate | cachedLate | completedHeld | failedUnkept | correlated =>
    exact Or.inl ⟨x, hx⟩
  | cached => exact Or.inl (hcache _ _ x hx)
  | @completed ref m o now y ho hy =>
    refine Or.inl ?_
    rw [Folder.get?_update]
    split
    · rw [hy]
      exact ⟨_, rfl⟩
    · exact ⟨x, hx⟩
  | failedHeld => exact Or.inl (hcache _ _ x hx)
  | failedLost => exact Or.inl (hpromoted f.fail x hx)
  | @finished t status time ms ho =>
    refine Or.inr ?_
    have hended : ∃ z, (h.ended f status).get? b = some z ∧ z.id = b := by
      unfold HookScope.ended
      split
      · obtain ⟨z, hz⟩ := hpromoted f x hx
        obtain ⟨spans, hspans, hmem⟩ := Option.bind_eq_some_iff.1 hz
        exact ⟨z, hz, (Folder.keyed_promoted hk spans hspans).eq_key_of_get? hmem⟩
      · obtain ⟨spans, hspans, hmem⟩ := Option.bind_eq_some_iff.1 hx
        exact ⟨x, hx, (hk spans hspans).eq_key_of_get? hmem⟩
    obtain ⟨z, hz, rfl⟩ := hended
    exact ⟨_, List.mem_map_of_mem (Folder.mem_cached_of_get? hz), Span.id_finalize _ _⟩

theorem get?_or_handed_of_opened (he : Effect h f hook f' spans) (ht : h.tracking = .full)
    (ho : hook.opened? = some ⟨s, b⟩) : (∃ y, f'.get? b = some y) ∨ ∃ y ∈ spans, y.id = b := by
  cases he with
  | late hb =>
    rw [hb] at ho
    cases ho
  | skipped hn | held hn | heldLate hn => exact absurd (ht.symm.trans hn) (by decide)
  | cached =>
    cases ho
    exact Or.inl ⟨_, (Folder.get?_cache _ _ _).trans (if_pos rfl)⟩
  | cachedLate =>
    cases ho
    exact Or.inr ⟨_, List.mem_singleton.2 rfl, Span.id_abandon _⟩
  | completed | completedHeld | failedHeld | failedLost | failedUnkept | finished | correlated =>
    cases ho

end Effect

theorem tracking_of_sampled {session : Session} {failed : Bool}
    (hlevel : session.level = .info ∨ session.level = .debug) (hsampled : session.sampled = true) :
    Tracking.of session.level session.sampled failed = .full := by
  rw [hsampled]
  rcases hlevel with h | h <;> rw [h] <;> rfl

namespace Registry

variable {r r' : Registry} {s : String} {n : Nat}

/-- The registration of this number is one of the session, which is sampled and has the level INFO or
DEBUG. -/
def Traces (r : Registry) (s : String) (n : Nat) : Prop :=
  ∃ g, r.registration? n = some g ∧ g.session.id = s ∧
    (g.session.level = .info ∨ g.session.level = .debug) ∧ g.session.sampled = true

theorem Traces.succeeds (h : r.Traces s n) (hs : r.Succeeds r') : r'.Traces s n := by
  obtain ⟨g, hg, hid, hlevel, hsampled⟩ := h
  obtain ⟨g', hg', hc⟩ := hs.registration n g hg
  exact ⟨g', hg', hc.id.trans hid, by rwa [hc.level], hc.sampled.trans hsampled⟩

/-! ### Works of a session that is over -/

/-- A span that is opened in a fully tracked session which is over is handed over at once, and
nothing is kept of it. -/
theorem Traces.body_before_of_over (h : r.Traces s n) (policy : Policy)
    (hs : r.isRegistered s = false) (b : String) (e : Element) (p : Option ParentHint) (m : Snapshot)
    (now : Timestamp) :
    ∃ x, (Hook.before s b e p m now).body policy n r = .done r [x] ∧ x.sessionId = s ∧ x.id = b ∧
      x.status = .cancelledOrUnknown := by
  obtain ⟨g, hg, -, hlevel, hsampled⟩ := h
  have hrec : r.recordExecution s e.executionKey b = r := by
    unfold recordExecution
    rw [hs]
    rfl
  have htrack : (⟨policy, n, g.session, g.failureSeen⟩ : HookScope).tracking = .full :=
    tracking_of_sampled hlevel hsampled
  unfold Hook.body
  rw [hg]
  dsimp only [HookScope.before, HookScope.keep]
  rw [htrack, hrec, hs]
  exact ⟨_, rfl, Span.sessionId_abandon _, Span.id_abandon _, rfl⟩

theorem body_after_of_over (policy : Policy) (hs : r.isRegistered s = false) (n : Nat) (b : String)
    (m : Snapshot) (o : Outcome) (now : Timestamp) :
    (Hook.after ⟨s, b⟩ m o now).body policy n r = .ignored r := by
  unfold Hook.body
  cases r.registration? n with
  | none => rfl
  | some g =>
    dsimp only [HookScope.after]
    rw [hs]
    rfl

end Registry

/-- The versions of a span among some spans. -/
def versionsOf (ref : SpanRef) (spans : List Span) : List Span :=
  spans.filter fun x => x.sessionId = ref.sessionId ∧ x.id = ref.spanId

theorem mem_versionsOf {ref : SpanRef} {spans : List Span} {x : Span} :
    x ∈ versionsOf ref spans ↔ x ∈ spans ∧ x.sessionId = ref.sessionId ∧ x.id = ref.spanId := by
  unfold versionsOf
  rw [List.mem_filter, decide_eq_true_iff]

theorem versionsOf_append (ref : SpanRef) (spans more : List Span) :
    versionsOf ref (spans ++ more) = versionsOf ref spans ++ versionsOf ref more :=
  List.filter_append _ _

theorem versionsOf_eq_nil {ref : SpanRef} {spans : List Span}
    (h : ∀ x ∈ spans, x.sessionId = ref.sessionId → x.id ≠ ref.spanId) :
    versionsOf ref spans = [] :=
  List.filter_eq_nil_iff.2 fun x hx hv => h x hx (of_decide_eq_true hv).1 (of_decide_eq_true hv).2

namespace Race

variable {policy : Policy} {race : Race} {s b : String} {n : Nat}

/-! ### Before a session -/

/-- No hook has found the session yet. -/
structure Unaware (race : Race) (s : String) : Prop where
  unregistered : race.registry.isRegistered s = false
  flight : ∀ p ∈ race.flight, p.1.sessionId ≠ s
  works : ∀ w ∈ race.works, w.hook.sessionId ≠ s

theorem unaware_empty (s : String) : empty.Unaware s :=
  ⟨rfl, fun _ hp => absurd hp List.not_mem_nil, fun _ hw => absurd hw List.not_mem_nil⟩

theorem isRegistered_put_of_ne (r : Registry) {session : Session} (h : s ≠ session.id) :
    (r.put session).isRegistered s = r.isRegistered s := by
  unfold Registry.isRegistered
  rw [Registry.find?_put, if_neg h]

theorem unaware_turn (h : race.Unaware s) {t : Turn} (ht : t.started? ≠ some s) :
    (race.turn policy t).Unaware s := by
  cases t with
  | start start sampled =>
    have hne : s ≠ start.sessionId := fun he => ht (congrArg some he.symm)
    dsimp only [turn]
    split
    · exact h
    · exact ⟨(isRegistered_put_of_ne _ hne).trans h.unregistered, h.flight, h.works⟩
  | look hook =>
    dsimp only [turn]
    cases hf : hook.find? race.registry with
    | none => exact h
    | some number =>
      refine ⟨h.unregistered, fun p hp => ?_, h.works⟩
      rcases List.mem_append.1 hp with hp | hp
      · exact h.flight p hp
      · obtain rfl := List.mem_singleton.1 hp
        rintro rfl
        exact absurd (h.unregistered.symm.trans (isRegistered_of_find? hf)) (by decide)
  | work index =>
    dsimp only [turn]
    cases hi : race.flight[index]? with
    | none => exact h
    | some p =>
      obtain ⟨hook, number⟩ := p
      have hne := h.flight _ (List.mem_of_getElem? hi)
      refine ⟨(Registry.succeeds_body _ _ _ _).isRegistered_eq_false h.unregistered,
        fun p hp => h.flight p (List.mem_of_mem_eraseIdx hp), fun w hw => ?_⟩
      rcases List.mem_append.1 hw with hw | hw
      · exact h.works w hw
      · rw [List.mem_singleton.1 hw]
        exact hne

theorem unaware_run : ∀ (turns : List Turn) {race : Race}, race.Unaware s →
    (∀ t ∈ turns, t.started? ≠ some s) → (race.run policy turns).Unaware s
  | [], _, h, _ => h
  | t :: turns, _, h, ht =>
    unaware_run turns (unaware_turn h (ht t List.mem_cons_self))
      fun t' ht' => ht t' (List.mem_cons_of_mem _ ht')

/-! ### A session that is fully tracked -/

/-- What is true of a session from its start on, with the number of its registration. -/
structure Tracks (race : Race) (s : String) (n : Nat) : Prop where
  traces : race.registry.Traces s n
  find : race.registry.find? s = some n ∨ race.registry.find? s = none
  flight : ∀ p ∈ race.flight, p.1.sessionId = s → p.2 = n
  /-- A span that was opened is cached, or a version of it was handed over. -/
  opened : ∀ w ∈ race.works, ∀ b, w.hook.opened? = some ⟨s, b⟩ →
    (∃ x, (race.registry.folder s).get? b = some x) ∨ ∃ x, x ∈ versionsOf ⟨s, b⟩ race.handed
  terminal : ∀ x ∈ race.handed, x.sessionId = s → x.status.isTerminal = true
  gone : ∀ w ∈ race.works, w.ends s = true → race.registry.isRegistered s = false

theorem Unaware.tracks (h : race.Unaware s) (hst : race.Steady) {start : SessionStart}
    (hid : start.sessionId = s)
    (hlevel : policy.sessionLevel start.chainId = .info ∨ policy.sessionLevel start.chainId = .debug) :
    (race.turn policy (.start start true)).Tracks s race.registry.registrations.length := by
  have hon : policy.sessionLevel start.chainId ≠ .off := by
    rcases hlevel with h | h <;> rw [h] <;> decide
  have hturn : race.turn policy (.start start true) = { race with
      registry := race.registry.put (.start start (policy.sessionLevel start.chainId) true) } :=
    if_neg hon
  rw [hturn]
  refine ⟨⟨_, Registry.registration?_put_length _ _, hid, hlevel, rfl⟩, Or.inl ?_,
    fun p hp he => absurd he (h.flight p hp), fun w hw b ho => ?_, fun x hx he => ?_,
    fun w hw he => ?_⟩
  · rw [Registry.find?_put]
    exact if_pos hid.symm
  · exact absurd (Hook.sessionId_of_opened? ho) (h.works w hw)
  · obtain ⟨w, hw, ho⟩ := hst.origin x (Or.inl hx)
    exact absurd ((Hook.sessionId_of_opened? ho).trans he) (h.works w hw)
  · exact absurd (Hook.sessionId_of_ends (Bool.and_eq_true_iff.1 he).1) (h.works w hw)

theorem Tracks.finish_other (h : race.Tracks s n) (hst : race.Steady) {index : Nat} {hook : Hook}
    {number : Nat} (hi : race.flight[index]? = some (hook, number)) (hs : hook.sessionId ≠ s) :
    (race.finish policy index hook number).Tracks s n := by
  obtain ⟨g, hg, hid⟩ := hst.flight _ (List.mem_of_getElem? hi)
  have hsucc := Registry.succeeds_body policy hook number race.registry
  have hfolder : (race.finish policy index hook number).registry.folder s = race.registry.folder s :=
    Registry.folder_body_of_ne policy hg hid hst.sound.numbered (Ne.symm hs)
  refine ⟨h.traces.succeeds hsucc, ?_, fun p hp => h.flight p (List.mem_of_mem_eraseIdx hp),
    fun w hw b ho => ?_, fun x hx he => ?_, fun w hw he => ?_⟩
  · rcases hsucc.find s with hf | hf
    · exact h.find.imp hf.trans hf.trans
    · exact Or.inr hf
  · rw [hfolder, handed_finish, versionsOf_append]
    rcases List.mem_append.1 hw with hw | hw
    · exact (h.opened w hw b ho).imp_right fun ⟨x, hx⟩ => ⟨x, List.mem_append_left _ hx⟩
    · rw [List.mem_singleton.1 hw] at ho
      exact absurd (Hook.sessionId_of_opened? ho) hs
  · rw [handed_finish] at hx
    rcases List.mem_append.1 hx with hx | hx
    · exact h.terminal x hx he
    · have hown := Registry.sessionId_of_mem_spans policy hg hid hst.sound hx
      exact absurd (hown.symm.trans he) hs
  · rcases List.mem_append.1 hw with hw | hw
    · exact hsucc.isRegistered_eq_false (h.gone w hw he)
    · rw [List.mem_singleton.1 hw] at he
      exact absurd (Hook.sessionId_of_ends (Bool.and_eq_true_iff.1 he).1) hs

theorem Tracks.finish_own (h : race.Tracks s n) (hst : race.Steady) {index : Nat} {hook : Hook}
    {number : Nat} (hi : race.flight[index]? = some (hook, number)) (hs : hook.sessionId = s) :
    (race.finish policy index hook number).Tracks s n := by
  obtain rfl : number = n := h.flight _ (List.mem_of_getElem? hi) hs
  obtain ⟨g, hg, hid, hlevel, hsampled⟩ := h.traces
  have hsucc := Registry.succeeds_body policy hook number race.registry
  have hnum : (race.finish policy index hook number).registry.Numbered :=
    hsucc.numbered hst.sound.numbered
  obtain ⟨f, heff, hedit⟩ := Hook.body_local policy hst.sound.numbered hg (hid.trans hs.symm)
    (hs ▸ h.find)
  have hfolder : (race.finish policy index hook number).registry.folder s = f := by
    rw [← hs]
    exact (hedit _).trans (if_pos rfl)
  rw [hs] at heff
  have hspans : ∀ x ∈ (hook.body policy number race.registry).spans, x.sessionId = s := fun x hx =>
    (Registry.sessionId_of_mem_spans policy hg (hid.trans hs.symm) hst.sound hx).trans hs
  refine ⟨h.traces.succeeds hsucc, ?_, fun p hp => h.flight p (List.mem_of_mem_eraseIdx hp),
    fun w hw b ho => ?_, fun x hx he => ?_, fun w hw he => ?_⟩
  · rcases hsucc.find s with hf | hf
    · exact h.find.imp hf.trans hf.trans
    · exact Or.inr hf
  · rw [hfolder, handed_finish, versionsOf_append]
    have hnew : (∃ x, f.get? b = some x) ∨
        (∃ x ∈ (hook.body policy number race.registry).spans, x.id = b) →
        (∃ x, f.get? b = some x) ∨ ∃ x, x ∈ versionsOf ⟨s, b⟩ race.handed ++
          versionsOf ⟨s, b⟩ (hook.body policy number race.registry).spans := by
      refine fun h => h.imp_right fun ⟨x, hx, hb⟩ => ⟨x, List.mem_append_right _ ?_⟩
      exact mem_versionsOf.2 ⟨hx, hspans x hx, hb⟩
    rcases List.mem_append.1 hw with hw | hw
    · rcases h.opened w hw b ho with ⟨x, hx⟩ | ⟨x, hx⟩
      · exact hnew (heff.get?_or_handed (hst.sound.folder s).keyed hx)
      · exact Or.inr ⟨x, List.mem_append_left _ hx⟩
    · rw [List.mem_singleton.1 hw] at ho
      exact hnew (heff.get?_or_handed_of_opened (tracking_of_sampled hlevel hsampled) ho)
  · rw [handed_finish] at hx
    rcases List.mem_append.1 hx with hx | hx
    · exact h.terminal x hx he
    · rcases heff.finished_or_lost with hall | ⟨herror, -⟩
      · exact hall x hx
      · have herror : g.session.level = .error := herror
        rw [herror] at hlevel
        exact absurd hlevel (by decide)
  · rcases List.mem_append.1 hw with hw | hw
    · exact hsucc.isRegistered_eq_false (h.gone w hw he)
    · rw [List.mem_singleton.1 hw] at he
      obtain ⟨hends, hreg⟩ := Bool.and_eq_true_iff.1 he
      rw [hs, ← Registry.isOpen_folder hst.sound.numbered] at hreg
      have hclosed := (heff.of_ends hends).1 hreg
      rw [← Registry.isOpen_folder hnum, hfolder, hclosed]
      rfl

theorem tracks_turn (h : race.Tracks s n) (hst : race.Steady) {t : Turn}
    (ht : t.started? ≠ some s) : (race.turn policy t).Tracks s n := by
  cases t with
  | start start sampled =>
    have hne : s ≠ start.sessionId := fun he => ht (congrArg some he.symm)
    dsimp only [turn]
    split
    · exact h
    · obtain ⟨g, hg, hg'⟩ := h.traces
      have hreg : ∀ session : Session, session.id = start.sessionId →
          (race.registry.put session).folder s = race.registry.folder s := fun session hid => by
        rw [Registry.edits_put hst.sound.numbered session s, if_neg (hid ▸ hne)]
      refine ⟨⟨g, ?_, hg'⟩, ?_, h.flight, fun w hw b ho => ?_, h.terminal, fun w hw he => ?_⟩
      · rw [Registry.registration?_put_of_lt _ (Registry.lt_length_of_registration? hg)]
        exact hg
      · rw [Registry.find?_put]
        exact (if_neg (c := s = start.sessionId) hne).symm ▸ h.find
      · dsimp only
        rw [hreg _ rfl]
        exact h.opened w hw b ho
      · exact (isRegistered_put_of_ne _ hne).trans (h.gone w hw he)
  | look hook =>
    dsimp only [turn]
    cases hf : hook.find? race.registry with
    | none => exact h
    | some number =>
      refine ⟨h.traces, h.find, fun p hp hs => ?_, h.opened, h.terminal, h.gone⟩
      rcases List.mem_append.1 hp with hp | hp
      · exact h.flight p hp hs
      · obtain rfl := List.mem_singleton.1 hp
        have hfind : race.registry.find? s = some number := hs ▸ hf
        rcases h.find with hn | hn
        · exact Option.some.inj (hfind.symm.trans hn)
        · exact absurd (hfind.symm.trans hn) nofun
  | work index =>
    dsimp only [turn]
    cases hi : race.flight[index]? with
    | none => exact h
    | some p =>
      by_cases hs : p.1.sessionId = s
      · exact h.finish_own hst hi hs
      · exact h.finish_other hst hi hs

theorem tracks_run : ∀ (turns : List Turn) {race : Race}, race.Tracks s n → race.Steady →
    (∀ t ∈ turns, t.started? ≠ some s) → (race.run policy turns).Tracks s n
  | [], _, h, _, _ => h
  | t :: turns, _, h, hst, ht =>
    tracks_run turns (tracks_turn h hst (ht t List.mem_cons_self)) (steady_turn hst t)
      fun t' ht' => ht t' (List.mem_cons_of_mem _ ht')

/-! ### After a session -/

/-- The session of a span is over, and no hook under way opens the span. -/
structure Over (race : Race) (ref : SpanRef) : Prop where
  unregistered : race.registry.isRegistered ref.sessionId = false
  flight : ∀ p ∈ race.flight, p.1.opened? ≠ some ref

variable {ref : SpanRef}

/-- A hook that does not open a span of a session which is over hands no version of it over. -/
theorem Over.versionsOf_spans (h : race.Over ref) (hst : race.Steady) {index : Nat} {hook : Hook}
    {number : Nat} (hi : race.flight[index]? = some (hook, number)) :
    versionsOf ref (hook.body policy number race.registry).spans = [] := by
  have hmem := List.mem_of_getElem? hi
  obtain ⟨g, hg, hid⟩ := hst.flight _ hmem
  refine versionsOf_eq_nil fun x hx hs hb => ?_
  rcases Registry.origin_body_of_registration policy hg hid hst.sound.numbered (Or.inl hx) with
    ⟨s, y, hy, -, hys⟩ | ho
  · -- nothing is kept of the session
    obtain rfl : ref.sessionId = s := hs.symm.trans (hys.symm.trans ((hst.sound.folder s).own y hy))
    have hclosed := (hst.sound.folder ref.sessionId).closed
      ((Registry.isOpen_folder hst.sound.numbered _).trans h.unregistered)
    rw [hclosed] at hy
    exact List.not_mem_nil hy
  · rw [hs, hb] at ho
    exact h.flight _ hmem ho

theorem over_turn (h : race.Over ref) (hst : race.Steady) {t : Turn}
    (ht : t.started? ≠ some ref.sessionId) :
    (race.turn policy t).Over ref ∧
      versionsOf ref (race.turn policy t).handed = versionsOf ref race.handed := by
  cases t with
  | start start sampled =>
    dsimp only [turn]
    split
    · exact ⟨h, rfl⟩
    · have hne : ref.sessionId ≠ start.sessionId := fun he => ht (congrArg some he.symm)
      exact ⟨⟨(isRegistered_put_of_ne _ hne).trans h.unregistered, h.flight⟩, rfl⟩
  | look hook =>
    dsimp only [turn]
    cases hf : hook.find? race.registry with
    | none => exact ⟨h, rfl⟩
    | some number =>
      refine ⟨⟨h.unregistered, fun p hp ho => ?_⟩, rfl⟩
      rcases List.mem_append.1 hp with hp | hp
      · exact h.flight p hp ho
      · obtain rfl := List.mem_singleton.1 hp
        have hreg := isRegistered_of_find? hf
        rw [Hook.sessionId_of_opened? ho, h.unregistered] at hreg
        cases hreg
  | work index =>
    dsimp only [turn]
    cases hi : race.flight[index]? with
    | none => exact ⟨h, rfl⟩
    | some p =>
      obtain ⟨hook, number⟩ := p
      refine ⟨⟨(Registry.succeeds_body _ _ _ _).isRegistered_eq_false h.unregistered,
        fun p hp => h.flight p (List.mem_of_mem_eraseIdx hp)⟩, ?_⟩
      dsimp only
      rw [handed_finish, versionsOf_append, h.versionsOf_spans hst hi, List.append_nil]

theorem versionsOf_run_of_over : ∀ (turns : List Turn) {race : Race}, race.Over ref → race.Steady →
    (∀ t ∈ turns, t.started? ≠ some ref.sessionId) →
    versionsOf ref (race.run policy turns).handed = versionsOf ref race.handed
  | [], _, _, _, _ => rfl
  | t :: turns, race, h, hst, ht => by
    obtain ⟨hnext, hversions⟩ := over_turn h hst (ht t List.mem_cons_self)
    rw [← hversions]
    exact versionsOf_run_of_over turns hnext (steady_turn hst t)
      fun t' ht' => ht t' (List.mem_cons_of_mem _ ht')

/-! ### The whole of it -/

/-- In the course of the turns a session is started once, sampled and with the level INFO or DEBUG,
and it is ended; at the end no hook is under way. -/
structure EndedOnce (policy : Policy) (s : String) (turns : List Turn) : Prop where
  started : ∃ before start after, turns = before ++ .start start true :: after ∧
    start.sessionId = s ∧
    (policy.sessionLevel start.chainId = .info ∨ policy.sessionLevel start.chainId = .debug) ∧
    ∀ t ∈ before ++ after, t.started? ≠ some s
  ended : ∃ w ∈ (empty.run policy turns).works, w.ends s = true
  idle : (empty.run policy turns).flight = []

namespace EndedOnce

variable {turns before after : List Turn} {hook : Hook}

theorem tracks (h : EndedOnce policy s turns) (hsplit : turns = before ++ after)
    (haware : ¬ (empty.run policy before).Unaware s) :
    (∃ n, (empty.run policy before).Tracks s n) ∧ ∀ t ∈ after, t.started? ≠ some s := by
  obtain ⟨first, start, rest, hturns, hid, hlevel, hother⟩ := h.started
  have hunaware : ∀ turns, (∀ t ∈ turns, t ∈ first) → (empty.run policy turns).Unaware s :=
    fun turns ht => unaware_run turns (unaware_empty s)
      fun t hmem => hother t (List.mem_append_left _ (ht t hmem))
  have hstarted := (hunaware first fun _ ht => ht).tracks (steady_run first steady_empty) hid hlevel
  rcases List.append_eq_append_iff.1 (hturns.symm.trans hsplit) with ⟨l, rfl, hl⟩ | ⟨l, rfl, -⟩
  · cases l with
    | nil =>
      rw [List.append_nil] at haware
      exact absurd (hunaware first fun _ ht => ht) haware
    | cons t l =>
      obtain ⟨rfl, rfl⟩ := List.cons.inj hl
      rw [run_append]
      exact ⟨⟨_, tracks_run l hstarted (steady_turn (steady_run first steady_empty) _)
        fun t ht => hother t (by simp [ht])⟩, fun t ht => hother t (by simp [ht])⟩
  · exact absurd (hunaware before fun t ht => List.mem_append_left _ ht) haware

theorem exists_work (h : EndedOnce policy s turns) (hsplit : turns = before ++ .look hook :: after)
    (hs : hook.sessionId = s) (hfound : (empty.run policy before).registry.isRegistered s = true) :
    ∃ between i after n, turns = before ++ .look hook :: between ++ .work i :: after ∧
      (empty.run policy (before ++ .look hook :: between)).flight[i]? = some (hook, n) := by
  obtain ⟨n, hfind⟩ : ∃ n, hook.find? (empty.run policy before).registry = some n := by
    refine Option.isSome_iff_exists.1 ?_
    unfold Hook.find?
    rw [hs]
    exact hfound
  have hlook : (hook, n) ∈ ((empty.run policy before).turn policy (.look hook)).flight := by
    dsimp only [turn]
    rw [hfind]
    exact List.mem_append_right _ (List.mem_singleton.2 rfl)
  have hidle := h.idle
  rw [hsplit, run_append] at hidle
  obtain ⟨between, i, rest, rfl, hi⟩ := exists_work_of_mem_flight after hlook hidle
  refine ⟨between, i, rest, n, ?_, ?_⟩
  · rw [hsplit, List.append_assoc, List.cons_append]
  · rw [run_append]
    exact hi

/-- Of a span that is opened by a hook that has found the session, a version is handed over, and no
version that is not finished. -/
theorem exists_version (h : EndedOnce policy s turns) (hsplit : turns = before ++ .look hook :: after)
    (ho : hook.opened? = some ⟨s, b⟩)
    (hfound : (empty.run policy before).registry.isRegistered s = true) :
    (∃ x, x ∈ versionsOf ⟨s, b⟩ (empty.run policy turns).handed) ∧
    ∀ x ∈ versionsOf ⟨s, b⟩ (empty.run policy turns).handed, x.status.isTerminal = true := by
  obtain ⟨⟨n, htracks⟩, hother⟩ := h.tracks hsplit
    fun hu => absurd (hu.unregistered.symm.trans hfound) (by decide)
  have hst : (run policy .empty before).Steady := steady_run before steady_empty
  have hend : (run policy .empty turns).Tracks s n := by
    rw [hsplit, run_append]
    exact tracks_run _ htracks hst hother
  refine ⟨?_, fun x hx => hend.terminal x (mem_versionsOf.1 hx).1 (mem_versionsOf.1 hx).2.1⟩
  obtain ⟨between, i, rest, n', hturns, hi⟩ :=
    h.exists_work hsplit (Hook.sessionId_of_opened? ho) hfound
  obtain ⟨w, hw, hwo⟩ : ∃ w ∈ (empty.run policy turns).works, w.hook.opened? = some ⟨s, b⟩ := by
    obtain ⟨w, hw, hhook⟩ := exists_mem_works_finish policy
      (empty.run policy (before ++ .look hook :: between)) i hook n'
    rw [← turn_work hi] at hw
    rw [hturns, run_append]
    exact ⟨w, mem_works_run rest _ hw, hhook ▸ ho⟩
  -- nothing is cached of the session any more
  refine (hend.opened w hw b hwo).resolve_left fun hcached => ?_
  obtain ⟨x, hx⟩ := hcached
  obtain ⟨w', hw', hends⟩ := h.ended
  have hsound : (run policy .empty turns).registry.Sound := (steady_run turns steady_empty).sound
  have hclosed := (hsound.folder s).closed
    ((Registry.isOpen_folder hsound.numbered s).trans (hend.gone w' hw' hends))
  rw [hclosed] at hx
  cases hx

section Late

variable {i : Nat} {e : Element} {hint : Option ParentHint} {m : Snapshot} {now : Timestamp}

/-- A hook that opens a span after the end hands over one version of it and leaves the registry as it
is. -/
theorem turn_late (h : EndedOnce policy s turns) (hsplit : turns = before ++ .work i :: after)
    (hi : (empty.run policy before).flight[i]? = some (.before s b e hint m now, n))
    (hends : ∃ w ∈ (empty.run policy before).works, w.ends s = true) :
    (empty.run policy (before ++ [.work i])).registry = (empty.run policy before).registry ∧
    ∃ x, (empty.run policy (before ++ [.work i])).handed = (empty.run policy before).handed ++ [x] ∧
      versionsOf ⟨s, b⟩ [x] = [x] ∧ x.status = .cancelledOrUnknown := by
  have hmem := List.mem_of_getElem? hi
  obtain ⟨⟨n', htracks⟩, -⟩ := h.tracks hsplit fun hu => hu.flight _ hmem rfl
  obtain rfl : n = n' := htracks.flight _ hmem rfl
  obtain ⟨w, hw, hends⟩ := hends
  obtain ⟨x, hbody, hxs, hxb, hstatus⟩ :=
    htracks.traces.body_before_of_over policy (htracks.gone w hw hends) b e hint m now
  rw [run_work hi]
  refine ⟨congrArg HookResult.registry hbody, x, ?_, ?_, hstatus⟩
  · rw [handed_finish, hbody]
    rfl
  · refine List.filter_eq_self.2 fun y hy => ?_
    rw [List.mem_singleton.1 hy]
    exact decide_eq_true ⟨hxs, hxb⟩

/-- If no other hook opens the span, no version of it is handed over before or after. -/
theorem versionsOf_late (h : EndedOnce policy s turns) (hsplit : turns = before ++ .work i :: after)
    (hi : (empty.run policy before).flight[i]? = some (.before s b e hint m now, n))
    (hends : ∃ w ∈ (empty.run policy before).works, w.ends s = true)
    (hnodup : (turns.filterMap Turn.opened?).Nodup) :
    versionsOf ⟨s, b⟩ (empty.run policy before).handed = [] ∧
      versionsOf ⟨s, b⟩ (empty.run policy turns).handed =
        versionsOf ⟨s, b⟩ (empty.run policy (before ++ [.work i])).handed := by
  have hmem := List.mem_of_getElem? hi
  obtain ⟨⟨_, htracks⟩, hother⟩ := h.tracks hsplit fun hu => hu.flight _ hmem rfl
  have hsplit' : turns = (before ++ [.work i]) ++ after := by
    rw [hsplit, List.append_assoc, List.singleton_append]
  have hone : ∀ {past rest}, turns = past ++ rest → (empty.run policy past).openedRefs.Nodup := by
    rintro past rest rfl
    rw [List.filterMap_append] at hnodup
    exact nodup_openedRefs policy (List.nodup_append.1 hnodup).1
  have hopens : ⟨s, b⟩ ∈ (empty.run policy before).flight.filterMap fun p => p.1.opened? :=
    List.mem_filterMap.2 ⟨_, hmem, rfl⟩
  constructor
  · -- the hook is still under way, and no other opens the span
    refine versionsOf_eq_nil fun y hy hs hb => ?_
    obtain ⟨w, hw, ho⟩ := (steady_run before steady_empty).origin y (Or.inl hy)
    rw [hs, hb] at ho
    exact (List.nodup_append.1 (hone hsplit)).2.2 _ hopens _ (List.mem_filterMap.2 ⟨w, hw, ho⟩) rfl
  · have hover : (empty.run policy (before ++ [.work i])).Over ⟨s, b⟩ := by
      obtain ⟨w, hw, hends⟩ := hends
      refine ⟨?_, fun p hp ho => ?_⟩
      · rw [(h.turn_late hsplit hi ⟨w, hw, hends⟩).1]
        exact htracks.gone w hw hends
      · obtain ⟨w, hw, hhook⟩ := exists_mem_works_finish policy (empty.run policy before) i
          (.before s b e hint m now) n
        rw [← run_work hi] at hw
        exact (List.nodup_append.1 (hone hsplit')).2.2 ⟨s, b⟩ (List.mem_filterMap.2 ⟨p, hp, ho⟩)
          ⟨s, b⟩ (List.mem_filterMap.2 ⟨w, hw, by rw [hhook]; rfl⟩) rfl
    rw [hsplit', run_append]
    exact versionsOf_run_of_over after hover (steady_run _ steady_empty)
      fun t ht => hother t (List.mem_cons_of_mem _ ht)

/-- **A hook that opens a span after the end** hands over one version of it, which is cancelled, and
leaves the registry as it is. If no other hook opens the span, there is no other version of it. -/
theorem late (h : EndedOnce policy s turns) (hsplit : turns = before ++ .work i :: after)
    (hi : (empty.run policy before).flight[i]? = some (.before s b e hint m now, n))
    (hends : ∃ w ∈ (empty.run policy before).works, w.ends s = true) :
    (empty.run policy (before ++ [.work i])).registry = (empty.run policy before).registry ∧
    ∃ x, (empty.run policy (before ++ [.work i])).handed = (empty.run policy before).handed ++ [x] ∧
      x.status = .cancelledOrUnknown ∧ ((turns.filterMap Turn.opened?).Nodup →
        versionsOf ⟨s, b⟩ (empty.run policy turns).handed = [x]) := by
  obtain ⟨hregistry, x, hhanded, hversion, hstatus⟩ := h.turn_late hsplit hi hends
  refine ⟨hregistry, x, hhanded, hstatus, fun hnodup => ?_⟩
  obtain ⟨hnone, hsame⟩ := h.versionsOf_late hsplit hi hends hnodup
  rw [hsame, hhanded, versionsOf_append, hnone, hversion, List.nil_append]

end Late

/-- After the end of the session, the end of a span of it is ignored. -/
theorem ignored (h : EndedOnce policy s turns) (hsplit : turns = before ++ after)
    (hends : ∃ w ∈ (empty.run policy before).works, w.ends s = true) (n : Nat) (b : String)
    (m : Snapshot) (o : Outcome) (now : Timestamp) :
    (Hook.after ⟨s, b⟩ m o now).body policy n (empty.run policy before).registry =
      .ignored (empty.run policy before).registry := by
  obtain ⟨w, hw, hends⟩ := hends
  obtain ⟨⟨n', htracks⟩, -⟩ := h.tracks hsplit fun hu =>
    hu.works w hw (Hook.sessionId_of_ends (Bool.and_eq_true_iff.1 hends).1)
  exact Registry.body_after_of_over policy (htracks.gone w hw hends) n b m o now

end EndedOnce

end Race

/-- **No span is lost at the end of its session.** A session is sampled, has the level INFO or DEBUG,
is started once and ended, and no span that is handed over is refused. Then every hook that opens a
span and finds the session does its work, a version of the span gets queued, and the last of them is
finished. If the work is done after the end of the session, it leaves the registry as it is, and the
only version is the one that it hands over, which is cancelled; the end of the span is ignored from
then on. -/
theorem opened_span_enqueued_at_boundary {σ : Type} (sink : Sink σ) (policy : Policy) {s b : String}
    {turns : List Turn} (h : Race.EndedOnce policy s turns) {d : Desk σ}
    {incidents : List (Incident σ)}
    (hoffered : incidents.filterMap Incident.offered? = (Race.empty.run policy turns).handed)
    (hqueued : ∀ offer ∈ d.offers sink incidents, offer.2 = .queued) {past rest : List Turn}
    {e : Element} {hint : Option ParentHint} {m : Snapshot} {now : Timestamp}
    (hlook : turns = past ++ .look (.before s b e hint m now) :: rest)
    (hfound : (Race.empty.run policy past).registry.isRegistered s = true) :
    let hook := Hook.before s b e hint m now
    let moment := Race.empty.run policy
    let versions := versionsOf ⟨s, b⟩ (d.accepted sink incidents)
    (∃ x, versions.getLast? = some x ∧ x.status.isTerminal = true) ∧
    (∃ between i after n, turns = past ++ .look hook :: between ++ .work i :: after ∧
      (moment (past ++ .look hook :: between)).flight[i]? = some (hook, n)) ∧
    ∀ before i after n, turns = before ++ .work i :: after →
      (moment before).flight[i]? = some (hook, n) →
      (∃ w ∈ (moment before).works, w.ends s = true) →
      (moment (before ++ [.work i])).registry = (moment before).registry ∧
      (∃ x, (moment (before ++ [.work i])).handed = (moment before).handed ++ [x] ∧
        x.status = .cancelledOrUnknown ∧
        ((turns.filterMap Turn.opened?).Nodup → versions = [x])) ∧
      ∀ more later, after = more ++ later → ∀ n m o now,
        (Hook.after ⟨s, b⟩ m o now).body policy n (moment (before ++ .work i :: more)).registry =
          .ignored (moment (before ++ .work i :: more)).registry := by
  intro hook moment versions
  have hversions : versions = versionsOf ⟨s, b⟩ (Race.empty.run policy turns).handed := by
    rw [← hoffered, ← Desk.accepted_of_queued sink hqueued]
  obtain ⟨⟨x, hx⟩, hterminal⟩ := h.exists_version hlook rfl hfound
  refine ⟨?_, h.exists_work hlook rfl hfound, fun before i after n hsplit hi hends => ?_⟩
  · rw [hversions]
    have hlast := List.getLast?_eq_some_getLast (List.ne_nil_of_mem hx)
    exact ⟨_, hlast, hterminal _ (List.mem_of_getLast? hlast)⟩
  · obtain ⟨hregistry, x, hhanded, hstatus, hone⟩ := h.late hsplit hi hends
    refine ⟨hregistry, ⟨x, hhanded, hstatus, fun hnodup => hversions.trans (hone hnodup)⟩, ?_⟩
    rintro more later rfl n m o now
    have hsplit' : turns = (before ++ .work i :: more) ++ later := by
      rw [hsplit, List.append_assoc, List.cons_append]
    refine h.ignored hsplit' ?_ n b m o now
    obtain ⟨w, hw, hends⟩ := hends
    refine ⟨w, ?_, hends⟩
    rw [Race.run_append]
    exact Race.mem_works_run _ _ hw

/-- A hook finds the session `s`, the session ends, and the hook opens a span in it afterwards: the
only version of the span is queued as cancelled. -/
theorem late_span_enqueued_cancelled :
    let turns : List Turn := [.start (.bare "s") true, .look (.bareBefore "a"), .look .bareFinish,
      .work 1, .work 0]
    let incidents := (Race.empty.run (StaticPolicy.of .debug).toPolicy turns).handed.map
      fun x => Incident.occurrence (.offer x)
    let desk := Desk.of Config.default.queue Config.default.writer MemoryStore.empty
    ∃ x, versionsOf ⟨"s", "a"⟩ (desk.accepted MemoryStore.sink incidents) = [x] ∧
      x.status = .cancelledOrUnknown := by
  intro turns incidents desk
  have hended : Race.EndedOnce (StaticPolicy.of .debug).toPolicy "s" turns := by
    refine ⟨⟨[], .bare "s", _, rfl, rfl, Or.inr rfl, by decide⟩, ?_, by decide +kernel⟩
    exact ⟨_, List.mem_cons_self, by decide +kernel⟩
  have hoffered : incidents.filterMap Incident.offered? =
      (Race.empty.run (StaticPolicy.of .debug).toPolicy turns).handed := by
    rw [List.filterMap_map]
    exact List.filterMap_some
  have hlook : turns = [.start (.bare "s") true] ++ .look (.bareBefore "a") ::
      [.look .bareFinish, .work 1, .work 0] := rfl
  obtain ⟨-, -, hlate⟩ := opened_span_enqueued_at_boundary MemoryStore.sink
    (StaticPolicy.of .debug).toPolicy hended hoffered (d := desk) (by decide +kernel)
    hlook (by decide +kernel)
  obtain ⟨-, ⟨x, -, hstatus, hone⟩, -⟩ := hlate [.start (.bare "s") true,
    .look (.bareBefore "a"), .look .bareFinish, .work 1] 0 [] 0 rfl rfl
    ⟨_, List.mem_cons_self, by decide +kernel⟩
  exact ⟨x, hone (by decide), hstatus⟩

end SpanRelay
