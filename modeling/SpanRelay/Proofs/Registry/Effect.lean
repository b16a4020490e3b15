import SpanRelay.Proofs.Registry.Folder

/-! # What a hook does

The work of a hook changes the folder of its own session only, and `Effect` lists the ways in which
it does, with the spans handed over to be written (`Hook.body_local`). What it does to the
registrations is that they go on, each as that of the same session, and that sessions may end
(`Succeeds`, `succeeds_body`). -/

namespace SpanRelay

/-- The span with the final fields of its session, as one that never completed if it is still in
progress. -/
def Span.finalize (span : Span) (stamp : Stamp) : Span := (span.stampWith stamp).abandon

namespace HookScope

/-- The span that is opened in a folder. -/
def spanIn (h : HookScope) (f : Folder) (sessionId spanId : String) (element : Element)
    (parent : Option ParentHint) (payload : Snapshot) (now : Timestamp) : Span :=
  { Span.opened spanId sessionId element (parent.bind f.resolveParent?) now h.session.stamp with
    before := h.retained element.elementId payload }

/-- The folder of a session that ends: if it fails only then, the held span is cached. -/
def ended (h : HookScope) (f : Folder) (status : Status) : Folder :=
  if h.failsAtEnd status then f.promoted else f

end HookScope

/-- The handle of the span that a hook opens. -/
def Hook.opened? : Hook → Option SpanRef
  | before sessionId spanId .. => some ⟨sessionId, spanId⟩
  | after .. | finish .. | correlate .. => none

/-- The ways in which a hook changes the folder of its session, with the spans to be written. -/
inductive Effect (h : HookScope) (f : Folder) : Hook → Folder → List Span → Prop
  /-- The session is over. -/
  | late {hook} (hb : hook.opened? = none) (ho : f.isOpen = false) : Effect h f hook f []
  /-- A span of a session that is not traced. -/
  | skipped {s b e p m now} (ht : h.tracking = .skip) : Effect h f (.before s b e p m now) f []
  /-- A span is held. -/
  | held {s b e p m now} (ht : h.tracking = .lastOnly) (ho : f.isOpen = true) :
      Effect h f (.before s b e p m now)
        ((f.record e.executionKey b).hold (h.spanIn f s b e p m now)) []
  /-- A span would have been held, but the session is over. -/
  | heldLate {s b e p m now} (ht : h.tracking = .lastOnly) (ho : f.isOpen = false) :
      Effect h f (.before s b e p m now) f []
  /-- A span is cached. -/
  | cached {s b e p m now} (ht : h.tracking = .full) (ho : f.isOpen = true) :
      Effect h f (.before s b e p m now)
        ((f.record e.executionKey b).cache (h.spanIn f s b e p m now)) []
  /-- A span would have been cached, but the session is over. -/
  | cachedLate {s b e p m now} (ht : h.tracking = .full) (ho : f.isOpen = false) :
      Effect h f (.before s b e p m now) f [(h.spanIn f s b e p m now).abandon]
  /-- A cached span ends. -/
  | completed {ref m o now x} (ho : f.isOpen = true) (hx : f.get? ref.spanId = some x) :
      Effect h f (.after ref m o now) (f.update ref.spanId (h.completed m o now))
        [h.completed m o now x]
  /-- A span that is not cached ends well. -/
  | completedHeld {ref m o now} (ho : f.isOpen = true) (hx : f.get? ref.spanId = none)
      (hf : o.isFailure = false) :
      Effect h f (.after ref m o now) (f.updateHeld ref.spanId (h.completed m o now)) []
  /-- The held span fails. -/
  | failedHeld {ref m o now x} (ho : f.isOpen = true) (hx : f.get? ref.spanId = none)
      (hf : o.isFailure = true) (hs : f.slot = some x) (hid : x.id = ref.spanId) :
      Effect h f (.after ref m o now) (f.free.fail.cache (h.completed m o now x))
        [h.completed m o now x]
  /-- A span fails that is not kept any more. -/
  | failedLost {ref m o now} (ho : f.isOpen = true) (hx : f.get? ref.spanId = none)
      (hf : o.isFailure = true) (hs : ∀ x, f.slot = some x → x.id ≠ ref.spanId)
      (hl : h.session.level = .error) :
      Effect h f (.after ref m o now) f.fail.promoted f.slot.toList
  /-- A span fails that was never kept. -/
  | failedUnkept {ref m o now} (ho : f.isOpen = true) (hx : f.get? ref.spanId = none)
      (hf : o.isFailure = true) (hs : ∀ x, f.slot = some x → x.id ≠ ref.spanId)
      (hl : h.session.level ≠ .error) : Effect h f (.after ref m o now) f []
  /-- The session ends. -/
  | finished {s status time ms} (ho : f.isOpen = true) :
      Effect h f (.finish s status time ms) .closed
        ((h.ended f status).cached.map fun x =>
          x.finalize (h.session.finish status time ms).stamp)
  /-- The session gets a correlation id. -/
  | correlated {s c} (ho : f.isOpen = true) :
      Effect h f (.correlate s c)
        (f.change fun g => { g with session := { g.session with correlationId := some c } }) []

namespace Registry

variable {r r' r'' : Registry} {policy : Policy} {hook : Hook} {n : Nat} {g : Registration}

/-! ### Registrations -/

/-- The registration `g'` is `g` some time later. -/
structure Continues (g g' : Registration) : Prop where
  id : g'.session.id = g.session.id
  level : g'.session.level = g.session.level
  sampled : g'.session.sampled = g.session.sampled

/-- The registrations go on, and no session is registered anew. -/
structure Succeeds (r r' : Registry) : Prop where
  registration : ∀ n g, r.registration? n = some g →
    ∃ g', r'.registration? n = some g' ∧ Continues g g'
  find : ∀ s, r'.find? s = r.find? s ∨ r'.find? s = none

namespace Succeeds

theorem of_eq (hr : r'.registrations = r.registrations) (hc : r'.current = r.current) :
    r.Succeeds r' where
  registration n g h := ⟨g, by unfold registration? at h ⊢; rw [hr]; exact h, rfl, rfl, rfl⟩
  find s := Or.inl (by unfold find?; rw [hc])

theorem refl (r : Registry) : r.Succeeds r := of_eq rfl rfl

theorem trans (h : r.Succeeds r') (h' : r'.Succeeds r'') : r.Succeeds r'' where
  registration n g hg := by
    obtain ⟨g', hg', hc⟩ := h.registration n g hg
    obtain ⟨g'', hg'', hc'⟩ := h'.registration n g' hg'
    exact ⟨g'', hg'', hc'.id.trans hc.id, hc'.level.trans hc.level, hc'.sampled.trans hc.sampled⟩
  find s := by
    rcases h'.find s with h' | h'
    · rw [h']
      exact h.find s
    · exact Or.inr h'

theorem modify {k : Registration → Registration}
    (hk : ∀ g, r.registration? n = some g → Continues g (k g)) : r.Succeeds (r.modify n k) where
  registration m g hg := by
    rw [registration?_modify]
    split
    · rename_i hm
      exact ⟨k g, by rw [hg]; rfl, hk g (by rw [hm]; exact hg)⟩
    · exact ⟨g, hg, rfl, rfl, rfl⟩
  find _ := Or.inl rfl

theorem markFailure (r : Registry) (n : Nat) : r.Succeeds (r.markFailure n) :=
  modify fun _ _ => ⟨rfl, rfl, rfl⟩

theorem clear (r : Registry) (s : String) : r.Succeeds (r.clear s) where
  registration _ g hg := ⟨g, hg, rfl, rfl, rfl⟩
  find t := by
    have hfind : (r.clear s).find? t = if t = s then none else r.find? t :=
      Map.Table.get?_erase _ _ _
    rw [hfind]
    split
    · exact Or.inr rfl
    · exact Or.inl rfl

theorem clearSlot (r : Registry) (s : String) :
    r.Succeeds { r with slots := r.slots.clear s } := of_eq rfl rfl

theorem upsertSpan (r : Registry) (s : String) (span : Span) : r.Succeeds (r.upsertSpan s span) := by
  unfold Registry.upsertSpan
  split
  · exact of_eq rfl rfl
  · exact refl r

theorem putLast (r : Registry) (s : String) (span : Span) : r.Succeeds (r.putLast s span) := by
  unfold Registry.putLast
  split
  · exact of_eq rfl rfl
  · exact refl r

theorem recordExecution (r : Registry) (s key id : String) :
    r.Succeeds (r.recordExecution s key id) := by
  unfold Registry.recordExecution
  split
  · exact of_eq rfl rfl
  · exact refl r

theorem promote (r : Registry) (s : String) : r.Succeeds (r.promote s).1 := by
  unfold Registry.promote
  split
  · exact refl r
  · dsimp only
    split
    · exact (clearSlot r s).trans (upsertSpan _ _ _)
    · exact clearSlot r s

theorem isRegistered_eq_false (h : r.Succeeds r') {s : String} (hs : r.isRegistered s = false) :
    r'.isRegistered s = false := by
  unfold isRegistered at hs ⊢
  rcases h.find s with hf | hf
  · rw [hf]
    exact hs
  · rw [hf]
    rfl

theorem numbered (h : r.Succeeds r') (hr : r.Numbered) : r'.Numbered := by
  intro s n hn
  rcases h.find s with hf | hf
  · rw [hf] at hn
    obtain ⟨g, hg, hid⟩ := hr s n hn
    obtain ⟨g', hg', hc⟩ := h.registration n g hg
    exact ⟨g', hg', hc.id.trans hid⟩
  · rw [hf] at hn
    cases hn

end Succeeds

/-- **The registrations go on** when a hook works. -/
theorem succeeds_body (policy : Policy) (hook : Hook) (n : Nat) (r : Registry) :
    r.Succeeds (hook.body policy n r).registry := by
  unfold Hook.body
  cases hg : r.registration? n with
  | none => exact .refl r
  | some g =>
    dsimp only
    cases hook with
    | before s b e p m now =>
      dsimp only [HookScope.before]
      split
      · exact .refl r
      · dsimp only [HookScope.keep]
        split
        · exact .recordExecution _ _ _ _
        · exact (Succeeds.recordExecution _ _ _ _).trans (.putLast _ _ _)
        · split
          · exact (Succeeds.recordExecution _ _ _ _).trans (.upsertSpan _ _ _)
          · exact .recordExecution _ _ _ _
    | after ref m o now =>
      dsimp only [HookScope.after]
      split
      · exact .refl r
      split
      · exact .of_eq rfl rfl
      split
      · exact .of_eq rfl rfl
      split
      · unfold HookScope.afterHeldFailure
        exact ((Succeeds.clearSlot r _).trans (.markFailure _ _)).trans (.upsertSpan _ _ _)
      split
      · exact (Succeeds.markFailure _ _).trans (.promote _ _)
      · exact .refl r
    | finish s status time ms =>
      dsimp only [HookScope.finish]
      split
      · exact .refl r
      · have hend : r.Succeeds (r.modify n fun g' =>
            { g' with session := g.session.finish status time ms }) := by
          refine .modify fun g' hg' => ?_
          rw [hg] at hg'
          cases hg'
          exact ⟨rfl, rfl, rfl⟩
        refine Succeeds.trans ?_ (.clear _ _)
        split
        · exact (hend.trans (.markFailure _ _)).trans (.promote _ _)
        · exact hend
    | correlate s c =>
      dsimp only [HookScope.correlate]
      split
      · exact .refl r
      · exact .modify fun _ _ => ⟨rfl, rfl, rfl⟩

end Registry

/-! ### The folder of the session -/

/-- The result of a hook is an effect on the folder of its session and leaves the others alone. -/
def HookResult.Local (result : HookResult) (h : HookScope) (r : Registry) (hook : Hook) : Prop :=
  ∃ f, Effect h (r.folder hook.sessionId) hook f result.spans ∧
    ∀ t, result.registry.folder t = if t = hook.sessionId then f else r.folder t

namespace HookScope

variable {h : HookScope} {r r' : Registry} {hook : Hook} {g : Registration}

theorem local_same {result : HookResult} (hr : result.registry = r)
    (he : Effect h (r.folder hook.sessionId) hook (r.folder hook.sessionId) result.spans) :
    result.Local h r hook := by
  refine ⟨_, he, fun t => ?_⟩
  rw [hr]
  split
  · rename_i ht
    rw [ht]
  · rfl

theorem local_edit {k : Folder → Folder} {spans : List Span} (hk : r.Edits r' hook.sessionId k)
    (he : Effect h (r.folder hook.sessionId) hook (k (r.folder hook.sessionId)) spans) :
    (HookResult.done r' spans).Local h r hook := by
  refine ⟨_, he, fun t => ?_⟩
  rw [HookResult.done, hk t]
  split
  · rename_i ht
    rw [ht]
  · rfl

theorem afterCached_local {ref : SpanRef} {x : Span}
    (ho : (r.folder ref.sessionId).isOpen = true)
    (hx : r.spans.get? ref.sessionId ref.spanId = some x) (m : Snapshot) (o : Outcome)
    (now : Timestamp) :
    (afterCached r ref (h.completed m o now)).Local h r (.after ref m o now) := by
  have hedit := Registry.edits_modifySpan r ref.sessionId ref.spanId (h.completed m o now)
  refine local_edit hedit ?_
  have hget := Registry.get?_folder
    { r with spans := r.spans.modify ref.sessionId ref.spanId (h.completed m o now) }
    ref.sessionId ref.spanId
  rw [hedit, if_pos rfl, Folder.get?_update, if_pos rfl, Registry.get?_folder, hx] at hget
  rw [← hget]
  exact .completed ho hx

variable (hr : r.Numbered)
include hr

theorem before_local (s b : String) (e : Element) (p : Option ParentHint) (m : Snapshot)
    (now : Timestamp) :
    (h.before r s b e p m now).Local h r (.before s b e p m now) := by
  have hopen := r.isOpen_folder hr s
  unfold before
  split
  · rename_i ht
    exact local_same rfl (.skipped ht)
  have hspan : h.openedSpan r s b e p m now = h.spanIn (r.folder s) s b e p m now := rfl
  dsimp only [keep]
  rw [hspan]
  cases hreg : r.isRegistered s with
  | false =>
    rw [hreg] at hopen
    have hrec : r.recordExecution s e.executionKey b = r := by
      unfold Registry.recordExecution
      rw [hreg]
      rfl
    rw [hrec]
    cases ht : h.tracking with
    | skip => contradiction
    | lastOnly =>
      refine local_same ?_ (.heldLate ht hopen)
      unfold Registry.putLast
      rw [hreg]
      rfl
    | full =>
      dsimp only
      rw [hreg]
      exact local_same rfl (.cachedLate ht hopen)
  | true =>
    rw [hreg] at hopen
    have hrec : (r.recordExecution s e.executionKey b).isRegistered s = true := by
      unfold Registry.recordExecution
      rw [hreg]
      exact hreg
    have hedit : r.Edits (r.recordExecution s e.executionKey b) s (·.record e.executionKey b) :=
      Registry.edits_recordExecution hreg _ _
    cases ht : h.tracking with
    | skip => contradiction
    | lastOnly => exact local_edit (hedit.trans (Registry.edits_putLast hrec _)) (.held ht hopen)
    | full =>
      dsimp only
      rw [hrec]
      exact local_edit (hedit.trans (Registry.edits_upsertSpan hrec _)) (.cached ht hopen)

variable (hg : r.registration? h.number = some g)
  (hn : r.find? g.session.id = some h.number ∨ r.find? g.session.id = none)
include hg hn

theorem correlate_local (c : String) :
    (h.correlate r g.session.id c).Local h r (.correlate g.session.id c) := by
  have hopen := r.isOpen_folder hr g.session.id
  unfold correlate
  cases hreg : r.isRegistered g.session.id with
  | false => exact local_same rfl (.late rfl (hopen.trans hreg))
  | true => exact local_edit (Registry.edits_modify hr hg hn _) (.correlated (hopen.trans hreg))

theorem afterHeldFailure_local {ref : SpanRef} (hid : g.session.id = ref.sessionId)
    (hreg : r.isRegistered ref.sessionId = true)
    (hx : r.spans.get? ref.sessionId ref.spanId = none) {held : Span}
    (hh : r.slots.heldAs? ref.sessionId ref.spanId = some held) {o : Outcome}
    (hf : o.isFailure = true) (m : Snapshot) (now : Timestamp) :
    (h.afterHeldFailure r ref (h.completed m o now held)).Local h r (.after ref m o now) := by
  obtain ⟨hslot, hheld⟩ := Option.filter_eq_some_iff.1 hh
  have hclear := Registry.edits_clearSlot r ref.sessionId
  have hfail : Registry.Edits { r with slots := r.slots.clear ref.sessionId }
      (Registry.markFailure { r with slots := r.slots.clear ref.sessionId } h.number)
      ref.sessionId (·.fail) :=
    hid ▸ Registry.edits_modify (r := { r with slots := r.slots.clear ref.sessionId }) hr hg hn _
  exact local_edit ((hclear.trans hfail).trans (Registry.edits_upsertSpan (by exact hreg) _))
    (.failedHeld ((r.isOpen_folder hr ref.sessionId).trans hreg) hx hf hslot (by simpa using hheld))

theorem afterLostFailure_local {ref : SpanRef} (hid : g.session.id = ref.sessionId)
    (hreg : r.isRegistered ref.sessionId = true)
    (hx : r.spans.get? ref.sessionId ref.spanId = none)
    (hs : ∀ x, (r.folder ref.sessionId).slot = some x → x.id ≠ ref.spanId)
    (hl : h.session.level = .error) {o : Outcome} (hf : o.isFailure = true) (m : Snapshot)
    (now : Timestamp) : (h.afterLostFailure r ref).Local h r (.after ref m o now) := by
  have hfail : r.Edits (r.markFailure h.number) ref.sessionId (·.fail) :=
    hid ▸ Registry.edits_modify hr hg hn _
  have hpromote := Registry.edits_promote (r := r.markFailure h.number) hreg
  have hget := Registry.get?_promote (r := r.markFailure h.number) hreg
  have hres : h.afterLostFailure r ref =
      .done ((r.markFailure h.number).promote ref.sessionId).1
        (((r.markFailure h.number).promote ref.sessionId).2.bind fun id =>
          ((r.markFailure h.number).promote ref.sessionId).1.spans.get? ref.sessionId id).toList :=
    rfl
  rw [hres, hget]
  exact local_edit (hfail.trans hpromote)
    (.failedLost ((r.isOpen_folder hr ref.sessionId).trans hreg) hx hf hs hl)

theorem after_local {ref : SpanRef} (hid : g.session.id = ref.sessionId) (m : Snapshot)
    (o : Outcome) (now : Timestamp) :
    (h.after r ref m o now).Local h r (.after ref m o now) := by
  have hopen := r.isOpen_folder hr ref.sessionId
  unfold after
  dsimp only
  cases hreg : r.isRegistered ref.sessionId with
  | false => exact local_same rfl (.late rfl (hopen.trans hreg))
  | true =>
  rw [hreg] at hopen
  simp only [Bool.not_true, Bool.false_eq_true, if_false]
  cases hx : r.spans.get? ref.sessionId ref.spanId with
  | some x =>
    have hc : r.spans.contains ref.sessionId ref.spanId = true := by
      rw [SpanCache.contains, hx]
      rfl
    rw [if_pos hc]
    exact afterCached_local hopen hx m o now
  | none =>
    have hc : ¬ r.spans.contains ref.sessionId ref.spanId = true := by
      rw [SpanCache.contains, hx]
      exact nofun
    rw [if_neg hc]
    cases hf : o.isFailure with
    | false =>
      exact local_edit (Registry.edits_modifySlot r _ _ _) (.completedHeld hopen hx hf)
    | true =>
    simp only [Bool.not_true, Bool.false_eq_true, if_false]
    cases hh : r.slots.heldAs? ref.sessionId ref.spanId with
    | some held => exact afterHeldFailure_local hr hg hn hid hreg hx hh hf m now
    | none =>
      have hs : ∀ x, (r.folder ref.sessionId).slot = some x → x.id ≠ ref.spanId := by
        intro x hslot hid
        have : r.slots.heldAs? ref.sessionId ref.spanId = some x :=
          Option.filter_eq_some_iff.2 ⟨hslot, by simpa using hid⟩
        rw [hh] at this
        cases this
      dsimp only
      split
      · rename_i hl
        exact afterLostFailure_local hr hg hn hid hreg hx hs hl hf m now
      · rename_i hl
        exact local_same rfl (.failedUnkept hopen hx hf hs hl)

theorem finish_local (hs : h.session = g.session) (status : Status) (time : Timestamp)
    (ms : UInt64) :
    (h.finish r g.session.id status time ms).Local h r (.finish g.session.id status time ms) := by
  have hopen := r.isOpen_folder hr g.session.id
  unfold finish
  cases hreg : r.isRegistered g.session.id with
  | false => exact local_same rfl (.late rfl (hopen.trans hreg))
  | true =>
  simp only [Bool.not_true, Bool.false_eq_true, if_false]
  -- the session record first gets its final fields, then the held span may be promoted
  generalize hr1 : r.modify h.number (fun g' =>
    { g' with session := h.session.finish status time ms }) = r1
  have hsucc : r.Succeeds r1 := by
    rw [← hr1]
    refine .modify fun g' hg' => ?_
    rw [hg] at hg'
    cases hg'
    rw [hs]
    exact ⟨rfl, rfl, rfl⟩
  have hedit : r.Edits r1 g.session.id _ := hr1 ▸ Registry.edits_modify hr hg hn _
  obtain ⟨g1, hg1, hcont⟩ := hsucc.registration _ _ hg
  have hn1 : r1.find? g1.session.id = some h.number ∨ r1.find? g1.session.id = none := by
    rw [hcont.id, ← hr1]
    exact hn
  have hreg1 : r1.isRegistered g.session.id = true := by rw [← hr1]; exact hreg
  have hfail : r1.Edits (r1.markFailure h.number) g.session.id (·.fail) :=
    hcont.id ▸ Registry.edits_modify (hsucc.numbered hr) hg1 hn1 _
  have hpromote := Registry.edits_promote (r := r1.markFailure h.number) (s := g.session.id)
    (by exact hreg1)
  cases he : h.failsAtEnd status with
  | false =>
    have hcached : (r1.spans.view? g.session.id).elim [] Map.Table.values =
        (h.ended (r.folder g.session.id) status).cached := by
      have hview : (r1.spans.view? g.session.id).elim [] Map.Table.values =
        (r1.folder g.session.id).cached := rfl
      rw [hview, hedit, if_pos rfl, ended, he]
      rfl
    simp only [Bool.false_eq_true, if_false]
    rw [hcached]
    exact local_edit (hedit.trans (Registry.edits_clear r1 _)) (.finished (hopen.trans hreg))
  | true =>
    simp only [if_true]
    generalize (r1.markFailure h.number).promote g.session.id = promoted at hpromote ⊢
    have hedit' := (hedit.trans hfail).trans hpromote
    have hcached : (promoted.1.spans.view? g.session.id).elim [] Map.Table.values =
        (h.ended (r.folder g.session.id) status).cached := by
      have hview : (promoted.1.spans.view? g.session.id).elim [] Map.Table.values =
        (promoted.1.folder g.session.id).cached := rfl
      rw [hview, hedit', if_pos rfl, ended, he, if_pos rfl]
      exact (Folder.cached_promoted_change _ _).trans (Folder.cached_promoted_change _ _)
    rw [hcached]
    exact local_edit (hedit'.trans (Registry.edits_clear promoted.1 _)) (.finished (hopen.trans hreg))

end HookScope

/-- **A hook changes the folder of its session only**, and in one of the ways of `Effect`, if the
registration it has found is the present one or the session is over. -/
theorem Hook.body_local {r : Registry} {hook : Hook} {n : Nat} {g : Registration} (policy : Policy)
    (hr : r.Numbered) (hg : r.registration? n = some g) (hid : g.session.id = hook.sessionId)
    (hn : r.find? hook.sessionId = some n ∨ r.find? hook.sessionId = none) :
    (hook.body policy n r).Local ⟨policy, n, g.session, g.failureSeen⟩ r hook := by
  unfold body
  rw [hg]
  dsimp only
  rw [← hid] at hn
  cases hook with
  | before s b e p m now => exact HookScope.before_local hr s b e p m now
  | after ref m o now => exact HookScope.after_local hr hg hn hid m o now
  | finish s status time ms =>
    obtain rfl : g.session.id = s := hid
    exact HookScope.finish_local hr hg hn rfl status time ms
  | correlate s c =>
    obtain rfl : g.session.id = s := hid
    exact HookScope.correlate_local hr hg hn c

end SpanRelay
