import SpanRelay.Proofs.Session.Failing
import SpanRelay.Proofs.Session.Race

/-! # Slots and caches

A session that is registered is at one of three stages (`Registry.Stage`). At the level ERROR it has
the span opened last in its slot and nothing cached; from its first failure on its slot is empty, and
that span and all later ones are cached. At the levels INFO and DEBUG it does not use its slot at all.
Every call leaves a session at a stage (`stage_call`), so all that are registered are at one
(`staged_calls`). Since a span is kept for the session that has opened it, no id is in a slot and in a
cache at once (`slot_cache_exclusive`). -/

namespace SpanRelay

/-! ### The slot and the cache of a folder -/

namespace Folder

variable {f : Folder}

theorem slot_promoted (f : Folder) : f.promoted.slot = none := by
  unfold promoted
  cases hs : f.slot with
  | none => exact hs
  | some x => rfl

theorem promoted_of_free (h : f.slot = none) : f.promoted = f := by
  unfold promoted
  rw [h]

theorem isSome_get?_promoted (h : f.spans = none) (b : String) :
    (f.promoted.get? b).isSome = true ↔ f.slot.map Span.id = some b := by
  unfold promoted
  cases hs : f.slot with
  | none => simp [get?_of_bare h]
  | some x =>
    have hfree : f.free.get? b = none := get?_of_bare h b
    rw [get?_cache, hfree, Option.map_some, Option.some_inj]
    by_cases hb : b = x.id
    · simp [hb]
    · simp [hb, Ne.symm hb]

end Folder

/-! ### One hook -/

namespace Effect

variable {h : HookScope} {hook : Hook} {f f' : Folder} {spans : List Span} {s : String}

theorem slot_eq_none (he : Effect h f hook f' spans) (ht : h.tracking ≠ .lastOnly)
    (hslot : f.slot = none) : f'.slot = none := by
  cases he with
  | late | skipped | heldLate | cached | cachedLate | completed | failedUnkept | correlated =>
    exact hslot
  | held hn => exact absurd hn ht
  | completedHeld =>
    rw [Folder.updateHeld, hslot]
    rfl
  | failedHeld | finished => rfl
  | failedLost => exact Folder.slot_promoted _

/-- **Before a failure** the slot has the span opened last. -/
theorem slot_of_quiet (he : Effect h f hook f' spans) (hid : hook.sessionId = s)
    (hends : hook.ends s = false) (hfails : (Call.hook hook).failsIn s = false)
    (ht : h.tracking = .lastOnly) (ho : f.isOpen = true) (hbare : f.spans = none) :
    f'.slot.map Span.id = ((openedOn s [.hook hook]).getLast?).or (f.slot.map Span.id) := by
  cases he with
  | late _ hc | heldLate _ hc | cachedLate _ hc => exact absurd (ho.symm.trans hc) (by decide)
  | skipped hn | cached hn => exact absurd (ht.symm.trans hn) (by decide)
  | @held t b e p m now =>
    obtain rfl : t = s := hid
    rw [openedOn_cons rfl]
    rfl
  | completed _ hx =>
    rw [Folder.get?_of_bare hbare] at hx
    cases hx
  | @completedHeld ref m o now =>
    -- the held span keeps its id when it ends
    have hsame : (f.updateHeld ref.spanId (h.completed m o now)).slot.map Span.id =
        f.slot.map Span.id := by
      rw [Folder.updateHeld, Option.map_map]
      refine congrArg (Option.map · f.slot) (funext fun x => ?_)
      dsimp only [Function.comp_apply]
      split <;> rfl
    exact hsame
  | failedHeld _ _ hf | failedLost _ _ hf =>
    exact absurd ((Call.failsIn_after hid hf).symm.trans hfails) (by decide)
  | failedUnkept | correlated => rfl
  | finished => exact absurd ((decide_eq_true hid).symm.trans hends) (by decide)

/-- **The first failure** empties the slot, and what was held is cached. -/
theorem emptied (he : Effect h f hook f' spans) (hfails : (Call.hook hook).failsIn s = true)
    (hl : h.session.level = .error) (ho : f.isOpen = true) (hbare : f.spans = none) :
    f'.slot = none ∧ ∀ b, (f'.get? b).isSome = true ↔ f.slot.map Span.id = some b := by
  cases he with
  | late _ hc => exact absurd (ho.symm.trans hc) (by decide)
  | skipped | held | heldLate | cached | cachedLate | finished | correlated => cases hfails
  | completed _ hx =>
    rw [Folder.get?_of_bare hbare] at hx
    cases hx
  | completedHeld _ _ hf =>
    have hboth := (Bool.and_eq_true_iff.1 hfails).2
    exact absurd (hf.symm.trans hboth) (by decide)
  | @failedHeld ref m o now x _ _ _ hs =>
    refine ⟨rfl, fun b => ?_⟩
    have hfree : f.free.fail.get? b = none := Folder.get?_of_bare hbare b
    have hid : (h.completed m o now x).id = x.id := rfl
    rw [Folder.get?_cache, hfree, hs, hid, Option.map_some, Option.some_inj]
    by_cases hb : b = x.id
    · simp [hb]
    · simp [hb, Ne.symm hb]
  | failedLost =>
    exact ⟨Folder.slot_promoted _, fun b => Folder.isSome_get?_promoted (f := f.fail) hbare b⟩
  | failedUnkept _ _ _ _ hn => exact absurd hl hn

/-- **After a failure** every span that is opened is cached, and stays so. -/
theorem isSome_get? (he : Effect h f hook f' spans) (hid : hook.sessionId = s)
    (hends : hook.ends s = false) (ht : h.tracking = .full) (ho : f.isOpen = true)
    (hslot : f.slot = none) (b : String) :
    (f'.get? b).isSome = true ↔ (f.get? b).isSome = true ∨ b ∈ openedOn s [.hook hook] := by
  cases he with
  | late _ hc | heldLate _ hc | cachedLate _ hc => exact absurd (ho.symm.trans hc) (by decide)
  | skipped hn | held hn => exact absurd (ht.symm.trans hn) (by decide)
  | @cached t b' e p m now =>
    obtain rfl : t = s := hid
    have hrecord : (f.record e.executionKey b').get? b = f.get? b := rfl
    have hb' : (h.spanIn f t b' e p m now).id = b' := rfl
    rw [Folder.get?_cache, hrecord, hb', openedOn_cons rfl]
    by_cases hb : b = b'
    · simp [hb]
    · simp [hb, openedOn]
  | @completed ref m o now x _ hx =>
    rw [Folder.get?_update]
    by_cases hb : b = ref.spanId
    · simp [hb, hx]
    · simp [hb, openedOn, Call.opened?, Hook.opened?]
  | completedHeld | failedUnkept | correlated => exact (or_iff_left List.not_mem_nil).symm
  | failedHeld _ _ _ hs =>
    rw [hslot] at hs
    cases hs
  | failedLost =>
    rw [Folder.promoted_of_free (f := f.fail) hslot]
    exact (or_iff_left List.not_mem_nil).symm
  | finished => exact absurd ((decide_eq_true hid).symm.trans hends) (by decide)

end Effect

/-! ### The stages of a session -/

theorem getLast?_openedOn_concat (s : String) (cs : List Call) (c : Call) :
    (openedOn s (cs ++ [c])).getLast? =
      ((openedOn s [c]).getLast?).or (openedOn s cs).getLast? := by
  rw [openedOn_append, List.getLast?_append]

theorem openedOn_singleton_of_not_isOf {s : String} {c : Call} (h : c.isOf s = false) :
    openedOn s [c] = [] := by
  refine SessionRun.openedOn_eq_nil fun d hd => ?_
  rw [List.mem_singleton.1 hd]
  exact Call.opensIn_of_not_isOf h

namespace Registry

variable {policy : Policy} {sample : UInt64 → Bool} {r : Registry} {session : Session} {c : Call}
  {cs : List Call} {failed : Bool}

/-- How the spans of a session are kept when the calls `cs` were made since it started. -/
inductive Stage (r : Registry) (session : Session) (cs : List Call) : Prop
  /-- At the level ERROR, nothing has failed so far. -/
  | waiting (hu : r.Unfailed session) (hl : session.level = .error)
      (hquiet : ∀ c ∈ cs, c.failsIn session.id = false)
      (hslot : (r.folder session.id).slot.map Span.id = (openedOn session.id cs).getLast?)
  /-- At the level ERROR, a call `c` was the first to report a failure. -/
  | failed {us vs : List Call} {c : Call} (hruns : r.Runs session true)
      (hl : session.level = .error) (hsplit : cs = us ++ c :: vs)
      (hquiet : ∀ d ∈ us, d.failsIn session.id = false) (hfails : c.failsIn session.id = true)
      (hslot : (r.folder session.id).slot = none)
      (hcached : ∀ b, ((r.folder session.id).get? b).isSome = true ↔
        (openedOn session.id us).getLast? = some b ∨ b ∈ openedOn session.id vs)
  /-- At the levels INFO and DEBUG. -/
  | traced {seen : Bool} (hruns : r.Runs session seen)
      (hl : session.level = .info ∨ session.level = .debug)
      (hslot : (r.folder session.id).slot = none)

section Call

variable (hr : r.Sound) (hf : ∀ t, c.started? = some t → r.isRegistered t = false)
  (hends : c.ends session.id = false)
include hr hf hends

/-- A session that has not failed keeps the span opened last until it fails, and caches it then. -/
theorem stage_call_of_unfailed (hu : r.Unfailed session) (hl : session.level = .error)
    (hquiet : ∀ c ∈ cs, c.failsIn session.id = false)
    (hslot : (r.folder session.id).slot.map Span.id = (openedOn session.id cs).getLast?) :
    (r.call policy sample c).1.Stage (session.during [c]) (cs ++ [c]) := by
  cases hfails : c.failsIn session.id with
  | false =>
    refine .waiting (unfailed_call hr hf hu hl hends hfails).1 hl (fun d hd => ?_) ?_
    · rcases List.mem_append.1 hd with hd | hd
      · exact hquiet d hd
      · rw [List.mem_singleton.1 hd]
        exact hfails
    · show ((r.call policy sample c).1.folder session.id).slot.map Span.id =
        (openedOn session.id (cs ++ [c])).getLast?
      rw [getLast?_openedOn_concat, ← hslot]
      rcases hu.cases hl policy sample hr hf with ⟨hof, hsame⟩ | ⟨hook, h, rfl, hid, ht, -, heff⟩
      · rw [hsame, openedOn_singleton_of_not_isOf hof]
        rfl
      · exact heff.slot_of_quiet hid hends hfails ht hu.runs.isOpen hu.bare
  | true =>
    have hruns : (r.call policy sample c).1.Runs (session.during [c]) true :=
      (fails_call hr hf hu hl hfails).1
    rcases hu.cases hl policy sample hr hf with ⟨hof, -⟩ | ⟨hook, h, rfl, hid, -, hlevel, heff⟩
    · exact absurd ((Call.failsIn_of_not_isOf hof).symm.trans hfails) (by decide)
    · obtain ⟨hempty, hcached⟩ := heff.emptied hfails hlevel hu.runs.isOpen hu.bare
      refine .failed hruns hl rfl hquiet hfails hempty fun b => ?_
      rw [hslot] at hcached
      exact (hcached b).trans (or_iff_left List.not_mem_nil).symm

/-- A session that has failed caches what it opens. -/
theorem stage_call_of_failed {us vs : List Call} {d : Call} (hruns : r.Runs session true)
    (hl : session.level = .error) (hquiet : ∀ d ∈ us, d.failsIn session.id = false)
    (hfails : d.failsIn session.id = true) (hslot : (r.folder session.id).slot = none)
    (hcached : ∀ b, ((r.folder session.id).get? b).isSome = true ↔
      (openedOn session.id us).getLast? = some b ∨ b ∈ openedOn session.id vs) :
    (r.call policy sample c).1.Stage (session.during [c]) (us ++ d :: vs ++ [c]) := by
  have hruns' : (r.call policy sample c).1.Runs (session.during [c]) true := by
    obtain ⟨failed', hruns', hup, -⟩ := runs_call hr hf hruns hends
    exact hup rfl ▸ hruns'
  have hsplit : us ++ d :: vs ++ [c] = us ++ d :: (vs ++ [c]) := by
    rw [List.append_assoc, List.cons_append]
  have hopened : ∀ b, b ∈ openedOn session.id (vs ++ [c]) ↔
      b ∈ openedOn session.id vs ∨ b ∈ openedOn session.id [c] := by
    intro b
    rw [openedOn_append, List.mem_append]
  rcases hruns.cases policy sample hr hf with ⟨hof, hsame⟩ | ⟨hook, h, rfl, hid, -, ht, heff⟩
  · rw [openedOn_singleton_of_not_isOf hof] at hopened
    refine .failed hruns' hl hsplit hquiet hfails ?_ fun b => ?_
    · show ((r.call policy sample c).1.folder session.id).slot = none
      rw [hsame, hslot]
    · show (((r.call policy sample c).1.folder session.id).get? b).isSome = true ↔
        (openedOn session.id us).getLast? = some b ∨ b ∈ openedOn session.id (vs ++ [c])
      rw [hsame, hcached, hopened, or_iff_left List.not_mem_nil]
  · rw [hl] at ht
    have hfull : h.tracking = .full := ht
    refine .failed hruns' hl hsplit hquiet hfails
      (heff.slot_eq_none (by rw [hfull]; decide) hslot) fun b => ?_
    refine (heff.isSome_get? hid hends hfull hruns.isOpen hslot b).trans ?_
    rw [hcached, or_assoc]
    exact or_congr_right (hopened b).symm

theorem stage_call_of_traced (hruns : r.Runs session failed)
    (hl : session.level = .info ∨ session.level = .debug)
    (hslot : (r.folder session.id).slot = none) :
    (r.call policy sample c).1.Stage (session.during [c]) (cs ++ [c]) := by
  obtain ⟨seen, hruns', -⟩ : ∃ seen, (r.call policy sample c).1.Runs (session.during [c]) seen ∧ _ :=
    runs_call hr hf hruns hends
  refine .traced hruns' hl ?_
  show ((r.call policy sample c).1.folder session.id).slot = none
  rcases hruns.cases policy sample hr hf with ⟨-, hsame⟩ | ⟨hook, h, -, -, -, ht, heff⟩
  · rw [hsame, hslot]
  · refine heff.slot_eq_none ?_ hslot
    rw [ht, SessionRun.tracking_of_level hl]
    split <;> decide

/-- **A call** leaves a session that goes on at a stage. -/
theorem stage_call (h : r.Stage session cs) :
    (r.call policy sample c).1.Stage (session.during [c]) (cs ++ [c]) := by
  cases h with
  | waiting hu hl hquiet hslot => exact stage_call_of_unfailed hr hf hends hu hl hquiet hslot
  | failed hruns hl hsplit hquiet hfails hslot hcached =>
    rw [hsplit]
    exact stage_call_of_failed hr hf hends hruns hl hquiet hfails hslot hcached
  | traced hruns hl hslot => exact stage_call_of_traced hr hf hends hruns hl hslot

end Call

theorem stage_put (hr : r.Sound) (hnew : r.isRegistered session.id = false)
    (hl : session.level ≠ .off) : (r.put session).Stage session [] := by
  have hput : (r.put session).folder session.id = Folder.closed.register session :=
    SessionRun.folder_put hr hnew
  have hruns : (r.put session).Runs session false := congrArg Folder.registration hput
  have hslot : ((r.put session).folder session.id).slot = none := congrArg Folder.slot hput
  cases hlevel : session.level with
  | off => exact absurd hlevel hl
  | error =>
    refine .waiting ⟨hruns, congrArg Folder.spans hput⟩ hlevel (fun _ hc => ?_) ?_
    · exact absurd hc List.not_mem_nil
    · rw [hslot]
      rfl
  | info => exact .traced hruns (Or.inl hlevel) hslot
  | debug => exact .traced hruns (Or.inr hlevel) hslot

/-- The sessions that are registered after the calls `past` are at the stages that the calls since
their starts tell. -/
def Staged (past : List Call) (r : Registry) : Prop :=
  ∀ s, r.isRegistered s = true → ∃ before start draw since session,
    past = before ++ .start start draw :: since ∧ start.sessionId = s ∧
    (∀ c ∈ since, c.started? ≠ some s ∧ c.ends s = false) ∧
    session.id = s ∧ r.Stage session since

theorem staged_empty : Staged [] .empty := fun _ h => nomatch h

theorem staged_call {past : List Call} (hr : r.Sound)
    (hf : ∀ t, c.started? = some t → r.isRegistered t = false) (h : Staged past r) :
    Staged (past ++ [c]) (r.call policy sample c).1 := by
  intro s hs
  by_cases hc : c.started? = some s
  · -- the session starts
    cases c with
    | hook hook => cases hc
    | start start draw =>
      obtain rfl : start.sessionId = s := Option.some.inj hc
      have hnew : r.isRegistered start.sessionId = false := hf _ rfl
      have hon : policy.sessionLevel start.chainId ≠ .off := by
        intro hoff
        have hsame : (r.call policy sample (.start start draw)).1 = r := if_pos hoff
        rw [hsame, hnew] at hs
        cases hs
      have hput : (r.call policy sample (.start start draw)).1 =
          r.put (.start start (policy.sessionLevel start.chainId) (sample draw)) := if_neg hon
      rw [hput]
      exact ⟨past, start, draw, [], _, rfl, rfl, fun _ hd => absurd hd List.not_mem_nil, rfl,
        stage_put hr hnew hon⟩
  · -- the session was registered before, and goes on
    rcases isRegistered_call hr hs with ⟨hreg, hends⟩ | ⟨start, draw, rfl, hid⟩
    · obtain ⟨before, start, draw, since, session, rfl, hstart, hgoes, rfl, hstage⟩ := h s hreg
      refine ⟨before, start, draw, since ++ [c], session.during [c], by simp, hstart, ?_, rfl,
        stage_call hr hf hends hstage⟩
      intro d hd
      rcases List.mem_append.1 hd with hd | hd
      · exact hgoes d hd
      · rw [List.mem_singleton.1 hd]
        exact ⟨hc, hends⟩
    · exact absurd (congrArg some hid) hc

/-- **All calls** leave the sessions that are registered at the stages that the calls tell. -/
theorem staged_calls (cs : List Call) {past : List Call} (hr : r.Sound)
    (hfresh : Fresh policy sample r cs) (h : Staged past r) :
    Staged (past ++ cs) (r.calls policy sample cs) := by
  induction cs generalizing r past with
  | nil => rwa [List.append_nil]
  | cons c cs ih =>
    have hcons : past ++ c :: cs = past ++ [c] ++ cs := by simp
    rw [hcons]
    exact ih (sound_call hr c) hfresh.2 (staged_call hr hfresh.1 h)

end Registry

/-! ### No span in both -/

theorem OpenedIn.sessionId_eq {cs : List Call} (hd : (openedIds cs).Nodup) {s t b : String}
    (hs : OpenedIn cs ⟨s, b⟩) (ht : OpenedIn cs ⟨t, b⟩) : s = t := by
  have mem : ∀ {ref}, OpenedIn cs ref → ref ∈ cs.filterMap Call.opened? := by
    rintro ref ⟨before, c, since, rfl, hc, -⟩
    exact List.mem_filterMap.2 ⟨c, by simp, hc⟩
  exact congrArg SpanRef.sessionId (List.inj_on_of_nodup_map hd (mem hs) (mem ht) rfl)

theorem Folder.length_kept_of_bare {f : Folder} (h : f.spans = none) : f.kept.length ≤ 1 := by
  have hcached : f.cached = [] := by
    rw [cached, h]
    rfl
  rw [kept, hcached, List.append_nil]
  cases f.slot with
  | none => exact Nat.zero_le 1
  | some x => exact Nat.le_refl 1

namespace Registry

variable {r : Registry} {session : Session} {cs : List Call} {s t : String} {x : Span}

theorem Stage.bare_of_slot (h : r.Stage session cs) (hx : (r.folder session.id).slot = some x) :
    (r.folder session.id).spans = none := by
  cases h with
  | waiting hu => exact hu.bare
  | failed _ _ _ _ _ hslot | traced _ _ hslot =>
    rw [hslot] at hx
    cases hx

theorem Staged.bare_of_slot (h : Staged cs r) (hr : r.Sound) (hx : (r.folder s).slot = some x) :
    (r.folder s).spans = none := by
  have hopen : (r.folder s).isOpen = true := by
    rw [← Bool.not_eq_false]
    intro hc
    rw [(hr.folder s).closed hc] at hx
    cases hx
  obtain ⟨_, _, _, _, session, -, -, -, rfl, hstage⟩ :=
    h s ((isOpen_folder hr.numbered s).symm.trans hopen)
  exact hstage.bare_of_slot hx

/-- **No span in both.** The id of a span that is held stands in no cache. -/
theorem get?_eq_none_of_slot (h : Staged cs r) (hr : r.Sound) (htraced : r.Traced cs)
    (hd : (openedIds cs).Nodup) (hx : (r.folder s).slot = some x) : (r.folder t).get? x.id = none := by
  have hopened : ∀ t, ∀ y ∈ (r.folder t).kept, OpenedIn cs ⟨t, y.id⟩ := by
    intro t y hy
    have ho := htraced.kept t y hy
    rwa [(hr.folder t).own y hy] at ho
  rw [Option.eq_none_iff_forall_ne_some]
  intro y hy
  -- the spans have one id, so they are of one session
  have hs : OpenedIn cs ⟨s, x.id⟩ := hopened s x (Folder.mem_kept.2 (Or.inl hx))
  have ht : OpenedIn cs ⟨t, x.id⟩ := by
    have ho := hopened t y (Folder.mem_kept.2 (Or.inr (Folder.mem_cached_of_get? hy)))
    rwa [(hr.folder t).id_of_get? hy] at ho
  obtain rfl : s = t := hs.sessionId_eq hd ht
  rw [Folder.get?_of_bare (h.bare_of_slot hr hx)] at hy
  cases hy

end Registry

/-- **Slots and caches.** After any proper calls, a session at the level ERROR that has not failed
since its start has nothing cached and holds the span opened last. One that has failed holds nothing,
and what is cached is the last span opened before the first failure and all spans opened since. A
session at the level INFO or DEBUG holds nothing. No id is in a slot and in a cache, be it of
different sessions, and what is cached stands under its own id in its own session. -/
theorem slot_cache_exclusive (policy : Policy) (sample : UInt64 → Bool) (cs : List Call)
    (hp : Proper policy sample cs) :
    let r := Registry.empty.calls policy sample cs
    (∀ s g, r.get? s = some g → ∃ before start draw since,
      cs = before ++ .start start draw :: since ∧ start.sessionId = s ∧
      (∀ c ∈ since, c.started? ≠ some s ∧ c.ends s = false) ∧
      (g.session.level = .error → g.failureSeen = false →
        (∀ c ∈ since, c.failsIn s = false) ∧ r.spans.view? s = none ∧
        (r.slots.held? s).map Span.id = (openedOn s since).getLast? ∧ (r.folder s).kept.length ≤ 1) ∧
      (g.session.level = .error → g.failureSeen = true →
        r.slots.held? s = none ∧ ∃ quiet c failed, since = quiet ++ c :: failed ∧
          (∀ d ∈ quiet, d.failsIn s = false) ∧ c.failsIn s = true ∧
          ∀ b, (r.spans.get? s b).isSome = true ↔
            (openedOn s quiet).getLast? = some b ∨ b ∈ openedOn s failed) ∧
      (g.session.level = .info ∨ g.session.level = .debug → r.slots.held? s = none)) ∧
    (∀ s t x, r.slots.held? s = some x → r.spans.get? t x.id = none) ∧
    ∀ s b x, r.spans.get? s b = some x → x.id = b ∧ x.sessionId = s := by
  intro r
  have hr : r.Sound := Registry.sound_calls cs Registry.sound_empty
  have htraced : r.Traced cs :=
    (Registry.traced_calls cs Registry.sound_empty Registry.traced_empty).1
  have hstaged : Registry.Staged cs r :=
    Registry.staged_calls cs Registry.sound_empty hp.fresh Registry.staged_empty
  refine ⟨fun s g hg => ?_, fun s t x hx => ?_, fun s b x hx => ?_⟩
  · have hs : r.isRegistered s = true :=
      (Registry.isOpen_folder hr.numbered s).symm.trans (congrArg Option.isSome hg)
    obtain ⟨before, start, draw, since, session, hcs, hid, hgoes, rfl, hstage⟩ := hstaged s hs
    refine ⟨before, start, draw, since, hcs, hid, hgoes, ?_⟩
    cases hstage with
    | waiting hu hl hquiet hslot =>
      obtain rfl : g = ⟨session, false⟩ := Option.some.inj (hg.symm.trans hu.runs)
      refine ⟨fun _ _ => ?_, fun _ hflag => ?_, fun hn => ?_⟩
      · exact ⟨hquiet, hu.bare, hslot, Folder.length_kept_of_bare hu.bare⟩
      · cases hflag
      · rcases hn with hn | hn <;> exact absurd (hl.symm.trans hn) (by decide)
    | failed hruns hl hsplit hquiet hfails hslot hcached =>
      obtain rfl : g = ⟨session, true⟩ := Option.some.inj (hg.symm.trans hruns)
      refine ⟨fun _ hflag => ?_, fun _ _ => ?_, fun _ => hslot⟩
      · cases hflag
      · exact ⟨hslot, _, _, _, hsplit, hquiet, hfails, hcached⟩
    | @traced seen hruns hl hslot =>
      obtain rfl : g = ⟨session, seen⟩ := Option.some.inj (hg.symm.trans hruns)
      have hne : session.level ≠ .error := by
        rcases hl with hl | hl <;> rw [hl] <;> decide
      exact ⟨fun he => absurd he hne, fun he => absurd he hne, fun _ => hslot⟩
  · exact Registry.get?_eq_none_of_slot hstaged hr htraced hp.distinct hx
  · have hkept : x ∈ (r.folder s).kept :=
      Folder.mem_kept.2 (Or.inr (Folder.mem_cached_of_get? hx))
    exact ⟨(hr.folder s).id_of_get? hx, (hr.folder s).own x hkept⟩

/-- A session that has failed beside one that has not. -/
theorem slot_cache_exclusive_of_two :
    let now := (SessionStart.bare "s").startedAt
    let step : Element := ⟨"step", "Step", "script", none, none⟩
    let cs : List Call := [.start (.bare "s") 0, .start (.bare "t") 0, .hook (.bareBefore "a"),
      .hook (.before "t" "b" step none .empty now), .hook (.bareBefore "c"),
      .hook (.after ⟨"s", "c"⟩ .empty (.failure ⟨"E", "m", none⟩) now), .hook (.bareBefore "d"),
      .hook (.before "t" "e" step none .empty now)]
    let policy := (StaticPolicy.of .error).toPolicy
    let r := Registry.empty.calls policy (isSampled 1.0) cs
    Proper policy (isSampled 1.0) cs ∧ r.slots.held? "s" = none ∧ (r.folder "t").kept.length ≤ 1 ∧
      ∀ x, r.slots.held? "t" = some x → r.spans.get? "s" x.id = none := by
  intro now step cs policy r
  have hp : Proper policy (isSampled 1.0) cs := by
    constructor
    · exact Registry.fresh_of_nodup (by decide)
    · decide
  obtain ⟨hstages, hboth, -⟩ := slot_cache_exclusive policy (isSampled 1.0) cs hp
  have hs : (r.get? "s").map (fun g => (g.session.level, g.failureSeen)) = some (.error, true) := by
    decide +kernel
  have ht : (r.get? "t").map (fun g => (g.session.level, g.failureSeen)) = some (.error, false) := by
    decide +kernel
  obtain ⟨g, hg, hfailed⟩ := Option.map_eq_some_iff.1 hs
  obtain ⟨g', hg', hgoes⟩ := Option.map_eq_some_iff.1 ht
  obtain ⟨hl, hflag⟩ := Prod.mk.inj hfailed
  obtain ⟨hl', hflag'⟩ := Prod.mk.inj hgoes
  obtain ⟨_, _, _, _, -, -, -, -, hempty, -⟩ := hstages "s" g hg
  obtain ⟨_, _, _, _, -, -, -, hwaiting, -⟩ := hstages "t" g' hg'
  exact ⟨hp, (hempty hl hflag).1, (hwaiting hl' hflag').2.2.2, hboth "t" "s"⟩

end SpanRelay
