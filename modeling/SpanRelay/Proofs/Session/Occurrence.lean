import Mathlib.Data.List.Induction
import SpanRelay.Proofs.Record.Key
import SpanRelay.Proofs.Session.Parents

/-! # Occurrences

In whatever way a session is tracked, its execution map holds for each key the span opened last since
the session started (`Registry.Tracks.recalls`): nothing but the opening of a span writes to the map,
and nothing but the end of the session clears it. An execution key tells the element and the branch
where the ids of the elements are without the separator (`executionKey_eq_iff`). So a plain hint finds
the occurrence opened last of its element and branch, whatever has become of it. -/

namespace SpanRelay

/-! ### Elements and branches -/

/-- The element that a call opens a span for. -/
def Call.element? : Call → Option Element
  | hook (.before _ _ element ..) => some element
  | start .. | hook _ => none

/-- The span that a call opens in a session for an element in a branch. -/
def Call.openedFor? (s elementId : String) (branchKey : Option String) : Call → Option String
  | hook (.before sessionId spanId element ..) =>
    if sessionId = s ∧ element.elementId = elementId ∧ element.branchKey = branchKey then some spanId
    else none
  | start .. | hook _ => none

/-- The span that was opened last in a session for an element in a branch. -/
def lastOccurrence? (s elementId : String) (branchKey : Option String) (cs : List Call) :
    Option String :=
  (cs.filterMap (Call.openedFor? s elementId branchKey)).getLast?

theorem lastOpened?_eq_lastOccurrence? {s : String} {hint : ParentHint} {cs : List Call}
    (hcs : ∀ c ∈ cs, ∀ e ∈ c.element?, '#' ∉ e.elementId.toList)
    (hhint : '#' ∉ hint.elementId.toList) :
    lastOpened? s hint.executionKey cs = lastOccurrence? s hint.elementId hint.branchKey cs := by
  refine congrArg List.getLast? (List.filterMap_congr fun c hc => ?_)
  cases c with
  | start => rfl
  | hook hook =>
    cases hook with
    | before t b e p m now =>
      have hkey : e.executionKey = hint.executionKey ↔
          e.elementId = hint.elementId ∧ e.branchKey = hint.branchKey :=
        executionKey_eq_iff (hcs _ hc e rfl) hhint _ _
      simp only [Call.openedAs?, Call.openedFor?, hkey]
    | after | finish | correlate => rfl

/-! ### The execution map -/

theorem Tracking.of_ne_skip {level : Level} {sampled seen : Bool}
    (h : Tracking.of level sampled seen ≠ .skip) (seen' : Bool) :
    Tracking.of level sampled seen' ≠ .skip := by
  cases level with
  | off => exact absurd rfl h
  | error => cases seen' <;> nofun
  | info | debug =>
    cases sampled with
    | false => exact absurd rfl h
    | true => nofun

theorem Folder.latest?_promoted (f : Folder) (key : String) :
    f.promoted.latest? key = f.latest? key := by
  unfold promoted
  cases f.slot <;> rfl

namespace Effect

variable {h : HookScope} {hook : Hook} {f f' : Folder} {spans : List Span} {s : String}

/-- **A hook** of a session that goes on records the span that it opens, and nothing else. -/
theorem latest? (he : Effect h f hook f' spans) (hid : hook.sessionId = s) (ho : f'.isOpen = true)
    (key : String) :
    f'.latest? key = (if h.tracking = .skip then none else (Call.hook hook).openedAs? s key).or
      (f.latest? key) := by
  cases he with
  | late _ hc | heldLate _ hc | cachedLate _ hc => exact absurd (ho.symm.trans hc) (by decide)
  | skipped hn => rw [if_pos hn, Option.none_or]
  | @held t b e _ _ _ hn | @cached t b e _ _ _ hn =>
    refine (Folder.latest?_record f e.executionKey key b).trans ?_
    have ht : t = s := hid
    have hskip : h.tracking ≠ .skip := by
      rw [hn]
      decide
    rw [if_neg hskip]
    simp only [Call.openedAs?, ht, true_and, eq_comm (a := e.executionKey)]
    split <;> simp
  | completed | completedHeld | failedHeld | correlated =>
    simp only [Call.openedAs?, ite_self, Option.none_or]
    rfl
  | failedUnkept => simp only [Call.openedAs?, ite_self, Option.none_or]
  | failedLost =>
    simp only [Call.openedAs?, ite_self, Option.none_or]
    exact Folder.latest?_promoted _ key
  | finished => cases ho

end Effect

namespace Registry

variable {policy : Policy} {sample : UInt64 → Bool} {r : Registry} {s : String}

/-- A session is registered, and its spans are tracked. -/
def Tracks (r : Registry) (s : String) : Prop :=
  ∃ g, r.get? s = some g ∧ Tracking.of g.session.level g.session.sampled g.failureSeen ≠ .skip

theorem Tracks.isRegistered (hr : r.Sound) (h : r.Tracks s) : r.isRegistered s = true := by
  obtain ⟨g, hg, -⟩ := h
  rw [← isOpen_folder hr.numbered]
  exact congrArg Option.isSome hg

theorem session_id_of_get? (hr : r.Sound) {g : Registration} (hg : r.get? s = some g) :
    g.session.id = s := by
  obtain ⟨n, hn, hg⟩ := Option.bind_eq_some_iff.1 hg
  obtain ⟨g', hg', hid⟩ := hr.numbered s n hn
  rw [hg] at hg'
  cases hg'
  exact hid

/-- **A call** that does not start the session. If the session is tracked afterwards, it was so
before, and what the call opens in it is recorded. -/
theorem Tracks.of_call (hr : r.Sound) {c : Call} (hc : c.started? ≠ some s)
    (h : (r.call policy sample c).1.Tracks s) :
    r.Tracks s ∧ c.ends s = false ∧ ∀ key, ((r.call policy sample c).1.folder s).latest? key =
      (c.openedAs? s key).or ((r.folder s).latest? key) := by
  have hafter := h.isRegistered (sound_call hr c)
  obtain ⟨g', hg', ht'⟩ := h
  rcases isRegistered_call hr hafter with ⟨hreg, hends⟩ | ⟨start, draw, rfl, hid⟩
  · have ho : (r.folder s).isOpen = true := (isOpen_folder hr.numbered s).trans hreg
    rcases call_cases hr (fun h => absurd h hc) ho with
      ⟨hof, hsame⟩ | ⟨hook, scope, g, rfl, hid, hg, hs, hseen, heff⟩
    · refine ⟨⟨g', ?_, ht'⟩, hends, fun key => ?_⟩
      · exact (congrArg Folder.registration hsame).symm.trans hg'
      · rw [hsame, Call.openedAs?_of_not_isOf hof, Option.none_or]
    · -- the level and the sampling of the session are as before
      obtain ⟨failed, hruns, -⟩ := heff.runs hid hends (session_id_of_get? hr hg) hg
      obtain rfl := Option.some.inj (hruns.symm.trans hg')
      have ht : Tracking.of g.session.level g.session.sampled g.failureSeen ≠ .skip :=
        Tracking.of_ne_skip ht' _
      have hscope : scope.tracking ≠ .skip := by
        rw [HookScope.tracking, hs, hseen]
        exact ht
      have ho' := (isOpen_folder (sound_call hr (.hook hook)).numbered s).trans hafter
      refine ⟨⟨g, hg, ht⟩, hends, fun key => ?_⟩
      rw [heff.latest? hid ho', if_neg hscope]
  · exact absurd (congrArg some hid) hc

end Registry

/-- The calls `since` were made since the session was started, and it was tracked all the time. -/
structure TrackedSince (policy : Policy) (sample : UInt64 → Bool) (s : String)
    (cs since : List Call) : Prop where
  start : ∃ before start draw, cs = before ++ .start start draw :: since ∧ start.sessionId = s ∧
    ∀ during rest, since = during ++ rest →
      (Registry.empty.calls policy sample (before ++ .start start draw :: during)).Tracks s
  goes : ∀ c ∈ since, c.started? ≠ some s ∧ c.ends s = false

namespace TrackedSince

variable {policy : Policy} {sample : UInt64 → Bool} {s : String} {cs since : List Call}

theorem of_start (past : List Call) (start : SessionStart) (draw : UInt64)
    (h : (Registry.empty.calls policy sample (past ++ [.start start draw])).Tracks start.sessionId) :
    TrackedSince policy sample start.sessionId (past ++ [.start start draw]) [] where
  start := by
    refine ⟨past, start, draw, rfl, rfl, fun during rest hsplit => ?_⟩
    obtain ⟨rfl, -⟩ := List.append_eq_nil_iff.1 hsplit.symm
    exact h
  goes := List.forall_mem_nil _

theorem concat (h : TrackedSince policy sample s cs since) {c : Call} (hc : c.started? ≠ some s)
    (hends : c.ends s = false) (ht : (Registry.empty.calls policy sample (cs ++ [c])).Tracks s) :
    TrackedSince policy sample s (cs ++ [c]) (since ++ [c]) where
  start := by
    obtain ⟨before, start, draw, rfl, hid, htracked⟩ := h.start
    refine ⟨before, start, draw, by simp, hid, fun during rest hsplit => ?_⟩
    rcases List.eq_nil_or_concat rest with rfl | ⟨rest, d, rfl⟩
    · rw [List.append_nil] at hsplit
      rw [← hsplit, ← List.cons_append, ← List.append_assoc]
      exact ht
    · rw [List.concat_eq_append, ← List.append_assoc] at hsplit
      exact htracked during rest (List.append_inj' hsplit rfl).1
  goes d hd := by
    rcases List.mem_append.1 hd with hd | hd
    · exact h.goes d hd
    · rw [List.mem_singleton.1 hd]
      exact ⟨hc, hends⟩

end TrackedSince

/-- **A session that is tracked** was so since it started, and its execution map tells for each key the
span opened last since then. -/
theorem Registry.Tracks.recalls {policy : Policy} {sample : UInt64 → Bool} {s : String}
    (cs : List Call) (hfresh : Fresh policy sample .empty cs)
    (h : (empty.calls policy sample cs).Tracks s) :
    ∃ since, TrackedSince policy sample s cs since ∧
      ∀ key, ((empty.calls policy sample cs).folder s).latest? key = lastOpened? s key since := by
  induction cs using List.reverseRecOn with
  | nil =>
    obtain ⟨g, hg, -⟩ := h
    exact nomatch hg
  | append_singleton cs c ih =>
    obtain ⟨hcs, hlast⟩ := fresh_append cs [c] hfresh
    have hr : (empty.calls policy sample cs).Sound := sound_calls cs sound_empty
    have hstep : empty.calls policy sample (cs ++ [c]) =
        ((empty.calls policy sample cs).call policy sample c).1 := calls_append cs [c]
    by_cases hc : c.started? = some s
    · cases c with
      | hook hook => cases hc
      | start start draw =>
        obtain rfl : start.sessionId = s := Option.some.inj hc
        refine ⟨[], .of_start cs start draw h, fun key => ?_⟩
        have hnew : (empty.calls policy sample cs).isRegistered start.sessionId = false :=
          hlast.1 _ rfl
        have hreg := h.isRegistered (sound_calls _ sound_empty)
        rw [hstep] at hreg ⊢
        dsimp only [call] at hreg ⊢
        split at hreg
        · exact absurd (hnew.symm.trans hreg) (by decide)
        · rename_i hon
          rw [if_neg hon]
          exact congrArg (Folder.latest? · key) (SessionRun.folder_put hr hnew)
    · have hafter := h
      rw [hstep] at hafter
      obtain ⟨ht, hends, hrecords⟩ := hafter.of_call hr hc
      obtain ⟨since, hsince, hlatest⟩ := ih hcs ht
      refine ⟨since ++ [c], hsince.concat hc hends h, fun key => ?_⟩
      rw [hstep, hrecords, hlatest, lastOpened?_concat]

/-! ### The parent of a new span -/

namespace Effect

variable {h : HookScope} {f f' : Folder} {spans : List Span} {s b : String} {e : Element}
  {p : Option ParentHint} {m : Snapshot} {now : Timestamp}

/-- **A span that is opened** is kept as the session is tracked, with the parent that is found. -/
theorem exists_kept (he : Effect h f (.before s b e p m now) f' spans) (ho : f.isOpen = true)
    (ht : h.tracking ≠ .skip) :
    ∃ x, (if h.tracking = .full then f'.get? b else f'.slot) = some x ∧ x.id = b ∧
      x.parentId = p.bind f.resolveParent? := by
  cases he with
  | late hb => cases hb
  | skipped hn => exact absurd hn ht
  | heldLate _ hc | cachedLate _ hc => exact absurd (ho.symm.trans hc) (by decide)
  | held hn =>
    rw [hn]
    exact ⟨_, rfl, rfl, rfl⟩
  | cached hn =>
    rw [hn]
    exact ⟨_, (Folder.get?_cache _ _ _).trans (if_pos rfl), rfl, rfl⟩

end Effect

/-- **The parent of a plain hint.** Let any calls be made that start no session which is registered,
and open spans for elements whose ids are without the separator. A new span of a session that is
tracked, with a plain hint whose id is without it, is kept as the session is tracked; its parent is
the span that was opened last, since the session started, for the element and the branch of the hint,
and there is none if there was no such span. The session was tracked all the time, so this span was,
too; but nothing is asked about what has become of it. -/
theorem plain_parent_opened_last (policy : Policy) (sample : UInt64 → Bool) (cs : List Call)
    (hfresh : Registry.Fresh policy sample .empty cs)
    (hcs : ∀ c ∈ cs, ∀ e ∈ c.element?, '#' ∉ e.elementId.toList) (s : String) (g : Registration)
    (hg : (Registry.empty.calls policy sample cs).get? s = some g)
    (ht : Tracking.of g.session.level g.session.sampled g.failureSeen ≠ .skip) (hint : ParentHint)
    (hplain : hint.hasIntermediateParents = false) (hhint : '#' ∉ hint.elementId.toList)
    (b : String) (element : Element) (payload : Snapshot) (now : Timestamp) :
    let r := ((Registry.empty.calls policy sample cs).call policy sample
      (.hook (.before s b element (some hint) payload now))).1
    ∃ since x, TrackedSince policy sample s cs since ∧
      (if Tracking.of g.session.level g.session.sampled g.failureSeen = .full then r.spans.get? s b
        else r.slots.held? s) = some x ∧
      x.id = b ∧ x.parentId = lastOccurrence? s hint.elementId hint.branchKey since := by
  intro r
  have hr : (Registry.empty.calls policy sample cs).Sound :=
    Registry.sound_calls cs Registry.sound_empty
  have hid : g.session.id = s := Registry.session_id_of_get? hr hg
  obtain ⟨since, hsince, hlatest⟩ := Registry.Tracks.recalls cs hfresh ⟨g, hg, ht⟩
  subst hid
  obtain ⟨scope, htracking, heff⟩ := Registry.open_cases policy sample hr hg b element (some hint)
    payload now
  obtain ⟨x, hx, hb, hparent⟩ := heff.exists_kept (congrArg Option.isSome hg) (htracking ▸ ht)
  rw [htracking] at hx
  refine ⟨since, x, hsince, hx, hb, ?_⟩
  rw [hparent, Option.bind_some, Folder.resolveParent?_of_plain hplain, hlatest]
  refine lastOpened?_eq_lastOccurrence? (fun c hc => hcs c ?_) hhint
  obtain ⟨before, start, draw, rfl, -⟩ := hsince.start
  exact List.mem_append_right _ (List.mem_cons_of_mem _ hc)

/-- At the level ERROR a child is opened for a step, and then another one: the step is no longer held
by then. -/
theorem plain_parent_opened_last_overwritten :
    let now := (SessionStart.bare "s").startedAt
    let child : Element := ⟨"child", "Child", "script", none, none⟩
    let cs : List Call := .start (.bare "s") 0 ::
      [Hook.bareBefore "a", .before "s" "b" child (some (.plain "step")) .empty now].map .hook
    let policy := (StaticPolicy.of .error).toPolicy
    let r := ((Registry.empty.calls policy (isSampled 1.0) cs).call policy (isSampled 1.0)
      (.hook (.before "s" "c" child (some (.plain "step")) .empty now))).1
    (∃ since x, TrackedSince policy (isSampled 1.0) "s" cs since ∧ r.slots.held? "s" = some x ∧
      x.id = "c" ∧ x.parentId = lastOccurrence? "s" "step" none since) ∧
    (r.slots.held? "s").map Span.parentId = some (some "a") := by
  intro now child cs policy r
  have hfresh : Registry.Fresh policy (isSampled 1.0) .empty cs :=
    Registry.fresh_of_nodup (by decide)
  have hcs : ∀ c ∈ cs, ∀ e ∈ c.element?, '#' ∉ e.elementId.toList := by
    decide
  let session : Session := .start (.bare "s") .error (isSampled 1.0 0)
  obtain ⟨since, x, hsince, hx, hid, hparent⟩ := plain_parent_opened_last policy
    (isSampled 1.0) cs hfresh hcs "s" ⟨session, false⟩ rfl (by decide) (.plain "step") rfl (by decide)
    "c" child .empty now
  exact ⟨⟨since, x, hsince, hx, hid, hparent⟩, by decide +kernel⟩

end SpanRelay
