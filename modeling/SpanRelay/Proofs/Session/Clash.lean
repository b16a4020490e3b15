import SpanRelay.Proofs.Registry.Search
import SpanRelay.Proofs.Session.Occurrence

/-! # Clashing places

The ids of elements and the branches may be any texts. A span that is opened is recorded at its own
place and at all those that clash with it, so what is found at a place is the span opened last there or
at one that clashes (`Registry.recalls_calls`), however often the session was started again. A hint that
may have intermediate parents only begins there: the walk itself keeps to the hinted element
(`Folder.exists_resolveParent?`). Hence a hint finds a span of another element or branch if and only if
the one opened last was opened at a place that clashes with the hinted one (`places_share_key_iff`). -/

namespace SpanRelay

/-! ### What is found at a place -/

/-- The last one of some opened spans whose place is `p` or clashes with it. -/
def lastAlike? (p : Place) (opened : List (Place × String)) : Option (Place × String) :=
  (opened.filter fun o => o.1 = p ∨ o.1.Clashes p).getLast?

theorem lastAlike?_append_toList (p : Place) (opened : List (Place × String))
    (o : Option (Place × String)) :
    lastAlike? p (opened ++ o.toList) =
      (o.filter fun o => o.1 = p ∨ o.1.Clashes p).or (lastAlike? p opened) := by
  unfold lastAlike?
  cases o with
  | none => simp only [Option.toList_none, List.append_nil, Option.filter_none, Option.none_or]
  | some o =>
    rw [List.filter_append, List.getLast?_append, Option.toList_some, List.filter_singleton,
      Option.filter_some]
    cases decide (o.1 = p ∨ o.1.Clashes p) <;> rfl

theorem place_of_lastAlike? {p q : Place} {opened : List (Place × String)} {id : String}
    (h : lastAlike? p opened = some (q, id)) : q ≠ p ↔ q.Clashes p := by
  have hmem := (List.mem_filter.1 (List.mem_of_getLast? h)).2
  exact ⟨(of_decide_eq_true hmem).resolve_left, Place.Clashes.ne⟩

/-- The span that a call opens in a session, with its place. -/
def Call.openedAt? (s : String) : Call → Option (Place × String)
  | hook (.before sessionId spanId element ..) =>
    if sessionId = s then some (element.place, spanId) else none
  | start .. | hook _ => none

theorem Call.openedAs?_key (s : String) (p : Place) (c : Call) :
    c.openedAs? s p.key =
      ((c.openedAt? s).filter fun o => o.1 = p ∨ o.1.Clashes p).map Prod.snd := by
  cases c with
  | start => rfl
  | hook hook =>
    cases hook with
    | before t b e _ m now =>
      simp only [openedAs?, openedAt?, e.executionKey_eq_key]
      by_cases ht : t = s
      · simp only [ht, true_and, if_true, Option.filter_some, decide_eq_true_eq]
        split <;> rfl
      · simp only [ht, false_and, if_false, Option.filter_none, Option.map_none]
    | after | finish | correlate => rfl

theorem Call.openedAt?_of_not_isOf {s : String} {c : Call} (h : c.isOf s = false) :
    c.openedAt? s = none := by
  cases c with
  | start => rfl
  | hook hook =>
    cases hook with
    | before t b e p m now => exact if_neg (of_decide_eq_false h)
    | after | finish | correlate => rfl

/-- Of some opened spans the folder tells for each place the last one there or at one that clashes. -/
def Folder.Recalls (f : Folder) (opened : List (Place × String)) : Prop :=
  ∀ p : Place, f.latest? p.key = (lastAlike? p opened).map Prod.snd

/-! ### The spans opened in a session -/

namespace Registry

/-- How the spans of a session are tracked; where it is not registered, they are not. -/
def tracking (r : Registry) (s : String) : Tracking :=
  (r.get? s).elim .skip fun g => .of g.session.level g.session.sampled g.failureSeen

/-- The spans that are opened in a session while it is tracked, each with its place, behind those
opened before. They are forgotten when the session is over. -/
def openings (policy : Policy) (sample : UInt64 → Bool) (s : String) :
    Registry → List (Place × String) → List Call → List (Place × String)
  | _, opened, [] => opened
  | r, opened, c :: cs =>
    let r' := (r.call policy sample c).1
    let new := if r.tracking s = .skip then none else c.openedAt? s
    openings policy sample s r' (if r'.isRegistered s then opened ++ new.toList else []) cs

variable {policy : Policy} {sample : UInt64 → Bool} {r : Registry} {s : String}
  {opened : List (Place × String)}

theorem recalls_of_not_isRegistered (hr : r.Sound) (hs : r.isRegistered s = false) :
    (r.folder s).Recalls [] := by
  intro p
  rw [(hr.folder s).closed ((isOpen_folder hr.numbered s).trans hs)]
  rfl

theorem recalls_of_openedAt?_eq_none {f : Folder} {c : Call} (h : (r.folder s).Recalls opened)
    (hf : ∀ key, f.latest? key = (r.folder s).latest? key) (hc : c.openedAt? s = none) :
    f.Recalls (opened ++ (if r.tracking s = .skip then none else c.openedAt? s).toList) := by
  rw [hc, ite_self, Option.toList_none, List.append_nil]
  exact fun p => (hf p.key).trans (h p)

theorem recalls_call (hr : r.Sound) (c : Call)
    (hs : (r.call policy sample c).1.isRegistered s = true) (h : (r.folder s).Recalls opened) :
    ((r.call policy sample c).1.folder s).Recalls
      (opened ++ (if r.tracking s = .skip then none else c.openedAt? s).toList) := by
  have ho := (isOpen_folder (sound_call hr c).numbered s).trans hs
  cases c with
  | start start draw =>
    -- also a session that is started again keeps what was recorded
    refine recalls_of_openedAt?_eq_none h (fun key => ?_) rfl
    dsimp only [call]
    split
    · rfl
    · rw [edits_put hr.numbered]
      split <;> rfl
  | hook hook =>
    by_cases hid : hook.sessionId = s
    · subst hid
      rcases run_cases hr policy hook with
        ⟨hclosed, hsame, -⟩ | ⟨scope, g, f, hg, hsess, hseen, heff, hedit⟩
      · rw [call, hsame] at ho
        exact absurd (ho.symm.trans hclosed) (by decide)
      · have hfolder : ((r.call policy sample (.hook hook)).1.folder hook.sessionId) = f :=
          (hedit hook.sessionId).trans (if_pos rfl)
        have htracking : r.tracking hook.sessionId = scope.tracking := by
          have hget : r.get? hook.sessionId = some g := hg
          rw [tracking, hget, HookScope.tracking, hsess, hseen]
          rfl
        rw [hfolder] at ho ⊢
        intro p
        rw [heff.latest? rfl ho, h, lastAlike?_append_toList, htracking, Option.map_or,
          Call.openedAs?_key]
        split <;> rfl
    · have hof : (Call.hook hook).isOf s = false := decide_eq_false hid
      refine recalls_of_openedAt?_eq_none h (fun key => ?_) (Call.openedAt?_of_not_isOf hof)
      rcases run_cases hr policy hook with ⟨-, hsame, -⟩ | ⟨scope, g, f, -, -, -, -, hedit⟩
      · rw [call, hsame]
      · exact congrArg (Folder.latest? · key) ((hedit s).trans (if_neg (Ne.symm hid)))

theorem recalls_calls (cs : List Call) (hr : r.Sound) (h : (r.folder s).Recalls opened) :
    ((r.calls policy sample cs).folder s).Recalls (openings policy sample s r opened cs) := by
  induction cs generalizing r opened with
  | nil => exact h
  | cons c cs ih =>
    refine ih (sound_call hr c) ?_
    cases hs : (r.call policy sample c).1.isRegistered s with
    | true => exact recalls_call hr c hs h
    | false => exact recalls_of_not_isRegistered (sound_call hr c) hs

end Registry

/-! ### Where a hint leads -/

namespace Folder

variable {f : Folder} {hint : ParentHint}

theorem resolveParent?_eq_none (h : f.latest? hint.executionKey = none) :
    f.resolveParent? hint = none := by
  cases hm : hint.hasIntermediateParents with
  | false => exact (resolveParent?_of_plain hm).trans h
  | true => rw [resolveParent?_eq hm, h, Option.map_none]

/-- **The parent of a new child**, if some span is recorded under the key of the hint: this span or,
where the hint may have intermediate parents, an open span of the hinted element. -/
theorem exists_resolveParent? {first : String} (h : f.latest? hint.executionKey = some first) :
    ∃ parent, f.resolveParent? hint = some parent ∧
      (parent = first ∨ hint.hasIntermediateParents = true ∧
        ∃ y ∈ f.cached, y.id = parent ∧ y.elementId = hint.elementId ∧ y.isInProgress = true) := by
  cases hm : hint.hasIntermediateParents with
  | false => exact ⟨first, (resolveParent?_of_plain hm).trans h, Or.inl rfl⟩
  | true =>
    have hwalk : Walk hint (f.executions.getD .empty) f.cached [] first _ :=
      walk_walkDown _ [] first (card_unvisited_nil f.cached first)
    refine ⟨_, by rw [resolveParent?_eq hm, h, Option.map_some], ?_⟩
    rcases Relation.ReflTransGen.cases_tail hwalk.reaches with hend | ⟨_, -, y, hy, hid⟩
    · exact Or.inl hend
    · exact Or.inr ⟨rfl, y, hy.cached, hid, hy.element, hy.inProgress⟩

end Folder

/-- **A span that is opened** in a session that is tracked is kept as the session is tracked. -/
theorem Registry.exists_tracked (policy : Policy) (sample : UInt64 → Bool) {r : Registry} {s : String}
    (hr : r.Sound) (ht : r.tracking s ≠ .skip) (b : String) (e : Element) (p : Option ParentHint)
    (m : Snapshot) (now : Timestamp) :
    let r' := (r.call policy sample (.hook (.before s b e p m now))).1
    ∃ x, (if r.tracking s = .full then r'.spans.get? s b else r'.slots.held? s) = some x ∧ x.id = b ∧
      x.parentId = p.bind (r.folder s).resolveParent? := by
  cases hg : r.get? s with
  | none => exact absurd (congrArg (Option.elim · _ _) hg) ht
  | some g =>
    have htracking : r.tracking s = .of g.session.level g.session.sampled g.failureSeen :=
      congrArg (Option.elim · _ _) hg
    obtain rfl : g.session.id = s := session_id_of_get? hr hg
    obtain ⟨scope, hscope, heff⟩ := open_cases policy sample hr hg b e p m now
    rw [← htracking] at hscope
    rw [← hscope] at ht ⊢
    exact heff.exists_kept (congrArg Option.isSome hg) ht

/-- **Places with one key** are the same or clash, whatever the ids and the branches are.

* A span that is recorded for an element at the place `q` is found at the place `p` from then on, instead
  of the span found there before, if and only if the places are the same or clash.
* Let any calls be made, and a span be opened with a hint at the place `p` in a session that is tracked.
  What the hint finds is the span opened last, while the session was tracked, at `p` or at a place that
  clashes with it, so this is a span of another element or branch if and only if the places clash. It is
  the parent; only if the hint may have intermediate parents, an open span of the hinted element to
  which the walk goes on can be the parent instead. -/
theorem places_share_key_iff (p q : Place) :
    (executionKey p.elementId p.branchKey = executionKey q.elementId q.branchKey ↔
      p = q ∨ p.Clashes q) ∧
    (∀ (r : Registry) (s b : String) (e : Element), r.isRegistered s = true → e.place = q →
      ((r.recordExecution s e.executionKey b).folder s).latest? p.key =
        if p = q ∨ p.Clashes q then some b else (r.folder s).latest? p.key) ∧
    ∀ (policy : Policy) (sample : UInt64 → Bool) (cs : List Call) (s : String),
      let r := Registry.empty.calls policy sample cs
      let opened := Registry.openings policy sample s .empty [] cs
      r.tracking s ≠ .skip → ∀ hint : ParentHint, hint.place = p →
      ∀ (b : String) (element : Element) (payload : Snapshot) (now : Timestamp),
        let r' := (r.call policy sample (.hook (.before s b element (some hint) payload now))).1
        ∃ x, (if r.tracking s = .full then r'.spans.get? s b else r'.slots.held? s) = some x ∧
          x.id = b ∧
          match lastAlike? p opened with
          | none => x.parentId = none
          | some (found, first) => (found ≠ p ↔ found.Clashes p) ∧
            ∃ parent, x.parentId = some parent ∧
              (parent = first ∨ hint.hasIntermediateParents = true ∧
                ∃ y ∈ (r.folder s).cached, y.id = parent ∧ y.elementId = hint.elementId ∧
                  y.isInProgress = true) := by
  refine ⟨Place.key_eq_iff, ?_, ?_⟩
  · rintro r s b e hs rfl
    rw [Registry.edits_recordExecution hs e.executionKey b s, if_pos rfl, Folder.latest?_record]
    exact if_congr (Place.key_eq_iff (p := p) (q := e.place)) rfl rfl
  · rintro policy sample cs s r opened ht hint rfl b element payload now r'
    have hr : r.Sound := Registry.sound_calls cs Registry.sound_empty
    have hrecalls : (r.folder s).Recalls opened :=
      Registry.recalls_calls cs Registry.sound_empty fun _ => rfl
    have hfound : (r.folder s).latest? hint.executionKey =
        (lastAlike? hint.place opened).map Prod.snd := hrecalls hint.place
    obtain ⟨x, hx, hb, hparent⟩ := Registry.exists_tracked policy sample hr ht b element (some hint)
      payload now
    refine ⟨x, hx, hb, ?_⟩
    rw [hparent, Option.bind_some]
    cases hlast : lastAlike? hint.place opened with
    | none =>
      rw [hlast] at hfound
      exact Folder.resolveParent?_eq_none hfound
    | some found =>
      rw [hlast] at hfound
      exact ⟨place_of_lastAlike? hlast, Folder.exists_resolveParent? hfound⟩

/-- The step `loop#1` is executed in its branch `x` and the step `loop` inside of it; then the session
is started once more. A hint at the branch `1#x` of `loop`, where nothing was executed, is taken for one
at the first step, and the walk from there comes to the second one. -/
theorem places_share_key_iff_unexecuted :
    let now := (SessionStart.bare "s").startedAt
    let step (id : String) (branch : Option String) : Element := ⟨id, "Step", "script", none, branch⟩
    let outer := step "loop#1" (some "x")
    let hint : ParentHint := ⟨"loop", some "1#x", true⟩
    let cs : List Call := [.start (.bare "s") 0, .hook (.before "s" "a" outer none .empty now),
      .hook (.before "s" "b" (step "loop" none) (some ⟨"loop#1", some "x", false⟩) .empty now),
      .start (.bare "s") 0]
    let policy := (StaticPolicy.of .debug).toPolicy
    let child : Call := .hook (.before "s" "c" (step "child" none) (some hint) .empty now)
    let r := Registry.empty.calls policy (isSampled 1.0) cs
    let r' := (r.call policy (isSampled 1.0) child).1
    hint.executionKey = outer.executionKey ∧
      ((r.recordExecution "s" outer.executionKey "d").folder "s").latest? hint.place.key = some "d" ∧
      (∃ x, r'.spans.get? "s" "c" = some x ∧ x.id = "c" ∧ ∃ parent, x.parentId = some parent ∧
        (parent = "a" ∨ ∃ y ∈ (r.folder "s").cached, y.id = parent ∧ y.elementId = "loop")) ∧
      (r'.spans.get? "s" "c").map Span.parentId = some (some "b") := by
  intro now step outer hint cs policy child r r'
  obtain ⟨hkey, hrecord, hfind⟩ := places_share_key_iff hint.place outer.place
  have hclash : hint.place.Clashes outer.place := by decide +kernel
  have hs : r.isRegistered "s" = true := by decide +kernel
  have ht : r.tracking "s" ≠ .skip := by decide +kernel
  have hfull : r.tracking "s" = .full := by decide +kernel
  have hlast : lastAlike? hint.place (Registry.openings policy (isSampled 1.0) "s" .empty [] cs) =
      some (outer.place, "a") := by decide +kernel
  have hfound := (hrecord r "s" "d" outer hs rfl).trans (if_pos (Or.inr hclash))
  have hchild := hfind policy (isSampled 1.0) cs "s" ht hint rfl "c" (step "child" none) .empty now
  simp only [hlast] at hchild
  obtain ⟨x, hx, hid, -, parent, hxp, hwalk⟩ := hchild
  have hr' : r' =
      ((Registry.empty.calls policy (isSampled 1.0) cs).call policy (isSampled 1.0) child).1 := rfl
  rw [if_pos hfull, ← hr'] at hx
  have hend : parent = "a" ∨ ∃ y ∈ (r.folder "s").cached, y.id = parent ∧ y.elementId = "loop" :=
    hwalk.imp_right fun ⟨_, y, hy, hyid, hyelement, _⟩ => ⟨y, hy, hyid, hyelement⟩
  exact ⟨hkey.2 (Or.inr hclash), hfound, ⟨x, hx, hid, parent, hxp, hend⟩, by decide +kernel⟩

/-- The step `loop` is executed in its branch `iter-2`, and then a step whose id is `loop#iter-2`. A
child with a hint at the first one gets the second one for its parent. -/
theorem branch_taken_for_element :
    let now := (SessionStart.bare "s").startedAt
    let element (id : String) (branch : Option String) : Element := ⟨id, "Step", "script", none, branch⟩
    let hint : ParentHint := ⟨"loop", some "iter-2", false⟩
    let hooks := [Hook.before "s" "a" (element "loop" (some "iter-2")) none .empty now,
      .before "s" "b" (element "loop#iter-2" none) none .empty now,
      .before "s" "c" (element "child" none) (some hint) .empty now]
    let r := Registry.empty.calls (StaticPolicy.of .debug).toPolicy (isSampled 1.0)
      (.start (.bare "s") 0 :: hooks.map .hook)
    (element "loop" (some "iter-2")).executionKey = (element "loop#iter-2" none).executionKey ∧
      (r.spans.get? "s" "b").map Span.elementId = some "loop#iter-2" ∧
      (r.spans.get? "s" "c").map Span.parentId = some (some "b") := by
  decide +kernel

end SpanRelay
