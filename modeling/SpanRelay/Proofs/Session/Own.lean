import SpanRelay.Proofs.Session.Failing
import SpanRelay.Proofs.Session.Parents

/-! # The calls of one session

Of calls that are made in turn by several sessions, `callsOf` are those of one of them, in their order.
Where these split, all the calls split around the same call (`exists_split_of_callsOf`), and what is
opened or reported in a session is told by its own calls (`openedIds_callsOf`, `lastOpened?_callsOf`). -/

namespace SpanRelay

/-- The session that a call starts, or reports of. -/
def Call.sessionId : Call → String
  | start s _ => s.sessionId
  | hook h => h.sessionId

/-- The calls of a session. -/
def callsOf (s : String) (cs : List Call) : List Call := cs.filter fun c => c.sessionId = s

variable {s b : String} {c : Call} {cs ds es : List Call}

theorem mem_callsOf : c ∈ callsOf s cs ↔ c ∈ cs ∧ c.sessionId = s := by
  simp [callsOf]

theorem callsOf_append (s : String) (cs ds : List Call) :
    callsOf s (cs ++ ds) = callsOf s cs ++ callsOf s ds := List.filter_append _ _

theorem callsOf_cons (h : c.sessionId = s) (cs : List Call) : callsOf s (c :: cs) = c :: callsOf s cs :=
  List.filter_cons_of_pos (decide_eq_true h)

theorem forall_of_callsOf {P : Call → Prop} (hother : ∀ c, c.sessionId ≠ s → P c)
    (hown : ∀ c ∈ callsOf s cs, P c) : ∀ c ∈ cs, P c := by
  intro c hc
  by_cases h : c.sessionId = s
  · exact hown c (mem_callsOf.2 ⟨hc, h⟩)
  · exact hother c h

/-- **A split** of the calls of a session is one of all calls. -/
theorem exists_split_of_callsOf (h : callsOf s cs = ds ++ c :: es) :
    ∃ m since, cs = m ++ c :: since ∧ callsOf s m = ds ∧ callsOf s since = es := by
  obtain ⟨m, rest, rfl, hm, hrest⟩ := List.filter_eq_append_iff.1 h
  obtain ⟨gap, since, rfl, hgap, -, hsince⟩ := List.filter_eq_cons_iff.1 hrest
  refine ⟨m ++ gap, since, by simp, ?_, hsince⟩
  rw [callsOf_append, callsOf, hm, callsOf, List.filter_eq_nil_iff.2 hgap, List.append_nil]

/-- **Distinct values** of distinct sessions: if equal values come from calls of one session, and
those of each session are distinct, all are. -/
theorem nodup_filterMap_of_callsOf {β : Type} (g : Call → Option β)
    (hsame : ∀ c ∈ cs, ∀ d ∈ cs, ∀ y, g c = some y → g d = some y → c.sessionId = d.sessionId)
    (hown : ∀ c ∈ cs, ((callsOf c.sessionId cs).filterMap g).Nodup) : (cs.filterMap g).Nodup := by
  induction cs with
  | nil => exact List.nodup_nil
  | cons c cs ih =>
    have hrest : (cs.filterMap g).Nodup := by
      refine ih (fun c hc d hd => hsame c (List.mem_cons_of_mem _ hc) d (List.mem_cons_of_mem _ hd)) ?_
      intro d hd
      exact (hown d (List.mem_cons_of_mem _ hd)).sublist
        (((List.sublist_cons_self c cs).filter _).filterMap g)
    cases hc : g c with
    | none => rwa [List.filterMap_cons_none hc]
    | some y =>
      rw [List.filterMap_cons_some hc, List.nodup_cons]
      refine ⟨fun hy => ?_, hrest⟩
      obtain ⟨d, hd, hdy⟩ := List.mem_filterMap.1 hy
      have hcd := hsame c List.mem_cons_self d (List.mem_cons_of_mem _ hd) y hc hdy
      have hfirst := hown c List.mem_cons_self
      rw [callsOf_cons rfl, List.filterMap_cons_some hc, List.nodup_cons] at hfirst
      exact hfirst.1 (List.mem_filterMap.2 ⟨d, mem_callsOf.2 ⟨hd, hcd.symm⟩, hdy⟩)

/-! ### Calls of other sessions -/

namespace Call

theorem isOf_of_ne (h : c.sessionId ≠ s) : c.isOf s = false := by
  cases c with
  | start => rfl
  | hook hook => exact decide_eq_false h

theorem sessionId_of_opened? {ref : SpanRef} (h : c.opened? = some ref) :
    c.sessionId = ref.sessionId := by
  cases c with
  | start => cases h
  | hook hook => exact Hook.sessionId_of_opened? h

theorem ends_of_ne (h : c.sessionId ≠ s) : c.ends s = false := by
  cases c with
  | start => rfl
  | hook hook => exact Bool.eq_false_iff.2 fun he => h (Hook.sessionId_of_ends he)

theorem opensIn_of_ne (h : c.sessionId ≠ s) : c.opensIn s = false :=
  opensIn_of_not_isOf (isOf_of_ne h)

theorem sessionId_of_openedAs? {key : String} (h : c.openedAs? s key = some b) : c.sessionId = s := by
  cases c with
  | start => cases h
  | hook hook =>
    cases hook with
    | after | finish | correlate => cases h
    | before t b' e p m now =>
      obtain ⟨hs, -⟩ := Option.ite_none_right_eq_some.1 h
      exact hs.1

end Call

theorem filterMap_callsOf {β : Type} {g : Call → Option β} (hg : ∀ c y, g c = some y → c.sessionId = s)
    (cs : List Call) : (callsOf s cs).filterMap g = cs.filterMap g := by
  rw [callsOf, List.filterMap_filter]
  refine congrArg (List.filterMap · cs) (funext fun c => ?_)
  split
  · rfl
  · rename_i hne
    cases hc : g c with
    | none => rfl
    | some y => exact absurd (decide_eq_true (hg c y hc)) hne

/-- **What a session opens** is told by its own calls. -/
theorem openedIds_callsOf (s : String) : ∀ cs, openedIds (callsOf s cs) = openedOn s cs
  | [] => rfl
  | c :: cs => by
    rw [← List.singleton_append, callsOf_append, openedIds_append, openedOn_append, openedIds_callsOf s cs]
    refine congrArg (· ++ openedOn s cs) ?_
    by_cases h : c.sessionId = s
    · rw [callsOf_cons h]
      cases ho : c.opened? with
      | none => simp [openedIds, openedOn, ho, callsOf]
      | some ref =>
        have hs : ref.sessionId = s := (Call.sessionId_of_opened? ho).symm.trans h
        simp [openedIds, openedOn, ho, callsOf, hs]
    · have hother : ∀ d ∈ [c], d.opensIn s = false := by
        simpa using Call.opensIn_of_ne h
      rw [SessionRun.openedOn_eq_nil hother, callsOf, List.filter_cons_of_neg (by simpa using h)]
      rfl

theorem lastOpened?_callsOf (s key : String) (cs : List Call) :
    lastOpened? s key (callsOf s cs) = lastOpened? s key cs :=
  congrArg List.getLast? (filterMap_callsOf (fun _ _ => Call.sessionId_of_openedAs?) cs)

end SpanRelay
