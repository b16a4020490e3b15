import SpanRelay.Proofs.Simulation.Script

/-! # Interleavings of simulated sessions

In an `Interleaved` list of calls each session of a plan goes through its script, at times of its own,
and nothing else is called; the sessions may take turns in any way. Then no session is started while it
is registered, and if the ids are distinct, no span is opened twice (`Interleaved.proper`). Each session is
a run within the calls (`Interleaved.exists_run`), and in the end none is registered
(`Interleaved.size_calls`). -/

namespace SpanRelay

theorem Call.sessionId_of_started? {c : Call} {s : String} (h : c.started? = some s) :
    c.sessionId = s := by
  cases c with
  | start => exact Option.some.inj h
  | hook => cases h

namespace Plan

/-- The policy of a simulation: every session has the level of the plan. -/
def policy (p : Plan) : Policy := (StaticPolicy.of p.level).toPolicy

/-- The calls are those of the sessions of a plan, and those of each session are in their order. -/
structure Interleaved (p : Plan) (w : Surroundings) (cs : List Call) : Prop where
  origin : ∀ c ∈ cs, ∃ i < p.sessions, c.sessionId = sessionId w i
  order : ∀ i < p.sessions, ∃ clock, callsOf (sessionId w i) cs = p.script w clock i

variable {p : Plan} {w : Surroundings} {clock : Clock} {i : Nat} {cs during : List Call} {c : Call}

theorem started?_script : (p.script w clock i).filterMap Call.started? = [sessionId w i] := by
  have hnone : (p.body w clock i).filterMap Call.started? = [] :=
    List.filterMap_eq_nil_iff.2 fun c hc => (of_mem_body hc).2.1
  have hcons : (p.script w clock i).filterMap Call.started? =
      sessionId w i :: (p.body w clock i ++ [(p.sessionRun w clock i []).ending]).filterMap
        Call.started? := rfl
  rw [hcons, List.filterMap_append, hnone]
  rfl

namespace Interleaved

variable (h : p.Interleaved w cs)

include h

theorem exists_script (hc : c ∈ cs) : ∃ i < p.sessions, ∃ clock, c.sessionId = sessionId w i ∧
    callsOf c.sessionId cs = p.script w clock i ∧ c ∈ p.script w clock i := by
  obtain ⟨i, hi, hid⟩ := h.origin c hc
  obtain ⟨clock, hscript⟩ := h.order i hi
  rw [← hid] at hscript
  exact ⟨i, hi, clock, hid, hscript, hscript ▸ mem_callsOf.2 ⟨hc, rfl⟩⟩

theorem of_opened? (hc : c ∈ cs) {ref : SpanRef} (ho : c.opened? = some ref) :
    ∃ i < p.sessions, ∃ k < p.executed, ref = ⟨sessionId w i, p.spanId w i k⟩ := by
  obtain ⟨i, hi, clock, hid, -, hmem⟩ := h.exists_script hc
  have hopened : ref.spanId ∈ openedIds (p.script w clock i) := mem_openedIds.2 ⟨c, hmem, ref, ho, rfl⟩
  rw [openedIds_script] at hopened
  obtain ⟨k, hk, hspan⟩ := List.mem_map.1 hopened
  refine ⟨i, hi, k, List.mem_range.1 hk, ?_⟩
  rw [hspan, ← hid, Call.sessionId_of_opened? ho]

theorem sessionId_eq_of_opened? (hids : p.DistinctIds w) {d : Call} {ref ref' : SpanRef} (hc : c ∈ cs)
    (hd : d ∈ cs) (ho : c.opened? = some ref) (ho' : d.opened? = some ref')
    (hid : ref.spanId = ref'.spanId) : ref.sessionId = ref'.sessionId := by
  obtain ⟨i, hi, k, hk, rfl⟩ := h.of_opened? hc ho
  obtain ⟨j, hj, l, hl, rfl⟩ := h.of_opened? hd ho'
  rw [(hids i hi k hk j hj l hl hid).1]

/-- **The calls are proper**, however the sessions take turns. -/
theorem proper (hids : p.DistinctIds w) (policy : Policy) (sample : UInt64 → Bool) :
    Proper policy sample cs where
  fresh := by
    refine Registry.fresh_of_nodup (nodup_filterMap_of_callsOf _ (fun c _ d _ s hc hd => ?_) ?_)
    · rw [Call.sessionId_of_started? hc, Call.sessionId_of_started? hd]
    · intro c hc
      obtain ⟨i, -, clock, -, hscript, -⟩ := h.exists_script hc
      rw [hscript, started?_script]
      exact List.nodup_singleton _
  distinct := by
    unfold openedIds
    rw [List.map_filterMap]
    refine nodup_filterMap_of_callsOf _ (fun c hc d hd b hcb hdb => ?_) fun c hc => ?_
    · obtain ⟨ref, ho, hb⟩ := Option.map_eq_some_iff.1 hcb
      obtain ⟨ref', ho', hb'⟩ := Option.map_eq_some_iff.1 hdb
      rw [Call.sessionId_of_opened? ho, Call.sessionId_of_opened? ho']
      exact h.sessionId_eq_of_opened? hids hc hd ho ho' (hb.trans hb'.symm)
    · obtain ⟨i, hi, clock, -, hscript, -⟩ := h.exists_script hc
      rw [hscript, ← List.map_filterMap]
      have hnodup : (openedIds (p.script w clock i)).Nodup :=
        openedIds_script ▸ nodup_spanIds hids hi
      exact hnodup

/-- **Each session is a run** within the calls. -/
theorem exists_run (hi : i < p.sessions) : ∃ clock during,
    (p.sessionRun w clock i during).Within cs ∧
      callsOf (sessionId w i) during = p.body w clock i := by
  obtain ⟨clock, hscript⟩ := h.order i hi
  obtain ⟨before, rest, rfl, -, hrest⟩ :=
    exists_split_of_callsOf (hscript.trans (List.nil_append _).symm)
  obtain ⟨during, after, rfl, hduring, -⟩ := exists_split_of_callsOf hrest
  refine ⟨clock, during, ⟨⟨before, after, ?_⟩, ?_⟩, hduring⟩
  · simp [SessionRun.calls, sessionRun, SessionRun.ending, SessionRun.id]
  · refine forall_of_callsOf (fun c hc => Call.ends_of_ne hc) fun c hc => ?_
    have hmem : c ∈ callsOf (sessionId w i) during := hc
    rw [hduring] at hmem
    exact (of_mem_body hmem).2.2 _

theorem not_ongoing (s : String) : ¬ Ongoing cs s := by
  rintro ⟨before, start, draw, since, rfl, rfl, hsince⟩
  obtain ⟨i, -, clock, hid, hscript, -⟩ := h.exists_script (c := .start start draw) (by simp)
  have hstart : (Call.start start draw).sessionId = start.sessionId := rfl
  rw [hstart] at hid hscript
  -- the last call of the script ends the session
  let ending := (p.sessionRun w clock i []).ending
  have hlast : (p.script w clock i).getLast? = some ending := by
    rw [script, SessionRun.calls, ← List.cons_append, List.getLast?_concat]
    rfl
  rw [← hscript, callsOf_append, callsOf_cons hstart, List.getLast?_append, List.getLast?_cons,
    Option.some_or, Option.some_inj] at hlast
  have hmem : ending ∈ callsOf start.sessionId since := by
    cases hl : (callsOf start.sessionId since).getLast? with
    | none =>
      rw [hl] at hlast
      have hstarted : some start.sessionId = none := congrArg Call.started? hlast
      cases hstarted
    | some c =>
      rw [hl] at hlast
      exact hlast ▸ List.mem_of_getLast? hl
  have hends : ending.ends start.sessionId = true := decide_eq_true hid.symm
  exact absurd ((hsince _ (mem_callsOf.1 hmem).1).symm.trans hends) (by decide)

/-- **In the end** no session is registered. -/
theorem size_calls (policy : Policy) (sample : UInt64 → Bool) :
    (Registry.empty.calls policy sample cs).size = 0 := by
  let r := Registry.empty.calls policy sample cs
  have hnone : r.current.rows = [] := by
    refine List.eq_nil_iff_forall_not_mem.2 fun row hrow => ?_
    have hreg : r.isRegistered row.1 = true :=
      Map.Table.contains_iff_mem_keys.2 (List.mem_map_of_mem hrow)
    exact h.not_ongoing row.1 (Registry.ongoing_of_isRegistered hreg)
  exact congrArg List.length hnone

/-! ### What is handed over -/

variable {policy : Policy} {sample : UInt64 → Bool} {x : Span}

theorem exists_step (hx : x ∈ Registry.empty.handed policy sample cs) :
    ∃ i < p.sessions, ∃ k < p.executed, x.id = p.spanId w i k := by
  obtain ⟨before, c, since, hsplit, ho, -⟩ := Registry.openedIn_handed policy sample cs hx
  obtain ⟨i, hi, k, hk, href⟩ := h.of_opened? (hsplit ▸ by simp) ho
  exact ⟨i, hi, k, hk, congrArg SpanRef.spanId href⟩

theorem sessionId_eq_of_handed (hids : p.DistinctIds w) :
    ∀ x ∈ Registry.empty.handed policy sample cs, ∀ y ∈ Registry.empty.handed policy sample cs,
      x.id = y.id → x.sessionId = y.sessionId := by
  intro x hx y hy hid
  obtain ⟨before, c, since, hsplit, ho, -⟩ := Registry.openedIn_handed policy sample cs hx
  obtain ⟨before', d, since', hsplit', ho', -⟩ := Registry.openedIn_handed policy sample cs hy
  exact h.sessionId_eq_of_opened? hids (hsplit ▸ by simp) (hsplit' ▸ by simp) ho ho' hid

end Interleaved

end Plan

end SpanRelay
