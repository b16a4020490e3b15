import SpanRelay.Proofs.Pipeline.Failure
import SpanRelay.Proofs.Session.Tree
import SpanRelay.Proofs.Simulation.Interleaving

/-! # The steps of simulated sessions

What is handed over of a step depends on the level of its plan: at INFO and DEBUG every step of a sampled
session, within the step before (`Underway.leaves_of_level`); at ERROR the one that fails, as failed
(`Underway.leaves_of_failAt`), and none of the steps around it (`Underway.lastVersion?_of_enclosing`);
without a failure none (`Underway.lastVersion?_of_unfailing`); and at OFF nothing. Which steps these are
is told by `Plan.keeps`, and what is last handed over of them by `Plan.Leaves`. -/

namespace SpanRelay

theorem Registry.handed_of_off {policy : Policy} (sample : UInt64 → Bool)
    (hoff : ∀ chain, policy.sessionLevel chain = .off) (cs : List Call) :
    empty.handed policy sample cs = [] := by
  induction cs with
  | nil => rfl
  | cons c cs ih =>
    have hcall : empty.call policy sample c = (empty, []) := by
      cases c with
      | start s draw => exact congrArg (·, []) (if_pos (hoff s.chainId))
      | hook hook => rfl
    rw [handed, hcall, List.nil_append]
    exact ih

namespace Plan

/-- Whether a step of a session is written. -/
def keeps (p : Plan) (sampled : Bool) (k : Nat) : Bool :=
  match p.level with
  | .off => false
  | .error => p.failAt = some k
  | .info | .debug => sampled

/-- The last version of the span of a step. -/
structure Leaves (p : Plan) (w : Surroundings) (i k : Nat) (x : Span) : Prop where
  id : x.id = p.spanId w i k
  sessionId : x.sessionId = sessionId w i
  elementId : x.elementId = (element k).elementId
  /-- At the level ERROR it has failed. -/
  failure : p.level = .error → x.status = .completedWithErrors ∧
    x.exception = some ⟨"SimulatedFailure", numbered "step " k ++ " failed", none⟩
  /-- At INFO and DEBUG its parent is the step before. -/
  parentId : p.level = .info ∨ p.level = .debug →
    x.parentId = if k = 0 then none else some (p.spanId w i (k - 1))

variable {p : Plan} {w : Surroundings} {clock : Clock} {i k : Nat} {cs during after : List Call}
  {sample : UInt64 → Bool} {r : Registry}

theorem body_split (hk : k < p.executed) : ∃ rest, p.body w clock i =
    p.openings w clock i (List.range k) ++ p.opening (w.withNow (clock.opened k)) i k :: rest := by
  obtain ⟨n, hn⟩ : ∃ n, p.executed = k + (n + 1) := ⟨p.executed - k - 1, by omega⟩
  have hrange : p.openings w clock i (List.range p.executed) = p.openings w clock i (List.range k) ++
      p.opening (w.withNow (clock.opened k)) i k ::
        p.openings w clock i ((List.range n).map fun l => k + (l + 1)) := by
    rw [hn, List.range_add, List.range_succ_eq_map]
    simp [openings, Function.comp_def]
  rw [body, hrange, List.append_assoc, List.cons_append]
  exact ⟨_, rfl⟩

/-- The body of a session that fails: the step that fails is closed when it was opened. -/
theorem body_of_failAt (h : p.failAt = some k) (hk : k < p.steps) : p.body w clock i =
    p.openings w clock i (List.range k) ++ p.opening (w.withNow (clock.opened k)) i k ::
      p.closing (w.withNow (clock.closed k)) i k :: p.closings w clock i (List.range k).reverse := by
  rw [body, executed_of_failAt h hk, List.range_succ]
  simp [openings, closings]

theorem not_fails_of_openings {steps : List Nat}
    (h : callsOf (sessionId w i) cs = p.openings w clock i steps) :
    ∀ c ∈ cs, c.failsIn (sessionId w i) = false := by
  refine forall_of_callsOf (fun c hc => Call.failsIn_of_not_isOf (Call.isOf_of_ne hc)) fun c hc => ?_
  rw [h] at hc
  obtain ⟨k, -, rfl⟩ := List.mem_map.1 hc
  rfl

theorem lastOpened?_openings (j : Nat) :
    lastOpened? (sessionId w i) (ParentHint.plain (numbered "step-" j)).executionKey
      (p.openings w clock i (List.range (j + 1))) = some (p.spanId w i j) := by
  rw [openings, List.range_succ, List.map_append, List.map_singleton, lastOpened?_concat]
  exact congrArg (Option.or · _) (if_pos ⟨rfl, rfl⟩)

/-- A session of a plan as it goes on among other calls: the registry `r` when it has begun, and what is
called during the session and after it. -/
structure Underway (p : Plan) (w : Surroundings) (sample : UInt64 → Bool) (cs : List Call) (i : Nat)
    (clock : Clock) (during : List Call) (r : Registry) (after : List Call) : Prop where
  begun : (p.sessionRun w clock i during).Begun p.policy sample r after
  own : callsOf (sessionId w i) during = p.body w clock i
  last : ∀ k < p.executed, lastVersion? (p.spanId w i k) (Registry.empty.handed p.policy sample cs) =
    lastVersion? (p.spanId w i k)
      (r.handed p.policy sample (during ++ (p.sessionRun w clock i during).ending :: after))

theorem opened_sessionRun (h : callsOf (sessionId w i) during = p.body w clock i) :
    (p.sessionRun w clock i during).opened = (List.range p.executed).map (p.spanId w i) := by
  have hopened := congrArg openedIds h
  rw [openedIds_callsOf, openedIds_body] at hopened
  exact hopened

/-- **Each session** goes on among the other calls. -/
theorem Interleaved.exists_underway (h : p.Interleaved w cs) (hids : p.DistinctIds w)
    (sample : UInt64 → Bool) (hi : i < p.sessions) (hl : p.level ≠ .off) :
    ∃ clock during r after, p.Underway w sample cs i clock during r after := by
  obtain ⟨clock, during, hwithin, hown⟩ := h.exists_run hi
  obtain ⟨r, after, hbegun, hlast⟩ := hwithin.begun (h.proper hids p.policy sample) hl
  refine ⟨clock, during, r, after, hbegun, hown, fun k hk => hlast _ ?_⟩
  rw [opened_sessionRun hown]
  exact List.mem_map_of_mem (List.mem_range.2 hk)

namespace Underway

variable (h : p.Underway w sample cs i clock during r after)

include h

theorem mem_opened (hk : k < p.executed) :
    p.spanId w i k ∈ (p.sessionRun w clock i during).opened := by
  rw [opened_sessionRun h.own]
  exact List.mem_map_of_mem (List.mem_range.2 hk)

theorem exists_opening (hk : k < p.executed) : ∃ m since,
    during = m ++ p.opening (w.withNow (clock.opened k)) i k :: since ∧
      callsOf (sessionId w i) m = p.openings w clock i (List.range k) := by
  obtain ⟨rest, hrest⟩ : ∃ rest, p.body w clock i = p.openings w clock i (List.range k) ++
      p.opening (w.withNow (clock.opened k)) i k :: rest := body_split hk
  obtain ⟨m, since, hsplit, hm, -⟩ := exists_split_of_callsOf (h.own.trans hrest)
  exact ⟨m, since, hsplit, hm⟩

/-- **A step of a sampled session** at the level INFO or DEBUG is handed over, within the step before;
of a session that is not sampled none is. -/
theorem leaves_of_level (hl : p.level = .info ∨ p.level = .debug) (hk : k < p.executed) :
    if sample (w.draw i) then
      ∃ x, lastVersion? (p.spanId w i k) (Registry.empty.handed p.policy sample cs) = some x ∧
        p.Leaves w i k x
    else lastVersion? (p.spanId w i k) (Registry.empty.handed p.policy sample cs) = none := by
  have hsettles := h.begun.lastVersion?_of_level hl (h.mem_opened hk)
  rw [h.last k hk]
  split
  · rename_i hs
    have hdraw : sample (p.sessionRun w clock i during).draw = true := hs
    rw [if_pos hdraw] at hsettles
    obtain ⟨x, hx, hfinal⟩ := hsettles
    obtain ⟨m, since, hsplit, hm⟩ := h.exists_opening hk
    obtain ⟨helement, hparent⟩ := h.begun.placed_of_split hsplit hx
    refine ⟨x, hx, hfinal.id, hfinal.sessionId, helement, fun he => ?_, fun _ => ?_⟩
    · rw [he] at hl
      rcases hl with hl | hl <;> cases hl
    · rw [hparent]
      cases k with
      | zero => rfl
      | succ j =>
        have hmirrors := h.begun.mirrors hl hdraw hsplit
        have hlast := lastOpened?_callsOf (sessionId w i)
          (ParentHint.plain (numbered "step-" j)).executionKey m
        rw [hm, lastOpened?_openings] at hlast
        exact (Folder.resolveParent?_of_plain rfl).trans ((hmirrors.latest _).trans hlast.symm)
  · rename_i hs
    have hdraw : ¬ sample (p.sessionRun w clock i during).draw = true := hs
    rw [if_neg hdraw] at hsettles
    exact hsettles

/-- **The step that fails** is handed over as failed at the level ERROR. -/
theorem leaves_of_failAt (hids : p.DistinctIds w) (hi : i < p.sessions) (hl : p.level = .error)
    (hf : p.failAt = some k) (hk : k < p.steps) :
    ∃ x, lastVersion? (p.spanId w i k) (Registry.empty.handed p.policy sample cs) = some x ∧
      p.Leaves w i k x := by
  have hexecuted : k < p.executed := by
    rw [executed_of_failAt hf hk]
    exact Nat.lt_succ_self k
  obtain ⟨m, rest, rfl, hm, hrest⟩ := exists_split_of_callsOf (h.own.trans (body_of_failAt hf hk))
  obtain ⟨gap, since, rfl, hgap, hsince⟩ := exists_split_of_callsOf (hrest.trans (List.nil_append _).symm)
  have hclosing : p.closing (w.withNow (clock.closed k)) i k =
      .hook (.after ⟨sessionId w i, p.spanId w i k⟩ result
        (.failure ⟨"SimulatedFailure", numbered "step " k ++ " failed", none⟩) (clock.closed k)) := by
    rw [closing, outcome_of_failAt hf hk]
    rfl
  have hquiet : ∀ c ∈ gap, c.failsIn (sessionId w i) = false ∧ c.opensIn (sessionId w i) = false := by
    refine forall_of_callsOf (fun c hc => ⟨Call.failsIn_of_not_isOf
      (Call.isOf_of_ne hc), Call.opensIn_of_ne hc⟩) ?_
    rw [hgap]
    exact fun _ hc => absurd hc List.not_mem_nil
  -- the steps around it are other spans
  have honly : ∀ c ∈ since, c.outcome? ⟨sessionId w i, p.spanId w i k⟩ = none := by
    refine forall_of_callsOf (fun c hc =>
      Call.outcome?_of_not_isOf (Call.isOf_of_ne hc)) fun c hc => ?_
    rw [hsince] at hc
    obtain ⟨l, hl, rfl⟩ := List.mem_map.1 hc
    have hlk : l < k := by simpa using hl
    exact Call.outcome?_of_ne fun he => Nat.ne_of_lt hlk
      (hids i hi l (Nat.lt_trans hlk hexecuted) i hi k hexecuted he).2
  have hlast := h.last k hexecuted
  have hbegun := h.begun
  rw [hclosing] at hlast hbegun
  obtain ⟨x, hx, hfinal, hexception⟩ :=
    hbegun.lastVersion?_of_innermost hl rfl rfl (not_fails_of_openings hm) hquiet honly
  obtain ⟨helement, -⟩ := hbegun.placed_of_split rfl hx
  refine ⟨x, hlast.trans hx, hfinal.id, hfinal.sessionId, helement, fun _ => ⟨hfinal.status, hexception⟩,
    fun hl' => ?_⟩
  rw [hl] at hl'
  rcases hl' with hl' | hl' <;> cases hl'

/-- **A step around the one that fails** is not handed over at the level ERROR. -/
theorem lastVersion?_of_enclosing (hl : p.level = .error) (hk : k + 1 < p.executed) :
    lastVersion? (p.spanId w i k) (Registry.empty.handed p.policy sample cs) = none := by
  have hexecuted : k < p.executed := Nat.lt_of_succ_lt hk
  obtain ⟨m', since, hsplit', hm'⟩ := h.exists_opening hk
  have hopenings : p.openings w clock i (List.range (k + 1)) =
      p.openings w clock i (List.range k) ++ p.opening (w.withNow (clock.opened k)) i k :: [] := by
    rw [openings, List.range_succ, List.map_append]
    rfl
  obtain ⟨m, gap, rfl, hm, hgap⟩ := exists_split_of_callsOf (hm'.trans hopenings)
  have hsplit : during = m ++ p.opening (w.withNow (clock.opened k)) i k ::
      ((gap ++ [p.opening (w.withNow (clock.opened (k + 1))) i (k + 1)]) ++ since) := by
    rw [hsplit']
    simp
  -- before the next step is opened, nothing fails
  have hquiet : ∀ c ∈ gap ++ [p.opening (w.withNow (clock.opened (k + 1))) i (k + 1)],
      c.failsIn (sessionId w i) = false := by
    have hown : callsOf (sessionId w i)
        (gap ++ [p.opening (w.withNow (clock.opened (k + 1))) i (k + 1)]) =
          p.openings w clock i [k + 1] := by
      rw [callsOf_append, hgap]
      exact callsOf_cons rfl []
    exact not_fails_of_openings hown
  rw [h.last k hexecuted]
  exact h.begun.lastVersion?_of_enclosing hl hsplit rfl (not_fails_of_openings hm) hquiet
    ⟨_, List.mem_append_right _ List.mem_cons_self, decide_eq_true rfl⟩

/-- **Without a failure** no step is handed over at the level ERROR. -/
theorem lastVersion?_of_unfailing (hl : p.level = .error) (hf : p.failAt = none) (hk : k < p.executed) :
    lastVersion? (p.spanId w i k) (Registry.empty.handed p.policy sample cs) = none := by
  have hquiet : ∀ c ∈ during, c.failsIn (sessionId w i) = false := by
    refine forall_of_callsOf (fun c hc => Call.failsIn_of_not_isOf (Call.isOf_of_ne hc)) fun c hc => ?_
    rw [h.own] at hc
    obtain ⟨k, -, rfl | rfl⟩ := mem_body.1 hc
    · rfl
    · exact failsIn_closing_of_ne (by simp [hf]) _
  have hfails : (p.sessionRun w clock i during).fails = false := by
    rw [SessionRun.fails_of_quiet hquiet, sessionRun, fails_of_none hf]
    rfl
  have hlast := h.begun.lastVersion?_of_error hl (h.mem_opened hk)
  rw [SessionRun.persisted, hfails] at hlast
  exact (h.last k hk).trans hlast

end Underway

/-- **What is handed over of each step** of each session, however the sessions take turns. -/
theorem Interleaved.leaves (h : p.Interleaved w cs) (hids : p.DistinctIds w)
    (hfail : ∀ k, p.failAt = some k → k < p.steps) {sampled : Bool}
    (hsample : ∀ i < p.sessions, sample (w.draw i) = sampled) (hi : i < p.sessions)
    (hk : k < p.executed) :
    if p.keeps sampled k then
      ∃ x, lastVersion? (p.spanId w i k) (Registry.empty.handed p.policy sample cs) = some x ∧
        p.Leaves w i k x
    else lastVersion? (p.spanId w i k) (Registry.empty.handed p.policy sample cs) = none := by
  have hlevel : p.level = .info ∨ p.level = .debug →
      if sampled then
        ∃ x, lastVersion? (p.spanId w i k) (Registry.empty.handed p.policy sample cs) = some x ∧
          p.Leaves w i k x
      else lastVersion? (p.spanId w i k) (Registry.empty.handed p.policy sample cs) = none := by
    intro hl
    have hoff : p.level ≠ .off := by
      rcases hl with hl | hl <;> rw [hl] <;> decide
    obtain ⟨clock, during, r, after, hrun⟩ := h.exists_underway hids sample hi hoff
    rw [← hsample i hi]
    exact hrun.leaves_of_level hl hk
  have hunderway : p.level ≠ .off → ∃ clock during r after,
      p.Underway w sample cs i clock during r after := h.exists_underway hids sample hi
  unfold keeps
  cases hl : p.level with
  | off =>
    have hoff : ∀ chain, p.policy.sessionLevel chain = .off := fun _ => hl
    exact congrArg (lastVersion? _) (Registry.handed_of_off sample hoff cs)
  | error =>
    obtain ⟨clock, during, r, after, hrun⟩ := hunderway (by rw [hl]; decide)
    cases hf : p.failAt with
    | none => exact hrun.lastVersion?_of_unfailing hl hf hk
    | some f =>
      have hexecuted := executed_of_failAt hf (hfail f hf)
      by_cases hkf : f = k
      · subst hkf
        rw [if_pos (decide_eq_true rfl)]
        exact hrun.leaves_of_failAt hids hi hl hf (hfail f hf)
      · rw [if_neg (by simpa using hkf)]
        exact hrun.lastVersion?_of_enclosing hl (by omega)
  | info => exact hlevel (Or.inl hl)
  | debug => exact hlevel (Or.inr hl)

end Plan

end SpanRelay
