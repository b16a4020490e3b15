import SpanRelay.Proofs.Pipeline.Course
import SpanRelay.Proofs.Simulation.Interleaving
import SpanRelay.Simulation.Run

/-! # The schedule of a simulation

The moves of a simulation are one of the interleavings of its sessions: in each round every session that
is not yet done takes its next part, so in all rounds together it takes all of them in their order
(`interleaved_moves`). Hence what `Plan.simulate` leaves is what such a run of the pipeline leaves
(`exists_after_simulate`). -/

namespace SpanRelay

/-- The calls of a move. -/
def Move.calls : Move → List Call
  | part calls => calls
  | writer => []

/-! ### Moves -/

theorem Pipeline.exists_happens_course {σ : Type} (sink : Sink σ) :
    ∀ (os : List Occurrence), (∀ o ∈ os, o.isOwn) → ∀ p : Pipeline σ, ∃ hs : List Happening,
      hs.filterMap Happening.call? = [] ∧
        p.happens sink hs = { p with desk := p.desk.course sink os }
  | [], _, _ => ⟨[], rfl, rfl⟩
  | o :: os, hown, p => by
    obtain ⟨happening, hnone, hhappen⟩ : ∃ h : Happening, h.call? = none ∧
        p.happen sink h = { p with desk := p.desk.occur sink o } := by
      cases o with
      | move => exact ⟨.move, rfl, rfl⟩
      | wait nanos => exact ⟨.wait nanos, rfl, rfl⟩
      | offer | stop | orphan => cases hown _ List.mem_cons_self
    obtain ⟨hs, hcalls, hhappens⟩ := exists_happens_course sink os
      (fun o ho => hown o (List.mem_cons_of_mem _ ho)) { p with desk := p.desk.occur sink o }
    refine ⟨happening :: hs, ?_, ?_⟩
    · rw [List.filterMap_cons_none hnone, hcalls]
    · have hcons : p.happens sink (happening :: hs) = (p.happen sink happening).happens sink hs := rfl
      rw [hcons, hhappen, hhappens]
      rfl

namespace Simulated

variable {σ : Type} {sink : Sink σ}

theorem pipeline_call (s : Simulated σ) (c : Call) :
    (s.call c).pipeline = s.pipeline.happen sink (.call c) := by
  cases c <;> rfl

theorem pipeline_foldl_call (cs : List Call) (s : Simulated σ) :
    (cs.foldl call s).pipeline = s.pipeline.happens sink (cs.map .call) := by
  induction cs generalizing s with
  | nil => rfl
  | cons c cs ih =>
    rw [List.foldl_cons, ih]
    exact congrArg (Pipeline.happens sink · _) (pipeline_call s c)

theorem exists_happens_move (sink : Sink σ) (s : Simulated σ) (m : Move) : ∃ hs : List Happening,
    hs.filterMap Happening.call? = m.calls ∧ (s.move sink m).pipeline = s.pipeline.happens sink hs := by
  cases m with
  | part cs => exact ⟨cs.map .call, filterMap_call cs, pipeline_foldl_call cs s⟩
  | writer =>
    let desk := s.pipeline.desk
    obtain ⟨os, hown, hturn⟩ :=
      Desk.exists_course_moves sink (some desk.now) desk.moveBound desk
    obtain ⟨hs, hcalls, hhappens⟩ := Pipeline.exists_happens_course sink os hown s.pipeline
    have hdesk : desk.turn sink = desk.course sink os := hturn
    refine ⟨hs, hcalls, ?_⟩
    rw [hhappens, ← hdesk]
    rfl

theorem exists_happens_moves (sink : Sink σ) (ms : List Move) (s : Simulated σ) : ∃ hs : List Happening,
    hs.filterMap Happening.call? = ms.flatMap Move.calls ∧
      (ms.foldl (move sink) s).pipeline = s.pipeline.happens sink hs := by
  induction ms generalizing s with
  | nil => exact ⟨[], rfl, rfl⟩
  | cons m ms ih =>
    obtain ⟨hs, hcalls, hmove⟩ := exists_happens_move sink s m
    obtain ⟨hs', hcalls', hmoves⟩ := ih (s.move sink m)
    refine ⟨hs ++ hs', ?_, ?_⟩
    · rw [List.filterMap_append, hcalls, hcalls', List.flatMap_cons]
    · rw [List.foldl_cons, hmoves, hmove, Pipeline.happens, Pipeline.happens, Pipeline.happens,
        List.foldl_append]

end Simulated

/-! ### Rounds -/

namespace Plan

variable {p : Plan} {w : Surroundings} {i : Nat}

/-- What a session calls in a round. -/
def turnOf (p : Plan) (w : Surroundings) (number i : Nat) : List Call :=
  ((p.parts w i)[number]?).getD []

theorem sessionId_of_mem_turnOf {number : Nat} {c : Call} (h : c ∈ p.turnOf w number i) :
    c.sessionId = sessionId w i := by
  unfold turnOf at h
  cases hpart : (p.parts w i)[number]? with
  | none =>
    rw [hpart] at h
    exact absurd h List.not_mem_nil
  | some part =>
    rw [hpart] at h
    have hmem : c ∈ (p.parts w i).flatten := List.mem_flatten.2 ⟨part, List.mem_of_getElem? hpart, h⟩
    rw [flatten_parts] at hmem
    exact sessionId_of_mem_script hmem

theorem calls_round (number : Nat) (is : List Nat) :
    (round (is.map (p.parts w)) number).flatMap Move.calls = is.flatMap (p.turnOf w number) := by
  have hsessions : ((is.map (p.parts w)).filterMap fun parts => (parts[number]?).map Move.part).flatMap
      Move.calls = is.flatMap (p.turnOf w number) := by
    induction is with
    | nil => rfl
    | cons i is ih =>
      rw [List.map_cons, List.filterMap_cons, List.flatMap_cons, turnOf]
      cases (p.parts w i)[number]? with
      | none => exact ih
      | some part => exact congrArg (part ++ ·) ih
  rw [round, List.flatMap_append, hsessions]
  exact List.append_nil _

theorem callsOf_turns (number : Nat) (hi : i < p.sessions) :
    callsOf (sessionId w i) ((List.range p.sessions).flatMap (p.turnOf w number)) =
      p.turnOf w number i := by
  have hother : ∀ is : List Nat, i ∉ is →
      callsOf (sessionId w i) (is.flatMap (p.turnOf w number)) = [] := by
    intro is his
    refine List.filter_eq_nil_iff.2 fun c hc => ?_
    obtain ⟨j, hj, hmem⟩ := List.mem_flatMap.1 hc
    rw [sessionId_of_mem_turnOf hmem, decide_eq_true_eq]
    exact fun hid => his (sessionId_injective w hid ▸ hj)
  have hown : callsOf (sessionId w i) (p.turnOf w number i) = p.turnOf w number i :=
    List.filter_eq_self.2 fun c hc => decide_eq_true (sessionId_of_mem_turnOf hc)
  obtain ⟨before, after, hrange⟩ := List.append_of_mem (List.mem_range.2 hi)
  have hnodup := hrange ▸ List.nodup_range (n := p.sessions)
  rw [List.nodup_middle, List.nodup_cons, List.mem_append, not_or] at hnodup
  rw [hrange, List.flatMap_append, List.flatMap_cons, callsOf_append, callsOf_append, hown,
    hother before hnodup.1.1, hother after hnodup.1.2, List.nil_append, List.append_nil]

theorem flatMap_range_getElem? {α : Type} (parts : List (List α)) (n : Nat) :
    (List.range n).flatMap (fun number => (parts[number]?).getD []) = (parts.take n).flatten := by
  induction n with
  | zero => rfl
  | succ n ih =>
    rw [List.range_succ, List.flatMap_append, ih, List.take_add_one, List.flatten_append]
    cases h : parts[n]? <;> simp [h]

theorem le_foldl_max : ∀ (ns : List Nat) (a : Nat),
    a ≤ ns.foldl max a ∧ ∀ n ∈ ns, n ≤ ns.foldl max a
  | [], a => ⟨Nat.le_refl a, fun _ hn => absurd hn List.not_mem_nil⟩
  | n :: ns, a => by
    obtain ⟨hfirst, hrest⟩ := le_foldl_max ns (max a n)
    refine ⟨Nat.le_trans (Nat.le_max_left a n) hfirst, fun m hm => ?_⟩
    rcases List.mem_cons.1 hm with rfl | hm
    · exact Nat.le_trans (Nat.le_max_right a m) hfirst
    · exact hrest m hm

theorem exists_rounds (p : Plan) (w : Surroundings) : ∃ rounds,
    (∀ i < p.sessions, (p.parts w i).length ≤ rounds) ∧
      (p.moves w).flatMap Move.calls = (List.range rounds).flatMap fun number =>
        (List.range p.sessions).flatMap (p.turnOf w number) := by
  let sessions := (List.range p.sessions).map (p.parts w)
  refine ⟨(sessions.map List.length).foldl max 0, fun i hi => ?_, ?_⟩
  · exact (le_foldl_max _ 0).2 _
      (List.mem_map_of_mem (List.mem_map_of_mem (List.mem_range.2 hi)))
  · rw [moves, List.flatMap_assoc]
    exact congrArg (List.flatMap · _) (funext fun number => calls_round number _)

theorem callsOf_moves (hi : i < p.sessions) :
    callsOf (sessionId w i) ((p.moves w).flatMap Move.calls) = (p.parts w i).flatten := by
  obtain ⟨rounds, hrounds, hcalls⟩ := exists_rounds p w
  have hfilter : callsOf (sessionId w i) ((List.range rounds).flatMap fun number =>
      (List.range p.sessions).flatMap (p.turnOf w number)) =
        (List.range rounds).flatMap fun number => p.turnOf w number i := by
    rw [callsOf, List.filter_flatMap]
    exact congrArg (List.flatMap · _) (funext fun number => callsOf_turns number hi)
  rw [hcalls, hfilter]
  exact (flatMap_range_getElem? _ rounds).trans (by rw [List.take_of_length_le (hrounds i hi)])

/-- **The moves of a simulation** are an interleaving of its sessions. -/
theorem interleaved_moves (p : Plan) (w : Surroundings) :
    p.Interleaved w ((p.moves w).flatMap Move.calls) where
  origin c hc := by
    obtain ⟨rounds, -, hcalls⟩ := exists_rounds p w
    rw [hcalls] at hc
    obtain ⟨number, -, hc⟩ := List.mem_flatMap.1 hc
    obtain ⟨i, hi, hc⟩ := List.mem_flatMap.1 hc
    exact ⟨i, List.mem_range.1 hi, sessionId_of_mem_turnOf hc⟩
  order i hi := ⟨.still w.now, (callsOf_moves hi).trans (flatten_parts p w i)⟩

/-- **A simulation** ends if the pipeline can start, and it leaves what some interleaving of its sessions
leaves. -/
theorem exists_after_simulate {σ : Type} {config : Config} (sink : Sink σ) {store : σ} {q : Pipeline σ}
    (w : Surroundings) (hstart : Pipeline.start config p.policy store = .ok q) :
    ∃ s cs os, p.simulate w config sink store = .ok s ∧ p.Interleaved w cs ∧
      Conveys os (q.registry.handed q.policy q.sample cs) ∧
      s.pipeline = (q.after sink cs os).shutdown sink := by
  obtain ⟨hs, hcalls, hmoves⟩ := Simulated.exists_happens_moves sink (p.moves w) ⟨q, 0⟩
  have hconveys : Conveys (Pipeline.occurrences q.policy q.sample q.registry hs) _ :=
    Pipeline.conveys_occurrences hs q.registry
  rw [Pipeline.happens_eq] at hmoves
  rw [hcalls] at hmoves hconveys
  refine ⟨((p.moves w).foldl (Simulated.move sink) ⟨q, 0⟩).shutdown sink, _, _, ?_,
    interleaved_moves p w, hconveys, congrArg (Pipeline.shutdown sink) hmoves⟩
  exact congrArg (Except.map _) hstart

end Plan

end SpanRelay
