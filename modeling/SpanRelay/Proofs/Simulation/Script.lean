import SpanRelay.Proofs.Session.Own
import SpanRelay.Proofs.Text.Digits

/-! # Scripts of simulated sessions

The `script` of a session is all that it calls, from its start to its end, at the times that a clock
tells; `Plan.parts` cuts it into parts (`flatten_parts`). Its steps are opened from the outermost to the
innermost and closed the other way round, each once. The ids of all sessions of a plan are distinct
(`sessionId_injective`). Those of its spans are whatever the surroundings give; where it matters they are
supposed to be distinct (`DistinctIds`), as the identifiers of a seed are (`SpanIds.ofSeed_injective`). -/

namespace SpanRelay

/-- The times that a session reads off when it makes its calls, and the duration that it reports. -/
structure Clock where
  started : Timestamp
  opened : Nat → Timestamp
  closed : Nat → Timestamp
  finished : Timestamp
  durationMs : UInt64

/-- The clock that stands still. -/
def Clock.still (now : Timestamp) : Clock := ⟨now, fun _ => now, fun _ => now, now, 0⟩

/-- The surroundings at another time. -/
def Surroundings.withNow (w : Surroundings) (now : Timestamp) : Surroundings := { w with now }

/-! ### Names -/

theorem SpanIds.ofSeed_injective (seed : UInt64) : Function.Injective (ofSeed seed) := by
  intro n m h
  have hlist : Text.identifier seed n = Text.identifier seed m := String.ofList_injective h
  have hd : Text.padded 12 n = Text.padded 12 m := by
    unfold Text.identifier at hlist
    dsimp only at hlist
    simpa using hlist
  rw [← Text.ofDigits_padded 12 n, hd, Text.ofDigits_padded]

namespace Plan

theorem numbered_injective (word : String) : Function.Injective (numbered word) := by
  intro n m h
  have hd : Text.digits n = Text.digits m := by
    have hlist := congrArg String.toList h
    simpa [numbered] using hlist
  rw [← Text.ofDigits_digits n, hd, Text.ofDigits_digits]

theorem sessionId_injective (w : Surroundings) : Function.Injective (sessionId w) :=
  numbered_injective _

/-! ### What is executed -/

variable {p : Plan} {w : Surroundings} {clock : Clock} {i k : Nat}

theorem executed_le (p : Plan) : p.executed ≤ p.steps := by
  unfold executed
  split <;> omega

theorem lt_steps (hk : k < p.executed) : k < p.steps := Nat.lt_of_lt_of_le hk p.executed_le

theorem executed_of_failAt (h : p.failAt = some k) (hk : k < p.steps) : p.executed = k + 1 := by
  rw [executed, h]
  exact Nat.min_eq_right hk

theorem executed_of_none (h : p.failAt = none) : p.executed = p.steps := by
  rw [executed, h]

theorem fails_of_failAt (h : p.failAt = some k) (hk : k < p.steps) : p.fails = true := by
  rw [fails, h]
  exact decide_eq_true hk

theorem fails_of_none (h : p.failAt = none) : p.fails = false := by
  rw [fails, h]
  rfl

/-! ### The ids of the spans -/

/-- Each step that a session executes has a span of its own. -/
def DistinctIds (p : Plan) (w : Surroundings) : Prop :=
  ∀ i < p.sessions, ∀ k < p.executed, ∀ j < p.sessions, ∀ l < p.executed,
    p.spanId w i k = p.spanId w j l → i = j ∧ k = l

theorem distinctIds_of_injective (h : Function.Injective w.ids) : p.DistinctIds w := by
  intro i _ k hk j _ l hl hid
  have hn : i * p.steps + k = j * p.steps + l := h hid
  have hkl : k = l := by
    have hmod := congrArg (· % p.steps) hn
    simpa [Nat.mod_eq_of_lt (lt_steps hk), Nat.mod_eq_of_lt (lt_steps hl)] using hmod
  subst hkl
  exact ⟨Nat.eq_of_mul_eq_mul_right (Nat.zero_lt_of_lt (lt_steps hk)) (Nat.add_right_cancel hn), rfl⟩

/-! ### The script -/

/-- The calls that open the steps. -/
def openings (p : Plan) (w : Surroundings) (clock : Clock) (i : Nat) (steps : List Nat) : List Call :=
  steps.map fun k => p.opening (w.withNow (clock.opened k)) i k

/-- The calls that close the steps. -/
def closings (p : Plan) (w : Surroundings) (clock : Clock) (i : Nat) (steps : List Nat) : List Call :=
  steps.map fun k => p.closing (w.withNow (clock.closed k)) i k

/-- The calls of a session between its start and its end. -/
def body (p : Plan) (w : Surroundings) (clock : Clock) (i : Nat) : List Call :=
  p.openings w clock i (List.range p.executed) ++ p.closings w clock i (List.range p.executed).reverse

/-- A session of the plan with some calls between its start and its end. -/
def sessionRun (p : Plan) (w : Surroundings) (clock : Clock) (i : Nat) (during : List Call) :
    SessionRun where
  start := sessionStart (w.withNow clock.started) i
  draw := w.draw i
  during
  status := if p.fails then .completedWithErrors else .completedNormally
  finished := clock.finished
  durationMs := clock.durationMs

/-- All calls of a session. -/
def script (p : Plan) (w : Surroundings) (clock : Clock) (i : Nat) : List Call :=
  (p.sessionRun w clock i (p.body w clock i)).calls

/-- **The parts of a session** make up its script. -/
theorem flatten_parts (p : Plan) (w : Surroundings) (i : Nat) :
    (p.parts w i).flatten = p.script w (.still w.now) i := by
  have hsingles : ∀ os : List Call, (os.map fun o => [o]).flatten = os := fun os => by
    rw [← List.flatMap_def, List.flatMap_singleton']
  have hscript : p.script w (.still w.now) i = .start (sessionStart w i) (w.draw i) ::
      ((List.range p.executed).map (p.opening w i) ++
        (List.range p.executed).reverse.map (p.closing w i) ++ [p.ending w i]) := rfl
  rw [hscript]
  unfold parts
  dsimp only
  cases (List.range p.executed).map (p.opening w i) with
  | nil => simp
  | cons o os => simp [hsingles]

/-! ### What the body calls -/

theorem mem_body {c : Call} : c ∈ p.body w clock i ↔ ∃ k < p.executed,
    c = p.opening (w.withNow (clock.opened k)) i k ∨ c = p.closing (w.withNow (clock.closed k)) i k := by
  simp only [body, openings, closings, List.mem_append, List.mem_map, List.mem_reverse, List.mem_range]
  constructor
  · rintro (⟨k, hk, rfl⟩ | ⟨k, hk, rfl⟩)
    · exact ⟨k, hk, Or.inl rfl⟩
    · exact ⟨k, hk, Or.inr rfl⟩
  · rintro ⟨k, hk, rfl | rfl⟩
    · exact Or.inl ⟨k, hk, rfl⟩
    · exact Or.inr ⟨k, hk, rfl⟩

theorem of_mem_body {c : Call} (h : c ∈ p.body w clock i) :
    c.sessionId = sessionId w i ∧ c.started? = none ∧ ∀ s, c.ends s = false := by
  obtain ⟨k, -, rfl | rfl⟩ := mem_body.1 h <;> exact ⟨rfl, rfl, fun _ => rfl⟩

theorem sessionId_of_mem_script {c : Call} (h : c ∈ p.script w clock i) :
    c.sessionId = sessionId w i := by
  rcases List.mem_cons.1 h with rfl | h
  · rfl
  · rcases List.mem_append.1 h with h | h
    · exact (of_mem_body h).1
    · rw [List.mem_singleton.1 h]
      rfl

theorem openedIds_openings (steps : List Nat) :
    openedIds (p.openings w clock i steps) = steps.map (p.spanId w i) := by
  unfold openedIds openings
  rw [List.filterMap_map, List.map_filterMap]
  exact congrFun List.filterMap_eq_map steps

theorem openedIds_closings (steps : List Nat) : openedIds (p.closings w clock i steps) = [] := by
  unfold openedIds closings
  rw [List.filterMap_map, List.map_filterMap]
  exact List.filterMap_eq_nil_iff.2 fun _ _ => rfl

/-- **The spans of a session** are one for each step that is executed. -/
theorem openedIds_body :
    openedIds (p.body w clock i) = (List.range p.executed).map (p.spanId w i) := by
  rw [body, openedIds_append, openedIds_openings, openedIds_closings, List.append_nil]

theorem openedIds_script :
    openedIds (p.script w clock i) = (List.range p.executed).map (p.spanId w i) := by
  have hparts : p.script w clock i = [.start (sessionStart (w.withNow clock.started) i) (w.draw i)] ++
      (p.body w clock i ++ [(p.sessionRun w clock i []).ending]) := rfl
  rw [hparts, openedIds_append, openedIds_append, openedIds_body]
  exact List.append_nil _

theorem nodup_spanIds (hids : p.DistinctIds w) (hi : i < p.sessions) :
    ((List.range p.executed).map (p.spanId w i)).Nodup := by
  refine List.Nodup.map_on (fun k hk l hl h => ?_) List.nodup_range
  exact (hids i hi k (List.mem_range.1 hk) i hi l (List.mem_range.1 hl) h).2

/-! ### The step that fails -/

theorem outcome_of_failAt (h : p.failAt = some k) (hk : k < p.steps) :
    p.outcome k = .failure ⟨"SimulatedFailure", numbered "step " k ++ " failed", none⟩ := by
  rw [outcome, fails_of_failAt h hk, executed_of_failAt h hk]
  exact if_pos (by simp)

theorem outcome_of_ne (h : p.failAt ≠ some k) : p.outcome k = .success := by
  refine if_neg fun hboth => ?_
  obtain ⟨hfails, hlast⟩ := Bool.and_eq_true_iff.1 hboth
  obtain ⟨f, hf, hlt⟩ := (Option.any_eq_true _ _).1 hfails
  have hexecuted := executed_of_failAt hf (of_decide_eq_true hlt)
  have hk : k = f := by
    have hlast := of_decide_eq_true hlast
    omega
  exact h (hk ▸ hf)

theorem failsIn_closing_of_ne (h : p.failAt ≠ some k) (s : String) :
    (p.closing w i k).failsIn s = false := by
  rw [closing, outcome_of_ne h]
  exact Bool.and_false _

end Plan

end SpanRelay
