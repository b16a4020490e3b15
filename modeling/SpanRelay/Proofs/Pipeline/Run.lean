import SpanRelay.Pipeline
import SpanRelay.Proofs.Session.Calls
import SpanRelay.Proofs.Writer.Prospect

/-! # Runs of a pipeline

A run is any order of calls, moves of the writer and passing of time. The registry goes through what
the calls do to it, whatever the writer does in between (`happen_call`), and an accepting store will
hold what was accepted of the spans that these hand over (`due_happens`). If nothing is dropped, it
holds after the shutdown the last version of each of them (`content_run`). -/

namespace SpanRelay

/-- What may happen to a pipeline. -/
inductive Happening
  | call (c : Call)
  /-- The writer makes its next move, if it has one at the present time. -/
  | move
  /-- Some nanoseconds pass. -/
  | wait (nanos : Nat)

/-- The call that happens. -/
def Happening.call? : Happening → Option Call
  | call c => some c
  | move | wait _ => none

theorem filterMap_call (cs : List Call) : (cs.map Happening.call).filterMap Happening.call? = cs := by
  rw [List.filterMap_map]
  exact List.filterMap_some

/-- A desk where the writer goes on with documents for an accepting store, which will hold what is
expected. -/
structure Desk.Due {σ β : Type} (sink : Sink σ) (v : StoreView σ β) (d : Desk σ)
    (expected : String → Option β) : Prop where
  accepting : sink.Accepting d.writer.settings.index v
  drains : 0 < d.writer.settings.drainLength
  awaits : d.Awaits v expected
  live : d.Live
  ahead : ∀ b ∈ d.writer.ahead, b ≠ []

namespace Desk

variable {σ β : Type} {sink : Sink σ} {v : StoreView σ β} {d : Desk σ}
  {expected : String → Option β}

theorem writer_scheduleAll : ∀ (spans : List Span) (d : Desk σ), (d.scheduleAll spans).writer = d.writer
  | [], _ => rfl
  | span :: spans, d => writer_scheduleAll spans (d.schedule span).1

theorem due_scheduleAll (h : d.Due sink v expected) (spans : List Span) :
    ∃ accepted : List Span, accepted.Sublist spans ∧
      (d.scheduleAll spans).Due sink v (v.after accepted expected) ∧
      (d.scheduleAll spans).account.tally.dropped + accepted.length =
        d.account.tally.dropped + spans.length := by
  obtain ⟨accepted, hsub, hawaits, hlive, hsum⟩ := awaits_scheduleAll spans h.awaits h.live
  have hwriter := writer_scheduleAll spans d
  exact ⟨accepted, hsub, ⟨hwriter ▸ h.accepting, hwriter ▸ h.drains, hawaits, hlive, hwriter ▸ h.ahead⟩,
    hsum⟩

theorem due_move (h : d.Due sink v expected) :
    (d.occur sink .move).Due sink v expected ∧
      (d.occur sink .move).account.tally.dropped = d.account.tally.dropped := by
  unfold occur
  cases hs : d.step? sink with
  | none => exact ⟨h, rfl⟩
  | some d' =>
    have hstep := step_of_step? hs
    have hset := settings_step hstep
    obtain ⟨hawaits, hdropped⟩ := awaits_step h.accepting hstep h.awaits h.drains
    exact ⟨⟨hset ▸ h.accepting, hset ▸ h.drains, hawaits, live_step hstep h.live,
      ne_nil_ahead_step hstep h.ahead⟩, hdropped⟩

end Desk

namespace Pipeline

variable {σ β : Type} {sink : Sink σ} {v : StoreView σ β}

/-- The pipeline after something has happened. -/
def happen (sink : Sink σ) (p : Pipeline σ) : Happening → Pipeline σ
  | .call (.start s draw) => (p.startSession s draw).1
  | .call (.hook hook) => (p.call hook).1
  | .move => { p with desk := p.desk.occur sink .move }
  | .wait nanos => { p with desk := p.desk.occur sink (.wait nanos) }

/-- The pipeline after some happenings. -/
def happens (sink : Sink σ) (p : Pipeline σ) (hs : List Happening) : Pipeline σ :=
  hs.foldl (happen sink) p

/-- The store after the pipeline was shut down. -/
def finalStore (sink : Sink σ) (p : Pipeline σ) : σ := (p.desk.shutdown sink).store

/-- The sampling decision for a number drawn. -/
def sample (p : Pipeline σ) (draw : UInt64) : Bool := isSampled p.config.samplingProbability draw

theorem happen_call (sink : Sink σ) (p : Pipeline σ) (c : Call) :
    p.happen sink (.call c) =
      { p with
        registry := (p.registry.call p.policy p.sample c).1
        desk := p.desk.scheduleAll (p.registry.call p.policy p.sample c).2 } := by
  cases c with
  | start s draw =>
    dsimp only [happen, startSession, Registry.call]
    split <;> rfl
  | hook hook => rfl

/-- The spans that are handed over in a run. -/
def handed (p : Pipeline σ) (hs : List Happening) : List Span :=
  p.registry.handed p.policy p.sample (hs.filterMap Happening.call?)

/-- **What an accepting store will hold** after a run: the spans that were accepted out of those
handed over. The others are counted as dropped. -/
theorem due_happens : ∀ (hs : List Happening) {p : Pipeline σ} {expected : String → Option β},
    p.desk.Due sink v expected →
    ∃ accepted : List Span, accepted.Sublist (p.handed hs) ∧
      (p.happens sink hs).desk.Due sink v (v.after accepted expected) ∧
      (p.happens sink hs).desk.account.tally.dropped + accepted.length =
        p.desk.account.tally.dropped + (p.handed hs).length
  | [], _, _, h => ⟨[], List.Sublist.refl _, h, rfl⟩
  | .call c :: hs, p, expected, h => by
    obtain ⟨first, hsub, hdue, hsum⟩ :=
      Desk.due_scheduleAll h (p.registry.call p.policy p.sample c).2
    have hnext := happen_call sink p c
    have hdue' : (p.happen sink (.call c)).desk.Due sink v (v.after first expected) := by
      rw [hnext]
      exact hdue
    obtain ⟨rest, hsub', hdue'', hsum'⟩ := due_happens hs hdue'
    have hsplit : p.handed (.call c :: hs) =
        (p.registry.call p.policy p.sample c).2 ++ (p.happen sink (.call c)).handed hs := by
      rw [hnext]
      rfl
    refine ⟨first ++ rest, ?_, ?_, ?_⟩
    · rw [hsplit]
      exact hsub.append hsub'
    · rw [Desk.after_append]
      exact hdue''
    · have hdesk : (p.happen sink (.call c)).desk =
          p.desk.scheduleAll (p.registry.call p.policy p.sample c).2 := congrArg Pipeline.desk hnext
      rw [hdesk] at hsum'
      rw [hsplit, List.length_append, List.length_append]
      have hall : p.happens sink (.call c :: hs) = (p.happen sink (.call c)).happens sink hs := rfl
      rw [hall]
      omega
  | .move :: hs, p, expected, h => by
    obtain ⟨hdue, hdropped⟩ := Desk.due_move h
    obtain ⟨rest, hsub, hdue', hsum⟩ := due_happens hs (p := p.happen sink .move) hdue
    exact ⟨rest, hsub, hdue', hsum.trans (congrArg (· + _) hdropped)⟩
  | .wait nanos :: hs, p, expected, h =>
    due_happens hs (p := p.happen sink (.wait nanos)) ⟨h.accepting, h.drains,
      ⟨h.awaits.calm, h.awaits.nodup, h.awaits.spans, h.awaits.prospect, h.awaits.stopped⟩,
      ⟨h.live.closed, h.live.orphaned, h.live.closing, h.live.stopping, h.live.phase⟩, h.ahead⟩

variable {config : Config} {policy : Policy} {store : σ} {p : Pipeline σ}

theorem eq_of_start (h : start config policy store = .ok p) :
    config.validate = .ok config ∧
      p = ⟨config, policy, .empty, .of config.queue config.writer store⟩ := by
  unfold start Config.validate at h
  unfold Config.validate
  cases hf : config.fault? with
  | some fault =>
    rw [hf] at h
    cases h
  | none =>
    rw [hf] at h
    cases h
    exact ⟨rfl, rfl⟩

/-- **After the shutdown**, if nothing was dropped, the store holds the last version of each span that
was handed over, and else what it held before. -/
theorem content_run (hp : start config policy store = .ok p)
    (hs : sink.Accepting config.writer.settings.index v) (hcalm : v.calm store)
    (hs' : List Happening) (hdrop : (p.happens sink hs').desk.account.tally.dropped = 0)
    (id : String) :
    v.content ((p.happens sink hs').finalStore sink) id =
      v.after (Registry.empty.handed policy (isSampled config.samplingProbability)
        (hs'.filterMap Happening.call?)) (v.content store) id := by
  obtain ⟨hv, hstart⟩ := eq_of_start hp
  have hdue : p.desk.Due sink v (v.content store) := by
    rw [hstart]
    exact ⟨hs, drainLength_pos_of_validate hv, ⟨hcalm, List.nodup_nil, nofun, fun _ => rfl, nofun⟩,
      ⟨rfl, rfl, rfl, rfl, nofun⟩, nofun⟩
  have hzero : p.desk.account.tally.dropped = 0 := by rw [hstart]; rfl
  have hhanded : p.handed hs' = Registry.empty.handed policy (isSampled config.samplingProbability)
      (hs'.filterMap Happening.call?) := by rw [hstart]; rfl
  obtain ⟨accepted, hsub, hdue', hsum⟩ := due_happens hs' hdue
  -- nothing was dropped, so everything was accepted
  have hall : accepted = p.handed hs' := by
    refine hsub.eq_of_length ?_
    omega
  rw [hall, hhanded] at hdue'
  exact Desk.content_shutdown hdue'.accepting hdue'.awaits hdue'.drains hdue'.ahead id

end Pipeline

end SpanRelay
