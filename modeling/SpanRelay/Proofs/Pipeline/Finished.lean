import SpanRelay.Proofs.Pipeline.Documents
import SpanRelay.Proofs.Registry.Finished
import SpanRelay.Proofs.Writer.Sent

/-! # Finished spans in a run

A span is handed over unfinished if and only if some hook exposes it: `unfinished_call_iff` says that
of one call and `unfinished_handed_iff` of any calls. Nothing but what is handed over is ever sent to
the store (`mem_handed_of_noted`). -/

namespace SpanRelay

namespace Registry

variable {policy : Policy} {sample : UInt64 → Bool} {r : Registry}

theorem unfinished_call_iff (hr : r.Sound) (c : Call) (x : Span) :
    (x ∈ (r.call policy sample c).2 ∧ x.status.isTerminal = false) ↔
      ∃ hook, c = .hook hook ∧ (r.folder hook.sessionId).Exposes hook x := by
  cases c with
  | start st draw =>
    exact ⟨fun h => absurd h.1 List.not_mem_nil, fun ⟨_, hc, _⟩ => by cases hc⟩
  | hook hook =>
    have hiff : (x ∈ (hook.run policy r).spans ∧ x.status.isTerminal = false) ↔
        (r.folder hook.sessionId).Exposes hook x := by
      rcases run_cases hr policy hook with ⟨hclosed, -, hnil⟩ | ⟨h, g, f, hreg, hs, -, heff, -⟩
      · rw [hnil]
        refine ⟨fun h => absurd h.1 List.not_mem_nil, fun ⟨_, _, ⟨g, hg, _⟩, _⟩ => ?_⟩
        rw [Folder.isOpen, hg] at hclosed
        cases hclosed
      · exact heff.unfinished_iff hreg hs x
    constructor
    · exact fun h => ⟨hook, rfl, hiff.1 h⟩
    · rintro ⟨hook', hc, hex⟩
      cases hc
      exact hiff.2 hex

theorem mem_handed_iff {x : Span} : ∀ {cs : List Call} {r : Registry},
    x ∈ r.handed policy sample cs ↔ ∃ past c rest, cs = past ++ c :: rest ∧
      x ∈ ((r.calls policy sample past).call policy sample c).2
  | [], _ => ⟨fun h => absurd h List.not_mem_nil, fun ⟨past, c, rest, h, _⟩ => by simp at h⟩
  | c :: cs, r => by
    rw [handed, List.mem_append, mem_handed_iff]
    constructor
    · rintro (h | ⟨past, c', rest, rfl, h⟩)
      · exact ⟨[], c, cs, rfl, h⟩
      · exact ⟨c :: past, c', rest, rfl, h⟩
    · rintro ⟨past, c', rest, hsplit, h⟩
      cases past with
      | nil =>
        cases hsplit
        exact Or.inl h
      | cons d past =>
        cases hsplit
        exact Or.inr ⟨past, c', rest, rfl, h⟩

/-- **Any calls.** A span is handed over unfinished if and only if some hook exposes it. -/
theorem unfinished_handed_iff (policy : Policy) (sample : UInt64 → Bool) (cs : List Call) (x : Span) :
    (x ∈ empty.handed policy sample cs ∧ x.status.isTerminal = false) ↔
      ∃ past hook rest, cs = past ++ .hook hook :: rest ∧
        ((empty.calls policy sample past).folder hook.sessionId).Exposes hook x := by
  constructor
  · rintro ⟨hx, ht⟩
    obtain ⟨past, c, rest, rfl, hcall⟩ := mem_handed_iff.1 hx
    obtain ⟨hook, rfl, hex⟩ :=
      (unfinished_call_iff (sound_calls past sound_empty) c x).1 ⟨hcall, ht⟩
    exact ⟨past, hook, rest, rfl, hex⟩
  · rintro ⟨past, hook, rest, rfl, hex⟩
    obtain ⟨hx, ht⟩ := (unfinished_call_iff
      (sound_calls past sound_empty) (.hook hook) x).2 ⟨hook, rfl, hex⟩
    exact ⟨mem_handed_iff.2 ⟨past, .hook hook, rest, rfl, hx⟩, ht⟩

end Registry

/-! ### Documents that are sent -/

namespace Pipeline

variable {σ : Type} {sink : Sink σ} {good : Document → Prop} {kept : σ → Prop}

/-- What is good of the documents of all spans that a run hands over is good of those on their way
at its end. -/
theorem carries_happens (hk : sink.Keeps good kept) : ∀ (hs : List Happening) {p : Pipeline σ},
    (∀ x ∈ p.handed hs, good (.ofSpan x)) → p.desk.Carries good kept →
    (p.happens sink hs).desk.Carries good kept
  | [], _, _, hp => hp
  | .call c :: hs, p, hx, hp => by
    have hnext := happen_call sink p c
    have hsplit : p.handed (.call c :: hs) =
        (p.registry.call p.policy p.sample c).2 ++ (p.happen sink (.call c)).handed hs := by
      rw [hnext]
      rfl
    rw [hsplit] at hx
    refine carries_happens hk hs (p := p.happen sink (.call c))
      (fun x hmem => hx x (List.mem_append_right _ hmem)) ?_
    rw [hnext]
    exact Desk.carries_scheduleAll _ (fun x hmem => hx x (List.mem_append_left _ hmem)) hp
  | .move :: hs, p, hx, hp =>
    carries_happens hk hs (p := p.happen sink .move) hx
      (Desk.carries_occur hk (o := .move) (fun _ ho => by cases ho) hp)
  | .wait nanos :: hs, p, hx, hp =>
    carries_happens hk hs (p := p.happen sink (.wait nanos)) hx
      (Desk.carries_occur hk (o := .wait nanos) (fun _ ho => by cases ho) hp)

/-- A pipeline before the first session that notes what its store is sent. -/
def noting (config : Config) (policy : Policy) (store : σ) : Pipeline (σ × List Document) :=
  ⟨config, policy, .empty, .of config.queue config.writer (store, [])⟩

/-- **Every document that the store is sent**, up to the end of the shutdown, is that of a span that
was handed over. -/
theorem mem_handed_of_noted {config : Config} {policy : Policy} {store : σ} {hs : List Happening}
    {d : Document}
    (hd : d ∈ (((noting config policy store).happens sink.noted hs).finalStore sink.noted).2) :
    ∃ x ∈ (noting config policy store).handed hs, d = .ofSpan x := by
  have hk := sink.keeps_noted fun d => ∃ x ∈ (noting config policy store).handed hs, d = .ofSpan x
  have hrun := carries_happens hk hs (p := noting config policy store)
    (fun x hx => ⟨x, hx, rfl⟩) (Desk.carries_of _ _ _ _ (List.forall_mem_nil _))
  exact (Desk.carries_shutdown hk hrun).store d hd

end Pipeline

/-- **Only finished spans are handed over, but for one case.** In any run of a pipeline, a span is
handed over unfinished if and only if it is held in progress for a session at the level ERROR when
the failure of a span is reported that is not kept for this session. Every document that the store is
sent, up to the end of the shutdown, is that of a span handed over. -/
theorem spans_finished_unless_exposed {σ : Type} (sink : Sink σ) (config : Config) (policy : Policy)
    (store : σ) (hs : List Happening) :
    let p := Pipeline.noting config policy store
    let registry := Registry.empty.calls policy (isSampled config.samplingProbability)
    (∀ x, (x ∈ p.handed hs ∧ x.status.isTerminal = false) ↔
      ∃ past hook rest, hs.filterMap Happening.call? = past ++ .hook hook :: rest ∧
        ((registry past).folder hook.sessionId).Exposes hook x) ∧
    ∀ d ∈ ((p.happens sink.noted hs).finalStore sink.noted).2, ∃ x ∈ p.handed hs, d = .ofSpan x :=
  ⟨Registry.unfinished_handed_iff policy _ _, fun _ => Pipeline.mem_handed_of_noted⟩

/-- Of two spans of a session at the level ERROR the outer one fails, and the inner one, which is
held in progress, is written. -/
theorem held_span_sent_in_progress :
    let p := Pipeline.noting .default (StaticPolicy.of .error).toPolicy []
    let hs : List Happening := ((.start (.bare "s") 0) ::
      [Hook.bareBefore "a", .bareBefore "b", .bareAfter "a" (.failure ⟨"E", "m", none⟩)].map
        Call.hook).map .call
    ∃ x ∈ p.handed hs, x.status.isTerminal = false ∧
      .ofSpan x ∈ ((p.happens Sink.shelf.noted hs).finalStore Sink.shelf.noted).2 := by
  intro p hs
  have hall : ∀ x ∈ p.handed hs, x.status.isTerminal = false := by decide +kernel
  have hsent : 0 < ((p.happens Sink.shelf.noted hs).finalStore Sink.shelf.noted).2.length := by
    decide +kernel
  obtain ⟨d, hd⟩ := List.exists_mem_of_length_pos hsent
  obtain ⟨x, hx, rfl⟩ := Pipeline.mem_handed_of_noted hd
  exact ⟨x, hx, hall x hx, hd⟩

end SpanRelay
