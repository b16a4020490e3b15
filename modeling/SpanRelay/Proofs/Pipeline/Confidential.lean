import Mathlib.Data.List.InsertIdx
import SpanRelay.Proofs.Pipeline.Documents
import SpanRelay.Proofs.Registry.Concealed
import SpanRelay.Proofs.Writer.Offers

/-! # Confidential payloads

Two runs of a pipeline are the same but for the bodies and contexts of the snapshots that its hooks
are given; `veiled` takes these out. Wherever they differ, the level of the session or the policy
forbids to retain the difference (`Scene.Concealed`). Then nothing tells the runs apart: every deed
keeps the two scenes `Twins` (`Twins.perform`), so that the same is queued, dropped, requested, kept
and stored. Hooks may be under way at once, as in a `Race`. -/

namespace SpanRelay

/-- What may happen to a pipeline and its store. -/
inductive Deed (σ : Type)
  /-- A session starts, having drawn a number. -/
  | start (s : SessionStart) (draw : UInt64)
  /-- A hook looks its session up; if there is none, the hook is over. -/
  | look (hook : Hook)
  /-- One of the hooks under way does its work. -/
  | work (index : Nat)
  /-- A session is forgotten. -/
  | clear (sessionId : String)
  /-- Something happens at the desk or to the store. -/
  | incident (i : Incident σ)

variable {σ : Type}

/-- The deed with neither body nor context in the snapshot of its hook. -/
def Deed.veiled : Deed σ → Deed σ
  | look hook => look hook.veiled
  | start s draw => start s draw
  | work index => work index
  | clear sessionId => clear sessionId
  | incident i => incident i

/-- Two deeds that are the same but for bodies and contexts are the same, or both are looks. -/
theorem Deed.eq_or_look {d d' : Deed σ} (h : d.veiled = d'.veiled) :
    d = d' ∨ ∃ hook hook', d = .look hook ∧ d' = .look hook' ∧ hook.veiled = hook'.veiled := by
  cases d <;> cases d' <;> simp_all [veiled]

/-- A pipeline with the hooks that use it. -/
structure Scene (σ : Type) where
  pipeline : Pipeline σ
  /-- The hooks under way, each with the registration that it has found. -/
  flight : List (Hook × Nat)

namespace Scene

/-- A pipeline that no hook uses. -/
def of (p : Pipeline σ) : Scene σ := ⟨p, []⟩

/-- What one of the hooks under way leaves when it does its work. -/
def result? (s : Scene σ) (index : Nat) : Option HookResult :=
  s.flight[index]?.map fun p => p.1.body s.pipeline.policy p.2 s.pipeline.registry

/-- The scene after a deed. -/
def perform (sink : Sink σ) (s : Scene σ) : Deed σ → Scene σ
  | .start start draw => { s with pipeline := (s.pipeline.startSession start draw).1 }
  | .look hook =>
    match hook.find? s.pipeline.registry with
    | none => s
    | some number => { s with flight := s.flight ++ [(hook, number)] }
  | .work index =>
    match s.result? index with
    | none => s
    | some result => { pipeline := s.pipeline.take result, flight := s.flight.eraseIdx index }
  | .clear sessionId => { s with pipeline := s.pipeline.clear sessionId }
  | .incident i => { s with pipeline := { s.pipeline with desk := s.pipeline.desk.undergo sink i } }

/-- The scene after some deeds. -/
def run (sink : Sink σ) (s : Scene σ) (ds : List (Deed σ)) : Scene σ := ds.foldl (perform sink) s

/-- The incidents at the desk that a deed brings about. -/
def incidents (s : Scene σ) : Deed σ → List (Incident σ)
  | .work index =>
    ((s.result? index).elim [] HookResult.spans).map fun span => .occurrence (.offer span)
  | .incident i => [i]
  | .start .. | .look _ | .clear _ => []

/-- The spans that are offered to the queue in a run, each with what becomes of it. -/
def decisions (sink : Sink σ) : Scene σ → List (Deed σ) → List (Span × ScheduleOutcome)
  | _, [] => []
  | s, d :: ds => s.pipeline.desk.offers sink (s.incidents d) ++ decisions sink (s.perform sink d) ds

/-- A call of a hook is a look and at once the work. -/
theorem run_call (sink : Sink σ) (s : Scene σ) (hook : Hook) :
    s.run sink [.look hook, .work s.flight.length] =
      { s with pipeline := (s.pipeline.call hook).1 } := by
  unfold run Pipeline.call Hook.run
  simp only [List.foldl_cons, List.foldl_nil, perform]
  cases hook.find? s.pipeline.registry with
  | none =>
    rw [result?, List.getElem?_eq_none (Nat.le_refl _)]
    rfl
  | some number =>
    rw [result?, List.getElem?_concat_length]
    simp [List.eraseIdx_append_of_length_le]

/-! ### Two scenes -/

/-- Of two hooks under way, the registration that they work with retains nothing in which their
snapshots differ. -/
def Conceals (s s' : Scene σ) : Deed σ → Prop
  | .work index =>
    ∀ p ∈ s.flight[index]?, ∀ p' ∈ s'.flight[index]?,
      p.1.Conceals s.pipeline.policy s.pipeline.registry p.2 p'.1
  | .start .. | .look _ | .clear _ | .incident _ => True

instance (s s' : Scene σ) : (d : Deed σ) → Decidable (s.Conceals s' d)
  | .work index => inferInstanceAs (Decidable (∀ p ∈ s.flight[index]?,
      ∀ p' ∈ s'.flight[index]?, p.1.Conceals s.pipeline.policy s.pipeline.registry p.2 p'.1))
  | .start .. | .look _ | .clear _ | .incident _ => .isTrue trivial

/-- In two runs that go on side by side, whatever is different in the snapshots of two hooks is not
retained when these do their work. -/
def Concealed (sink : Sink σ) : Scene σ → Scene σ → List (Deed σ) → List (Deed σ) → Prop
  | s, s', d :: ds, d' :: ds' =>
    s.Conceals s' d ∧ Concealed sink (s.perform sink d) (s'.perform sink d') ds ds'
  | _, _, _, _ => True

instance decidableConcealed (sink : Sink σ) :
    ∀ (s s' : Scene σ) (ds ds' : List (Deed σ)), Decidable (Concealed sink s s' ds ds')
  | s, s', d :: ds, d' :: ds' =>
    haveI := decidableConcealed sink (s.perform sink d) (s'.perform sink d') ds ds'
    inferInstanceAs (Decidable (_ ∧ _))
  | _, _, [], _ => .isTrue trivial
  | _, _, _ :: _, [] => .isTrue trivial

/-- A hook under way with neither body nor context in its snapshot. -/
def veil (p : Hook × Nat) : Hook × Nat := (p.1.veiled, p.2)

/-- Two scenes are the same but for the bodies and contexts of the hooks under way. -/
structure Twins (s s' : Scene σ) : Prop where
  pipeline : s.pipeline = s'.pipeline
  flight : s.flight.map veil = s'.flight.map veil

variable {s s' : Scene σ} {d d' : Deed σ}

theorem Twins.result?_eq (h : s.Twins s') {index : Nat} (hc : s.Conceals s' (.work index)) :
    s.result? index = s'.result? index := by
  have hflight : s.flight[index]?.map veil = s'.flight[index]?.map veil := by
    rw [← List.getElem?_map, h.flight, List.getElem?_map]
  unfold result?
  rw [← h.pipeline]
  cases hp : s.flight[index]? with
  | none =>
    rw [hp] at hflight
    rw [Option.map_eq_none_iff.1 hflight.symm]
  | some p =>
    rw [hp] at hflight
    obtain ⟨p', hp', hveil⟩ := Option.map_eq_some_iff.1 hflight.symm
    obtain ⟨hhook, hnumber⟩ := Prod.mk.inj hveil
    have hbody := Hook.body_eq_of_conceals hhook.symm (hc p hp p' hp')
    rw [hp', Option.map_some, Option.map_some, hbody, ← hnumber]

/-- **One deed** leaves the scenes twins, and the same happens at the desk. -/
theorem Twins.perform (sink : Sink σ) (h : s.Twins s') (hv : d.veiled = d'.veiled)
    (hc : s.Conceals s' d) :
    (s.perform sink d).Twins (s'.perform sink d') ∧ s.incidents d = s'.incidents d' := by
  rcases Deed.eq_or_look hv with rfl | ⟨hook, hook', rfl, rfl, hhook⟩
  · cases d with
    | start start draw => exact ⟨⟨by simp only [Scene.perform, h.pipeline], h.flight⟩, rfl⟩
    | look hook =>
      refine ⟨?_, rfl⟩
      unfold Scene.perform
      rw [← h.pipeline]
      dsimp only
      split
      · exact h
      · exact ⟨rfl, by simp only [List.map_append, h.flight]⟩
    | work index =>
      unfold Scene.perform incidents
      dsimp only
      rw [h.result?_eq hc, h.pipeline]
      refine ⟨?_, rfl⟩
      split
      · exact h
      · refine ⟨rfl, ?_⟩
        dsimp only
        rw [← List.eraseIdx_map, h.flight, List.eraseIdx_map]
    | clear sessionId => exact ⟨⟨by simp only [Scene.perform, h.pipeline], h.flight⟩, rfl⟩
    | incident i => exact ⟨⟨by simp only [Scene.perform, h.pipeline], h.flight⟩, rfl⟩
  · refine ⟨?_, rfl⟩
    have hfind : hook.find? s.pipeline.registry = hook'.find? s'.pipeline.registry := by
      rw [Hook.find?, Hook.find?, h.pipeline, Hook.sessionId_eq_of_veiled hhook]
    unfold Scene.perform
    dsimp only
    rw [hfind]
    split
    · exact h
    · refine ⟨h.pipeline, ?_⟩
      simp only [List.map_append, List.map_cons, List.map_nil, h.flight, veil, hhook]

/-- **A whole run** leaves the scenes twins, and the same is accepted and refused by the queue. -/
theorem Twins.run (sink : Sink σ) : ∀ {ds ds' : List (Deed σ)} {s s' : Scene σ}, s.Twins s' →
    ds.map Deed.veiled = ds'.map Deed.veiled → Concealed sink s s' ds ds' →
    (s.run sink ds).Twins (s'.run sink ds') ∧ s.decisions sink ds = s'.decisions sink ds'
  | [], [], _, _, h, _, _ => ⟨h, rfl⟩
  | [], _ :: _, _, _, _, hv, _ => nomatch hv
  | _ :: _, [], _, _, _, hv, _ => nomatch hv
  | d :: ds, d' :: ds', s, s', h, hv, hc => by
    obtain ⟨hd, hds⟩ := List.cons.inj hv
    obtain ⟨htwins, hincidents⟩ := h.perform sink hd hc.1
    obtain ⟨hrun, hdecisions⟩ := Twins.run sink htwins hds hc.2
    refine ⟨hrun, ?_⟩
    rw [decisions, decisions, hdecisions, hincidents, h.pipeline]

end Scene

/-! ### All that was requested -/

/-- A request as it comes to a store. -/
structure Request where
  /-- The time in nanoseconds. -/
  arrived : Nat
  index : String
  documents : List Document

/-- The store with a list of all requests that came to it. -/
def Sink.recorded (sink : Sink σ) : Sink (σ × List Request) where
  name := sink.name
  receive now index ds s :=
    let received := sink.receive now index ds s.1
    ((received.1, s.2 ++ [⟨now, index, ds⟩]), received.2)
  answer index ds s :=
    let answered := sink.answer index ds s.1
    ((answered.1, s.2), answered.2)

/-- **What is not to be retained has no influence.** Two runs of a pipeline are the same but for
bodies and contexts, and where these differ they are those of a session at the level `info`, or
bodies at an element where the policy allows to capture none. Then every span that is offered to the
queue is the same and is accepted or refused alike, and both runs end with the same pipeline: with
the same caches and statistics, and with a store that got the same requests and has the same
documents, now and after the shutdown. -/
theorem concealed_payloads_uninfluential (sink : Sink σ) (p : Pipeline (σ × List Request))
    {ds ds' : List (Deed (σ × List Request))} (hv : ds.map Deed.veiled = ds'.map Deed.veiled)
    (hc : Scene.Concealed sink.recorded (.of p) (.of p) ds ds') :
    let e := (Scene.of p).run sink.recorded ds
    let e' := (Scene.of p).run sink.recorded ds'
    (Scene.of p).decisions sink.recorded ds = (Scene.of p).decisions sink.recorded ds' ∧
    (e.pipeline = e'.pipeline ∧ e.pipeline.registry = e'.pipeline.registry ∧
      e.pipeline.stats = e'.pipeline.stats ∧ e.pipeline.desk.store = e'.pipeline.desk.store) ∧
    e.pipeline.finalStore sink.recorded = e'.pipeline.finalStore sink.recorded := by
  intro e e'
  obtain ⟨htwins, hdecisions⟩ := Scene.Twins.run sink.recorded ⟨rfl, rfl⟩ hv hc
  have hp : e.pipeline = e'.pipeline := htwins.pipeline
  refine ⟨hdecisions, ⟨hp, ?_, ?_, ?_⟩, ?_⟩
  all_goals rw [hp]

/-- A session at the level `info`, and one at the level `debug` whose element must not be captured,
execute a step each; in the other run the bodies are others, and so is the context of the first. -/
theorem concealed_payloads_uninfluential_shelf :
    let policy : Policy := ⟨fun chain => if chain = "chain" then .info else .debug, fun _ _ => false⟩
    let p : Pipeline (List Document × List Request) :=
      ⟨.default, policy, .empty, .of Config.default.queue Config.default.writer ([], [])⟩
    let deeds (secret : String) : List (Deed (List Document × List Request)) :=
      let hidden := Snapshot.empty.withBody secret
      let now := (SessionStart.bare "s").startedAt
      let step : Element := ⟨"step", "Step", "script", none, none⟩
      [.start (.bare "s") 0, .start { SessionStart.bare "t" with chainId := "other" } 0,
        .look (.before "s" "a" step none (hidden.withContext "key" secret) now),
        .look (.before "t" "b" step none hidden now), .work 1, .work 0,
        .look (.after ⟨"t", "b"⟩ hidden .success now), .work 0,
        .look (.after ⟨"s", "a"⟩ (hidden.withContext "key" secret) .success now), .work 0,
        .incident (.occurrence .move), .incident (.occurrence .move),
        .incident (.occurrence .move), .incident (.occurrence .move)]
    let e := (Scene.of p).run Sink.shelf.recorded (deeds "one")
    let e' := (Scene.of p).run Sink.shelf.recorded (deeds "another")
    (deeds "one").map Deed.veiled = (deeds "another").map Deed.veiled ∧
      Scene.Concealed Sink.shelf.recorded (.of p) (.of p) (deeds "one") (deeds "another") ∧
      e.pipeline.desk.store.1.map Document.id = ["b", "a"] ∧ e.pipeline = e'.pipeline := by
  intro policy p deeds e e'
  have hv : (deeds "one").map Deed.veiled = (deeds "another").map Deed.veiled := rfl
  have hc : Scene.Concealed Sink.shelf.recorded (.of p) (.of p) (deeds "one") (deeds "another") := by
    decide +kernel
  have h := concealed_payloads_uninfluential Sink.shelf p hv hc
  exact ⟨hv, hc, by decide +kernel, h.2.1.1⟩

end SpanRelay
