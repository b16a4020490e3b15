import SpanRelay.Proofs.Pipeline.Run
import SpanRelay.Proofs.Session.Failing
import SpanRelay.Proofs.Session.Race

/-! # Documents of sessions

What the store holds of the sessions of a run of the pipeline after the shutdown, if the run is
`Undisturbed`: of each session at the levels INFO and DEBUG that is sampled all spans, and none of one
that is not (`traced_session_documents`); of each session at the level ERROR the spans that are
persisted (`failed_session_documents`). Each is there in its final form, and nothing else is there
than spans that were opened while their session was going on. -/

namespace SpanRelay

/-- A run of a pipeline with settings it can run with, on an empty store that accepts everything. The
calls are proper, and the queue refuses no span. -/
structure Undisturbed {σ β : Type} (sink : Sink σ) (v : StoreView σ β) (config : Config)
    (policy : Policy) (store : σ) (p : Pipeline σ) (hs : List Happening) : Prop where
  start : Pipeline.start config policy store = .ok p
  accepting : sink.Accepting config.writer.settings.index v
  calm : v.calm store
  empty : ∀ id, v.content store id = none
  proper : Proper policy (isSampled config.samplingProbability) (hs.filterMap Happening.call?)
  nothingDropped : (p.happens sink hs).desk.account.tally.dropped = 0

namespace Undisturbed

variable {σ β : Type} {sink : Sink σ} {v : StoreView σ β} {config : Config} {policy : Policy}
  {store : σ} {p : Pipeline σ} {hs : List Happening} {run : SessionRun} {b : String}

theorem content_eq (h : Undisturbed sink v config policy store p hs) (id : String) :
    v.content ((p.happens sink hs).finalStore sink) id =
      (lastVersion? id (Registry.empty.handed policy (isSampled config.samplingProbability)
        (hs.filterMap Happening.call?))).map v.shown := by
  rw [Pipeline.content_run h.start h.accepting h.calm hs h.nothingDropped id, StoreView.after,
    h.empty id, Option.or_none]

theorem openedIn_of_content (h : Undisturbed sink v config policy store p hs) {id : String} {a : β}
    (ha : v.content ((p.happens sink hs).finalStore sink) id = some a) :
    ∃ x : Span, a = v.shown x ∧ x.id = id ∧
      OpenedIn (hs.filterMap Happening.call?) ⟨x.sessionId, id⟩ := by
  rw [h.content_eq id] at ha
  obtain ⟨x, hx, rfl⟩ := Option.map_eq_some_iff.1 ha
  obtain ⟨hmem, rfl⟩ := mem_of_lastVersion? hx
  exact ⟨x, rfl, rfl, Registry.openedIn_handed policy _ _ hmem⟩

theorem content_of_settles (h : Undisturbed sink v config policy store p hs)
    (hb : run.Settles policy (isSampled config.samplingProbability) b
      (Registry.empty.handed policy (isSampled config.samplingProbability)
        (hs.filterMap Happening.call?))) :
    ∃ x : Span, v.content ((p.happens sink hs).finalStore sink) b = some (v.shown x) ∧
      x.Final ⟨run.id, b⟩ (run.statusOf b)
        (run.final policy (isSampled config.samplingProbability)).stamp := by
  obtain ⟨x, hx, hfinal⟩ := hb
  refine ⟨x, ?_, hfinal⟩
  rw [h.content_eq b, hx]
  rfl

theorem content_eq_none (h : Undisturbed sink v config policy store p hs)
    (hb : lastVersion? b (Registry.empty.handed policy (isSampled config.samplingProbability)
      (hs.filterMap Happening.call?)) = none) :
    v.content ((p.happens sink hs).finalStore sink) b = none := by
  rw [h.content_eq b, hb]
  rfl

end Undisturbed

/-! ### A store that keeps what it is sent -/

/-- A store that keeps the documents as they come, the latest in front. -/
def Sink.shelf : Sink (List Document) where
  name := "shelf"
  receive _ _ _ shelf := (shelf, 0)
  answer _ ds shelf := (ds ++ shelf, [], .ok (.allOk (ds.map Document.id)))

/-- The documents on the shelf. -/
def StoreView.shelf : StoreView (List Document) Document where
  content shelf id := shelf.find? fun d => d.id = id
  render d := d
  calm _ := True

theorem accepting_shelf (index : String) : Sink.shelf.Accepting index .shelf where
  receive _ _ _ _ := ⟨trivial, rfl⟩
  answer ds shelf _ _ _ := by
    refine ⟨trivial, ⟨_, rfl, ?_⟩, fun id => ?_⟩
    · simp [BulkResponse.allOk, BulkResponse.hasFailures, BulkResponse.failures, BulkItem.ok,
        BulkItem.isSuccess]
    · have hamong : ∀ ds : List Document, StoreView.shelf.among ds id =
          ds.find? fun d => d.id = id := fun ds => Option.map_id'
      have happend := StoreView.shelf.among_append ds shelf id
      rw [hamong, hamong, hamong] at happend
      rw [hamong]
      exact happend

/-- A pipeline that writes to an empty shelf. -/
def Pipeline.shelved (policy : Policy) : Pipeline (List Document) :=
  ⟨.default, policy, .empty, .of Config.default.queue Config.default.writer []⟩

/-- A hook that ends the execution of a span of the session `s`. -/
def Hook.bareAfter (spanId : String) (outcome : Outcome) : Hook :=
  .after ⟨"s", spanId⟩ .empty outcome (SessionStart.bare "s").startedAt

/-- The session `s` with some hooks. -/
def SessionRun.bare (hooks : List Hook) : SessionRun :=
  ⟨.bare "s", 0, hooks.map .hook, .completedNormally, (SessionStart.bare "s").startedAt, 0⟩

theorem fresh_hooks {policy : Policy} {sample : UInt64 → Bool} : ∀ (hooks : List Hook) (r : Registry),
    Registry.Fresh policy sample r (hooks.map .hook)
  | [], _ => trivial
  | hook :: hooks, r => ⟨fun _ hs => (by cases hs), fresh_hooks hooks _⟩

theorem SessionRun.within_bare {hooks : List Hook} (h : ∀ hook ∈ hooks, hook.ends "s" = false) :
    (bare hooks).Within (bare hooks).calls := by
  refine ⟨⟨[], [], by simp⟩, fun c hc => ?_⟩
  obtain ⟨hook, hmem, rfl⟩ := List.mem_map.1 hc
  exact h hook hmem

theorem undisturbed_bare (policy : Policy) (hooks : List Hook)
    (hp : (openedIds (SessionRun.bare hooks).calls).Nodup)
    (hd : ((Pipeline.shelved policy).happens .shelf
      ((SessionRun.bare hooks).calls.map .call)).desk.account.tally.dropped = 0) :
    Undisturbed .shelf .shelf .default policy [] (.shelved policy)
      ((SessionRun.bare hooks).calls.map .call) where
  start := by
    have hf : Config.default.fault? = none := by decide
    rw [Pipeline.start, Config.validate, hf]
    rfl
  accepting := accepting_shelf _
  calm := trivial
  empty _ := rfl
  proper := by
    rw [filterMap_call]
    refine ⟨⟨fun s _ => rfl, ?_⟩, hp⟩
    have hcalls : (SessionRun.bare hooks).during ++ [(SessionRun.bare hooks).ending] =
        (hooks ++ [Hook.finish "s" .completedNormally (SessionStart.bare "s").startedAt 0]).map
          .hook := by
      rw [List.map_append]
      rfl
    rw [hcalls]
    exact fresh_hooks _ _
  nothingDropped := hd

/-- **INFO and DEBUG.** After an undisturbed run the store holds of each sampled session at the level
INFO or DEBUG that was started and finished a document for each span opened in between: with the
status last reported for it, or as cancelled, and with the fields of the session as finished. Of a
session that is not sampled it holds none. -/
theorem traced_session_documents {σ β : Type} {sink : Sink σ} {v : StoreView σ β} {config : Config}
    {policy : Policy} {store : σ} {p : Pipeline σ} {hs : List Happening}
    (h : Undisturbed sink v config policy store p hs) :
    let stored := v.content ((p.happens sink hs).finalStore sink)
    let calls := hs.filterMap Happening.call?
    let sample := isSampled config.samplingProbability
    (∀ id a, stored id = some a →
      ∃ x : Span, a = v.shown x ∧ x.id = id ∧ OpenedIn calls ⟨x.sessionId, id⟩) ∧
    ∀ run : SessionRun, run.Within calls →
      run.level policy = .info ∨ run.level policy = .debug →
      ∀ b ∈ run.opened,
        if sample run.draw then
          ∃ x : Span, stored b = some (v.shown x) ∧
            x.Final ⟨run.id, b⟩ (run.statusOf b) (run.final policy sample).stamp
        else stored b = none := by
  refine ⟨fun id a => h.openedIn_of_content, fun run hrun hl b hb => ?_⟩
  have hoff : run.level policy ≠ .off := by
    rcases hl with hl | hl <;> rw [hl] <;> decide
  obtain ⟨r, after, hbegun, hlast⟩ := hrun.begun h.proper hoff
  have hlevel := hbegun.lastVersion?_of_level hl hb
  unfold SessionRun.Settles at hlevel
  rw [← hlast b hb] at hlevel
  split
  · rename_i hsampled
    rw [if_pos hsampled] at hlevel
    exact h.content_of_settles hlevel
  · rename_i hsampled
    rw [if_neg hsampled] at hlevel
    exact h.content_eq_none hlevel

/-- A span ends before the session gets its correlation id, and another one does not end. -/
theorem traced_session_documents_shelf :
    let hooks : List Hook :=
      [.bareBefore "a", .bareAfter "a" .success, .correlate "s" "c", .bareBefore "b"]
    let p := Pipeline.shelved (StaticPolicy.of .debug).toPolicy
    let stored := StoreView.shelf.content
      ((p.happens .shelf ((SessionRun.bare hooks).calls.map .call)).finalStore .shelf)
    (∃ x : Span, stored "a" = some (.ofSpan x) ∧ x.status = .completedNormally ∧
      x.stamp.correlationId = some "c") ∧
    ∃ x : Span, stored "b" = some (.ofSpan x) ∧ x.status = .cancelledOrUnknown := by
  intro hooks p stored
  have h := undisturbed_bare (StaticPolicy.of .debug).toPolicy hooks (by decide) (by decide +kernel)
  obtain ⟨-, hall⟩ := traced_session_documents h
  rw [filterMap_call] at hall
  have hrun := hall (.bare hooks) (SessionRun.within_bare (by decide)) (Or.inr rfl)
  have ha := hrun "a" (by decide)
  have hb := hrun "b" (by decide)
  rw [if_pos (by decide)] at ha hb
  obtain ⟨x, hx, hxf⟩ := ha
  obtain ⟨y, hy, hyf⟩ := hb
  refine ⟨⟨x, hx, hxf.status.trans (by decide), ?_⟩, y, hy, hyf.status.trans (by decide)⟩
  rw [hxf.stamp]
  decide

/-- **ERROR.** After an undisturbed run the store holds of each session at the level ERROR that was
started and finished the documents of the spans that are persisted: from the last one opened before
the first failure on, or none if it did not fail. Each has the status last reported for it, or is
cancelled, and has the fields of the session as finished. -/
theorem failed_session_documents {σ β : Type} {sink : Sink σ} {v : StoreView σ β} {config : Config}
    {policy : Policy} {store : σ} {p : Pipeline σ} {hs : List Happening}
    (h : Undisturbed sink v config policy store p hs) :
    let stored := v.content ((p.happens sink hs).finalStore sink)
    let calls := hs.filterMap Happening.call?
    let sample := isSampled config.samplingProbability
    (∀ id a, stored id = some a →
      ∃ x : Span, a = v.shown x ∧ x.id = id ∧ OpenedIn calls ⟨x.sessionId, id⟩) ∧
    ∀ run : SessionRun, run.Within calls → run.level policy = .error →
      ∀ b ∈ run.opened,
        if b ∈ run.persisted then
          ∃ x : Span, stored b = some (v.shown x) ∧
            x.Final ⟨run.id, b⟩ (run.statusOf b) (run.final policy sample).stamp
        else stored b = none := by
  refine ⟨fun id a => h.openedIn_of_content, fun run hrun hl b hb => ?_⟩
  obtain ⟨r, after, hbegun, hlast⟩ := hrun.begun h.proper (by rw [hl]; decide)
  have herror := hbegun.lastVersion?_of_error hl hb
  unfold SessionRun.Settles at herror
  rw [← hlast b hb] at herror
  split
  · rename_i hmem
    rw [if_pos hmem] at herror
    exact h.content_of_settles herror
  · rename_i hmem
    rw [if_neg hmem] at herror
    exact h.content_eq_none herror

/-- Of three spans the second one fails, and the third does not end. -/
theorem failed_session_documents_shelf :
    let hooks : List Hook := [.bareBefore "a", .bareBefore "b",
      .bareAfter "b" (.failure ⟨"E", "m", none⟩), .bareBefore "c", .bareAfter "a" .success]
    let p := Pipeline.shelved (StaticPolicy.of .error).toPolicy
    let stored := StoreView.shelf.content
      ((p.happens .shelf ((SessionRun.bare hooks).calls.map .call)).finalStore .shelf)
    stored "a" = none ∧
    (∃ x : Span, stored "b" = some (.ofSpan x) ∧ x.status = .completedWithErrors) ∧
    ∃ x : Span, stored "c" = some (.ofSpan x) ∧ x.status = .cancelledOrUnknown := by
  intro hooks p stored
  have h := undisturbed_bare (StaticPolicy.of .error).toPolicy hooks (by decide) (by decide +kernel)
  obtain ⟨-, hall⟩ := failed_session_documents h
  rw [filterMap_call] at hall
  have hrun := hall (.bare hooks) (SessionRun.within_bare (by decide)) rfl
  have ha := hrun "a" (by decide)
  have hb := hrun "b" (by decide)
  have hc := hrun "c" (by decide)
  rw [if_neg (by decide)] at ha
  rw [if_pos (by decide)] at hb hc
  obtain ⟨x, hx, hxf⟩ := hb
  obtain ⟨y, hy, hyf⟩ := hc
  exact ⟨ha, ⟨x, hx, hxf.status.trans (by decide)⟩, y, hy, hyf.status.trans (by decide)⟩

end SpanRelay
