import Mathlib.Data.List.TakeWhile
import SpanRelay.Proofs.Session.Cached

/-! # Runs of sessions

A `SessionRun` is one session from its start to its end, with all that is called while it goes on,
also of other sessions. Calls are `Proper` if the ids of the spans that they open are distinct and no
session is started while it is registered. Of a run within proper calls it is known what the registry
is when it has begun (`Within.begun`) and when one of its spans is opened (`Begun.opening`). If the
session is fully tracked, each of its spans is handed over last in its final form
(`Begun.lastVersion?_of_full`); if it is not traced, none is (`Begun.lastVersion?_of_skip`). -/

namespace SpanRelay

/-- One session: how it starts, what is called while it goes on, and how it ends. -/
structure SessionRun where
  start : SessionStart
  draw : UInt64
  during : List Call
  status : Status
  finished : Timestamp
  durationMs : UInt64

/-- The ids of the spans that some calls open in a session, in their order. -/
def openedOn (s : String) (cs : List Call) : List String :=
  ((cs.filterMap Call.opened?).filter fun ref => ref.sessionId = s).map SpanRef.spanId

/-- The ids of all spans that some calls open. -/
def openedIds (cs : List Call) : List String := (cs.filterMap Call.opened?).map SpanRef.spanId

/-- Calls that open spans of distinct ids, and start no session that is registered. -/
structure Proper (policy : Policy) (sample : UInt64 → Bool) (cs : List Call) : Prop where
  fresh : Registry.Fresh policy sample .empty cs
  distinct : (openedIds cs).Nodup

namespace SessionRun

variable (run : SessionRun)

/-- The id of the session. -/
def id : String := run.start.sessionId

/-- The call that ends the session. -/
def ending : Call := .hook (.finish run.id run.status run.finished run.durationMs)

/-- The calls from the start to the end. -/
def calls : List Call := .start run.start run.draw :: (run.during ++ [run.ending])

/-- The run is one of those in some calls. -/
def Within (cs : List Call) : Prop :=
  (∃ before after, cs = before ++ run.calls ++ after) ∧ ∀ c ∈ run.during, c.ends run.id = false

/-- The ids of the spans of the session, in the order in which they are opened. -/
def opened : List String := openedOn run.id run.during

/-- The level of the session. -/
def level (policy : Policy) : Level := policy.sessionLevel run.start.chainId

/-- The session as it starts. -/
def first (policy : Policy) (sample : UInt64 → Bool) : Session :=
  .start run.start (run.level policy) (sample run.draw)

/-- The session as it is finished. -/
def final (policy : Policy) (sample : UInt64 → Bool) : Session :=
  ((run.first policy sample).during run.during).finish run.status run.finished run.durationMs

/-- The status last reported for a span since it was opened. -/
def statusOf (b : String) : Status :=
  reported ⟨run.id, b⟩ (run.during.dropWhile fun c => c.opened? ≠ some ⟨run.id, b⟩)
    .cancelledOrUnknown

/-- What is still called when the session of the run is `session`: the calls until it ends, its end,
and what is called after the run. -/
def remaining (session : Session) (since after : List Call) : List Call :=
  since ++ .hook (.finish session.id run.status run.finished run.durationMs) :: after

/-- The last version of a span has its final form. -/
def Settles (policy : Policy) (sample : UInt64 → Bool) (b : String) (spans : List Span) : Prop :=
  ∃ x, lastVersion? b spans = some x ∧
    x.Final ⟨run.id, b⟩ (run.statusOf b) (run.final policy sample).stamp

end SessionRun

theorem SessionRun.remaining_append (run : SessionRun) (session : Session) (cs ds after : List Call) :
    run.remaining session (cs ++ ds) after = cs ++ run.remaining session ds after :=
  List.append_assoc _ _ _

/-! ### Opened spans -/

theorem mem_openedIds {cs : List Call} {b : String} :
    b ∈ openedIds cs ↔ ∃ c ∈ cs, ∃ ref, c.opened? = some ref ∧ ref.spanId = b := by
  unfold openedIds
  constructor
  · intro h
    obtain ⟨ref, href, hb⟩ := List.mem_map.1 h
    obtain ⟨c, hc, ho⟩ := List.mem_filterMap.1 href
    exact ⟨c, hc, ref, ho, hb⟩
  · rintro ⟨c, hc, ref, ho, hb⟩
    exact List.mem_map.2 ⟨ref, List.mem_filterMap.2 ⟨c, hc, ho⟩, hb⟩

theorem mem_openedOn {s b : String} {cs : List Call} :
    b ∈ openedOn s cs ↔ ∃ c ∈ cs, c.opened? = some ⟨s, b⟩ := by
  unfold openedOn
  constructor
  · intro h
    obtain ⟨ref, href, rfl⟩ := List.mem_map.1 h
    obtain ⟨href, hs⟩ := List.mem_filter.1 href
    obtain ⟨c, hc, ho⟩ := List.mem_filterMap.1 href
    exact ⟨c, hc, of_decide_eq_true hs ▸ ho⟩
  · rintro ⟨c, hc, ho⟩
    refine List.mem_map.2 ⟨⟨s, b⟩, List.mem_filter.2 ⟨?_, decide_eq_true rfl⟩, rfl⟩
    exact List.mem_filterMap.2 ⟨c, hc, ho⟩

theorem openedOn_append (s : String) (cs ds : List Call) :
    openedOn s (cs ++ ds) = openedOn s cs ++ openedOn s ds := by
  unfold openedOn
  rw [List.filterMap_append, List.filter_append, List.map_append]

theorem openedOn_cons {s b : String} {c : Call} (ho : c.opened? = some ⟨s, b⟩) (cs : List Call) :
    openedOn s (c :: cs) = b :: openedOn s cs := by
  unfold openedOn
  rw [List.filterMap_cons, ho]
  simp

theorem openedIds_append (cs ds : List Call) :
    openedIds (cs ++ ds) = openedIds cs ++ openedIds ds := by
  unfold openedIds
  rw [List.filterMap_append, List.map_append]

theorem mem_openedIds_of_openedOn {s b : String} {cs : List Call} (h : b ∈ openedOn s cs) :
    b ∈ openedIds cs := by
  obtain ⟨c, hc, ho⟩ := mem_openedOn.1 h
  exact mem_openedIds.2 ⟨c, hc, _, ho, rfl⟩

theorem not_opened_iff {cs : List Call} {b : String} :
    b ∉ openedIds cs ↔ ∀ c ∈ cs, ∀ ref, c.opened? = some ref → ref.spanId ≠ b := by
  rw [mem_openedIds]
  exact ⟨fun h c hc ref ho hb => h ⟨c, hc, ref, ho, hb⟩,
    fun h ⟨c, hc, ref, ho, hb⟩ => h c hc ref ho hb⟩

theorem not_opened_finish {cs ds : List Call} {s b : String} {status : Status} {time : Timestamp}
    {ms : UInt64} (h : ∀ c ∈ cs ++ ds, ∀ ref, c.opened? = some ref → ref.spanId ≠ b) :
    ∀ c ∈ cs ++ .hook (.finish s status time ms) :: ds, ∀ ref, c.opened? = some ref →
      ref.spanId ≠ b := by
  intro c hc
  rcases List.mem_append.1 hc with hc | hc
  · exact h c (List.mem_append_left _ hc)
  · rcases List.mem_cons.1 hc with rfl | hc
    · exact fun _ ho => by cases ho
    · exact h c (List.mem_append_right _ hc)

namespace SessionRun

variable {run : SessionRun} {policy : Policy} {sample : UInt64 → Bool} {r : Registry} {b : String}
  {cs since after : List Call} {session : Session}

/-! ### The beginning -/

/-- The registry `r` when a run has begun, with the calls after the run. -/
structure Begun (run : SessionRun) (policy : Policy) (sample : UInt64 → Bool) (r : Registry)
    (after : List Call) : Prop where
  sound : r.Sound
  /-- Nothing is kept of the session but its registration. -/
  folder : r.folder run.id = Folder.closed.register (run.first policy sample)
  lacks : ∀ b ∈ run.opened, r.Lacks b
  fresh : Registry.Fresh policy sample r (run.during ++ run.ending :: after)
  distinct : (openedIds (run.during ++ after)).Nodup
  goesOn : ∀ c ∈ run.during, c.ends run.id = false

theorem Begun.runs (h : run.Begun policy sample r after) :
    r.Runs (run.first policy sample) false := congrArg Folder.registration h.folder

theorem Begun.bare (h : run.Begun policy sample r after) : (r.folder run.id).spans = none :=
  congrArg Folder.spans h.folder

theorem Begun.nodup_opened (h : run.Begun policy sample r after) : run.opened.Nodup := by
  have hdistinct := h.distinct
  rw [openedIds_append] at hdistinct
  exact (List.nodup_append.1 hdistinct).1.sublist (List.Sublist.map _ List.filter_sublist)

theorem folder_put (hr : r.Sound) (h : r.isRegistered session.id = false) :
    (r.put session).folder session.id = Folder.closed.register session := by
  rw [← Registry.isOpen_folder hr.numbered] at h
  have hput := Registry.edits_put hr.numbered session session.id
  rw [if_pos rfl, (hr.folder session.id).closed h] at hput
  exact hput

/-- **A run within proper calls** begins with nothing kept of its session, and no version of its
spans was handed over before. -/
theorem Within.begun (h : run.Within cs) (hp : Proper policy sample cs)
    (hl : run.level policy ≠ .off) :
    ∃ r after, run.Begun policy sample r after ∧ ∀ b ∈ run.opened,
      lastVersion? b (Registry.empty.handed policy sample cs) =
        lastVersion? b (r.handed policy sample (run.during ++ run.ending :: after)) := by
  obtain ⟨⟨before, after, rfl⟩, hends⟩ := h
  have hcs : before ++ run.calls ++ after =
      before ++ [.start run.start run.draw] ++ (run.during ++ run.ending :: after) := by
    simp [calls]
  rw [hcs] at hp ⊢
  obtain ⟨hfresh, hfresh'⟩ := Registry.fresh_append _ _ hp.fresh
  have hunreg := (Registry.fresh_append _ _ hfresh).2.1 _ rfl
  have hdistinct := hp.distinct
  rw [openedIds_append, List.nodup_append] at hdistinct
  have hput : Registry.empty.calls policy sample (before ++ [.start run.start run.draw]) =
      (Registry.empty.calls policy sample before).put (run.first policy sample) := by
    rw [Registry.calls_append]
    exact if_neg hl
  have hfolder : (Registry.empty.calls policy sample (before ++ [.start run.start run.draw])).folder
      run.id = Folder.closed.register (run.first policy sample) := by
    rw [hput]
    exact folder_put (Registry.sound_calls before Registry.sound_empty) hunreg
  -- a span of the run was not opened before it
  have hbefore : ∀ b ∈ run.opened,
      (Registry.empty.calls policy sample (before ++ [.start run.start run.draw])).Lacks b ∧
      ∀ x ∈ Registry.empty.handed policy sample (before ++ [.start run.start run.draw]), x.id ≠ b := by
    intro b hb
    refine Registry.lacks_calls _ Registry.sound_empty (Registry.lacks_empty b)
      (not_opened_iff.1 fun hmem => hdistinct.2.2 b hmem b ?_ rfl)
    rw [openedIds_append]
    exact List.mem_append_left _ (mem_openedIds_of_openedOn hb)
  refine ⟨_, after, ⟨Registry.sound_calls _ Registry.sound_empty, hfolder,
    fun b hb => (hbefore b hb).1, hfresh', ?_, hends⟩, fun b hb => ?_⟩
  · have hrest := hdistinct.2.1
    rw [openedIds_append] at hrest ⊢
    exact hrest
  · rw [Registry.handed_append, lastVersion?_append, lastVersion?_eq_none.2 (hbefore b hb).2,
      Option.or_none]

/-! ### The opening of a span -/

/-- The registry `r` when the session of a run, which is `session` by then, is about to open the span
`b` by the call `c`, with the calls of the run since then, and those after the run. -/
structure Opening (run : SessionRun) (policy : Policy) (sample : UInt64 → Bool) (r : Registry)
    (session : Session) (b : String) (c : Call) (since after : List Call) : Prop where
  id : session.id = run.id
  sound : r.Sound
  lacks : r.Lacks b
  opens : ∃ e p m now, c = .hook (.before session.id b e p m now)
  fresh : Registry.Fresh policy sample r (c :: run.remaining session since after)
  apart : ∀ c ∈ since ++ after, ∀ ref, c.opened? = some ref → ref.spanId ≠ b
  goesOn : ∀ c ∈ since, c.ends session.id = false
  final : (session.during since).finish run.status run.finished run.durationMs =
    run.final policy sample
  status : (reported ⟨session.id, b⟩ since .inProgress).settled = run.statusOf b

theorem Begun.opening_of_split (h : run.Begun policy sample r after) {m : List Call} {c : Call}
    (hsplit : run.during = m ++ c :: since) (ho : c.opened? = some ⟨run.id, b⟩) :
    Registry.Fresh policy sample r m ∧ (∀ c ∈ m, c.ends run.id = false) ∧
      run.Opening policy sample (r.calls policy sample m) ((run.first policy sample).during m) b c
        since after ∧
      lastVersion? b (r.handed policy sample (run.during ++ run.ending :: after)) =
        lastVersion? b ((r.calls policy sample m).handed policy sample
          (c :: run.remaining ((run.first policy sample).during m) since after)) := by
  have hb : b ∈ run.opened := mem_openedOn.2 ⟨c, by simp [hsplit], ho⟩
  have hdistinct := h.distinct
  have hfresh := h.fresh
  have hends := h.goesOn
  rw [hsplit, List.append_assoc, List.cons_append] at hdistinct hfresh
  rw [hsplit] at hends
  obtain ⟨e, p, message, now, rfl⟩ : ∃ e p message now, c = .hook (.before run.id b e p message now) := by
    cases c with
    | start => cases ho
    | hook hook =>
      cases hook with
      | after | finish | correlate => cases ho
      | before s b' e p message now =>
        cases ho
        exact ⟨e, p, message, now, rfl⟩
  -- the span is opened at this place only
  rw [openedIds_append, List.nodup_append] at hdistinct
  obtain ⟨-, htail, hdisjoint⟩ := hdistinct
  have hm : b ∉ openedIds m := fun hmem => hdisjoint b hmem b List.mem_cons_self rfl
  have hdrop : run.during.dropWhile (fun c => c.opened? ≠ some ⟨run.id, b⟩) =
      .hook (.before run.id b e p message now) :: since := by
    rw [hsplit, List.dropWhile_append_of_pos, List.dropWhile_cons_of_neg]
    · exact fun hne => of_decide_eq_true hne rfl
    · exact fun d hd => decide_eq_true fun hd' => not_opened_iff.1 hm d hd _ hd' rfl
  obtain ⟨hl, hnone⟩ := Registry.lacks_calls (r := r) m h.sound (h.lacks b hb) (not_opened_iff.1 hm)
  obtain ⟨hfresh₁, hfresh₂⟩ := Registry.fresh_append _ _ hfresh
  refine ⟨hfresh₁, fun c hc => hends c (by simp [hc]),
    ⟨rfl, Registry.sound_calls m h.sound, hl, ⟨e, p, message, now, rfl⟩, hfresh₂,
      not_opened_iff.1 (List.nodup_cons.1 htail).1, fun c hc => hends c (by simp [hc]), ?_, ?_⟩, ?_⟩
  · rw [final, hsplit, during_append, during_cons, during_of_none rfl]
  · rw [settled_reported, statusOf, hdrop, reported_cons]
    rfl
  · rw [hsplit, List.append_assoc, List.cons_append, Registry.handed_append, lastVersion?_append,
      lastVersion?_eq_none.2 hnone, Option.or_none]
    rfl

/-- **Every span of a run** is opened in the course of it. -/
theorem Begun.opening (h : run.Begun policy sample r after) (hb : b ∈ run.opened) :
    ∃ m c since, run.during = m ++ c :: since ∧
      Registry.Fresh policy sample r m ∧ (∀ c ∈ m, c.ends run.id = false) ∧
      run.Opening policy sample (r.calls policy sample m) ((run.first policy sample).during m) b c
        since after ∧
      lastVersion? b (r.handed policy sample (run.during ++ run.ending :: after)) =
        lastVersion? b ((r.calls policy sample m).handed policy sample
          (c :: run.remaining ((run.first policy sample).during m) since after)) := by
  obtain ⟨c, hc, ho⟩ := mem_openedOn.1 hb
  obtain ⟨m, since, hsplit⟩ := List.append_of_mem hc
  exact ⟨m, c, since, hsplit, h.opening_of_split hsplit ho⟩

theorem Opening.lastVersion?_of_full {c : Call} {failed : Bool}
    (h : run.Opening policy sample r session b c since after) (hruns : r.Runs session failed)
    (ht : Tracking.of session.level session.sampled failed = .full) :
    run.Settles policy sample b
      (r.handed policy sample (c :: run.remaining session since after)) := by
  obtain ⟨e, p, m, now, rfl⟩ := h.opens
  obtain ⟨failed', hruns', -⟩ := Registry.runs_call h.sound h.fresh.1 hruns rfl
  rw [during_of_none rfl] at hruns'
  have hcached := Registry.cachedAs_open policy sample h.sound hruns ht h.lacks e p m now
  obtain ⟨x, hx, hfinal⟩ := Registry.lastVersion?_of_cached policy sample
    (Registry.sound_call h.sound _) hruns' hcached h.fresh.2 h.goesOn h.apart
  rw [h.status, h.final, h.id] at hfinal
  refine ⟨x, ?_, hfinal⟩
  rw [Registry.handed, lastVersion?_append]
  exact congrArg (Option.or · _) hx

theorem Opening.lastVersion?_of_skip {c : Call} {failed : Bool}
    (h : run.Opening policy sample r session b c since after) (hruns : r.Runs session failed)
    (ht : Tracking.of session.level session.sampled failed = .skip) :
    lastVersion? b (r.handed policy sample (c :: run.remaining session since after)) = none := by
  obtain ⟨e, p, m, now, rfl⟩ := h.opens
  obtain ⟨hl, hnil⟩ := Registry.lacks_open policy sample h.sound hruns ht h.lacks e p m now
  rw [Registry.handed, hnil]
  exact Registry.lastVersion?_of_lacks policy sample (Registry.sound_call h.sound _) hl _
    (not_opened_finish h.apart)

/-! ### Full tracking -/

theorem tracking_of_level {level : Level} (h : level = .info ∨ level = .debug)
    (sampled failed : Bool) :
    Tracking.of level sampled failed = if sampled then .full else .skip := by
  rcases h with rfl | rfl <;> rfl

/-- **The spans of a session that is fully tracked** are handed over last in their final form, those
of one that is not traced are not handed over. -/
theorem Begun.lastVersion?_of_level (h : run.Begun policy sample r after)
    (hl : run.level policy = .info ∨ run.level policy = .debug) (hb : b ∈ run.opened) :
    if sample run.draw then
      run.Settles policy sample b (r.handed policy sample (run.during ++ run.ending :: after))
    else lastVersion? b (r.handed policy sample (run.during ++ run.ending :: after)) = none := by
  obtain ⟨m, c, since, -, hfresh, hends, hopening, hlast⟩ := h.opening hb
  obtain ⟨failed, hruns, -⟩ := Registry.runs_calls m h.sound hfresh h.runs hends
  have ht := tracking_of_level hl (sample run.draw) failed
  unfold Settles
  rw [hlast]
  split
  · rename_i hsampled
    rw [if_pos hsampled] at ht
    exact hopening.lastVersion?_of_full hruns ht
  · rename_i hsampled
    rw [if_neg hsampled] at ht
    exact hopening.lastVersion?_of_skip hruns ht

end SessionRun

end SpanRelay
