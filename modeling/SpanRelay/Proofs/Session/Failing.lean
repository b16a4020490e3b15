import SpanRelay.Proofs.Session.Held
import SpanRelay.Proofs.Session.Run

/-! # Sessions at the level ERROR

Of a session at the level ERROR nothing is written unless it fails: by the first failure that is
reported for any span, or else by its final status. Then the spans that are `persisted` are the last
one opened before the failure and all later ones (`Begun.lastVersion?_of_error`). What becomes of a
span is decided by what happens first after it was opened: a failure (`lastVersion?_of_failure`), the
opening of another span (`lastVersion?_of_other`), or the end (`lastVersion?_of_end`). -/

namespace SpanRelay

namespace SessionRun

/-- What is called before the first failure that is reported for a span of the session. -/
def beforeFailure (run : SessionRun) : List Call :=
  run.during.takeWhile fun c => !c.failsIn run.id

/-- Whether the session fails, if only at its end. -/
def fails (run : SessionRun) : Bool :=
  run.during.any (Call.failsIn run.id) || run.status = .completedWithErrors

/-- The spans that are written if the session is at the level ERROR: none if it does not fail, else
those from the last one that is opened before the failure on, or all if none is. -/
def persisted (run : SessionRun) : List String :=
  if run.fails then run.opened.drop ((openedOn run.id run.beforeFailure).length - 1) else []

variable {run : SessionRun} {policy : Policy} {sample : UInt64 → Bool} {r : Registry} {b : String}
  {c d : Call} {since after u v w : List Call} {session : Session}

/-! ### After a span was opened -/

theorem Opening.stays (h : run.Opening policy sample r session b c since after)
    (hu : r.Unfailed session) (hl : session.level = .error) (hsince : since = u ++ w)
    (hquiet : ∀ c ∈ u, c.failsIn session.id = false ∧ c.opensIn session.id = false) :
    ∃ r' : Registry, r'.Sound ∧ r'.Unfailed (session.during u) ∧
      r'.HeldAs ⟨session.id, b⟩ (reported ⟨session.id, b⟩ u .inProgress) ∧
      Registry.Fresh policy sample r' (run.remaining session w after) ∧
      lastVersion? b (r.handed policy sample (c :: run.remaining session since after)) =
        lastVersion? b (r'.handed policy sample (run.remaining session w after)) := by
  obtain ⟨e, p, m, now, rfl⟩ := h.opens
  have hfresh := h.fresh
  have hends := h.goesOn
  have hapart := h.apart
  rw [hsince] at hfresh hends hapart ⊢
  rw [remaining_append] at hfresh ⊢
  rw [List.append_assoc] at hapart
  obtain ⟨hfresh₁, hfresh₂⟩ := Registry.fresh_append _ _ hfresh.2
  have hr₁ : (r.call policy sample (.hook (.before session.id b e p m now))).1.Sound :=
    Registry.sound_call h.sound _
  have hu₁ := Registry.unfailed_open policy sample h.sound hu hl b e p m now
  have hh₁ := Registry.heldAs_open policy sample h.sound hu hl h.lacks e p m now
  obtain ⟨hh₂, hnone⟩ := Registry.heldAs_calls u hr₁ hfresh₁ hu₁ hl hh₁
    (fun d hd => hends d (List.mem_append_left _ hd)) hquiet
    fun d hd => hapart d (List.mem_append_left _ hd)
  refine ⟨_, Registry.sound_calls u hr₁, ?_, hh₂, hfresh₂, ?_⟩
  · exact Registry.unfailed_calls u hr₁ hfresh₁ hu₁ hl
      (fun d hd => hends d (List.mem_append_left _ hd)) fun d hd => (hquiet d hd).1
  · have hnil := (Registry.open_unfailed policy sample h.sound hu hl b e p m now).2
    rw [Registry.handed, hnil, List.nil_append, Registry.handed_append, lastVersion?_append,
      lastVersion?_eq_none.2 hnone, Option.or_none]

/-- A span that is held when its session fails is handed over last in its final form. -/
theorem Opening.lastVersion?_of_failure (h : run.Opening policy sample r session b c since after)
    (hu : r.Unfailed session) (hl : session.level = .error) (hsince : since = u ++ d :: v)
    (hquiet : ∀ c ∈ u, c.failsIn session.id = false ∧ c.opensIn session.id = false)
    (hd : d.failsIn session.id = true) :
    run.Settles policy sample b
      (r.handed policy sample (c :: run.remaining session since after)) := by
  obtain ⟨r', hr', hu', hh', hfresh, hlast⟩ := h.stays hu hl hsince hquiet
  have hends := h.goesOn
  have hapart := h.apart
  have hfinal := h.final
  have hstatus := h.status
  rw [hsince] at hends hapart
  rw [hsince, during_append, during_cons] at hfinal
  rw [hsince, reported_append, reported_cons] at hstatus
  obtain ⟨hruns, hcached⟩ := Registry.fails_call hr' hfresh.1 hu' hl hd
  obtain ⟨x, hx, hform⟩ := Registry.lastVersion?_of_cached policy sample
    (Registry.sound_call hr' d) hruns (hcached b _ hh') hfresh.2
    (fun c hc => hends c (List.mem_append_right _ (List.mem_cons_of_mem _ hc)))
    (fun c hc => hapart c (by
      rw [List.append_assoc]
      exact List.mem_append_right _ (List.mem_cons_of_mem _ hc)))
  refine ⟨x, ?_, ?_⟩
  · rw [hlast, remaining, List.cons_append, Registry.handed, lastVersion?_append]
    exact congrArg (Option.or · _) hx
  · rw [← h.id, ← hstatus, ← hfinal]
    exact hform

/-- A span that is held when its session opens another is not handed over. -/
theorem Opening.lastVersion?_of_other (h : run.Opening policy sample r session b c since after)
    (hu : r.Unfailed session) (hl : session.level = .error) (hsince : since = u ++ d :: v)
    (hquiet : ∀ c ∈ u, c.failsIn session.id = false ∧ c.opensIn session.id = false)
    (hd : d.opensIn session.id = true) :
    lastVersion? b (r.handed policy sample (c :: run.remaining session since after)) = none := by
  obtain ⟨r', hr', hu', hh', hfresh, hlast⟩ := h.stays hu hl hsince hquiet
  have hapart := h.apart
  rw [hsince] at hapart
  obtain ⟨b', ho⟩ := Call.opensIn_iff.1 hd
  have hne : b' ≠ b := hapart d (by simp) _ ho
  cases d with
  | start => cases ho
  | hook hook =>
    cases hook with
    | after | finish | correlate => cases ho
    | before s b'' e p m now =>
      cases ho
      have hl' := Registry.lacks_open_other policy sample hr' hu' hl hh'.confined hne e p m now
      have hnil := (Registry.open_unfailed policy sample hr' hu' hl b' e p m now).2
      rw [hlast, remaining, List.cons_append, Registry.handed, lastVersion?_append]
      have hrest := Registry.lastVersion?_of_lacks policy sample (Registry.sound_call hr' _) hl'
        (run.remaining session v after)
        (not_opened_finish fun c hc => hapart c (by
          rw [List.append_assoc]
          exact List.mem_append_right _ (List.mem_cons_of_mem _ hc)))
      exact (congrArg₂ Option.or hrest (congrArg (lastVersion? b) hnil)).trans rfl

/-- A span that is held at the end of its session is handed over if the session fails by its
status. -/
theorem Opening.lastVersion?_of_end (h : run.Opening policy sample r session b c since after)
    (hu : r.Unfailed session) (hl : session.level = .error)
    (hquiet : ∀ c ∈ since, c.failsIn session.id = false ∧ c.opensIn session.id = false) :
    if run.status = .completedWithErrors then
      run.Settles policy sample b (r.handed policy sample (c :: run.remaining session since after))
    else lastVersion? b (r.handed policy sample (c :: run.remaining session since after)) =
      none := by
  obtain ⟨r', hr', hu', hh', hfresh, hlast⟩ := h.stays hu hl (List.append_nil since).symm hquiet
  have hend := Registry.finish_heldAs policy sample hr' hu' hl hh' run.status run.finished
    run.durationMs
  have hl' := Registry.lacks_finish policy sample hr' hu'.runs hh'.confined run.status run.finished
    run.durationMs
  have hrest := Registry.lastVersion?_of_lacks policy sample (Registry.sound_call hr' _) hl'
    after fun c hc => h.apart c (List.mem_append_right _ hc)
  have hid : (session.during since).id = run.id := h.id
  rw [h.final, h.status] at hend
  unfold Settles
  rw [hlast, remaining, List.nil_append, Registry.handed, lastVersion?_append]
  split at hend
  · rename_i hst
    rw [if_pos hst]
    obtain ⟨x, hx, hform⟩ := hend
    rw [hid] at hform
    exact ⟨x, (congrArg₂ Option.or hrest hx).trans rfl, hform⟩
  · rename_i hst
    rw [if_neg hst]
    exact (congrArg₂ Option.or hrest (congrArg (lastVersion? b) hend)).trans rfl

/-! ### The spans that are written -/

theorem forall_or_first {α : Type} (p : α → Bool) (l : List α) : (∀ x ∈ l, p x = false) ∨
    ∃ u x v, l = u ++ x :: v ∧ (∀ y ∈ u, p y = false) ∧ p x = true := by
  induction l with
  | nil => exact Or.inl fun _ hx => absurd hx List.not_mem_nil
  | cons a l ih =>
    cases ha : p a with
    | true => exact Or.inr ⟨[], a, l, rfl, fun _ hy => absurd hy List.not_mem_nil, ha⟩
    | false =>
      rcases ih with hall | ⟨u, x, v, rfl, hu, hx⟩
      · refine Or.inl fun y hy => ?_
        rcases List.mem_cons.1 hy with rfl | hy
        · exact ha
        · exact hall y hy
      · refine Or.inr ⟨a :: u, x, v, rfl, fun y hy => ?_, hx⟩
        rcases List.mem_cons.1 hy with rfl | hy
        · exact ha
        · exact hu y hy

theorem mem_drop_iff {α : Type} {xs ys : List α} {a : α} (h : (xs ++ a :: ys).Nodup) (k : Nat) :
    a ∈ (xs ++ a :: ys).drop k ↔ k ≤ xs.length := by
  constructor
  · intro hmem
    refine Nat.le_of_not_lt fun hlt => ?_
    have hys := (List.nodup_cons.1 (List.nodup_append.1 h).2.1).1
    rw [List.drop_append, List.drop_of_length_le (Nat.le_of_lt hlt), List.nil_append] at hmem
    obtain ⟨j, hj⟩ : ∃ j, k - xs.length = j + 1 := ⟨k - xs.length - 1, by omega⟩
    rw [hj, List.drop_succ_cons] at hmem
    exact hys (List.mem_of_mem_drop hmem)
  · intro hle
    rw [List.drop_append_of_le_length hle]
    exact List.mem_append_right _ List.mem_cons_self

theorem openedOn_eq_nil {s : String} {cs : List Call} (h : ∀ c ∈ cs, c.opensIn s = false) :
    openedOn s cs = [] := by
  refine List.eq_nil_iff_forall_not_mem.2 fun b hb => ?_
  obtain ⟨c, hc, ho⟩ := mem_openedOn.1 hb
  exact absurd ((Call.opensIn_iff.2 ⟨b, ho⟩).symm.trans (h c hc)) (by decide)

/-- A span of a session that fails is written if it is among the last opened before the failure or
opened later. -/
theorem mem_persisted_iff (hfails : run.fails = true) (hsplit : run.during = u ++ c :: v)
    (ho : c.opened? = some ⟨run.id, b⟩) (hnodup : run.opened.Nodup) :
    b ∈ run.persisted ↔
      (openedOn run.id run.beforeFailure).length ≤ (openedOn run.id u).length + 1 := by
  have hopened : run.opened = openedOn run.id u ++ b :: openedOn run.id v := by
    rw [opened, hsplit, openedOn_append, openedOn_cons ho]
  rw [hopened] at hnodup
  rw [persisted, if_pos hfails, hopened, mem_drop_iff hnodup]
  omega

theorem beforeFailure_append (hsplit : run.during = u ++ v)
    (hu : ∀ c ∈ u, c.failsIn run.id = false) :
    run.beforeFailure = u ++ v.takeWhile fun c => !c.failsIn run.id := by
  rw [beforeFailure, hsplit, List.takeWhile_append_of_pos]
  intro c hc
  rw [hu c hc]
  rfl

theorem fails_of_failsIn (hsplit : run.during = u ++ d :: v) (hd : d.failsIn run.id = true) :
    run.fails = true := by
  have hany : run.during.any (Call.failsIn run.id) = true := by
    rw [hsplit]
    exact List.any_eq_true.2 ⟨d, by simp, hd⟩
  rw [fails, hany]
  rfl

theorem fails_of_quiet (h : ∀ c ∈ run.during, c.failsIn run.id = false) :
    run.fails = decide (run.status = .completedWithErrors) := by
  have hany : run.during.any (Call.failsIn run.id) = false :=
    List.any_eq_false.2 fun c hc => by rw [h c hc]; decide
  rw [fails, hany, Bool.false_or]

section Quiet

/-! The span `b` is opened by `c` after `u`, and before that and during `w` nothing fails. -/

variable (ho : c.opened? = some ⟨run.id, b⟩) (hnodup : run.opened.Nodup)
  (hquiet : ∀ d ∈ u ++ c :: w, d.failsIn run.id = false)

include ho in
theorem length_openedOn_of_quiet (hw : ∀ d ∈ w, d.opensIn run.id = false) :
    (openedOn run.id (u ++ c :: w)).length = (openedOn run.id u).length + 1 := by
  rw [openedOn_append, openedOn_cons ho, openedOn_eq_nil hw, List.length_append]
  rfl

include ho hnodup hquiet

theorem mem_persisted_of_end (hsplit : run.during = u ++ c :: w)
    (hw : ∀ d ∈ w, d.opensIn run.id = false) :
    b ∈ run.persisted ↔ run.status = .completedWithErrors := by
  have hfails : run.fails = decide (run.status = .completedWithErrors) :=
    fails_of_quiet (hsplit ▸ hquiet)
  by_cases hst : run.status = .completedWithErrors
  · have hbefore := beforeFailure_append (hsplit.trans (List.append_nil _).symm) hquiet
    rw [List.takeWhile_nil, List.append_nil] at hbefore
    rw [decide_eq_true hst] at hfails
    rw [mem_persisted_iff hfails hsplit ho hnodup, hbefore, length_openedOn_of_quiet ho hw]
    exact ⟨fun _ => hst, fun _ => Nat.le_refl _⟩
  · rw [decide_eq_false hst] at hfails
    rw [persisted, hfails]
    exact ⟨fun hmem => absurd hmem List.not_mem_nil, fun hn => absurd hn hst⟩

theorem mem_persisted_of_failure (hsplit : run.during = (u ++ c :: w) ++ d :: v)
    (hw : ∀ d ∈ w, d.opensIn run.id = false) (hd : d.failsIn run.id = true) :
    b ∈ run.persisted := by
  have hsplit' : run.during = u ++ c :: (w ++ d :: v) := by
    rw [hsplit, List.append_assoc, List.cons_append]
  have hbefore := beforeFailure_append hsplit hquiet
  rw [List.takeWhile_cons_of_neg (by rw [hd]; decide), List.append_nil] at hbefore
  rw [mem_persisted_iff (fails_of_failsIn hsplit hd) hsplit' ho hnodup, hbefore,
    length_openedOn_of_quiet ho hw]

theorem not_mem_persisted_of_other (hsplit : run.during = (u ++ c :: w) ++ d :: v)
    (hw : ∀ d ∈ w, d.opensIn run.id = false) (hd : d.failsIn run.id = false)
    (hopens : d.opensIn run.id = true) : b ∉ run.persisted := by
  intro hmem
  have hsplit' : run.during = u ++ c :: (w ++ d :: v) := by
    rw [hsplit, List.append_assoc, List.cons_append]
  obtain ⟨b', hb'⟩ := Call.opensIn_iff.1 hopens
  have hbefore := beforeFailure_append hsplit hquiet
  rw [List.takeWhile_cons_of_pos (by rw [hd]; rfl)] at hbefore
  have hfails : run.fails = true := by
    cases hfails : run.fails with
    | true => rfl
    | false =>
      rw [persisted, hfails] at hmem
      exact absurd hmem List.not_mem_nil
  rw [mem_persisted_iff hfails hsplit' ho hnodup, hbefore, openedOn_append, List.length_append,
    length_openedOn_of_quiet ho hw, openedOn_cons hb', List.length_cons] at hmem
  omega

end Quiet

/-! ### The spans of a session -/

theorem Opening.opened?_eq (h : run.Opening policy sample r session b c since after) :
    c.opened? = some ⟨run.id, b⟩ ∧ c.failsIn run.id = false := by
  obtain ⟨e, p, m, now, rfl⟩ := h.opens
  exact ⟨h.id ▸ rfl, rfl⟩

theorem Opening.lastVersion?_of_unfailed (h : run.Opening policy sample r session b c since after)
    (hu : r.Unfailed session) (hl : session.level = .error) (hsplit : run.during = u ++ c :: since)
    (hbefore : ∀ c ∈ u, c.failsIn run.id = false) (hnodup : run.opened.Nodup) :
    if b ∈ run.persisted then
      run.Settles policy sample b (r.handed policy sample (c :: run.remaining session since after))
    else lastVersion? b (r.handed policy sample (c :: run.remaining session since after)) =
      none := by
  obtain ⟨ho, hc⟩ := h.opened?_eq
  have hquiet : ∀ w, (∀ d ∈ w, d.failsIn run.id = false ∧ d.opensIn run.id = false) →
      ∀ d ∈ u ++ c :: w, d.failsIn run.id = false := by
    intro w hw d hd
    rcases List.mem_append.1 hd with hd | hd
    · exact hbefore d hd
    · rcases List.mem_cons.1 hd with rfl | hd
      · exact hc
      · exact (hw d hd).1
  -- what happens first after the span was opened
  rcases forall_or_first (fun d => d.failsIn run.id || d.opensIn run.id) since with
    hall | ⟨w, d, v, hsince, hw, hd⟩
  · have hall' : ∀ d ∈ since, d.failsIn run.id = false ∧ d.opensIn run.id = false :=
      fun d hd => Bool.or_eq_false_iff.1 (hall d hd)
    have hend := h.lastVersion?_of_end hu hl (h.id ▸ hall')
    have hiff := mem_persisted_of_end ho hnodup (hquiet since hall') hsplit
      fun d hd => (hall' d hd).2
    by_cases hst : run.status = .completedWithErrors
    · rw [if_pos hst] at hend
      rw [if_pos (hiff.2 hst)]
      exact hend
    · rw [if_neg hst] at hend
      rw [if_neg fun hmem => hst (hiff.1 hmem)]
      exact hend
  · have hw' : ∀ d ∈ w, d.failsIn run.id = false ∧ d.opensIn run.id = false :=
      fun d hd => Bool.or_eq_false_iff.1 (hw d hd)
    have hsplit' : run.during = (u ++ c :: w) ++ d :: v := by
      rw [hsplit, hsince, List.append_assoc, List.cons_append]
    cases hdf : d.failsIn run.id with
    | true =>
      rw [if_pos (mem_persisted_of_failure ho hnodup (hquiet w hw') hsplit'
        (fun d hd => (hw' d hd).2) hdf)]
      exact h.lastVersion?_of_failure hu hl hsince (h.id ▸ hw') (h.id ▸ hdf)
    | false =>
      have hopens : d.opensIn run.id = true := by
        rw [hdf, Bool.false_or] at hd
        exact hd
      rw [if_neg (not_mem_persisted_of_other ho hnodup (hquiet w hw') hsplit'
        (fun d hd => (hw' d hd).2) hdf hopens)]
      exact h.lastVersion?_of_other hu hl hsince (h.id ▸ hw') (h.id ▸ hopens)

theorem Opening.lastVersion?_of_failed (h : run.Opening policy sample r session b c since after)
    (hruns : r.Runs session true) (hl : session.level = .error)
    (hsplit : run.during = u ++ d :: v ++ c :: since) (hd : d.failsIn run.id = true)
    (hbefore : ∀ c ∈ u, c.failsIn run.id = false) (hnodup : run.opened.Nodup) :
    b ∈ run.persisted ∧ run.Settles policy sample b
      (r.handed policy sample (c :: run.remaining session since after)) := by
  have hsplit' : run.during = u ++ d :: (v ++ c :: since) := by
    rw [hsplit]
    simp
  have hfirst := beforeFailure_append hsplit' hbefore
  rw [List.takeWhile_cons_of_neg (by rw [hd]; decide), List.append_nil] at hfirst
  refine ⟨?_, h.lastVersion?_of_full hruns (by rw [hl]; rfl)⟩
  rw [mem_persisted_iff (fails_of_failsIn hsplit' hd) hsplit h.opened?_eq.1 hnodup, hfirst,
    openedOn_append, List.length_append]
  omega

/-- **The spans of a session at the level ERROR** that are persisted are handed over last in their
final form, the others are not handed over. -/
theorem Begun.lastVersion?_of_error (h : run.Begun policy sample r after)
    (hl : run.level policy = .error) (hb : b ∈ run.opened) :
    if b ∈ run.persisted then
      run.Settles policy sample b (r.handed policy sample (run.during ++ run.ending :: after))
    else lastVersion? b (r.handed policy sample (run.during ++ run.ending :: after)) = none := by
  obtain ⟨m, c, since, hsplit, hfresh, hends, hopening, hlast⟩ := h.opening hb
  unfold Settles
  rw [hlast]
  rcases forall_or_first (Call.failsIn run.id) m with hm | ⟨u, d, v, hm, hu, hd⟩
  · have hunfailed := Registry.unfailed_calls m h.sound hfresh ⟨h.runs, h.bare⟩ hl hends hm
    exact hopening.lastVersion?_of_unfailed hunfailed hl hsplit hm h.nodup_opened
  · have hruns : (r.calls policy sample m).Runs ((run.first policy sample).during m) true := by
      subst hm
      exact Registry.runs_of_failed h.sound hfresh ⟨h.runs, h.bare⟩ hl hends hu hd
    obtain ⟨hmem, hsettles⟩ := hopening.lastVersion?_of_failed hruns hl (hm ▸ hsplit) hd hu
      h.nodup_opened
    rw [if_pos hmem]
    exact hsettles

end SessionRun

end SpanRelay
