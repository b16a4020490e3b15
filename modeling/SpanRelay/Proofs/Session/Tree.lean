import SpanRelay.Proofs.Session.Failing
import SpanRelay.Proofs.Session.Parents

/-! # Trees of spans

The place of a span is chosen when the span is opened, and all versions of the span share it
(`Begun.placed_of_split`). In a session that is fully tracked the parent is the span latest recorded
under some execution key, which is a span that was opened before in the same session, whatever hint
was given (`Folder.Mirrors.opened_of_resolveParent?`). So the spans of a session are a forest in the
order in which they were opened (`Within.lastVersion?_parent`). Every span that was opened in its session
belongs to a session that has ended or to one that goes on (`OpenedIn.exists_run`). -/

namespace SpanRelay

variable {s b : String}

theorem mem_openedOn_of_lastOpened? {key : String} {cs : List Call}
    (h : lastOpened? s key cs = some b) : b ∈ openedOn s cs := by
  obtain ⟨c, hc, ho⟩ := List.mem_filterMap.1 (List.mem_of_getLast? h)
  refine mem_openedOn.2 ⟨c, hc, ?_⟩
  cases c with
  | start => cases ho
  | hook hook =>
    cases hook with
    | after | finish | correlate => cases ho
    | before t b' e p m now =>
      dsimp only [Call.openedAs?] at ho
      split at ho
      · rename_i hs
        cases ho
        rw [← hs.1]
        rfl
      · cases ho

/-- **The parent of a new span** was opened before in the session, whatever the hint is. -/
theorem Folder.Mirrors.opened_of_resolveParent? {f : Folder} {cs : List Call} (hf : f.Mirrors s cs)
    {hint : ParentHint} {p : String} (h : f.resolveParent? hint = some p) : p ∈ openedOn s cs := by
  obtain ⟨executions, he, hmem⟩ := Folder.mem_values_of_resolveParent? h
  obtain ⟨row, hrow, rfl⟩ := List.mem_map.1 hmem
  have hlatest : f.latest? row.1 = some row.2 := by
    rw [Folder.latest?, he]
    exact Map.Table.get?_of_mem_rows (hf.keys _ he) hrow
  rw [hf.latest] at hlatest
  exact mem_openedOn_of_lastOpened? hlatest

/-- **A hook that opens a span** leaves and hands over only versions of that span, of all with its
id. -/
theorem Effect.Made.versionOf_opened {h : HookScope} {f : Folder} {hook : Hook} {x : Span}
    {e : Element} {p : Option ParentHint} {m : Snapshot} {now : Timestamp}
    (hx : Made h f hook x) (hook_eq : hook = .before s b e p m now)
    (hlacks : ∀ x ∈ f.kept, x.id ≠ b) (hb : x.id = b) :
    x.VersionOf (h.spanIn f s b e p m now) := by
  induction hx with
  | kept hy => exact absurd hb (hlacks _ hy)
  | opened ho =>
    rw [hook_eq] at ho
    cases ho
    exact .refl _
  | completed ha =>
    rw [hook_eq] at ha
    cases ha
  | stamped stamp _ ih => exact (Span.versionOf_stampWith _ stamp).trans (ih hb)
  | abandoned _ ih =>
    have hv := Span.versionOf_abandon
    exact (hv _).trans (ih ((hv _).id.trans hb))

namespace Registry

variable {policy : Policy} {sample : UInt64 → Bool} {r : Registry}

theorem versionOf_opened (policy : Policy) (sample : UInt64 → Bool) (hr : r.Sound)
    (hlacks : r.Lacks b) (s : String) (e : Element) (p : Option ParentHint) (m : Snapshot)
    (now : Timestamp) {x : Span}
    (hx : (∃ t, x ∈ ((r.call policy sample (.hook (.before s b e p m now))).1.folder t).kept) ∨
      x ∈ (r.call policy sample (.hook (.before s b e p m now))).2) (hb : x.id = b) :
    ∃ h, x.VersionOf (HookScope.spanIn h (r.folder s) s b e p m now) := by
  rcases made_call hr hx with ⟨t, hx⟩ | ⟨hook, h, hc, -, hmade⟩
  · exact absurd hb (hlacks t x hx)
  · cases hc
    exact ⟨h, hmade.versionOf_opened rfl (hlacks _) hb⟩

/-- A session stays registered as long as no call ends it, so no call starts it. -/
theorem mirrors_fresh {cs : List Call} (ds : List Call) (hr : r.Sound)
    (hfresh : Fresh policy sample r ds) (hends : ∀ c ∈ ds, c.ends s = false)
    (hf : (r.folder s).Mirrors s cs) :
    ((r.calls policy sample ds).folder s).Mirrors s (cs ++ ds) := by
  induction ds generalizing r cs with
  | nil => rwa [List.append_nil]
  | cons c ds ih =>
    have hreg : r.isRegistered s = true := (isOpen_folder hr.numbered s).symm.trans (isOpen_of_mirrors hf)
    have hc : c.started? ≠ some s := fun hs => absurd (hreg.symm.trans (hfresh.1 s hs)) (by decide)
    have hstep : ((r.calls policy sample (c :: ds)).folder s).Mirrors s (cs ++ [c] ++ ds) :=
      ih (sound_call hr c) hfresh.2 (fun d hd => hends d (List.mem_cons_of_mem _ hd))
        (mirrors_call hr hc (hends c List.mem_cons_self) hf)
    rwa [List.append_assoc] at hstep

end Registry

theorem Call.exists_finish_of_ends {c : Call} (h : c.ends s = true) :
    ∃ status time ms, c = .hook (.finish s status time ms) := by
  cases c with
  | start => cases h
  | hook hook =>
    cases hook with
    | before | after | correlate => cases h
    | finish t status time ms =>
      obtain rfl : t = s := of_decide_eq_true h
      exact ⟨status, time, ms, rfl⟩

/-- **A span that was opened in its session** was opened in one that has ended, or the session is still
going on. -/
theorem OpenedIn.exists_run {cs : List Call} {ref : SpanRef} (h : OpenedIn cs ref) :
    (∃ run : SessionRun, run.Within cs ∧ run.id = ref.sessionId ∧ ref.spanId ∈ run.opened) ∨
      Ongoing cs ref.sessionId := by
  obtain ⟨past, c, rest, rfl, ho, before, start, draw, since, rfl, hid, hsince⟩ := h
  have hc : c.ends ref.sessionId = false := by
    cases c with
    | start => cases ho
    | hook hook =>
      cases hook with
      | before => rfl
      | after | finish | correlate => cases ho
  have hgoes : ∀ {u : List Call}, (∀ d ∈ u, d.ends ref.sessionId = false) →
      ∀ d ∈ since ++ c :: u, d.ends ref.sessionId = false := by
    intro u hu d hd
    rcases List.mem_append.1 hd with hd | hd
    · exact hsince d hd
    · rcases List.mem_cons.1 hd with rfl | hd
      · exact hc
      · exact hu d hd
  -- what ends the session first after the span was opened
  rcases SessionRun.forall_or_first (Call.ends ref.sessionId) rest with hall | ⟨u, d, v, rfl, hu, hd⟩
  · exact Or.inr ⟨before, start, draw, since ++ c :: rest, by simp, hid, hgoes hall⟩
  · obtain ⟨status, time, ms, rfl⟩ := Call.exists_finish_of_ends hd
    let run : SessionRun := ⟨start, draw, since ++ c :: u, status, time, ms⟩
    have hrun : run.ending = .hook (.finish ref.sessionId status time ms) := by
      rw [← hid]
      rfl
    refine Or.inl ⟨run, ⟨⟨before, v, ?_⟩, fun e he => ?_⟩, hid, ?_⟩
    · rw [SessionRun.calls, hrun]
      simp [run]
    · rw [show run.id = ref.sessionId from hid]
      exact hgoes hu e he
    · rw [SessionRun.opened, show run.id = ref.sessionId from hid]
      exact mem_openedOn.2 ⟨c, by simp [run], ho⟩

namespace SessionRun

variable {run : SessionRun} {policy : Policy} {sample : UInt64 → Bool} {r : Registry}
  {session : Session} {m since after : List Call} {e : Element} {p : Option ParentHint}
  {payload : Snapshot} {now : Timestamp}

/-- **All versions of a span** have the element that it was opened for, and the parent that the
folder of the session told then. -/
theorem Opening.placed
    (h : run.Opening policy sample r session b (.hook (.before session.id b e p payload now)) since after)
    {x : Span} (hx : x ∈ r.handed policy sample
      (.hook (.before session.id b e p payload now) :: run.remaining session since after))
    (hb : x.id = b) :
    x.elementId = e.elementId ∧ x.parentId = p.bind (r.folder session.id).resolveParent? := by
  let P : Span → Prop := fun x =>
    x.elementId = e.elementId ∧ x.parentId = p.bind (r.folder session.id).resolveParent?
  have hshared : ∀ x y : Span, x.VersionOf y → P y → P x := fun x y hxy hy =>
    ⟨hxy.elementId.symm.trans hy.1, hxy.parentId.symm.trans hy.2⟩
  have hopened : ∀ {x : Span}, _ → x.id = b → P x := fun hx hb => by
    obtain ⟨scope, hv⟩ :=
      Registry.versionOf_opened policy sample h.sound h.lacks session.id e p payload now hx hb
    exact hshared _ _ hv ⟨rfl, rfl⟩
  rcases List.mem_append.1 hx with hx | hx
  · exact hopened (Or.inr hx) hb
  · exact (Registry.forall_calls _ (Registry.sound_call h.sound _)
      (fun t x hx hb => hopened (Or.inl ⟨t, hx⟩) hb) fun c hc =>
      Registry.passes_of_not_opened hshared (not_opened_finish h.apart c hc)).2 x hx hb

/-- The last version of a span of a run has the element that it was opened for, and the parent that
was told then. -/
theorem Begun.placed_of_split (h : run.Begun policy sample r after)
    (hsplit : run.during = m ++ .hook (.before run.id b e p payload now) :: since) {x : Span}
    (hx : lastVersion? b (r.handed policy sample (run.during ++ run.ending :: after)) = some x) :
    x.elementId = e.elementId ∧
      x.parentId = p.bind ((r.calls policy sample m).folder run.id).resolveParent? := by
  obtain ⟨-, -, hopening, hlast⟩ := h.opening_of_split hsplit rfl
  rw [hlast] at hx
  obtain ⟨hmem, hb⟩ := mem_of_lastVersion? hx
  have hid := hopening.id
  rw [← hid] at hopening hmem ⊢
  exact hopening.placed hmem hb

theorem Begun.mirrors (h : run.Begun policy sample r after)
    (hl : run.level policy = .info ∨ run.level policy = .debug) (hs : sample run.draw = true)
    (hsplit : run.during = m ++ since) : ((r.calls policy sample m).folder run.id).Mirrors run.id m := by
  have hfresh := h.fresh
  rw [hsplit, List.append_assoc] at hfresh
  have hstart : (r.folder run.id).Mirrors run.id [] := by
    rw [h.folder]
    exact Folder.mirrors_register hl hs
  exact Registry.mirrors_fresh m h.sound (Registry.fresh_append _ _ hfresh).1
    (fun c hc => h.goesOn c (by simp [hsplit, hc])) hstart

/-- **The spans of a session are a forest**: the parent of each is one that was opened before it. -/
theorem Begun.parent_opened_before (h : run.Begun policy sample r after)
    (hl : run.level policy = .info ∨ run.level policy = .debug) (hs : sample run.draw = true)
    {earlier later : List String} (hb : run.opened = earlier ++ b :: later) {x : Span}
    (hx : lastVersion? b (r.handed policy sample (run.during ++ run.ending :: after)) = some x)
    {q : String} (hq : x.parentId = some q) : q ∈ earlier := by
  have hmem : b ∈ run.opened := by simp [hb]
  obtain ⟨m, c, since, hsplit, -, -, hopening, -⟩ := h.opening hmem
  obtain ⟨e, p, payload, now, rfl⟩ := hopening.opens
  have hsplit' : run.during = m ++ .hook (.before run.id b e p payload now) :: since := hsplit
  rw [(h.placed_of_split hsplit' hx).2] at hq
  obtain ⟨hint, -, hq⟩ := Option.bind_eq_some_iff.1 hq
  have hbefore := (h.mirrors hl hs hsplit').opened_of_resolveParent? hq
  -- as the ids are distinct, the span is opened at one place only
  have hopened : run.opened = openedOn run.id m ++ b :: openedOn run.id since := by
    rw [opened, hsplit', openedOn_append, openedOn_cons rfl]
  have hnodup := h.nodup_opened
  rw [hb, List.nodup_middle, List.nodup_cons, List.mem_append, not_or] at hnodup
  obtain ⟨hsame, -⟩ :=
    (List.append_cons_inj_of_notMem hnodup.1.1 hnodup.1.2).1 (hb.symm.trans hopened)
  rw [hsame]
  exact hbefore

/-- Each span of a run at the level INFO or DEBUG that is sampled is handed over, and its parent, if it
has one, was opened before it in the same run. -/
theorem Within.lastVersion?_parent {cs : List Call} (h : run.Within cs) (hp : Proper policy sample cs)
    (hl : run.level policy = .info ∨ run.level policy = .debug) (hs : sample run.draw = true) :
    run.opened.Nodup ∧ ∀ earlier b later, run.opened = earlier ++ b :: later →
      ∃ x, lastVersion? b (Registry.empty.handed policy sample cs) = some x ∧ x.id = b ∧
        x.sessionId = run.id ∧ ∀ q, x.parentId = some q → q ∈ earlier := by
  have hoff : run.level policy ≠ .off := by
    rcases hl with hl | hl <;> rw [hl] <;> decide
  obtain ⟨r, after, hbegun, hlast⟩ := h.begun hp hoff
  refine ⟨hbegun.nodup_opened, fun earlier b later hb => ?_⟩
  have hmem : b ∈ run.opened := by simp [hb]
  have hsettles := hbegun.lastVersion?_of_level hl hmem
  rw [if_pos hs] at hsettles
  obtain ⟨x, hx, hfinal⟩ := hsettles
  rw [hlast b hmem]
  exact ⟨x, hx, hfinal.id, hfinal.sessionId, fun q => hbegun.parent_opened_before hl hs hb hx⟩

end SessionRun

end SpanRelay
