import SpanRelay.Proofs.Record.Lifecycle
import SpanRelay.Proofs.Session.Run

/-! # Outcomes of spans

A span that is kept tells the outcomes that were reported for it since a call opened it
(`Span.Reports`). A hook completes the span that it reports on wherever that is kept, and a span is
not both held and cached if the ids of the spans that are opened are distinct (`Folder.Reports`,
`Effect.reports`). So after any such calls, all that is kept or handed over tells what was reported
(`reports_call`, `reports_calls`). -/

namespace SpanRelay

/-! ### One span -/

namespace Span

variable {x y : Span} {past : List Call} {c : Call}

/-- The handle of a span. -/
def ref (x : Span) : SpanRef := ⟨x.sessionId, x.id⟩

/-- One of the calls opened the span, which tells the outcomes that were reported for it since. -/
def Reports (x : Span) (past : List Call) : Prop :=
  ∃ before c since, past = before ++ c :: since ∧ c.opened? = some x.ref ∧
    x.Told (since.filterMap (Call.outcome? x.ref))

theorem Reports.mem_openedIds (h : x.Reports past) : x.id ∈ openedIds past := by
  obtain ⟨before, c, since, rfl, hc, -⟩ := h
  exact mem_openedIds.2 ⟨c, List.mem_append_right _ List.mem_cons_self, x.ref, hc, rfl⟩

theorem Reports.version (h : x.Reports past) (hv : y.VersionOf x)
    (hy : ∀ os, x.Told os → y.Told os) : y.Reports past := by
  obtain ⟨before, c, since, hpast, hc, htold⟩ := h
  have href : y.ref = x.ref := by rw [ref, ref, hv.sessionId, hv.id]
  rw [← href] at hc htold
  exact ⟨before, c, since, hpast, hc, hy _ htold⟩

theorem Reports.abandon (h : x.Reports past) : x.abandon.Reports past :=
  h.version (versionOf_abandon x) fun _ htold => htold.abandon

theorem Reports.finalize (h : x.Reports past) (stamp : Stamp) : (x.finalize stamp).Reports past :=
  (h.version (versionOf_stampWith x stamp) fun _ htold => htold.stampWith stamp).abandon

theorem Reports.concat_of_none (h : x.Reports past) (hc : c.outcome? x.ref = none) :
    x.Reports (past ++ [c]) := by
  obtain ⟨before, d, since, rfl, hd, htold⟩ := h
  refine ⟨before, d, since ++ [c], by simp, hd, ?_⟩
  rw [List.filterMap_append, List.filterMap_cons_none hc, List.filterMap_nil, List.append_nil]
  exact htold

theorem Reports.concat_complete (h : x.Reports past) {o : Outcome} (hc : c.outcome? x.ref = some o)
    (after : Option Snapshot) (now : Timestamp) :
    (x.complete after o now).Reports (past ++ [c]) := by
  obtain ⟨before, d, since, rfl, hd, htold⟩ := h
  refine ⟨before, d, since ++ [c], by simp, hd, ?_⟩
  rw [List.filterMap_append]
  have hlast : [c].filterMap (Call.outcome? x.ref) = [o] := List.filterMap_cons_some hc
  exact hlast ▸ htold.complete after o now

theorem reports_spanIn (h : HookScope) (f : Folder) (past : List Call) (s b : String) (e : Element)
    (p : Option ParentHint) (m : Snapshot) (now : Timestamp) :
    (h.spanIn f s b e p m now).Reports (past ++ [.hook (.before s b e p m now)]) :=
  ⟨past, _, [], rfl, rfl, rfl, nofun, fun _ => .inl rfl⟩

end Span

/-! ### One folder -/

/-- The spans that are kept tell what was reported for them, and none of them is both held and
cached. -/
structure Folder.Reports (f : Folder) (past : List Call) : Prop where
  held : ∀ x, f.slot = some x → x.Reports past
  cached : ∀ b x, f.get? b = some x → x.Reports past
  apart : ∀ x, f.slot = some x → f.get? x.id = none

namespace Folder

variable {f f' : Folder} {past : List Call} {x : Span}

theorem reports_closed (past : List Call) : closed.Reports past :=
  ⟨fun _ hx => (nomatch hx), fun _ _ hx => (nomatch hx), fun _ _ => rfl⟩

theorem Reports.of_eq (hf : f.Reports past) (hslot : f'.slot = f.slot) (hspans : f'.spans = f.spans) :
    f'.Reports past := by
  have hget : ∀ b, f'.get? b = f.get? b := fun b => by rw [get?, get?, hspans]
  refine ⟨fun x hx => hf.held x (hslot ▸ hx), fun b x hx => hf.cached b x (hget b ▸ hx),
    fun x hx => ?_⟩
  rw [hget]
  exact hf.apart x (hslot ▸ hx)

theorem Reports.concat (hf : f.Reports past) {c : Call}
    (hheld : ∀ x, f.slot = some x → c.outcome? x.ref = none)
    (hcached : ∀ b x, f.get? b = some x → c.outcome? x.ref = none) : f.Reports (past ++ [c]) where
  held x hx := (hf.held x hx).concat_of_none (hheld x hx)
  cached b x hx := (hf.cached b x hx).concat_of_none (hcached b x hx)
  apart := hf.apart

theorem Reports.free (hf : f.Reports past) : f.free.Reports past :=
  ⟨fun _ hx => (nomatch hx), hf.cached, fun _ hx => (nomatch hx)⟩

theorem Reports.cache (hf : f.Reports past) (hx : x.Reports past)
    (hslot : ∀ y, f.slot = some y → y.id ≠ x.id) : (f.cache x).Reports past where
  held := hf.held
  cached b y hy := by
    rw [get?_cache] at hy
    split at hy
    · exact Option.some.inj hy ▸ hx
    · exact hf.cached b y hy
  apart y hy := by
    rw [get?_cache, if_neg (hslot y hy)]
    exact hf.apart y hy

theorem Reports.promoted (hf : f.Reports past) : f.promoted.Reports past := by
  unfold Folder.promoted
  cases hslot : f.slot with
  | none => exact hf
  | some x => exact hf.free.cache (hf.held x hslot) fun _ hy => (nomatch hy)

theorem Reports.of_mem_kept {s : String} (hf : f.Reports past) (hsound : f.Sound s)
    (hx : x ∈ f.kept) : x.Reports past := by
  rcases mem_kept.1 hx with hx | hx
  · exact hf.held x hx
  · exact hf.cached _ x (hsound.get?_of_mem_cached hx)

end Folder

namespace Effect

variable {h : HookScope} {hook : Hook} {f f' : Folder} {spans : List Span} {past : List Call}

section Before

variable {s b : String} {e : Element} {p : Option ParentHint} {m : Snapshot} {now : Timestamp}

theorem reports_held (hf : f.Reports past) (hsound : f.Sound s) (hnew : b ∉ openedIds past) :
    ((f.record e.executionKey b).hold (h.spanIn f s b e p m now)).Reports
      (past ++ [.hook (.before s b e p m now)]) where
  held x hx := by
    obtain rfl := Option.some.inj hx
    exact Span.reports_spanIn h f past s b e p m now
  cached b' x hx := (hf.cached b' x hx).concat_of_none rfl
  apart x hx := by
    obtain rfl := Option.some.inj hx
    refine Option.eq_none_iff_forall_ne_some.2 fun y hy => hnew ?_
    have hid : y.id = b := hsound.id_of_get? hy
    exact hid ▸ (hf.cached b y hy).mem_openedIds

theorem reports_cached (hf : f.Reports past) (hnew : b ∉ openedIds past) :
    ((f.record e.executionKey b).cache (h.spanIn f s b e p m now)).Reports
      (past ++ [.hook (.before s b e p m now)]) := by
  have hsame : f.Reports (past ++ [.hook (.before s b e p m now)]) :=
    hf.concat (fun _ _ => rfl) fun _ _ _ => rfl
  have hrecord : (f.record e.executionKey b).Reports (past ++ [.hook (.before s b e p m now)]) :=
    hsame.of_eq rfl rfl
  refine hrecord.cache (Span.reports_spanIn h f past s b e p m now) fun y hy => ?_
  rintro (rfl : y.id = b)
  exact hnew (hf.held y hy).mem_openedIds

end Before

section After

variable {ref : SpanRef} {m : Snapshot} {o : Outcome} {now : Timestamp} {x : Span}

theorem reports_completed (hx : x.Reports past) (hs : x.sessionId = ref.sessionId)
    (hid : x.id = ref.spanId) :
    (h.completed m o now x).Reports (past ++ [.hook (.after ref m o now)]) :=
  hx.concat_complete (Call.outcome?_self hs.symm hid.symm) _ _

/-- A cached span is reported on. The one that is held is another one. -/
theorem reports_update (hf : f.Reports past) (hsound : f.Sound ref.sessionId)
    (hx : f.get? ref.spanId = some x) :
    (h.completed m o now x).Reports (past ++ [.hook (.after ref m o now)]) ∧
    (f.update ref.spanId (h.completed m o now)).Reports
      (past ++ [.hook (.after ref m o now)]) := by
  have hended : (h.completed m o now x).Reports (past ++ [.hook (.after ref m o now)]) :=
    reports_completed (hf.cached _ x hx)
      (hsound.own x (Folder.mem_kept.2 (.inr (Folder.mem_cached_of_get? hx)))) (hsound.id_of_get? hx)
  have hother : ∀ y, f.slot = some y → y.id ≠ ref.spanId := by
    intro y hy hid
    have hnone := hf.apart y hy
    rw [hid, hx] at hnone
    cases hnone
  refine ⟨hended, ?_⟩
  exact {
    held := fun y hy => (hf.held y hy).concat_of_none (Call.outcome?_of_ne (hother y hy).symm)
    cached := fun b y hy => by
      rw [Folder.get?_update, hx] at hy
      split at hy
      · obtain rfl := Option.some.inj hy
        exact hended
      · rename_i hb
        have hid : y.id = b := hsound.id_of_get? hy
        refine (hf.cached b y hy).concat_of_none (Call.outcome?_of_ne ?_)
        rw [hid]
        exact Ne.symm hb
    apart := fun y hy => by
      rw [Folder.get?_update, if_neg (hother y hy)]
      exact hf.apart y hy }

theorem outcome?_of_get?_eq_none (hsound : f.Sound ref.sessionId) (hnone : f.get? ref.spanId = none)
    (b : String) (y : Span) (hy : f.get? b = some y) :
    (Call.hook (.after ref m o now)).outcome? y.ref = none := by
  refine Call.outcome?_of_ne fun hid => ?_
  rw [hid, hsound.id_of_get? hy, hy] at hnone
  cases hnone

theorem reports_of_other (hf : f.Reports past) (hsound : f.Sound ref.sessionId)
    (hnone : f.get? ref.spanId = none) (hother : ∀ x, f.slot = some x → x.id ≠ ref.spanId) :
    f.Reports (past ++ [.hook (.after ref m o now)]) :=
  hf.concat (fun x hx => Call.outcome?_of_ne (hother x hx).symm)
    (outcome?_of_get?_eq_none hsound hnone)

theorem reports_updateHeld (hf : f.Reports past) (hsound : f.Sound ref.sessionId)
    (hnone : f.get? ref.spanId = none) :
    (f.updateHeld ref.spanId (h.completed m o now)).Reports
      (past ++ [.hook (.after ref m o now)]) where
  held y hy := by
    obtain ⟨x, hx, hxy⟩ := Option.map_eq_some_iff.1 hy
    split at hxy
    · rename_i hid
      have hs : x.sessionId = ref.sessionId := hsound.own x (Folder.mem_kept.2 (.inl hx))
      exact hxy ▸ reports_completed (hf.held x hx) hs hid
    · rename_i hid
      exact hxy ▸ (hf.held x hx).concat_of_none (Call.outcome?_of_ne (Ne.symm hid))
  cached b y hy := (hf.cached b y hy).concat_of_none (outcome?_of_get?_eq_none hsound hnone b y hy)
  apart y hy := by
    obtain ⟨x, hx, hxy⟩ := Option.map_eq_some_iff.1 hy
    have hid : y.id = x.id := by
      rw [← hxy]
      split <;> rfl
    rw [hid]
    exact hf.apart x hx

theorem reports_failedHeld (hf : f.Reports past) (hsound : f.Sound ref.sessionId)
    (hnone : f.get? ref.spanId = none) (hslot : f.slot = some x) (hid : x.id = ref.spanId) :
    (h.completed m o now x).Reports (past ++ [.hook (.after ref m o now)]) ∧
    (f.free.fail.cache (h.completed m o now x)).Reports
      (past ++ [.hook (.after ref m o now)]) := by
  have hended : (h.completed m o now x).Reports (past ++ [.hook (.after ref m o now)]) :=
    reports_completed (hf.held x hslot) (hsound.own x (Folder.mem_kept.2 (.inl hslot))) hid
  have hfree : f.free.Reports (past ++ [.hook (.after ref m o now)]) :=
    hf.free.concat (fun _ hy => (nomatch hy)) (outcome?_of_get?_eq_none (f := f) hsound hnone)
  have hfail : f.free.fail.Reports (past ++ [.hook (.after ref m o now)]) := hfree.of_eq rfl rfl
  exact ⟨hended, hfail.cache hended fun _ hy => (nomatch hy)⟩

end After

/-- **A hook** leaves and hands over spans that tell what was reported for them, if the span that it
opens is a new one. -/
theorem reports (he : Effect h f hook f' spans) (hsound : f.Sound hook.sessionId)
    (hnew : ∀ ref, hook.opened? = some ref → ref.spanId ∉ openedIds past) (hf : f.Reports past) :
    f'.Reports (past ++ [.hook hook]) ∧ ∀ x ∈ spans, x.Reports (past ++ [.hook hook]) := by
  cases he with
  | late _ hc =>
    rw [hsound.closed hc]
    exact ⟨Folder.reports_closed _, List.forall_mem_nil _⟩
  | skipped | heldLate =>
    exact ⟨hf.concat (fun _ _ => rfl) fun _ _ _ => rfl, List.forall_mem_nil _⟩
  | @correlated t id =>
    have hsame := hf.concat (c := .hook (.correlate t id)) (fun _ _ => rfl) fun _ _ _ => rfl
    exact ⟨hsame.of_eq rfl rfl, List.forall_mem_nil _⟩
  | cachedLate =>
    refine ⟨hf.concat (fun _ _ => rfl) fun _ _ _ => rfl, fun x hx => ?_⟩
    rw [List.mem_singleton.1 hx]
    exact (Span.reports_spanIn h f past _ _ _ _ _ _).abandon
  | held => exact ⟨reports_held hf hsound (hnew _ rfl), List.forall_mem_nil _⟩
  | cached => exact ⟨reports_cached hf (hnew _ rfl), List.forall_mem_nil _⟩
  | completed _ hx =>
    obtain ⟨hended, hkept⟩ := reports_update hf hsound hx
    exact ⟨hkept, List.forall_mem_singleton.2 hended⟩
  | completedHeld _ hnone => exact ⟨reports_updateHeld hf hsound hnone, List.forall_mem_nil _⟩
  | failedHeld _ hnone _ hslot hid =>
    obtain ⟨hended, hkept⟩ := reports_failedHeld hf hsound hnone hslot hid
    exact ⟨hkept, List.forall_mem_singleton.2 hended⟩
  | @failedLost ref m o now _ hnone _ hother =>
    have hsame : f.Reports (past ++ [.hook (.after ref m o now)]) :=
      reports_of_other hf hsound hnone hother
    have hfail : f.fail.Reports (past ++ [.hook (.after ref m o now)]) := hsame.of_eq rfl rfl
    refine ⟨hfail.promoted, fun x hx => ?_⟩
    exact hsame.held x (Option.mem_toList.1 hx)
  | failedUnkept _ hnone _ hother =>
    exact ⟨reports_of_other hf hsound hnone hother, List.forall_mem_nil _⟩
  | finished =>
    refine ⟨Folder.reports_closed _, fun x hx => ?_⟩
    obtain ⟨y, hy, rfl⟩ := List.mem_map.1 hx
    refine Span.Reports.finalize (Span.Reports.concat_of_none (hf.of_mem_kept hsound ?_) rfl) _
    unfold HookScope.ended at hy
    split at hy
    · exact Folder.mem_kept_promoted (Folder.mem_kept.2 (.inr hy))
    · exact Folder.mem_kept.2 (.inr hy)

end Effect

/-! ### All folders -/

namespace Registry

variable {policy : Policy} {sample : UInt64 → Bool} {r : Registry} {past : List Call}

/-- All that is kept tells what was reported for it. -/
def Reports (r : Registry) (past : List Call) : Prop := ∀ s, (r.folder s).Reports past

theorem reports_empty : empty.Reports [] := fun _ => Folder.reports_closed []

theorem reports_of_not_isOf (hr : r.Sound) {c : Call} {s : String} (hc : c.isOf s = false)
    (h : r.Reports past) : (r.folder s).Reports (past ++ [c]) := by
  have hquiet : ∀ x ∈ (r.folder s).kept, c.outcome? x.ref = none := by
    intro x hx
    refine Call.outcome?_of_not_isOf ?_
    rw [Span.ref, (hr.folder s).own x hx]
    exact hc
  exact (h s).concat (fun x hx => hquiet x (Folder.mem_kept.2 (.inl hx)))
    fun _ x hx => hquiet x (Folder.mem_kept.2 (.inr (Folder.mem_cached_of_get? hx)))

theorem reports_call (hr : r.Sound) (c : Call) (hd : (openedIds (past ++ [c])).Nodup)
    (h : r.Reports past) :
    (r.call policy sample c).1.Reports (past ++ [c]) ∧
      ∀ x ∈ (r.call policy sample c).2, x.Reports (past ++ [c]) := by
  cases c with
  | start st draw =>
    have hsame : ∀ s, (r.folder s).Reports (past ++ [.start st draw]) := fun s =>
      reports_of_not_isOf hr rfl h
    refine ⟨fun s => ?_, List.forall_mem_nil _⟩
    dsimp only [call]
    split
    · exact hsame s
    · rw [edits_put hr.numbered]
      split
      · exact (hsame s).of_eq rfl rfl
      · exact hsame s
  | hook hook =>
    have hnew : ∀ ref, hook.opened? = some ref → ref.spanId ∉ openedIds past := by
      intro ref href hmem
      rw [openedIds_append, List.nodup_append] at hd
      exact hd.2.2 _ hmem _ (mem_openedIds.2 ⟨_, List.mem_cons_self, ref, href, rfl⟩) rfl
    dsimp only [call]
    rcases run_cases hr policy hook with ⟨hclosed, hsame, hnil⟩ | ⟨scope, g, f, -, -, -, heff, hedit⟩
    · rw [hsame, hnil]
      refine ⟨fun s => ?_, List.forall_mem_nil _⟩
      by_cases hs : hook.sessionId = s
      · rw [← hs, (hr.folder _).closed hclosed]
        exact Folder.reports_closed _
      · exact reports_of_not_isOf hr (decide_eq_false hs) h
    · obtain ⟨hkept, hhanded⟩ := heff.reports (hr.folder _) hnew (h _)
      refine ⟨fun s => ?_, hhanded⟩
      rw [hedit s]
      split
      · exact hkept
      · rename_i hs
        exact reports_of_not_isOf hr (decide_eq_false (Ne.symm hs)) h

theorem reports_calls (cs : List Call) (hr : r.Sound) (hd : (openedIds (past ++ cs)).Nodup)
    (h : r.Reports past) : (r.calls policy sample cs).Reports (past ++ cs) := by
  induction cs generalizing r past with
  | nil => rwa [List.append_nil]
  | cons c cs ih =>
    have hcons : past ++ c :: cs = past ++ [c] ++ cs := by simp
    rw [hcons] at hd ⊢
    have hfirst : (openedIds (past ++ [c])).Nodup := by
      rw [openedIds_append] at hd
      exact (List.nodup_append.1 hd).1
    exact ih (sound_call hr c) hd (reports_call hr c hfirst h).1

end Registry

end SpanRelay
