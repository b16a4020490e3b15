import SpanRelay.Proofs.Registry.Finished
import SpanRelay.Proofs.Registry.Walk
import SpanRelay.Proofs.Session.Race
import SpanRelay.Proofs.Session.Run

/-! # Parents of new spans

A fully tracked session remembers all that was called for it: the cached spans are the spans opened,
in progress as long as no outcome was reported for them, and the execution map holds for each key the
span opened last (`Folder.Mirrors`, `mirrors_calls`). So it can be told from the calls which parent a
new span gets if its hint may have intermediate parents (`parent_pending_iff`). The walk begins at the
occurrence opened last, whether or not this one is still open, and takes open children only. Hence
the parent is open unless the occurrence opened last has ended and has no open child to go on to; it
is then this occurrence, also where another one is still open (`parent_ended_while_other_open`). -/

namespace SpanRelay

/-! ### What the calls tell -/

/-- The span that a call opens in a session under an execution key. -/
def Call.openedAs? (s key : String) : Call → Option String
  | hook (.before sessionId spanId element ..) =>
    if sessionId = s ∧ element.executionKey = key then some spanId else none
  | start .. | hook _ => none

/-- The span that was opened last in a session under an execution key. -/
def lastOpened? (s key : String) (cs : List Call) : Option String :=
  (cs.filterMap (Call.openedAs? s key)).getLast?

/-- A span was opened, and no outcome was reported for it since. -/
def Pending (ref : SpanRef) (cs : List Call) : Prop :=
  ∃ past c rest, cs = past ++ c :: rest ∧ c.opened? = some ref ∧ ∀ d ∈ rest, d.outcome? ref = none

theorem lastOpened?_concat (s key : String) (cs : List Call) (c : Call) :
    lastOpened? s key (cs ++ [c]) = (c.openedAs? s key).or (lastOpened? s key cs) := by
  unfold lastOpened?
  rw [List.filterMap_append, List.filterMap_cons, List.filterMap_nil]
  cases c.openedAs? s key with
  | none => simp
  | some b => simp

theorem not_pending_nil (ref : SpanRef) : ¬ Pending ref [] := by
  rintro ⟨past, c, rest, h, -⟩
  simp at h

theorem pending_concat {ref : SpanRef} {cs : List Call} {c : Call} :
    Pending ref (cs ++ [c]) ↔ c.opened? = some ref ∨ (Pending ref cs ∧ c.outcome? ref = none) := by
  constructor
  · rintro ⟨past, d, rest, hsplit, ho, hquiet⟩
    rcases List.eq_nil_or_concat rest with rfl | ⟨rest, e, rfl⟩
    · obtain ⟨-, hlast⟩ := List.append_inj' hsplit rfl
      obtain rfl := List.singleton_inj.1 hlast
      exact Or.inl ho
    · have hsplit' : cs ++ [c] = (past ++ d :: rest) ++ [e] := by simpa using hsplit
      obtain ⟨rfl, hlast⟩ := List.append_inj' hsplit' rfl
      obtain rfl := List.singleton_inj.1 hlast
      have hquiet' : ∀ d ∈ rest, d.outcome? ref = none := fun d hd => hquiet d (by simp [hd])
      exact Or.inr ⟨⟨past, d, rest, rfl, ho, hquiet'⟩, hquiet c (by simp)⟩
  · rintro (ho | ⟨⟨past, d, rest, rfl, ho, hquiet⟩, hc⟩)
    · exact ⟨cs, c, [], rfl, ho, fun _ h => absurd h List.not_mem_nil⟩
    · refine ⟨past, d, rest ++ [c], by simp, ho, fun e he => ?_⟩
      rcases List.mem_append.1 he with he | he
      · exact hquiet e he
      · rw [List.mem_singleton.1 he]
        exact hc

theorem Call.openedAs?_of_not_isOf {s key : String} {c : Call} (h : c.isOf s = false) :
    c.openedAs? s key = none := by
  cases c with
  | start => rfl
  | hook hook =>
    cases hook with
    | before t b e p m now => exact if_neg fun hs => of_decide_eq_false h hs.1
    | after | finish | correlate => rfl

theorem lastOpened?_concat_of_not_isOf {s key : String} {cs : List Call} {c : Call}
    (h : c.isOf s = false) : lastOpened? s key (cs ++ [c]) = lastOpened? s key cs := by
  rw [lastOpened?_concat, Call.openedAs?_of_not_isOf h, Option.none_or]

theorem pending_concat_of_not_isOf {s b : String} {cs : List Call} {c : Call}
    (h : c.isOf s = false) : Pending ⟨s, b⟩ (cs ++ [c]) ↔ Pending ⟨s, b⟩ cs := by
  have hnone : c.opened? ≠ some ⟨s, b⟩ := by
    cases c with
    | start => exact nofun
    | hook hook => exact fun ho => of_decide_eq_false h (Hook.sessionId_of_opened? ho)
  rw [pending_concat, Call.outcome?_of_not_isOf h]
  simp [hnone]

/-! ### A session that is fully tracked -/

/-- What a folder tells of a session at the level INFO or DEBUG that is sampled, when the calls `cs`
were made since it started. -/
structure Folder.Mirrors (s : String) (cs : List Call) (f : Folder) : Prop where
  traced : ∃ g, f.registration = some g ∧ (g.session.level = .info ∨ g.session.level = .debug) ∧
    g.session.sampled = true
  slot : f.slot = none
  latest : ∀ key, f.latest? key = lastOpened? s key cs
  keys : ∀ executions, f.executions = some executions → executions.keys.Nodup
  pending : ∀ b, (∃ x, f.get? b = some x ∧ x.isInProgress = true) ↔ Pending ⟨s, b⟩ cs

theorem Folder.mirrors_register {s : String} {session : Session}
    (hl : session.level = .info ∨ session.level = .debug) (hs : session.sampled = true) :
    (Folder.closed.register session).Mirrors s [] := by
  refine ⟨⟨_, rfl, hl, hs⟩, rfl, fun _ => rfl, nofun, fun b => ?_⟩
  exact ⟨fun ⟨_, hx, _⟩ => (nomatch hx), fun hp => absurd hp (not_pending_nil _)⟩

namespace Effect

variable {h : HookScope} {hook : Hook} {f f' : Folder} {spans : List Span} {s : String}
  {cs : List Call} {g : Registration}

theorem mirrors_cached {b : String} {e : Element} {p : Option ParentHint} {m : Snapshot}
    {now : Timestamp} (hf : f.Mirrors s cs) :
    ((f.record e.executionKey b).cache (h.spanIn f s b e p m now)).Mirrors s
      (cs ++ [.hook (.before s b e p m now)]) where
  traced := hf.traced
  slot := hf.slot
  latest key := by
    rw [lastOpened?_concat, ← hf.latest]
    refine (Folder.latest?_record f e.executionKey key b).trans ?_
    simp only [Call.openedAs?, true_and, eq_comm (a := e.executionKey)]
    split <;> simp
  keys executions he := by
    cases he
    refine Map.Table.nodup_keys_insert ?_ _ _
    cases hx : f.executions with
    | none => exact List.nodup_nil
    | some executions => exact hf.keys executions hx
  pending b' := by
    rw [pending_concat, ← hf.pending, Folder.get?_cache]
    by_cases hb : b' = b
    · subst hb
      simp [HookScope.spanIn, Span.opened, Span.isInProgress, Call.opened?, Hook.opened?]
    · have hid : b' ≠ (h.spanIn f s b e p m now).id := hb
      have hget : (f.record e.executionKey b).get? b' = f.get? b' := rfl
      simp [if_neg hid, hget, Call.opened?, Hook.opened?, Ne.symm hb, Call.outcome?]

theorem mirrors_completed {ref : SpanRef} {m : Snapshot} {o : Outcome} {now : Timestamp}
    (hid : ref.sessionId = s) (hf : f.Mirrors s cs) :
    (f.update ref.spanId (h.completed m o now)).Mirrors s (cs ++ [.hook (.after ref m o now)]) where
  traced := hf.traced
  slot := hf.slot
  latest key := by
    rw [lastOpened?_concat, ← hf.latest]
    rfl
  keys := hf.keys
  pending b := by
    rw [pending_concat, ← hf.pending, Folder.get?_update]
    by_cases hb : b = ref.spanId
    · have hout : (Call.hook (.after ref m o now)).outcome? ⟨s, b⟩ = some o :=
        Call.outcome?_self hid hb.symm
      have hended : ∀ x, (h.completed m o now x).isInProgress = false := by
        intro x
        cases o <;> rfl
      rw [if_pos hb, hout]
      simp [hended, Call.opened?, Hook.opened?]
    · have hout : (Call.hook (.after ref m o now)).outcome? ⟨s, b⟩ = none :=
        Call.outcome?_of_ne (Ne.symm hb)
      rw [if_neg hb, hout]
      simp [Call.opened?, Hook.opened?]

theorem mirrors_same {c : Call} (hopen : c.opened? = none)
    (hquiet : ∀ b, Pending ⟨s, b⟩ cs → c.outcome? ⟨s, b⟩ = none) (hf : f.Mirrors s cs) :
    f.Mirrors s (cs ++ [c]) where
  traced := hf.traced
  slot := hf.slot
  latest key := by
    have hnone : c.openedAs? s key = none := by
      cases c with
      | start => rfl
      | hook hook =>
        cases hook with
        | before => cases hopen
        | after | finish | correlate => rfl
    rw [lastOpened?_concat, hnone, Option.none_or, hf.latest]
  keys := hf.keys
  pending b := by
    rw [pending_concat, hopen, hf.pending]
    exact ⟨fun hp => Or.inr ⟨hp, hquiet b hp⟩, fun hp => (hp.resolve_left nofun).1⟩

theorem tracking_of_mirrors (hg : f.registration = some g) (hs : h.session = g.session)
    (hf : f.Mirrors s cs) : h.tracking = .full := by
  obtain ⟨g', hg', hl, hsampled⟩ := hf.traced
  obtain rfl : g = g' := Option.some.inj (hg.symm.trans hg')
  rw [HookScope.tracking, hs, SessionRun.tracking_of_level hl, hsampled]
  rfl

/-- **A hook** of the session leaves a folder that tells of this hook, too. -/
theorem mirrors (he : Effect h f hook f' spans) (hid : hook.sessionId = s)
    (hends : hook.ends s = false) (hg : f.registration = some g) (hs : h.session = g.session)
    (hf : f.Mirrors s cs) : f'.Mirrors s (cs ++ [.hook hook]) := by
  have ht := tracking_of_mirrors hg hs hf
  obtain ⟨g', hg', hl, hsampled⟩ := hf.traced
  obtain rfl : g = g' := Option.some.inj (hg.symm.trans hg')
  have hopen : f.isOpen = true := by rw [Folder.isOpen, hg]; rfl
  -- a span that is not cached is not open
  have hquiet : ∀ {ref : SpanRef} {m o now}, f.get? ref.spanId = none → ∀ b, Pending ⟨s, b⟩ cs →
      (Call.hook (.after ref m o now)).outcome? ⟨s, b⟩ = none := by
    intro ref m o now hnone b hp
    refine Call.outcome?_of_ne ?_
    rintro rfl
    obtain ⟨x, hx, -⟩ := (hf.pending _).2 hp
    rw [hnone] at hx
    cases hx
  cases he with
  | late _ hc | heldLate _ hc | cachedLate _ hc => exact absurd (hopen.symm.trans hc) (by decide)
  | skipped hn | held hn => exact absurd (ht.symm.trans hn) (by decide)
  | cached =>
    cases hid
    exact mirrors_cached hf
  | completed => exact mirrors_completed hid hf
  | @completedHeld ref m o now _ hnone =>
    have hsame : f.updateHeld ref.spanId (h.completed m o now) = f := by
      rw [Folder.updateHeld, hf.slot]
      exact congrArg (fun slot => { f with slot }) hf.slot.symm
    rw [hsame]
    exact mirrors_same rfl (hquiet hnone) hf
  | failedHeld _ _ _ hslot =>
    rw [hf.slot] at hslot
    cases hslot
  | failedLost _ _ _ _ hn =>
    rw [hs] at hn
    rcases hl with hl | hl <;> exact absurd (hl.symm.trans hn) (by decide)
  | failedUnkept _ hnone => exact mirrors_same rfl (hquiet hnone) hf
  | finished => exact absurd ((decide_eq_true hid).symm.trans hends) (by decide)
  | @correlated t id =>
    have hsame := mirrors_same (c := .hook (.correlate t id)) rfl (fun _ _ => rfl) hf
    refine ⟨⟨{ g with session := { g.session with correlationId := some id } }, ?_, hl, hsampled⟩,
      hsame.slot, hsame.latest, hsame.keys, hsame.pending⟩
    exact congrArg (Option.map _) hg

theorem exists_opened {b : String} {e : Element} {p : Option ParentHint} {m : Snapshot}
    {now : Timestamp} (he : Effect h f (.before s b e p m now) f' spans)
    (hg : f.registration = some g) (hs : h.session = g.session) (hf : f.Mirrors s cs) :
    ∃ x, f'.get? b = some x ∧ x.parentId = p.bind f.resolveParent? := by
  have ht := tracking_of_mirrors hg hs hf
  have hopen : f.isOpen = true := by rw [Folder.isOpen, hg]; rfl
  cases he with
  | late hb => cases hb
  | skipped hn | held hn | heldLate hn => exact absurd (ht.symm.trans hn) (by decide)
  | cachedLate _ hc => exact absurd (hopen.symm.trans hc) (by decide)
  | cached => exact ⟨_, (Folder.get?_cache _ _ _).trans (if_pos rfl), rfl⟩

end Effect

namespace Registry

variable {policy : Policy} {sample : UInt64 → Bool} {r : Registry} {s : String} {cs : List Call}

theorem isOpen_of_mirrors (hf : (r.folder s).Mirrors s cs) : (r.folder s).isOpen = true := by
  obtain ⟨g, hg, -⟩ := hf.traced
  rw [Folder.isOpen, hg]
  rfl

theorem mirrors_start (hr : r.Sound) {start : SessionStart} {draw : UInt64}
    (hnew : r.isRegistered start.sessionId = false)
    (hl : policy.sessionLevel start.chainId = .info ∨ policy.sessionLevel start.chainId = .debug)
    (hs : sample draw = true) :
    ((r.call policy sample (.start start draw)).1.folder start.sessionId).Mirrors
      start.sessionId [] := by
  have hon : policy.sessionLevel start.chainId ≠ .off := by
    rcases hl with hl | hl <;> rw [hl] <;> decide
  let session := Session.start start (policy.sessionLevel start.chainId) (sample draw)
  have hcall : (r.call policy sample (.start start draw)).1 = r.put session := if_neg hon
  have hput : (r.put session).folder start.sessionId = Folder.closed.register session :=
    SessionRun.folder_put hr hnew
  rw [hcall, hput]
  exact Folder.mirrors_register hl hs

theorem mirrors_call (hr : r.Sound) {c : Call} (hc : c.started? ≠ some s) (hends : c.ends s = false)
    (hf : (r.folder s).Mirrors s cs) :
    ((r.call policy sample c).1.folder s).Mirrors s (cs ++ [c]) := by
  rcases call_cases hr (fun h => absurd h hc) (isOpen_of_mirrors hf) with
    ⟨hof, hsame⟩ | ⟨hook, h, g, rfl, hid, hg, hs, -, heff⟩
  · rw [hsame]
    refine ⟨hf.traced, hf.slot, fun key => ?_, hf.keys, fun b => ?_⟩
    · rw [lastOpened?_concat_of_not_isOf hof, hf.latest]
    · rw [pending_concat_of_not_isOf hof, hf.pending]
  · exact heff.mirrors hid hends hg hs hf

theorem mirrors_calls (ds : List Call) (hr : r.Sound)
    (hgoes : ∀ c ∈ ds, c.started? ≠ some s ∧ c.ends s = false) (hf : (r.folder s).Mirrors s cs) :
    ((r.calls policy sample ds).folder s).Mirrors s (cs ++ ds) := by
  induction ds generalizing r cs with
  | nil => rwa [List.append_nil]
  | cons c ds ih =>
    obtain ⟨hc, hends⟩ := hgoes c List.mem_cons_self
    have hstep : ((r.calls policy sample (c :: ds)).folder s).Mirrors s (cs ++ [c] ++ ds) :=
      ih (sound_call hr c) (fun d hd => hgoes d (List.mem_cons_of_mem _ hd))
        (mirrors_call hr hc hends hf)
    rwa [List.append_assoc] at hstep

/-- **A span that is opened** is cached, with the parent that the folder of its session tells. -/
theorem exists_opened (policy : Policy) (sample : UInt64 → Bool) (hr : r.Sound)
    (hf : (r.folder s).Mirrors s cs) (b : String) (e : Element) (p : Option ParentHint) (m : Snapshot)
    (now : Timestamp) :
    ∃ x, ((r.call policy sample (.hook (.before s b e p m now))).1.folder s).get? b = some x ∧
      x.parentId = p.bind (r.folder s).resolveParent? := by
  rcases call_cases (s := s) (c := .hook (.before s b e p m now)) hr nofun (isOpen_of_mirrors hf) with
    ⟨hof, -⟩ | ⟨hook, h, g, hc, -, hg, hs, -, heff⟩
  · exact absurd rfl (of_decide_eq_false hof)
  · cases hc
    exact heff.exists_opened hg hs hf

end Registry

/-! ### The parent of a new span -/

/-- A span of the session leads the walk on if it is an open child of the hinted element and was
opened last under some key. -/
theorem Folder.Mirrors.leads_iff {f : Folder} {s : String} {cs : List Call} (hf : f.Mirrors s cs)
    (hsound : f.Sound s) {hint : ParentHint} {id : String} {x : Span} :
    f.Leads hint id x ↔ x ∈ f.cached ∧ x.parentId = some id ∧ x.elementId = hint.elementId ∧
      Pending ⟨s, x.id⟩ cs ∧ ∃ key, lastOpened? s key cs = some x.id := by
  constructor
  · rintro ⟨hx, hp, he, ⟨executions, hm, hmem⟩, hopen⟩
    refine ⟨hx, hp, he, (hf.pending _).1 ⟨x, hsound.get?_of_mem_cached hx, hopen⟩, ?_⟩
    obtain ⟨row, hrow, hid⟩ := List.mem_map.1 hmem
    refine ⟨row.1, ?_⟩
    rw [← hf.latest, Folder.latest?, hm, ← hid]
    exact Map.Table.get?_of_mem_rows (hf.keys _ hm) hrow
  · rintro ⟨hx, hp, he, hpending, key, hkey⟩
    obtain ⟨y, hy, hopen⟩ := (hf.pending _).2 hpending
    obtain rfl : x = y := Option.some.inj ((hsound.get?_of_mem_cached hx).symm.trans hy)
    rw [← hf.latest] at hkey
    obtain ⟨executions, hm, hkey⟩ := Option.bind_eq_some_iff.1 hkey
    exact ⟨hx, hp, he, ⟨executions, hm, List.mem_map.2 ⟨_, Map.Table.mem_rows_of_get? hkey, rfl⟩⟩, hopen⟩

/-- **The parent of a new span**, in a session at the level INFO or DEBUG that is sampled, whatever
was called since it started. A hint that may have intermediate parents finds a parent if and only if
a span was opened under its key. The parent is still open if and only if the span opened last under
the key is, or an open child of it executes the hinted element and was opened last under some key.
Otherwise the parent is the span opened last under the key. -/
theorem parent_pending_iff (policy : Policy) (sample : UInt64 → Bool) (before since : List Call)
    (start : SessionStart) (draw : UInt64)
    (hnew : (Registry.empty.calls policy sample before).isRegistered start.sessionId = false)
    (hl : policy.sessionLevel start.chainId = .info ∨ policy.sessionLevel start.chainId = .debug)
    (hsampled : sample draw = true)
    (hgoes : ∀ c ∈ since, c.started? ≠ some start.sessionId ∧ c.ends start.sessionId = false)
    (hint : ParentHint) (hm : hint.hasIntermediateParents = true) (b : String)
    (element : Element) (payload : Snapshot) (now : Timestamp) :
    let s := start.sessionId
    let r := Registry.empty.calls policy sample (before ++ .start start draw :: since)
    let opened := .hook (.before s b element (some hint) payload now)
    ∃ x, ((r.call policy sample opened).1.folder s).get? b = some x ∧
      match lastOpened? s hint.executionKey since with
      | none => x.parentId = none
      | some first => ∃ p, x.parentId = some p ∧
        (Pending ⟨s, p⟩ since ↔ Pending ⟨s, first⟩ since ∨
          ∃ y ∈ (r.folder s).cached, y.parentId = some first ∧ y.elementId = hint.elementId ∧
            Pending ⟨s, y.id⟩ since ∧ ∃ key, lastOpened? s key since = some y.id) ∧
        (¬ Pending ⟨s, p⟩ since → p = first) := by
  intro s r opened
  have hbefore : (Registry.empty.calls policy sample before).Sound :=
    Registry.sound_calls before Registry.sound_empty
  have hr : r.Sound := Registry.sound_calls _ Registry.sound_empty
  have hf : (r.folder s).Mirrors s since := by
    have hrun : r = (((Registry.empty.calls policy sample before).call policy sample
        (.start start draw)).1.calls policy sample since) := Registry.calls_append before _
    rw [hrun]
    exact Registry.mirrors_calls since (Registry.sound_call hbefore _) hgoes
      (Registry.mirrors_start hbefore hnew hl hsampled)
  obtain ⟨x, hx, hparent⟩ := Registry.exists_opened policy sample hr hf b element (some hint) payload now
  refine ⟨x, hx, ?_⟩
  rw [hparent, Option.bind_some]
  cases hfirst : lastOpened? s hint.executionKey since with
  | none =>
    rw [← hf.latest] at hfirst
    rw [Folder.resolveParent?_eq hm, hfirst]
    rfl
  | some first =>
    rw [← hf.latest] at hfirst
    obtain ⟨p, hp, hwalk⟩ := Folder.resolveParent?_cases hm hfirst
    refine ⟨p, hp, ?_⟩
    rw [← exists_congr fun y => hf.leads_iff (hr.folder s)]
    rcases hwalk with ⟨hnone, rfl⟩ | ⟨hleads, y, hy, rfl, hopen⟩
    · exact ⟨⟨Or.inl, fun h => h.resolve_right fun ⟨y, hy⟩ => hnone y hy⟩, fun _ => rfl⟩
    · have hpending : Pending ⟨s, y.id⟩ since :=
        (hf.pending _).1 ⟨y, (hr.folder s).get?_of_mem_cached hy, hopen⟩
      exact ⟨⟨fun _ => Or.inr hleads, fun _ => hpending⟩, fun hn => absurd hpending hn⟩

/-- The parent of a child of a step that is open twice, the second time in a branch of the first. -/
theorem parent_pending_iff_nested :
    let now := (SessionStart.bare "s").startedAt
    let step (branch : Option String) : Element := ⟨"step", "Step", "script", none, branch⟩
    let since := [Hook.bareBefore "a", .before "s" "b" (step (some "1")) (some (.plain "step")) .empty now]
    let policy := (StaticPolicy.of .debug).toPolicy
    let r := Registry.empty.calls policy (isSampled 1.0) (.start (.bare "s") 0 :: since.map .hook)
    let opened : Call := .hook (.before "s" "c" (step (some "2")) (some ⟨"step", none, true⟩) .empty now)
    ∃ x, ((r.call policy (isSampled 1.0) opened).1.folder "s").get? "c" = some x ∧
      ∃ p, x.parentId = some p ∧ Pending ⟨"s", p⟩ (since.map .hook) := by
  intro now step since policy r opened
  have hgoes : ∀ c ∈ since.map Call.hook, c.started? ≠ some "s" ∧ c.ends "s" = false := by
    intro c hc
    obtain ⟨hook, hhook, rfl⟩ := List.mem_map.1 hc
    refine ⟨nofun, ?_⟩
    rcases List.mem_pair.1 hhook with rfl | rfl <;> rfl
  obtain ⟨x, hx, p, hp, hiff, -⟩ := parent_pending_iff policy (isSampled 1.0) [] _ (.bare "s") 0 rfl
    (Or.inr rfl) (by decide +kernel) hgoes ⟨"step", none, true⟩ rfl "c" (step (some "2")) .empty now
  have hfirst : Pending ⟨"s", "a"⟩ (since.map .hook) := by
    refine ⟨[], _, _, rfl, rfl, fun d hd => ?_⟩
    rw [List.mem_singleton.1 hd]
    rfl
  exact ⟨x, hx, p, hp, hiff.2 (Or.inl hfirst)⟩

/-- A step is open twice, the second time beside the first, and ends this second time. A child that
is opened now gets the span that has ended for its parent, though the other one is still open. -/
theorem parent_ended_while_other_open :
    let now := (SessionStart.bare "s").startedAt
    let policy := (StaticPolicy.of .debug).toPolicy
    let hooks := [Hook.bareBefore "a", .bareBefore "b", .after ⟨"s", "b"⟩ .empty .success now]
    let r := Registry.empty.calls policy (isSampled 1.0) (.start (.bare "s") 0 :: hooks.map .hook)
    let opened : Call := .hook (.before "s" "c" ⟨"child", "Child", "script", none, none⟩
      (some ⟨"step", none, true⟩) .empty now)
    let r' := (r.call policy (isSampled 1.0) opened).1
    (r.spans.get? "s" "a").map (fun x => (x.elementId, x.isInProgress)) = some ("step", true) ∧
      (r'.spans.get? "s" "c").map Span.parentId = some (some "b") ∧
      (r'.spans.get? "s" "b").map Span.isInProgress = some false := by
  decide +kernel

end SpanRelay
