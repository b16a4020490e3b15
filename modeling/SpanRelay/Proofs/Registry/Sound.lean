import SpanRelay.Proofs.Registry.Effect

/-! # Sound registries

A registry is `Sound` if nothing is kept for a session that is not registered, each cached span
stands under its own id, and each span that is kept is one of the session it is kept for. Starting a
session and every hook keep a registry sound (`sound_put`, `sound_body`). Whatever span a hook leaves
or hands over is made of one that was kept before or of the one that it opens (`Effect.made`). -/

namespace SpanRelay

namespace Span

@[simp] theorem id_abandon (x : Span) : x.abandon.id = x.id := by
  unfold abandon
  split <;> rfl

@[simp] theorem sessionId_abandon (x : Span) : x.abandon.sessionId = x.sessionId := by
  unfold abandon
  split <;> rfl

@[simp] theorem id_finalize (x : Span) (stamp : Stamp) : (x.finalize stamp).id = x.id :=
  id_abandon _

@[simp] theorem sessionId_finalize (x : Span) (stamp : Stamp) :
    (x.finalize stamp).sessionId = x.sessionId := sessionId_abandon _

/-- The span is a version of the other one: it has the same id and the same place. -/
structure VersionOf (x y : Span) : Prop where
  id : y.id = x.id
  sessionId : y.sessionId = x.sessionId
  parentId : y.parentId = x.parentId
  elementId : y.elementId = x.elementId

theorem VersionOf.refl (x : Span) : x.VersionOf x := ⟨rfl, rfl, rfl, rfl⟩

theorem VersionOf.trans {x y z : Span} (h : x.VersionOf y) (h' : y.VersionOf z) : x.VersionOf z :=
  ⟨h'.id.trans h.id, h'.sessionId.trans h.sessionId, h'.parentId.trans h.parentId,
    h'.elementId.trans h.elementId⟩

theorem versionOf_stampWith (x : Span) (stamp : Stamp) : (x.stampWith stamp).VersionOf x :=
  ⟨rfl, rfl, rfl, rfl⟩

theorem versionOf_complete (x : Span) (after : Option Snapshot) (o : Outcome) (now : Timestamp) :
    (x.complete after o now).VersionOf x := ⟨rfl, rfl, rfl, rfl⟩

theorem versionOf_abandon (x : Span) : x.abandon.VersionOf x := by
  unfold abandon
  split <;> exact ⟨rfl, rfl, rfl, rfl⟩

end Span

namespace Folder

variable {f : Folder} {x y : Span} {id : String} {k : Span → Span}

theorem mem_kept : x ∈ f.kept ↔ f.slot = some x ∨ x ∈ f.cached := by
  unfold kept
  rw [List.mem_append, Option.mem_toList]

theorem mem_cached_cache (h : x ∈ (f.cache y).cached) : x = y ∨ x ∈ f.cached := by
  obtain ⟨row, hrow, rfl⟩ := List.mem_map.1 h
  rcases Map.Table.mem_rows_insert hrow with rfl | hrow
  · exact Or.inl rfl
  · refine Or.inr ?_
    unfold cached
    cases hs : f.spans with
    | none =>
      rw [hs] at hrow
      exact absurd hrow List.not_mem_nil
    | some spans =>
      rw [hs] at hrow
      exact List.mem_map_of_mem hrow

theorem mem_cached_update (h : x ∈ (f.update id k).cached) :
    x ∈ f.cached ∨ ∃ y ∈ f.cached, x = k y := by
  unfold update cached at *
  cases hs : f.spans with
  | none =>
    rw [hs] at h
    exact absurd h List.not_mem_nil
  | some spans =>
    rw [hs] at h
    obtain ⟨row, hrow, rfl⟩ := List.mem_map.1 h
    obtain ⟨old, hold, rfl⟩ := List.mem_map.1 hrow
    split
    · exact Or.inr ⟨old.2, List.mem_map_of_mem hold, rfl⟩
    · exact Or.inl (List.mem_map_of_mem hold)

theorem mem_kept_promoted (h : x ∈ f.promoted.kept) : x ∈ f.kept := by
  unfold promoted at h
  cases hs : f.slot with
  | none => rwa [hs] at h
  | some y =>
    rw [hs] at h
    rcases mem_kept.1 h with h | h
    · cases h
    · rcases mem_cached_cache h with rfl | h
      · exact mem_kept.2 (Or.inl hs)
      · exact mem_kept.2 (Or.inr h)

theorem mem_cached_of_get? (h : f.get? id = some x) : x ∈ f.cached := by
  unfold get? at h
  unfold cached
  obtain ⟨spans, hs, hx⟩ := Option.bind_eq_some_iff.1 h
  rw [hs]
  exact List.mem_map.2 ⟨_, Map.Table.mem_rows_of_get? hx, rfl⟩

/-- What is kept for the session `s` is in order. -/
structure Sound (f : Folder) (s : String) : Prop where
  closed : f.isOpen = false → f = .closed
  keyed : ∀ spans, f.spans = some spans → spans.Keyed Span.id
  own : ∀ x ∈ f.kept, x.sessionId = s

theorem sound_closed (s : String) : closed.Sound s :=
  ⟨fun _ => rfl, nofun, by simp [kept, closed, cached]⟩

variable {s : String}

theorem Sound.id_of_get? (h : f.Sound s) (hx : f.get? id = some x) : x.id = id := by
  obtain ⟨spans, hs, hx⟩ := Option.bind_eq_some_iff.1 hx
  exact (h.keyed spans hs).eq_key_of_get? hx

theorem Sound.get?_of_mem_cached (h : f.Sound s) (hx : x ∈ f.cached) : f.get? x.id = some x := by
  unfold cached at hx
  unfold get?
  cases hs : f.spans with
  | none =>
    rw [hs] at hx
    exact absurd hx List.not_mem_nil
  | some spans =>
    rw [hs] at hx
    exact (h.keyed spans hs).mem_values_iff.1 hx

theorem nodup_cached (h : ∀ spans, f.spans = some spans → spans.Keyed Span.id) :
    (f.cached.map Span.id).Nodup := by
  unfold cached
  cases hs : f.spans with
  | none => exact List.nodup_nil
  | some spans => exact (h spans hs).nodup_values

theorem keyed_cache (h : ∀ spans, f.spans = some spans → spans.Keyed Span.id) (x : Span) :
    ∀ spans, (f.cache x).spans = some spans → spans.Keyed Span.id := by
  intro spans hs
  cases hs
  cases hf : f.spans with
  | none => exact Map.Table.Keyed.insert (.empty _) x
  | some spans => exact (h spans hf).insert x

theorem keyed_promoted (h : ∀ spans, f.spans = some spans → spans.Keyed Span.id) :
    ∀ spans, f.promoted.spans = some spans → spans.Keyed Span.id := by
  unfold promoted
  cases f.slot with
  | none => exact h
  | some x => exact keyed_cache h x

theorem keyed_update (h : ∀ spans, f.spans = some spans → spans.Keyed Span.id)
    (hk : ∀ x, (k x).id = x.id) :
    ∀ spans, (f.update id k).spans = some spans → spans.Keyed Span.id := by
  intro spans hs
  obtain ⟨spans', hs', rfl⟩ := Option.map_eq_some_iff.1 hs
  exact (h spans' hs').modify id hk

theorem isOpen_promoted (f : Folder) : f.promoted.isOpen = f.isOpen := by
  unfold promoted
  cases f.slot <;> rfl

theorem isOpen_change (f : Folder) (k : Registration → Registration) :
    (f.change k).isOpen = f.isOpen := Option.isSome_map

end Folder

namespace Hook

/-- Whether a hook ends a session. -/
def ends (s : String) : Hook → Bool
  | finish sessionId .. => sessionId = s
  | before .. | after .. | correlate .. => false

theorem sessionId_of_ends {hook : Hook} {s : String} (h : hook.ends s = true) :
    hook.sessionId = s := by
  cases hook with
  | before | after | correlate => cases h
  | finish sessionId status time ms => exact of_decide_eq_true h

theorem sessionId_of_opened? {hook : Hook} {ref : SpanRef} (h : hook.opened? = some ref) :
    hook.sessionId = ref.sessionId := by
  cases hook with
  | before s b =>
    cases h
    rfl
  | after | finish | correlate => cases h

end Hook

namespace Effect

variable {h : HookScope} {hook : Hook} {f f' : Folder} {spans : List Span} {x : Span}

theorem closed_or_isOpen (he : Effect h f hook f' spans) : f' = .closed ∨ f'.isOpen = f.isOpen := by
  cases he with
  | finished => exact Or.inl rfl
  | late | skipped | held | heldLate | cached | cachedLate | completed | completedHeld
  | failedUnkept => exact Or.inr rfl
  | failedHeld | correlated => exact Or.inr (Folder.isOpen_change _ _)
  | failedLost => exact Or.inr ((Folder.isOpen_promoted _).trans (Folder.isOpen_change _ _))

/-- The end of a session leaves nothing of it, and does nothing if the session is over. -/
theorem of_ends {s : String} (he : Effect h f hook f' spans) (hs : hook.ends s = true) :
    (f.isOpen = true → f' = .closed) ∧ (f.isOpen = false → spans = []) := by
  cases he with
  | finished ho => exact ⟨fun _ => rfl, fun hc => absurd (ho.symm.trans hc) (by decide)⟩
  | late hb hc => exact ⟨fun ho => absurd (ho.symm.trans hc) (by decide), fun _ => rfl⟩
  | _ => cases hs

theorem isOpen_of_isOpen (he : Effect h f hook f' spans) (ho : f'.isOpen = true) :
    f.isOpen = true ∧ hook.ends hook.sessionId = false := by
  have hf : f.isOpen = true := by
    rcases he.closed_or_isOpen with hc | hc
    · rw [hc] at ho
      cases ho
    · exact hc.symm.trans ho
  refine ⟨hf, ?_⟩
  cases hends : hook.ends hook.sessionId with
  | false => rfl
  | true =>
    rw [(he.of_ends hends).1 hf] at ho
    cases ho

/-- The spans that a hook can leave or hand over: those that were kept, the one that it opens, and
what becomes of these. -/
inductive Made (h : HookScope) (f : Folder) (hook : Hook) : Span → Prop
  | kept {y : Span} (hy : y ∈ f.kept) : Made h f hook y
  | opened {s b e p m now} (hb : hook = .before s b e p m now) :
      Made h f hook (h.spanIn f s b e p m now)
  | completed {ref m o now} {y : Span} (ha : hook = .after ref m o now) (hy : Made h f hook y) :
      Made h f hook (h.completed m o now y)
  | stamped {y : Span} (stamp : Stamp) (hy : Made h f hook y) : Made h f hook (y.stampWith stamp)
  | abandoned {y : Span} (hy : Made h f hook y) : Made h f hook y.abandon

theorem made_of_slot (hx : f.slot = some x) : Made h f hook x :=
  .kept (Folder.mem_kept.2 (Or.inl hx))

theorem made_of_cached (hx : x ∈ f.cached) : Made h f hook x :=
  .kept (Folder.mem_kept.2 (Or.inr hx))

theorem made_of_kept (he : Effect h f hook f' spans) (hx : x ∈ f'.kept) : Made h f hook x := by
  cases he with
  | late | skipped | heldLate | cachedLate | failedUnkept | correlated => exact .kept hx
  | held =>
    rcases Folder.mem_kept.1 hx with hx | hx
    · cases hx
      exact .opened rfl
    · exact made_of_cached hx
  | cached =>
    rcases Folder.mem_kept.1 hx with hx | hx
    · exact made_of_slot hx
    · rcases Folder.mem_cached_cache hx with rfl | hx
      · exact .opened rfl
      · exact made_of_cached hx
  | completed =>
    rcases Folder.mem_kept.1 hx with hx | hx
    · exact made_of_slot hx
    · rcases Folder.mem_cached_update hx with hx | ⟨y, hy, rfl⟩
      · exact made_of_cached hx
      · exact .completed rfl (made_of_cached hy)
  | completedHeld =>
    rcases Folder.mem_kept.1 hx with hx | hx
    · obtain ⟨y, hy, rfl⟩ := Option.map_eq_some_iff.1 hx
      split
      · exact .completed rfl (made_of_slot hy)
      · exact made_of_slot hy
    · exact made_of_cached hx
  | failedHeld _ _ _ hs =>
    rcases Folder.mem_kept.1 hx with hx | hx
    · cases hx
    · rcases Folder.mem_cached_cache hx with rfl | hx
      · exact .completed rfl (made_of_slot hs)
      · exact made_of_cached hx
  | failedLost => exact .kept (Folder.mem_kept_promoted (f := f.fail) hx)
  | finished => exact absurd hx List.not_mem_nil

theorem made_of_handed (he : Effect h f hook f' spans) (hx : x ∈ spans) : Made h f hook x := by
  cases he with
  | late | skipped | held | heldLate | cached | completedHeld | failedUnkept | correlated =>
    exact absurd hx List.not_mem_nil
  | cachedLate =>
    rw [List.mem_singleton.1 hx]
    exact .abandoned (.opened rfl)
  | completed _ hy =>
    rw [List.mem_singleton.1 hx]
    exact .completed rfl (made_of_cached (Folder.mem_cached_of_get? hy))
  | failedHeld _ _ _ hs =>
    rw [List.mem_singleton.1 hx]
    exact .completed rfl (made_of_slot hs)
  | failedLost => exact made_of_slot (Option.mem_toList.1 hx)
  | finished =>
    obtain ⟨y, hy, rfl⟩ := List.mem_map.1 hx
    refine .abandoned (.stamped _ (.kept ?_))
    unfold HookScope.ended at hy
    split at hy
    · exact Folder.mem_kept_promoted (Folder.mem_kept.2 (Or.inr hy))
    · exact Folder.mem_kept.2 (Or.inr hy)

/-- **Where spans come from.** What a hook leaves or hands over was made by it of what it found. -/
theorem made (he : Effect h f hook f' spans) (hx : x ∈ f'.kept ∨ x ∈ spans) : Made h f hook x :=
  hx.elim he.made_of_kept he.made_of_handed

theorem Made.origin (hx : Made h f hook x) :
    (∃ y ∈ f.kept, x.VersionOf y) ∨ hook.opened? = some ⟨x.sessionId, x.id⟩ := by
  -- the id and the place stay in every version
  have next : ∀ {x x' : Span}, x'.VersionOf x →
      ((∃ y ∈ f.kept, x.VersionOf y) ∨ hook.opened? = some ⟨x.sessionId, x.id⟩) →
      (∃ y ∈ f.kept, x'.VersionOf y) ∨ hook.opened? = some ⟨x'.sessionId, x'.id⟩ := by
    rintro x x' hv (⟨y, hy, hxy⟩ | ho)
    · exact Or.inl ⟨y, hy, hv.trans hxy⟩
    · rw [hv.sessionId, hv.id] at ho
      exact Or.inr ho
  induction hx with
  | @kept y hy => exact Or.inl ⟨y, hy, .refl y⟩
  | opened hb =>
    rw [hb]
    exact Or.inr rfl
  | completed _ _ ih => exact next (Span.versionOf_complete _ _ _ _) ih
  | stamped stamp _ ih => exact next (Span.versionOf_stampWith _ stamp) ih
  | abandoned _ ih => exact next (Span.versionOf_abandon _) ih

theorem origin (he : Effect h f hook f' spans) (hx : x ∈ f'.kept ∨ x ∈ spans) :
    (∃ y ∈ f.kept, x.VersionOf y) ∨ hook.opened? = some ⟨x.sessionId, x.id⟩ := (he.made hx).origin

theorem keyed (he : Effect h f hook f' spans)
    (hk : ∀ spans, f.spans = some spans → spans.Keyed Span.id) :
    ∀ spans, f'.spans = some spans → spans.Keyed Span.id := by
  cases he with
  | late | skipped | held | heldLate | cachedLate | completedHeld | failedUnkept | correlated =>
    exact hk
  | cached | failedHeld => exact Folder.keyed_cache hk _
  | completed => exact Folder.keyed_update hk fun _ => rfl
  | failedLost => exact Folder.keyed_promoted hk
  | finished => exact nofun

theorem closed (he : Effect h f hook f' spans) (hc : f.isOpen = false → f = .closed) :
    f'.isOpen = false → f' = .closed := by
  intro ho
  rcases he.closed_or_isOpen with h' | h'
  · exact h'
  · have hf := hc (h'.symm.trans ho)
    cases he with
    | late | skipped | heldLate | cachedLate | failedUnkept => exact hf
    | held _ ho' | cached _ ho' | completed ho' | completedHeld ho' | failedHeld ho'
    | failedLost ho' | finished ho' | correlated ho' =>
      have : Folder.closed.isOpen = true := hf ▸ ho'
      cases this

theorem sound (he : Effect h f hook f' spans) (hf : f.Sound hook.sessionId) :
    f'.Sound hook.sessionId where
  closed := he.closed hf.closed
  keyed := he.keyed hf.keyed
  own x hx := by
    rcases he.origin (Or.inl hx) with ⟨y, hy, hxy⟩ | ho
    · exact hxy.sessionId.symm.trans (hf.own y hy)
    · exact (Hook.sessionId_of_opened? ho).symm

end Effect

namespace Registry

variable {r : Registry} {hook : Hook} {n : Nat}

/-- What is kept is in order. -/
structure Sound (r : Registry) : Prop where
  numbered : r.Numbered
  folder : ∀ s, (r.folder s).Sound s

theorem sound_empty : empty.Sound := ⟨nofun, fun s => Folder.sound_closed s⟩

theorem sound_put (h : r.Sound) (session : Session) : (r.put session).Sound where
  numbered := numbered_put h.numbered session
  folder s := by
    rw [edits_put h.numbered session s]
    split
    · exact ⟨nofun, (h.folder s).keyed, (h.folder s).own⟩
    · exact h.folder s

/-- **Every hook** keeps a registry sound. -/
theorem sound_body (policy : Policy) (h : r.Sound)
    (hid : ∀ g, r.registration? n = some g → g.session.id = hook.sessionId)
    (hn : r.find? hook.sessionId = some n ∨ r.find? hook.sessionId = none) :
    (hook.body policy n r).registry.Sound where
  numbered := (succeeds_body policy hook n r).numbered h.numbered
  folder s := by
    cases hg : r.registration? n with
    | none =>
      unfold Hook.body
      rw [hg]
      exact h.folder s
    | some g =>
      obtain ⟨f, hf, hedit⟩ := Hook.body_local policy h.numbered hg (hid g hg) hn
      rw [hedit s]
      split
      · rename_i hs
        rw [hs]
        exact hf.sound (h.folder _)
      · exact h.folder s

end Registry

end SpanRelay
