import SpanRelay.Proofs.Registry.Effect

/-! # Finished spans

A hook closes or abandons a span before it hands it over, in all cases but one
(`Effect.finished_or_lost`): if at the level ERROR a span fails that is not kept, the one that is
held instead is handed over as it is. So a hook hands over an unfinished span if and only if it
`Exposes` it (`Effect.unfinished_iff`). -/

namespace SpanRelay

namespace Span

theorem isTerminal_abandon (x : Span) : x.abandon.status.isTerminal = true := by
  unfold abandon isInProgress
  by_cases h : x.status = .inProgress
  · simp [h, Status.isTerminal]
  · simp [h, Status.isTerminal]

theorem isTerminal_finalize (x : Span) (stamp : Stamp) :
    (x.finalize stamp).status.isTerminal = true := isTerminal_abandon _

end Span

theorem Outcome.isTerminal_status (o : Outcome) : o.status.isTerminal = true := by
  cases o <;> rfl

/-- The hook reports the failure of a span that is neither cached in the folder nor held in it. -/
def Folder.Loses (f : Folder) (hook : Hook) : Prop :=
  ∃ ref m o now, hook = .after ref m o now ∧ o.isFailure = true ∧ f.get? ref.spanId = none ∧
    ∀ x, f.slot = some x → x.id ≠ ref.spanId

/-- A span in progress is held in the folder of a session at the level ERROR, and the hook reports
the failure of another one that is not kept. -/
structure Folder.Exposes (f : Folder) (hook : Hook) (x : Span) : Prop where
  held : f.slot = some x
  inProgress : x.status.isTerminal = false
  level : ∃ g, f.registration = some g ∧ g.session.level = .error
  loses : f.Loses hook

namespace Effect

variable {h : HookScope} {f f' : Folder} {hook : Hook} {spans : List Span}

/-- **What a hook hands over is finished**, or it is the held span at the failure of one that is not
kept. -/
theorem finished_or_lost (he : Effect h f hook f' spans) :
    (∀ x ∈ spans, x.status.isTerminal = true) ∨
      (h.session.level = .error ∧ f.Loses hook ∧ spans = f.slot.toList) := by
  cases he with
  | late | skipped | held | heldLate | cached | completedHeld | failedUnkept | correlated =>
    exact Or.inl (List.forall_mem_nil _)
  | cachedLate =>
    refine Or.inl fun x hx => ?_
    rw [List.mem_singleton.1 hx]
    exact Span.isTerminal_abandon _
  | @completed ref m o | @failedHeld ref m o =>
    refine Or.inl fun x hx => ?_
    rw [List.mem_singleton.1 hx]
    exact o.isTerminal_status
  | failedLost ho hx hf hs hl => exact Or.inr ⟨hl, ⟨_, _, _, _, rfl, hf, hx, hs⟩, rfl⟩
  | finished =>
    refine Or.inl fun x hx => ?_
    obtain ⟨y, -, rfl⟩ := List.mem_map.1 hx
    exact Span.isTerminal_finalize _ _

/-- The failure of a span that is not kept hands the held one over. -/
theorem spans_of_loses (he : Effect h f hook f' spans) (ho : f.isOpen = true)
    (hl : h.session.level = .error) (hf : f.Loses hook) : spans = f.slot.toList := by
  obtain ⟨ref, m, o, now, rfl, hfails, hnone, hs⟩ := hf
  cases he with
  | late _ hc => exact absurd (ho.symm.trans hc) (by decide)
  | completed _ hx => exact absurd (hnone.symm.trans hx) nofun
  | completedHeld _ _ hn => exact absurd (hfails.symm.trans hn) (by decide)
  | failedHeld _ _ _ hslot hid => exact absurd hid (hs _ hslot)
  | failedLost => rfl
  | failedUnkept _ _ _ _ hn => exact absurd hl hn

/-- **A hook hands over an unfinished span** if and only if it exposes it. -/
theorem unfinished_iff (he : Effect h f hook f' spans) {g : Registration}
    (hg : f.registration = some g) (hs : h.session = g.session) (x : Span) :
    (x ∈ spans ∧ x.status.isTerminal = false) ↔ f.Exposes hook x := by
  constructor
  · rintro ⟨hx, ht⟩
    rcases he.finished_or_lost with hall | ⟨hl, hloses, rfl⟩
    · exact absurd ((hall x hx).symm.trans ht) (by decide)
    · exact ⟨Option.mem_toList.1 hx, ht, ⟨g, hg, hs ▸ hl⟩, hloses⟩
  · rintro ⟨hheld, ht, ⟨g', hg', hl⟩, hloses⟩
    rw [hg] at hg'
    cases hg'
    have ho : f.isOpen = true := by
      rw [Folder.isOpen, hg]
      rfl
    rw [he.spans_of_loses ho (hs ▸ hl) hloses]
    exact ⟨Option.mem_toList.2 hheld, ht⟩

end Effect

end SpanRelay
