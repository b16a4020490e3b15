import SpanRelay.Hook

/-! # What hooks do not retain

Two hooks that are the same but for the bodies and contexts of their snapshots do the same work, if
the level of the session or the policy forbids to retain anything in which the snapshots differ
(`Hook.body_eq_of_conceals`): the snapshot is filtered before anything else looks at it. -/

namespace SpanRelay

/-! ### Snapshots -/

instance {α : Type} [DecidableEq α] : DecidableEq (Map.Sorted α) := fun s t =>
  decidable_of_iff (s.entries = t.entries) ⟨Map.Sorted.eq_of_entries_eq, congrArg _⟩

namespace Snapshot

variable {level : Level} {captureBody : Bool} {s t : Snapshot}

/-- The snapshot without body and context. -/
def veiled (s : Snapshot) : Snapshot := { s with body := none, context := none }

/-- Of two snapshots that are the same but for body and context, nothing that differs may be
retained: `info` keeps neither, and elsewhere only bodies differ and none may be captured. -/
def Conceals (level : Level) (captureBody : Bool) (s t : Snapshot) : Prop :=
  level = .info ∨ (s.context = t.context ∧ (captureBody = false ∨ s.body = t.body))

instance : Decidable (Conceals level captureBody s t) :=
  inferInstanceAs (Decidable
    (level = .info ∨ (s.context = t.context ∧ (captureBody = false ∨ s.body = t.body))))

/-- **The same is retained** of both. -/
theorem filtered_eq_of_conceals (hv : s.veiled = t.veiled) (h : Conceals level captureBody s t) :
    s.filtered level captureBody = t.filtered level captureBody := by
  obtain ⟨body, headers, properties, context⟩ := s
  obtain ⟨body', headers', properties', context'⟩ := t
  simp only [veiled, Snapshot.mk.injEq, true_and, and_true] at hv
  obtain ⟨rfl, rfl⟩ := hv
  rcases h with rfl | ⟨hc, hb⟩
  · rfl
  · dsimp only at hc hb
    subst hc
    rcases hb with rfl | rfl
    · cases level <;> rfl
    · rfl

end Snapshot

/-! ### Kept spans -/

theorem Map.Table.modify_congr {κ α : Type} [DecidableEq κ] {t : Map.Table κ α} {key : κ}
    {f g : α → α} (h : ∀ row ∈ t.rows, row.1 = key → f row.2 = g row.2) :
    t.modify key f = t.modify key g := by
  unfold modify
  rw [Table.mk.injEq]
  refine List.map_congr_left fun row hrow => ?_
  split
  · rename_i hk
    rw [h row hrow hk]
  · rfl

namespace Registry

/-- The spans that are kept for the session of a handle under the id of it. -/
def keptAs (r : Registry) (ref : SpanRef) : List Span :=
  let cached := (r.spans.sessions.rows.filter fun row => row.1 = ref.sessionId).flatMap fun row =>
    row.2.rows.filter fun row => row.1 = ref.spanId
  let held := r.slots.slots.rows.filter fun row => row.1 = ref.sessionId ∧ row.2.id = ref.spanId
  cached.map Prod.snd ++ held.map Prod.snd

variable {r : Registry} {ref : SpanRef} {complete complete' : Span → Span}

theorem modify_spans_congr (h : ∀ span ∈ r.keptAs ref, complete span = complete' span) :
    r.spans.modify ref.sessionId ref.spanId complete =
      r.spans.modify ref.sessionId ref.spanId complete' := by
  unfold SpanCache.modify
  refine congrArg SpanCache.mk (Map.Table.modify_congr fun row hrow hs => ?_)
  refine Map.Table.modify_congr fun row' hrow' hid => h row'.2 ?_
  refine List.mem_append_left _ (List.mem_map_of_mem (List.mem_flatMap.2 ⟨row, ?_, ?_⟩))
  · exact List.mem_filter.2 ⟨hrow, decide_eq_true hs⟩
  · exact List.mem_filter.2 ⟨hrow', decide_eq_true hid⟩

theorem mem_keptAs_of_held {span : Span} (hs : (ref.sessionId, span) ∈ r.slots.slots.rows)
    (hid : span.id = ref.spanId) : span ∈ r.keptAs ref :=
  List.mem_append_right _ (List.mem_map_of_mem (f := Prod.snd) (List.mem_filter.2
    ⟨hs, decide_eq_true ⟨rfl, hid⟩⟩))

theorem modify_slots_congr (h : ∀ span ∈ r.keptAs ref, complete span = complete' span) :
    r.slots.modify ref.sessionId ref.spanId complete =
      r.slots.modify ref.sessionId ref.spanId complete' := by
  unfold SlotCache.modify
  refine congrArg SlotCache.mk (Map.Table.modify_congr fun row hrow hs => ?_)
  split
  · rename_i hid
    exact h row.2 (mem_keptAs_of_held (hs ▸ hrow) hid)
  · rfl

theorem mem_keptAs_of_heldAs? {span : Span}
    (h : r.slots.heldAs? ref.sessionId ref.spanId = some span) : span ∈ r.keptAs ref := by
  obtain ⟨hheld, hid⟩ := Option.filter_eq_some_iff.1 h
  exact mem_keptAs_of_held (Map.Table.mem_rows_of_get? hheld) (of_decide_eq_true hid)

/-- What a registration does not retain of two snapshots that a hook is given for an element. -/
def Conceals (r : Registry) (policy : Policy) (number : Nat) (elementId : String) (s t : Snapshot) :
    Prop :=
  ∀ g ∈ r.registration? number,
    Snapshot.Conceals g.session.level (policy.capturePayload g.session.chainId elementId) s t

instance {policy : Policy} {number : Nat} {elementId : String} {s t : Snapshot} :
    Decidable (r.Conceals policy number elementId s t) :=
  inferInstanceAs (Decidable (∀ g ∈ r.registration? number, Snapshot.Conceals g.session.level
    (policy.capturePayload g.session.chainId elementId) s t))

end Registry

/-! ### Hooks -/

namespace Hook

/-- The hook with neither body nor context in its snapshot. -/
def veiled : Hook → Hook
  | before sessionId spanId element parent payload now =>
    before sessionId spanId element parent payload.veiled now
  | after ref payload outcome now => after ref payload.veiled outcome now
  | finish sessionId status finished durationMs => finish sessionId status finished durationMs
  | correlate sessionId correlationId => correlate sessionId correlationId

/-- The registration that two hooks work with retains nothing in which their snapshots differ: at
the element that is about to be executed, or at that of the span which has ended. -/
def Conceals (policy : Policy) (r : Registry) (number : Nat) : Hook → Hook → Prop
  | before _ _ element _ s _, before _ _ _ _ t _ => r.Conceals policy number element.elementId s t
  | after ref s _ _, after _ t _ _ =>
    ∀ span ∈ r.keptAs ref, r.Conceals policy number span.elementId s t
  | _, _ => True

instance (policy : Policy) (r : Registry) (number : Nat) :
    (hook hook' : Hook) → Decidable (hook.Conceals policy r number hook')
  | before _ _ element _ s _, before _ _ _ _ t _ =>
    inferInstanceAs (Decidable (r.Conceals policy number element.elementId s t))
  | after ref s _ _, after _ t _ _ =>
    inferInstanceAs (Decidable (∀ span ∈ r.keptAs ref, r.Conceals policy number span.elementId s t))
  | before .., after .. | before .., finish .. | before .., correlate .. | after .., before ..
  | after .., finish .. | after .., correlate .. | finish .., _ | correlate .., _ => .isTrue trivial

variable {policy : Policy} {r : Registry} {number : Nat} {hook hook' : Hook}

theorem sessionId_eq_of_veiled (h : hook.veiled = hook'.veiled) : hook.sessionId = hook'.sessionId := by
  have hveiled : ∀ hook : Hook, hook.veiled.sessionId = hook.sessionId := by rintro (_ | _ | _ | _) <;> rfl
  rw [← hveiled hook, h, hveiled hook']

theorem after_eq_of_conceals {h : HookScope} {ref : SpanRef} {s t : Snapshot} {outcome : Outcome}
    {now : Timestamp} (hr : ∀ span ∈ r.keptAs ref, h.retained span.elementId s = h.retained span.elementId t) :
    h.after r ref s outcome now = h.after r ref t outcome now := by
  have hcomplete : ∀ span ∈ r.keptAs ref, h.completed s outcome now span = h.completed t outcome now span := by
    intro span hspan
    unfold HookScope.completed
    rw [hr span hspan]
  unfold HookScope.after HookScope.afterCached
  dsimp only
  rw [Registry.modify_spans_congr hcomplete, Registry.modify_slots_congr hcomplete]
  cases hheld : r.slots.heldAs? ref.sessionId ref.spanId with
  | none => rfl
  | some held =>
    dsimp only
    rw [hcomplete held (Registry.mem_keptAs_of_heldAs? hheld)]

/-- **Both hooks do the same work.** -/
theorem body_eq_of_conceals (hv : hook.veiled = hook'.veiled)
    (h : hook.Conceals policy r number hook') : hook.body policy number r = hook'.body policy number r := by
  unfold body
  cases hg : r.registration? number with
  | none => rfl
  | some g =>
    dsimp only
    cases hook with
    | before sessionId spanId element parent s now =>
      cases hook' with
      | before _ _ _ _ t _ =>
        simp only [veiled, before.injEq] at hv
        obtain ⟨rfl, rfl, rfl, rfl, hv, rfl⟩ := hv
        have hr := Snapshot.filtered_eq_of_conceals hv (h g hg)
        unfold HookScope.before HookScope.openedSpan HookScope.retained
        dsimp only
        rw [hr]
      | after | finish | correlate => cases hv
    | after ref s outcome now =>
      cases hook' with
      | after _ t _ _ =>
        simp only [veiled, after.injEq] at hv
        obtain ⟨rfl, hv, rfl, rfl⟩ := hv
        exact after_eq_of_conceals fun span hspan =>
          Snapshot.filtered_eq_of_conceals hv (h span hspan g hg)
      | before | finish | correlate => cases hv
    | finish =>
      cases hook' with
      | finish =>
        cases hv
        rfl
      | before | after | correlate => cases hv
    | correlate =>
      cases hook' with
      | correlate =>
        cases hv
        rfl
      | before | after | finish => cases hv

end Hook

end SpanRelay
