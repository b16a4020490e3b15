import SpanRelay.Proofs.Registry.Sound

/-! # Old registrations

A hook may have found a registration that is not the present one any more when it does its work,
because its session was started anew. It then works like one that has found the present registration,
but for the record that it changes: it does the same after its registration was made the present one
(`body_redirect`). So whatever registration of its session a hook has found, it changes nothing of
another session (`folder_body_of_ne`), keeps the registry sound (`sound_body_of_registration`) and
hands over spans of its own session only (`sessionId_of_mem_spans`). -/

namespace SpanRelay

namespace Registry

variable {r : Registry} {s t : String} {n : Nat}

/-- The registry with another registration as the present one of a session, if it is registered. -/
def redirect (r : Registry) (s : String) (n : Nat) : Registry :=
  { r with current := r.current.modify s fun _ => n }

theorem find?_redirect (r : Registry) (s t : String) (n : Nat) :
    (r.redirect s n).find? t = if t = s then (r.find? s).map fun _ => n else r.find? t :=
  Map.Table.get?_modify _ _ _ _

/-- The registration that a session is redirected to is the present one, if it is registered. -/
theorem find?_redirect_self (r : Registry) (s : String) (n : Nat) :
    (r.redirect s n).find? s = some n ∨ (r.redirect s n).find? s = none := by
  rw [find?_redirect, if_pos rfl]
  cases r.find? s
  · exact Or.inr rfl
  · exact Or.inl rfl

@[simp] theorem isRegistered_redirect (r : Registry) (s t : String) (n : Nat) :
    (r.redirect s n).isRegistered t = r.isRegistered t := by
  unfold isRegistered
  rw [find?_redirect]
  split
  · rename_i h
    rw [h, Option.isSome_map]
  · rfl

/-! ### The operations do the same -/

theorem recordExecution_redirect (key id : String) :
    (r.redirect s n).recordExecution t key id = (r.recordExecution t key id).redirect s n := by
  unfold recordExecution
  rw [isRegistered_redirect]
  split <;> rfl

theorem upsertSpan_redirect (span : Span) :
    (r.redirect s n).upsertSpan t span = (r.upsertSpan t span).redirect s n := by
  unfold upsertSpan
  rw [isRegistered_redirect]
  split <;> rfl

theorem putLast_redirect (span : Span) :
    (r.redirect s n).putLast t span = (r.putLast t span).redirect s n := by
  unfold putLast
  rw [isRegistered_redirect]
  split <;> rfl

theorem promote_redirect :
    (r.redirect s n).promote t = ((r.promote t).1.redirect s n, (r.promote t).2) := by
  have hslots : (r.redirect s n).slots = r.slots := rfl
  unfold promote
  rw [hslots, isRegistered_redirect]
  cases r.slots.held? t with
  | none => rfl
  | some span =>
    dsimp only
    split
    · exact congrArg (·, some span.id)
        (upsertSpan_redirect (r := { r with slots := r.slots.clear t }) span)
    · rfl

theorem clear_redirect : (r.redirect s n).clear t = (r.clear t).redirect s n := by
  have hcurrent : (r.current.modify s fun _ => n).erase t =
      (r.current.erase t).modify s fun _ => n := by
    unfold Map.Table.modify Map.Table.erase
    dsimp only
    rw [List.filter_map]
    congr 2
    refine List.filter_congr fun row _ => ?_
    simp only [Function.comp_apply]
    split <;> rfl
  unfold clear redirect
  dsimp only
  rw [hcurrent]

end Registry

/-- The result with another registration as the present one of a session. -/
def HookResult.redirect (result : HookResult) (s : String) (n : Nat) : HookResult :=
  { result with registry := result.registry.redirect s n }

namespace HookScope

open Registry

variable (h : HookScope) {r : Registry} {s t : String} {n : Nat}

theorem before_redirect (b : String) (e : Element) (p : Option ParentHint) (m : Snapshot)
    (now : Timestamp) :
    h.before (r.redirect s n) t b e p m now = (h.before r t b e p m now).redirect s n := by
  have hspan : h.openedSpan (r.redirect s n) t b e p m now = h.openedSpan r t b e p m now := rfl
  unfold before
  split
  · rfl
  dsimp only [keep]
  rw [hspan, recordExecution_redirect, isRegistered_redirect, putLast_redirect, upsertSpan_redirect]
  split
  · rfl
  · rfl
  · split <;> rfl

theorem after_redirect (ref : SpanRef) (m : Snapshot) (o : Outcome) (now : Timestamp) :
    h.after (r.redirect s n) ref m o now = (h.after r ref m o now).redirect s n := by
  have hspans : (r.redirect s n).spans = r.spans := rfl
  have hslots : (r.redirect s n).slots = r.slots := rfl
  have hmark : (r.redirect s n).markFailure h.number = (r.markFailure h.number).redirect s n := rfl
  unfold after
  dsimp only
  rw [isRegistered_redirect, hspans, hslots]
  split
  · rfl
  split
  · rfl
  split
  · rfl
  split
  · exact congrArg (HookResult.done · _) (upsertSpan_redirect (r := Registry.markFailure
      { r with slots := r.slots.clear ref.sessionId } h.number) _)
  split
  · unfold afterLostFailure
    rw [hmark, promote_redirect]
    rfl
  · rfl

theorem finish_redirect (status : Status) (time : Timestamp) (ms : UInt64) :
    h.finish (r.redirect s n) t status time ms = (h.finish r t status time ms).redirect s n := by
  unfold finish
  dsimp only
  rw [isRegistered_redirect]
  split
  · rfl
  -- the record is changed alike, and what follows does not look at it
  have hmodify : ∀ k, (r.redirect s n).modify h.number k = (r.modify h.number k).redirect s n :=
    fun _ => rfl
  rw [hmodify]
  generalize r.modify h.number _ = r'
  have hmark : (r'.redirect s n).markFailure h.number = (r'.markFailure h.number).redirect s n := rfl
  rw [hmark, promote_redirect]
  split
  · exact congrArg (HookResult.done · _) clear_redirect
  · exact congrArg (HookResult.done · _) clear_redirect

theorem correlate_redirect (c : String) :
    h.correlate (r.redirect s n) t c = (h.correlate r t c).redirect s n := by
  unfold correlate
  rw [isRegistered_redirect]
  split <;> rfl

end HookScope

/-- **A hook does the same** whatever registration is the present one. -/
theorem Hook.body_redirect (policy : Policy) (hook : Hook) (number : Nat) (r : Registry) (s : String)
    (n : Nat) :
    hook.body policy number (r.redirect s n) = (hook.body policy number r).redirect s n := by
  have hreg : (r.redirect s n).registration? number = r.registration? number := rfl
  unfold body
  rw [hreg]
  cases r.registration? number with
  | none => rfl
  | some g =>
    dsimp only
    cases hook with
    | before => exact HookScope.before_redirect _ _ _ _ _ _
    | after => exact HookScope.after_redirect _ _ _ _ _
    | finish => exact HookScope.finish_redirect _ _ _ _
    | correlate => exact HookScope.correlate_redirect _ _

/-! ### Sound registries -/

theorem Folder.Sound.withRegistration {f : Folder} {s : String} (h : f.Sound s)
    (registration : Option Registration) (ho : registration.isSome = f.isOpen) :
    { f with registration }.Sound s := by
  refine ⟨fun hc => ?_, h.keyed, h.own⟩
  have hnone : registration = none := Option.isNone_iff_eq_none.1 (Option.isSome_eq_false_iff.1 hc)
  rw [h.closed (ho.symm.trans hc), hnone]
  rfl

namespace Registry

variable {r : Registry} {s t : String} {n : Nat} {hook : Hook} {g : Registration}

theorem folder_redirect (r : Registry) (s t : String) (n : Nat) :
    (r.redirect s n).folder t =
      { r.folder t with registration := (r.redirect s n).get? t } := rfl

theorem folder_redirect_of_ne (h : s ≠ t) : (r.redirect t n).folder s = r.folder s := by
  have hget : (r.redirect t n).get? s = r.get? s := by
    unfold get?
    rw [find?_redirect, if_neg h]
    rfl
  rw [folder_redirect, hget]
  rfl

theorem numbered_redirect (hr : r.Numbered) (hg : r.registration? n = some g)
    (hid : g.session.id = s) : (r.redirect s n).Numbered := by
  intro t m hm
  rw [find?_redirect] at hm
  split at hm
  · rename_i ht
    obtain ⟨-, -, rfl⟩ := Option.map_eq_some_iff.1 hm
    exact ⟨g, hg, hid.trans ht.symm⟩
  · exact hr t m hm

theorem sound_redirect (h : r.Sound) (hg : r.registration? n = some g) (hid : g.session.id = s) :
    (r.redirect s n).Sound := by
  have hr' := numbered_redirect h.numbered hg hid
  refine ⟨hr', fun t => (h.folder t).withRegistration _ ?_⟩
  have hopen := isOpen_folder hr' t
  rw [isRegistered_redirect, ← isOpen_folder h.numbered] at hopen
  exact hopen

theorem sound_of_redirect (h : (r.redirect s n).Sound) (hr : r.Numbered) : r.Sound := by
  refine ⟨hr, fun t => (h.folder t).withRegistration (r.get? t) ?_⟩
  have hopen := isOpen_folder hr t
  rw [← isRegistered_redirect r s t n, ← isOpen_folder h.numbered] at hopen
  exact hopen

/-! ### Hooks with any registration of their session -/

section Body

variable (policy : Policy) (hg : r.registration? n = some g) (hid : g.session.id = hook.sessionId)
include hg hid

/-- **What a hook does**, whatever registration of its session it has found: it has an effect on the
folder of its session after this registration was made the present one. -/
theorem exists_effect_of_registration (hr : r.Numbered) :
    ∃ f, Effect ⟨policy, n, g.session, g.failureSeen⟩
        ((r.redirect hook.sessionId n).folder hook.sessionId) hook f (hook.body policy n r).spans ∧
      ∀ t, ((hook.body policy n r).registry.redirect hook.sessionId n).folder t =
        if t = hook.sessionId then f else (r.redirect hook.sessionId n).folder t := by
  have hlocal := Hook.body_local policy (r := r.redirect hook.sessionId n)
    (numbered_redirect hr hg hid) hg hid (find?_redirect_self r hook.sessionId n)
  rw [Hook.body_redirect] at hlocal
  exact hlocal

/-- **A hook changes nothing of another session.** -/
theorem folder_body_of_ne (hr : r.Numbered) (hs : s ≠ hook.sessionId) :
    (hook.body policy n r).registry.folder s = r.folder s := by
  obtain ⟨f, -, hedit⟩ := exists_effect_of_registration policy hg hid hr
  have h := hedit s
  rwa [if_neg hs, folder_redirect_of_ne hs, folder_redirect_of_ne hs] at h

theorem sound_body_of_registration (hr : r.Sound) : (hook.body policy n r).registry.Sound := by
  have hbody : (hook.body policy n (r.redirect hook.sessionId n)).registry.Sound :=
    sound_body policy (sound_redirect hr hg hid) (fun g' hg' => by
      have hsame : some g = some g' := hg.symm.trans hg'
      cases hsame
      exact hid) (find?_redirect_self r hook.sessionId n)
  rw [Hook.body_redirect] at hbody
  exact sound_of_redirect hbody ((succeeds_body policy hook n r).numbered hr.numbered)

theorem origin_body_of_registration (hr : r.Numbered) {x : Span}
    (hx : x ∈ (hook.body policy n r).spans ∨
      ∃ s, x ∈ ((hook.body policy n r).registry.folder s).kept) :
    (∃ s, ∃ y ∈ (r.folder s).kept, y.id = x.id ∧ y.sessionId = x.sessionId) ∨
      hook.opened? = some ⟨x.sessionId, x.id⟩ := by
  obtain ⟨f, heff, hedit⟩ := exists_effect_of_registration policy hg hid hr
  -- the spans that are kept do not depend on the registration
  have horigin : x ∈ f.kept ∨ x ∈ (hook.body policy n r).spans →
      (∃ s, ∃ y ∈ (r.folder s).kept, y.id = x.id ∧ y.sessionId = x.sessionId) ∨
        hook.opened? = some ⟨x.sessionId, x.id⟩ := fun h =>
    (heff.origin h).imp_left fun ⟨y, hy, hxy⟩ => ⟨hook.sessionId, y, hy, hxy.id, hxy.sessionId⟩
  rcases hx with hx | ⟨s, hx⟩
  · exact horigin (Or.inr hx)
  · have hx' : x ∈ (((hook.body policy n r).registry.redirect hook.sessionId n).folder s).kept := hx
    rw [hedit s] at hx'
    split at hx'
    · exact horigin (Or.inl hx')
    · exact Or.inl ⟨s, x, hx', rfl, rfl⟩

/-- **A hook hands over spans of its session only.** -/
theorem sessionId_of_mem_spans (hr : r.Sound) {x : Span} (hx : x ∈ (hook.body policy n r).spans) :
    x.sessionId = hook.sessionId := by
  obtain ⟨f, heff, -⟩ := exists_effect_of_registration policy hg hid hr.numbered
  rcases heff.origin (Or.inr hx) with ⟨y, hy, hxy⟩ | ho
  · exact hxy.sessionId.symm.trans ((hr.folder hook.sessionId).own y hy)
  · exact (Hook.sessionId_of_opened? ho).symm

end Body

end Registry

end SpanRelay
