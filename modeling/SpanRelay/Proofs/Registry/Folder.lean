import SpanRelay.Hook
import SpanRelay.Proofs.Map.Keyed

/-! # Folders

A `Folder` is all that a registry keeps for one session. An operation of the registry changes the
folder of its session only (`Registry.Edits`), and `edits_put`, `edits_upsertSpan`, … tell in what
way. -/

namespace SpanRelay

/-- What is kept for one session. -/
structure Folder where
  /-- The registration, as long as the session is registered. -/
  registration : Option Registration
  spans : Option SessionSpans
  slot : Option Span
  executions : Option ExecutionMap

namespace Folder

/-- The folder of a session that is not registered. -/
def closed : Folder := ⟨none, none, none, none⟩

/-- Whether the session is registered. -/
def isOpen (f : Folder) : Bool := f.registration.isSome

/-- A cached span. -/
def get? (f : Folder) (id : String) : Option Span := f.spans.bind fun spans => spans.get? id

/-- The cached spans in their order. -/
def cached (f : Folder) : List Span := f.spans.elim [] Map.Table.values

/-- The spans that are kept, held or cached. -/
def kept (f : Folder) : List Span := f.slot.toList ++ f.cached

/-- The span that should contain a new child. -/
def resolveParent? (f : Folder) (hint : ParentHint) : Option String :=
  f.executions.bind fun executions =>
    SpanRelay.resolveParent? hint executions (f.spans.map Map.Table.values)

/-- The folder with a registration of the session. -/
def register (f : Folder) (session : Session) : Folder :=
  { f with registration := some ⟨session, false⟩ }

/-- The folder with the registration changed. -/
def change (f : Folder) (k : Registration → Registration) : Folder :=
  { f with registration := f.registration.map k }

/-- The folder with the failure flag set. -/
def fail (f : Folder) : Folder := f.change fun g => { g with failureSeen := true }

/-- The folder with a span recorded as the latest of an execution key. -/
def record (f : Folder) (key id : String) : Folder :=
  { f with executions := some ((f.executions.getD .empty).insert key id) }

/-- The folder with a span in the slot. -/
def hold (f : Folder) (span : Span) : Folder := { f with slot := some span }

/-- The folder with the slot empty. -/
def free (f : Folder) : Folder := { f with slot := none }

/-- The folder with a span cached. -/
def cache (f : Folder) (span : Span) : Folder :=
  { f with spans := some ((f.spans.getD .empty).insert span.id span) }

/-- The folder with a cached span changed. -/
def update (f : Folder) (id : String) (k : Span → Span) : Folder :=
  { f with spans := f.spans.map fun spans => spans.modify id k }

/-- The folder with the held span changed, if it has the given id. -/
def updateHeld (f : Folder) (id : String) (k : Span → Span) : Folder :=
  { f with slot := f.slot.map fun span => if span.id = id then k span else span }

/-- The folder with the held span moved to the cached ones. -/
def promoted (f : Folder) : Folder :=
  match f.slot with
  | none => f
  | some span => f.free.cache span

theorem cached_promoted_change (f : Folder) (k : Registration → Registration) :
    (f.change k).promoted.cached = f.promoted.cached := by
  unfold promoted change
  dsimp only
  cases f.slot <;> rfl

@[simp] theorem get?_cache (f : Folder) (span : Span) (id : String) :
    (f.cache span).get? id = if id = span.id then some span else f.get? id := by
  unfold cache get?
  dsimp only
  rw [Option.bind_some, Map.Table.get?_insert]
  cases f.spans <;> rfl

@[simp] theorem get?_update (f : Folder) (id id' : String) (k : Span → Span) :
    (f.update id k).get? id' = if id' = id then (f.get? id).map k else f.get? id' := by
  unfold update get?
  cases f.spans with
  | none => simp
  | some spans => exact Map.Table.get?_modify spans id id' k

end Folder

namespace Registry

variable {r r' r'' : Registry} {s t : String} {n : Nat}

/-- What is kept for a session. -/
def folder (r : Registry) (sessionId : String) : Folder where
  registration := r.get? sessionId
  spans := r.spans.view? sessionId
  slot := r.slots.held? sessionId
  executions := r.executions.get? sessionId

/-- The folders of `r'` are those of `r` but for that of one session, which is changed by `k`. -/
def Edits (r r' : Registry) (s : String) (k : Folder → Folder) : Prop :=
  ∀ t, r'.folder t = if t = s then k (r.folder t) else r.folder t

theorem Edits.trans {k k' : Folder → Folder} (h : r.Edits r' s k) (h' : r'.Edits r'' s k') :
    r.Edits r'' s fun f => k' (k f) := by
  intro t
  rw [h' t, h t]
  by_cases ht : t = s
  · rw [if_pos ht, if_pos ht, if_pos ht]
  · rw [if_neg ht, if_neg ht, if_neg ht]

theorem get?_folder (r : Registry) (s id : String) : (r.folder s).get? id = r.spans.get? s id := rfl

/-- Every session that is registered has a registration, and it is the session's own. -/
def Numbered (r : Registry) : Prop :=
  ∀ s n, r.find? s = some n → ∃ g, r.registration? n = some g ∧ g.session.id = s

theorem isOpen_folder (h : r.Numbered) (s : String) : (r.folder s).isOpen = r.isRegistered s := by
  unfold Folder.isOpen folder get? isRegistered
  cases hf : r.find? s with
  | none => rfl
  | some n =>
    obtain ⟨g, hg, -⟩ := h s n hf
    simp [hg]

/-! ### Starting a session -/

theorem find?_put (r : Registry) (session : Session) (s : String) :
    (r.put session).find? s =
      if s = session.id then some r.registrations.length else r.find? s :=
  Map.Table.get?_insert _ _ _ _

theorem registration?_put_of_lt (session : Session) (h : n < r.registrations.length) :
    (r.put session).registration? n = r.registration? n := List.getElem?_append_left h

theorem registration?_put_length (r : Registry) (session : Session) :
    (r.put session).registration? r.registrations.length = some ⟨session, false⟩ :=
  List.getElem?_concat_length

theorem lt_length_of_registration? {g : Registration} (h : r.registration? n = some g) :
    n < r.registrations.length := (List.getElem?_eq_some_iff.1 h).1

theorem numbered_put (h : r.Numbered) (session : Session) : (r.put session).Numbered := by
  intro s n hn
  rw [find?_put] at hn
  split at hn
  · rename_i hs
    cases hn
    exact ⟨_, registration?_put_length r session, hs.symm⟩
  · obtain ⟨g, hg, hid⟩ := h s n hn
    exact ⟨g, by rw [registration?_put_of_lt session (lt_length_of_registration? hg)]; exact hg, hid⟩

theorem edits_put (h : r.Numbered) (session : Session) :
    r.Edits (r.put session) session.id (·.register session) := by
  intro t
  have hget : (r.put session).get? t =
      if t = session.id then some ⟨session, false⟩ else r.get? t := by
    unfold get?
    rw [find?_put]
    split
    · exact registration?_put_length r session
    · cases hf : r.find? t with
      | none => rfl
      | some n =>
        obtain ⟨g, hg, -⟩ := h t n hf
        exact registration?_put_of_lt session (lt_length_of_registration? hg)
  have hf : (r.put session).folder t =
      { r.folder t with registration := (r.put session).get? t } := rfl
  rw [hf, hget]
  split <;> rfl

/-! ### Changing a registration -/

theorem registration?_modify (r : Registry) (n m : Nat) (k : Registration → Registration) :
    (r.modify n k).registration? m =
      if n = m then (r.registration? m).map k else r.registration? m := by
  unfold registration? modify
  dsimp only
  rw [List.getElem?_modify]
  split
  · rfl
  · simp

theorem edits_modify (h : r.Numbered) {g : Registration} (hg : r.registration? n = some g)
    (hn : r.find? g.session.id = some n ∨ r.find? g.session.id = none)
    (k : Registration → Registration) : r.Edits (r.modify n k) g.session.id (·.change k) := by
  intro t
  have hget : (r.modify n k).get? t =
      if t = g.session.id then (r.get? t).map k else r.get? t := by
    have hfind : (r.modify n k).find? t = r.find? t := rfl
    unfold get?
    rw [hfind]
    by_cases ht : t = g.session.id
    · rw [if_pos ht]
      rcases hn with hn | hn
      · rw [ht, hn, Option.bind_some, Option.bind_some, registration?_modify, if_pos rfl]
      · rw [ht, hn]
        rfl
    · rw [if_neg ht]
      cases hf : r.find? t with
      | none => rfl
      | some m =>
        obtain ⟨g', hg', hid⟩ := h t m hf
        rw [Option.bind_some, Option.bind_some, registration?_modify, if_neg]
        rintro rfl
        rw [hg] at hg'
        cases hg'
        exact ht hid.symm
  have hf : (r.modify n k).folder t =
      { r.folder t with registration := (r.modify n k).get? t } := rfl
  rw [hf, hget]
  split <;> rfl

/-! ### Changing what is kept -/

theorem edits_clear (r : Registry) (s : String) : r.Edits (r.clear s) s fun _ => .closed := by
  intro t
  have hfind : (r.clear s).find? t = if t = s then none else r.find? t :=
    Map.Table.get?_erase _ _ _
  have hget : (r.clear s).get? t = if t = s then none else r.get? t := by
    unfold get?
    rw [hfind]
    split <;> rfl
  have hf : (r.clear s).folder t = {
      registration := (r.clear s).get? t
      spans := (r.spans.sessions.erase s).get? t
      slot := (r.slots.slots.erase s).get? t
      executions := (r.executions.erase s).get? t } := rfl
  rw [hf, hget]
  simp only [Map.Table.get?_erase]
  split <;> rfl

theorem edits_insertSpan (r : Registry) (s : String) (span : Span) :
    r.Edits { r with spans := r.spans.insert s span } s (·.cache span) := by
  intro t
  have hf : { r with spans := r.spans.insert s span }.folder t =
      { r.folder t with spans := (r.spans.insert s span).sessions.get? t } := rfl
  rw [hf, SpanCache.insert, Map.Table.get?_insert]
  by_cases h : t = s
  · rw [if_pos h, if_pos h, h]
    rfl
  · rw [if_neg h, if_neg h]
    rfl

theorem edits_modifySpan (r : Registry) (s id : String) (k : Span → Span) :
    r.Edits { r with spans := r.spans.modify s id k } s (·.update id k) := by
  intro t
  have hf : { r with spans := r.spans.modify s id k }.folder t =
      { r.folder t with spans := (r.spans.modify s id k).sessions.get? t } := rfl
  rw [hf, SpanCache.modify, Map.Table.get?_modify]
  by_cases h : t = s
  · rw [if_pos h, if_pos h, h]
    rfl
  · rw [if_neg h, if_neg h]
    rfl

theorem edits_putSlot (r : Registry) (s : String) (span : Span) :
    r.Edits { r with slots := r.slots.put s span } s (·.hold span) := by
  intro t
  have hf : { r with slots := r.slots.put s span }.folder t =
      { r.folder t with slot := (r.slots.put s span).slots.get? t } := rfl
  rw [hf, SlotCache.put, Map.Table.get?_insert]
  split <;> rfl

theorem edits_clearSlot (r : Registry) (s : String) :
    r.Edits { r with slots := r.slots.clear s } s (·.free) := by
  intro t
  have hf : { r with slots := r.slots.clear s }.folder t =
      { r.folder t with slot := (r.slots.clear s).slots.get? t } := rfl
  rw [hf, SlotCache.clear, Map.Table.get?_erase]
  split <;> rfl

theorem edits_modifySlot (r : Registry) (s id : String) (k : Span → Span) :
    r.Edits { r with slots := r.slots.modify s id k } s (·.updateHeld id k) := by
  intro t
  have hf : { r with slots := r.slots.modify s id k }.folder t =
      { r.folder t with slot := (r.slots.modify s id k).slots.get? t } := rfl
  rw [hf, SlotCache.modify, Map.Table.get?_modify]
  by_cases h : t = s
  · rw [if_pos h, if_pos h, h]
    rfl
  · rw [if_neg h, if_neg h]
    rfl

theorem edits_recordExecution (hs : r.isRegistered s = true) (key id : String) :
    r.Edits (r.recordExecution s key id) s (·.record key id) := by
  intro t
  unfold recordExecution
  rw [if_pos hs]
  have hf : ∀ e, { r with executions := e }.folder t = { r.folder t with executions := e.get? t } :=
    fun _ => rfl
  rw [hf, Map.Table.get?_insert]
  by_cases h : t = s
  · rw [if_pos h, if_pos h, h]
    rfl
  · rw [if_neg h, if_neg h]
    rfl

theorem edits_upsertSpan (hs : r.isRegistered s = true) (span : Span) :
    r.Edits (r.upsertSpan s span) s (·.cache span) := by
  intro t
  unfold upsertSpan
  rw [if_pos hs]
  exact edits_insertSpan r s span t

theorem edits_putLast (hs : r.isRegistered s = true) (span : Span) :
    r.Edits (r.putLast s span) s (·.hold span) := by
  intro t
  unfold putLast
  rw [if_pos hs]
  exact edits_putSlot r s span t

theorem edits_promote (hs : r.isRegistered s = true) :
    r.Edits (r.promote s).1 s (·.promoted) := by
  intro t
  dsimp only
  unfold promote
  cases hslot : r.slots.held? s with
  | none =>
    by_cases h : t = s
    · have hnone : (r.folder t).slot = none := by rw [h]; exact hslot
      rw [if_pos h, Folder.promoted, hnone]
    · rw [if_neg h]
  | some span =>
    dsimp only
    rw [if_pos hs]
    have hedit := (edits_clearSlot r s).trans
      (edits_upsertSpan (r := { r with slots := r.slots.clear s }) hs span)
    rw [hedit t]
    by_cases h : t = s
    · have hsome : (r.folder t).slot = some span := by rw [h]; exact hslot
      rw [if_pos h, if_pos h, Folder.promoted, hsome]
    · rw [if_neg h, if_neg h]

theorem get?_promote (hs : r.isRegistered s = true) :
    ((r.promote s).2.bind fun id => (r.promote s).1.spans.get? s id) = (r.folder s).slot := by
  have hslot : (r.folder s).slot = r.slots.held? s := rfl
  rw [hslot]
  unfold promote
  cases r.slots.held? s with
  | none => rfl
  | some span =>
    dsimp only
    rw [if_pos hs, Option.bind_some, ← get?_folder]
    rw [edits_upsertSpan (r := { r with slots := r.slots.clear s }) hs span s, if_pos rfl,
      Folder.get?_cache, if_pos rfl]

end Registry

end SpanRelay
