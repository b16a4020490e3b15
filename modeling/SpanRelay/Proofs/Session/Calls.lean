import SpanRelay.Proofs.Registry.Sound
import SpanRelay.Simulation.Plan

/-! # Calls

A session starts and hooks are called, one after the other: `Registry.calls` is the registry that
they leave and `Registry.handed` the spans that they hand over to be written. `call_cases` tells what
one call does to the folder of a session. Where a span can come from is told by its id: a registry
that `Lacks` an id hands no span of it over until a hook opens one (`lacks_calls`), and every span is
one that was opened while its session was going on (`openedIn_handed`). -/

namespace SpanRelay

namespace Call

/-- The session that is started. -/
def started? : Call → Option String
  | start s _ => some s.sessionId
  | hook _ => none

/-- The handle of the span that is opened. -/
def opened? : Call → Option SpanRef
  | start .. => none
  | hook h => h.opened?

/-- Whether a call is a hook of a session. -/
def isOf (s : String) : Call → Bool
  | start .. => false
  | hook h => h.sessionId = s

/-- Whether a call ends a session. -/
def ends (s : String) : Call → Bool
  | start .. => false
  | hook h => h.ends s

/-- The outcome that a call reports for a span. -/
def outcome? (ref : SpanRef) : Call → Option Outcome
  | hook (.after ref' _ outcome _) => if ref' = ref then some outcome else none
  | start .. | hook _ => none

/-- The correlation id that a call gives to a session. -/
def correlation? (s : String) : Call → Option String
  | hook (.correlate sessionId correlationId) => if sessionId = s then some correlationId else none
  | start .. | hook _ => none

end Call

namespace Registry

/-- The registry after a call, and the spans handed over. A session whose chain is not traced is not
registered, and `sample` is the sampling decision for the number that it has drawn. -/
def call (policy : Policy) (sample : UInt64 → Bool) (r : Registry) : Call → Registry × List Span
  | .start s draw =>
    let level := policy.sessionLevel s.chainId
    (if level = .off then r else r.put (.start s level (sample draw)), [])
  | .hook hook =>
    let result := hook.run policy r
    (result.registry, result.spans)

/-- The registry after some calls. -/
def calls (policy : Policy) (sample : UInt64 → Bool) (r : Registry) (cs : List Call) : Registry :=
  cs.foldl (fun r c => (r.call policy sample c).1) r

/-- The spans handed over by some calls. -/
def handed (policy : Policy) (sample : UInt64 → Bool) : Registry → List Call → List Span
  | _, [] => []
  | r, c :: cs => (r.call policy sample c).2 ++ handed policy sample (r.call policy sample c).1 cs

/-- No session is started while it is registered. -/
def Fresh (policy : Policy) (sample : UInt64 → Bool) : Registry → List Call → Prop
  | _, [] => True
  | r, c :: cs =>
    (∀ s, c.started? = some s → r.isRegistered s = false) ∧
      Fresh policy sample (r.call policy sample c).1 cs

variable {policy : Policy} {sample : UInt64 → Bool} {r : Registry} {s b : String}

theorem calls_append (cs ds : List Call) :
    r.calls policy sample (cs ++ ds) = (r.calls policy sample cs).calls policy sample ds :=
  List.foldl_append

theorem handed_append : ∀ (cs ds : List Call) (r : Registry),
    r.handed policy sample (cs ++ ds) =
      r.handed policy sample cs ++ (r.calls policy sample cs).handed policy sample ds
  | [], _, _ => rfl
  | c :: cs, ds, r => by
    rw [List.cons_append, handed, handed, List.append_assoc, handed_append cs ds]
    rfl

theorem fresh_append : ∀ (cs ds : List Call) {r : Registry},
    Fresh policy sample r (cs ++ ds) →
      Fresh policy sample r cs ∧ Fresh policy sample (r.calls policy sample cs) ds
  | [], _, _, h => ⟨trivial, h⟩
  | _ :: cs, ds, _, h => by
    obtain ⟨h1, h2⟩ := fresh_append cs ds h.2
    exact ⟨⟨h.1, h1⟩, h2⟩

/-! ### One call -/

/-- What a hook does that is called: it finds nothing, or it has an effect on the folder of its
session. -/
theorem run_cases (hr : r.Sound) (policy : Policy) (hook : Hook) :
    ((r.folder hook.sessionId).isOpen = false ∧ (hook.run policy r).registry = r ∧
      (hook.run policy r).spans = []) ∨
    ∃ h g f, (r.folder hook.sessionId).registration = some g ∧ h.session = g.session ∧
      h.failureSeen = g.failureSeen ∧
      Effect h (r.folder hook.sessionId) hook f (hook.run policy r).spans ∧
      ∀ t, (hook.run policy r).registry.folder t =
        if t = hook.sessionId then f else r.folder t := by
  unfold Hook.run
  cases hf : hook.find? r with
  | none =>
    refine Or.inl ⟨?_, rfl, rfl⟩
    rw [isOpen_folder hr.numbered, isRegistered, show r.find? hook.sessionId = none from hf]
    rfl
  | some n =>
    have hfind : r.find? hook.sessionId = some n := hf
    obtain ⟨g, hg, hid⟩ := hr.numbered _ _ hfind
    obtain ⟨f, heff, hedit⟩ := Hook.body_local policy hr.numbered hg hid (Or.inl hfind)
    have hreg : (r.folder hook.sessionId).registration = some g := by
      change (r.find? hook.sessionId).bind r.registration? = some g
      rw [hfind]
      exact hg
    exact Or.inr ⟨_, g, f, hreg, rfl, rfl, heff, hedit⟩

theorem sound_run (hr : r.Sound) (policy : Policy) (hook : Hook) :
    (hook.run policy r).registry.Sound := by
  unfold Hook.run
  cases hf : hook.find? r with
  | none => exact hr
  | some n =>
    have hfind : r.find? hook.sessionId = some n := hf
    refine sound_body policy hr (fun g hg => ?_) (Or.inl hfind)
    obtain ⟨g', hg', hid⟩ := hr.numbered _ _ hfind
    rw [hg'] at hg
    cases hg
    exact hid

theorem sound_call (hr : r.Sound) (c : Call) : (r.call policy sample c).1.Sound := by
  cases c with
  | start s draw =>
    dsimp only [call]
    split
    · exact hr
    · exact sound_put hr _
  | hook h => exact sound_run hr policy h

theorem sound_calls (cs : List Call) (hr : r.Sound) : (r.calls policy sample cs).Sound := by
  induction cs generalizing r with
  | nil => exact hr
  | cons c cs ih => exact ih (sound_call hr c)

/-- **What a call does to the folder of a session that is registered**, if it does not start it
again. -/
theorem call_cases (hr : r.Sound) {c : Call} (hc : c.started? = some s → r.isRegistered s = false)
    (ho : (r.folder s).isOpen = true) :
    (c.isOf s = false ∧ (r.call policy sample c).1.folder s = r.folder s) ∨
    ∃ hook h g, c = .hook hook ∧ hook.sessionId = s ∧ (r.folder s).registration = some g ∧
      h.session = g.session ∧ h.failureSeen = g.failureSeen ∧
      Effect h (r.folder s) hook ((r.call policy sample c).1.folder s)
        (r.call policy sample c).2 := by
  cases c with
  | start st draw =>
    refine Or.inl ⟨rfl, ?_⟩
    dsimp only [call]
    split
    · rfl
    · rw [edits_put hr.numbered, if_neg]
      rintro rfl
      rw [isOpen_folder hr.numbered] at ho
      exact absurd ((hc rfl).symm.trans ho) (by decide)
  | hook hook =>
    by_cases hs : hook.sessionId = s
    · subst hs
      rcases run_cases hr policy hook with ⟨hclosed, -, -⟩ | ⟨h, g, f, hreg, hsess, hflag, heff, hedit⟩
      · exact absurd (hclosed.symm.trans ho) (by decide)
      · refine Or.inr ⟨hook, h, g, rfl, rfl, hreg, hsess, hflag, ?_⟩
        have := hedit hook.sessionId
        rw [if_pos rfl] at this
        dsimp only [call]
        rw [this]
        exact heff
    · refine Or.inl ⟨decide_eq_false hs, ?_⟩
      rcases run_cases hr policy hook with ⟨-, hsame, -⟩ | ⟨h, g, f, -, -, -, -, hedit⟩
      · exact congrArg (fun r => r.folder s) hsame
      · exact (hedit s).trans (if_neg (Ne.symm hs))

/-! ### Where spans come from -/

/-- A span that is kept after a call or handed over by it was kept before, or was made by the call of
what its session kept. -/
theorem made_call (hr : r.Sound) {c : Call} {x : Span}
    (hx : (∃ t, x ∈ ((r.call policy sample c).1.folder t).kept) ∨ x ∈ (r.call policy sample c).2) :
    (∃ t, x ∈ (r.folder t).kept) ∨ ∃ hook h, c = .hook hook ∧ r.isRegistered hook.sessionId = true ∧
      Effect.Made h (r.folder hook.sessionId) hook x := by
  cases c with
  | start st draw =>
    dsimp only [call] at hx
    rcases hx with ⟨t, hx⟩ | hx
    · refine Or.inl ⟨t, ?_⟩
      split at hx
      · exact hx
      · rw [edits_put hr.numbered] at hx
        split at hx <;> exact hx
    · exact absurd hx List.not_mem_nil
  | hook hook =>
    dsimp only [call] at hx
    rcases run_cases hr policy hook with ⟨-, hsame, hnil⟩ | ⟨h, g, f, hreg, -, -, heff, hedit⟩
    · rw [hsame, hnil] at hx
      exact Or.inl (hx.resolve_right List.not_mem_nil)
    · have hopen : r.isRegistered hook.sessionId = true := by
        rw [← isOpen_folder hr.numbered, Folder.isOpen, hreg]
        rfl
      rcases hx with ⟨t, hx⟩ | hx
      · rw [hedit t] at hx
        split at hx
        · exact Or.inr ⟨hook, h, rfl, hopen, heff.made (Or.inl hx)⟩
        · exact Or.inl ⟨t, hx⟩
      · exact Or.inr ⟨hook, h, rfl, hopen, heff.made (Or.inr hx)⟩

/-- A span that is kept after a call or handed over by it was kept before or is the one that the call
opens. -/
theorem origin_call (hr : r.Sound) {c : Call} {x : Span}
    (hx : (∃ t, x ∈ ((r.call policy sample c).1.folder t).kept) ∨ x ∈ (r.call policy sample c).2) :
    (∃ y ∈ (r.folder x.sessionId).kept, x.VersionOf y) ∨
      (c.opened? = some ⟨x.sessionId, x.id⟩ ∧ r.isRegistered x.sessionId = true) := by
  rcases made_call hr hx with ⟨t, hx⟩ | ⟨hook, h, rfl, hreg, hmade⟩
  · rw [(hr.folder t).own x hx]
    exact Or.inl ⟨x, hx, .refl x⟩
  · rcases hmade.origin with ⟨y, hy, hxy⟩ | ho
    · have hs := (hr.folder _).own y hy
      rw [hxy.sessionId] at hs
      rw [hs]
      exact Or.inl ⟨y, hy, hxy⟩
    · rw [Hook.sessionId_of_opened? ho] at hreg
      exact Or.inr ⟨ho, hreg⟩

theorem isOf_of_mem_handed (hr : r.Sound) {c : Call} {x : Span}
    (hx : x ∈ (r.call policy sample c).2) : c.isOf x.sessionId = true := by
  cases c with
  | start => exact absurd hx List.not_mem_nil
  | hook hook =>
    dsimp only [call] at hx
    rcases run_cases hr policy hook with ⟨-, -, hnil⟩ | ⟨h, g, f, -, -, -, heff, -⟩
    · rw [hnil] at hx
      exact absurd hx List.not_mem_nil
    · refine decide_eq_true ?_
      rcases heff.origin (Or.inr hx) with ⟨y, hy, hxy⟩ | ho
      · exact ((hr.folder _).own y hy).symm.trans hxy.sessionId
      · exact Hook.sessionId_of_opened? ho

/-- No span of an id is kept. -/
def Lacks (r : Registry) (b : String) : Prop := ∀ t, ∀ x ∈ (r.folder t).kept, x.id ≠ b

/-- A span of an id is kept for one session at most. -/
def Confines (r : Registry) (b s : String) : Prop :=
  ∀ t, t ≠ s → ∀ x ∈ (r.folder t).kept, x.id ≠ b

theorem lacks_empty (b : String) : empty.Lacks b := fun _ _ hx => absurd hx List.not_mem_nil

theorem Lacks.confines (h : r.Lacks b) (s : String) : r.Confines b s := fun t _ => h t

/-- A property that what a call makes has if all that is kept has it. -/
def Passes (P : Span → Prop) (c : Call) : Prop :=
  ∀ hook, c = .hook hook → ∀ h f, (∀ y ∈ Folder.kept f, P y) → ∀ x, Effect.Made h f hook x → P x

/-- **What is true of all that is kept** is true of all that is kept after a call or handed over by
it, if it is true of what the call makes. -/
theorem forall_call {P : Span → Prop} (hr : r.Sound) (h : ∀ t, ∀ x ∈ (r.folder t).kept, P x)
    {c : Call} (hc : Passes P c) :
    (∀ t, ∀ x ∈ ((r.call policy sample c).1.folder t).kept, P x) ∧
      ∀ x ∈ (r.call policy sample c).2, P x := by
  have hx : ∀ x, (∃ t, x ∈ ((r.call policy sample c).1.folder t).kept) ∨
      x ∈ (r.call policy sample c).2 → P x := by
    intro x hx
    rcases made_call hr hx with ⟨t, hx⟩ | ⟨hook, scope, hhook, -, hmade⟩
    · exact h t x hx
    · exact hc hook hhook scope _ (h _) x hmade
  exact ⟨fun t x ht => hx x (Or.inl ⟨t, ht⟩), fun x ht => hx x (Or.inr ht)⟩

theorem forall_calls {P : Span → Prop} (cs : List Call) (hr : r.Sound)
    (h : ∀ t, ∀ x ∈ (r.folder t).kept, P x) (hc : ∀ c ∈ cs, Passes P c) :
    (∀ t, ∀ x ∈ ((r.calls policy sample cs).folder t).kept, P x) ∧
      ∀ x ∈ r.handed policy sample cs, P x := by
  induction cs generalizing r with
  | nil => exact ⟨h, fun _ hx => absurd hx List.not_mem_nil⟩
  | cons c cs ih =>
    obtain ⟨h1, h2⟩ := forall_call hr h (hc c List.mem_cons_self)
    obtain ⟨h3, h4⟩ := ih (sound_call hr c) h1 fun d hd => hc d (List.mem_cons_of_mem _ hd)
    refine ⟨h3, fun x hx => ?_⟩
    rcases List.mem_append.1 hx with hx | hx
    · exact h2 x hx
    · exact h4 x hx

theorem passes_of_not_opened {P : Span → Prop} {c : Call}
    (hP : ∀ x y : Span, x.VersionOf y → P y → P x)
    (hc : ∀ ref, c.opened? = some ref → ref.spanId ≠ b) : Passes (fun x => x.id = b → P x) c := by
  rintro hook rfl h f hkept x hmade hb
  rcases hmade.origin with ⟨y, hy, hxy⟩ | ho
  · exact hP x y hxy (hkept y hy (hxy.id.trans hb))
  · exact absurd hb (hc _ ho)

theorem lacks_calls (cs : List Call) (hr : r.Sound) (h : r.Lacks b)
    (hc : ∀ c ∈ cs, ∀ ref, c.opened? = some ref → ref.spanId ≠ b) :
    (r.calls policy sample cs).Lacks b ∧ ∀ x ∈ r.handed policy sample cs, x.id ≠ b :=
  forall_calls cs hr h fun c hmem => passes_of_not_opened (fun _ _ _ hy => hy) (hc c hmem)

theorem confines_call (hr : r.Sound) (h : r.Confines b s) {c : Call}
    (hc : ∀ ref, c.opened? = some ref → ref.spanId = b → ref.sessionId = s) :
    (r.call policy sample c).1.Confines b s ∧
      ∀ x ∈ (r.call policy sample c).2, c.isOf s = false → x.id ≠ b := by
  have hx : ∀ x, (∃ t, x ∈ ((r.call policy sample c).1.folder t).kept) ∨
      x ∈ (r.call policy sample c).2 → x.sessionId ≠ s → x.id ≠ b := by
    rintro x hx hs rfl
    rcases origin_call hr hx with ⟨y, hy, hxy⟩ | ⟨ho, -⟩
    · exact h _ hs y hy hxy.id
    · exact hs (hc _ ho rfl)
  refine ⟨fun t ht x hx' => hx x (Or.inl ⟨t, hx'⟩) ?_, fun x hx' hof => hx x (Or.inr hx') ?_⟩
  · rw [((sound_call hr c).folder t).own x hx']
    exact ht
  · rintro rfl
    exact absurd (hof.symm.trans (isOf_of_mem_handed hr hx')) (by decide)

end Registry

/-! ### Sessions that go on -/

/-- A session was started and has not ended since. -/
def Ongoing (cs : List Call) (s : String) : Prop :=
  ∃ before start draw since, cs = before ++ .start start draw :: since ∧ start.sessionId = s ∧
    ∀ c ∈ since, c.ends s = false

/-- A span was opened in a session that was going on. -/
def OpenedIn (cs : List Call) (ref : SpanRef) : Prop :=
  ∃ before c since, cs = before ++ c :: since ∧ c.opened? = some ref ∧ Ongoing before ref.sessionId

theorem OpenedIn.append {cs : List Call} {ref : SpanRef} (h : OpenedIn cs ref) (ds : List Call) :
    OpenedIn (cs ++ ds) ref := by
  obtain ⟨before, c, since, rfl, hc, ho⟩ := h
  exact ⟨before, c, since ++ ds, by simp, hc, ho⟩

theorem Ongoing.concat {cs : List Call} {s : String} (h : Ongoing cs s) {c : Call}
    (hc : c.ends s = false) : Ongoing (cs ++ [c]) s := by
  obtain ⟨before, start, draw, since, rfl, hs, hsince⟩ := h
  refine ⟨before, start, draw, since ++ [c], by simp, hs, fun d hd => ?_⟩
  rcases List.mem_append.1 hd with hd | hd
  · exact hsince d hd
  · rw [List.mem_singleton.1 hd]
    exact hc

namespace Registry

variable {policy : Policy} {sample : UInt64 → Bool} {r : Registry} {s b : String}

/-- A session that is registered after a call was so before, or is started by it. -/
theorem isRegistered_call (hr : r.Sound) {c : Call}
    (h : (r.call policy sample c).1.isRegistered s = true) :
    (r.isRegistered s = true ∧ c.ends s = false) ∨
      ∃ start draw, c = .start start draw ∧ start.sessionId = s := by
  cases c with
  | start start draw =>
    dsimp only [call] at h
    split at h
    · exact Or.inl ⟨h, rfl⟩
    · rw [isRegistered, find?_put] at h
      split at h
      · rename_i hs
        exact Or.inr ⟨start, draw, rfl, hs.symm⟩
      · exact Or.inl ⟨h, rfl⟩
  | hook hook =>
    dsimp only [call] at h
    rw [← isOpen_folder (sound_run hr policy hook).numbered] at h
    rw [← isOpen_folder hr.numbered]
    refine Or.inl ?_
    have hrun := run_cases hr policy hook
    by_cases hs : hook.sessionId = s
    · subst hs
      rcases hrun with ⟨hclosed, hsame, -⟩ | ⟨h', g, f, -, -, -, heff, hedit⟩
      · rw [hsame] at h
        exact absurd (hclosed.symm.trans h) (by decide)
      · rw [hedit, if_pos rfl] at h
        exact heff.isOpen_of_isOpen h
    · have hends : hook.ends s = false :=
        Bool.eq_false_iff.2 fun he => hs (Hook.sessionId_of_ends he)
      rcases hrun with ⟨-, hsame, -⟩ | ⟨h', g, f, -, -, -, -, hedit⟩
      · rw [hsame] at h
        exact ⟨h, hends⟩
      · rw [hedit, if_neg (Ne.symm hs)] at h
        exact ⟨h, hends⟩

/-- What is true of the registry after the calls `past`: the sessions that are registered are going
on, and each span that is kept was opened in its session while that was going on. -/
structure Traced (past : List Call) (r : Registry) : Prop where
  ongoing : ∀ s, r.isRegistered s = true → Ongoing past s
  kept : ∀ t, ∀ x ∈ (r.folder t).kept, OpenedIn past ⟨x.sessionId, x.id⟩

theorem traced_call {past : List Call} (hr : r.Sound) (h : r.Traced past) (c : Call) :
    (r.call policy sample c).1.Traced (past ++ [c]) ∧
      ∀ x ∈ (r.call policy sample c).2, OpenedIn (past ++ [c]) ⟨x.sessionId, x.id⟩ := by
  have hx : ∀ x, (∃ t, x ∈ ((r.call policy sample c).1.folder t).kept) ∨
      x ∈ (r.call policy sample c).2 → OpenedIn (past ++ [c]) ⟨x.sessionId, x.id⟩ := by
    intro x hx
    rcases origin_call hr hx with ⟨y, hy, hxy⟩ | ⟨ho, hreg⟩
    · have := h.kept _ y hy
      rw [(hr.folder _).own y hy, hxy.id] at this
      exact this.append [c]
    · exact ⟨past, c, [], rfl, ho, h.ongoing _ hreg⟩
  refine ⟨⟨fun s hs => ?_, fun t x ht => hx x (Or.inl ⟨t, ht⟩)⟩, fun x ht => hx x (Or.inr ht)⟩
  rcases isRegistered_call hr hs with ⟨hreg, he⟩ | ⟨start, draw, rfl, hid⟩
  · exact (h.ongoing s hreg).concat he
  · exact ⟨past, start, draw, [], rfl, hid, fun _ hd => absurd hd List.not_mem_nil⟩

theorem traced_calls (cs : List Call) {past : List Call} (hr : r.Sound) (h : r.Traced past) :
    (r.calls policy sample cs).Traced (past ++ cs) ∧
      ∀ x ∈ r.handed policy sample cs, OpenedIn (past ++ cs) ⟨x.sessionId, x.id⟩ := by
  induction cs generalizing r past with
  | nil => exact ⟨(List.append_nil past).symm ▸ h, fun _ hx => absurd hx List.not_mem_nil⟩
  | cons c cs ih =>
    obtain ⟨h1, h2⟩ := traced_call hr h c
    have hcons : past ++ c :: cs = past ++ [c] ++ cs := by simp
    rw [hcons]
    obtain ⟨h3, h4⟩ := ih (sound_call hr c) h1
    refine ⟨h3, fun x hx => ?_⟩
    rcases List.mem_append.1 hx with hx | hx
    · exact (h2 x hx).append cs
    · exact h4 x hx

theorem traced_empty : empty.Traced [] where
  ongoing _ hs := nomatch hs
  kept _ _ hx := absurd hx List.not_mem_nil

/-- **Every span that is handed over** was opened while its session was going on. -/
theorem openedIn_handed (policy : Policy) (sample : UInt64 → Bool) (cs : List Call) {x : Span}
    (hx : x ∈ empty.handed policy sample cs) : OpenedIn cs ⟨x.sessionId, x.id⟩ :=
  (traced_calls cs sound_empty traced_empty).2 x hx

/-- **Every session that is registered** is going on. -/
theorem ongoing_of_isRegistered {cs : List Call}
    (h : (empty.calls policy sample cs).isRegistered s = true) : Ongoing cs s :=
  (traced_calls cs sound_empty traced_empty).1.ongoing s h

/-- Sessions of distinct ids are not registered when they start. -/
theorem fresh_of_traced (cs : List Call) {past : List Call} (hr : r.Sound) (h : r.Traced past)
    (hd : ((past ++ cs).filterMap Call.started?).Nodup) : Fresh policy sample r cs := by
  induction cs generalizing r past with
  | nil => trivial
  | cons c cs ih =>
    have hcons : past ++ c :: cs = past ++ [c] ++ cs := by simp
    refine ⟨fun s hs => ?_, ih (sound_call hr c) (traced_call hr h c).1 (hcons ▸ hd)⟩
    rw [Bool.eq_false_iff]
    intro hreg
    -- the session was started before
    obtain ⟨before, start, draw, since, rfl, hid, -⟩ := h.ongoing s hreg
    have hstarted : s ∈ (before ++ .start start draw :: since).filterMap Call.started? :=
      List.mem_filterMap.2 ⟨.start start draw, by simp, congrArg some hid⟩
    rw [List.filterMap_append, List.filterMap_cons, hs, List.nodup_append] at hd
    exact hd.2.2 s hstarted s List.mem_cons_self rfl

theorem fresh_of_nodup {cs : List Call} (hd : (cs.filterMap Call.started?).Nodup) :
    Fresh policy sample empty cs := fresh_of_traced cs sound_empty traced_empty hd

end Registry

end SpanRelay
