import SpanRelay.Proofs.Json.Slots
import SpanRelay.Proofs.Queue.Bytes
import SpanRelay.Proofs.Timestamp.Reread
import SpanRelay.Store.Document

/-! # Records that are read back

Every record is read back from its text as the value that was written (`records_read_back`). Each is
written from its `slots`, so a reader finds in each name what was put there, and an absent value is
not confused with a present one. A span is written flat: its own slots and those of its stamp have
distinct names, so neither takes a field of the other. Only the property values of a snapshot are
free: they must be `isExact`, and nest no deeper than a reader goes. -/

namespace SpanRelay

open Json

/-! ### Fields -/

theorem Timestamp.ofJson?_toJson (t : Timestamp) : Timestamp.ofJson? t.toJson = some t := by
  rw [toJson, ofJson?, text?, Option.bind_some, String.toList_ofList, read?_print]

namespace Json

theorem nat?_int {bound n : Nat} (h : n < bound) : (Json.int n).nat? bound = some n := by
  have hn : 0 ≤ (n : Int) ∧ (n : Int) < bound := by omega
  rw [nat?, if_pos hn, Int.toNat_natCast]

theorem word64?_ofWord64 (n : UInt64) : word64? (ofWord64 n) = some n := by
  have hlt : n.toNat < Word.range 64 := n.toNat_lt
  rw [ofWord64, word64?, nat?_int hlt, Option.map_some]
  exact congrArg some (UInt64.ofNat_toNat (x := n))

theorem word16?_int (n : UInt16) : word16? (.int n.toNat) = some n := by
  have hlt : n.toNat < Word.range 16 := n.toNat_lt
  rw [word16?, nat?_int hlt, Option.map_some]
  exact congrArg some (UInt16.ofNat_toNat (x := n))

theorem required_time (t : Timestamp) : (some t.toJson).bind Timestamp.ofJson? = some t := by
  rw [Option.bind_some, t.ofJson?_toJson]

theorem required_status (a : Status) : (some a.toJson).bind Status.ofJson? = some a :=
  Status.ofWord?_word a

theorem required_level (a : Level) : (some a.toJson).bind Level.ofJson? = some a :=
  Level.ofWord?_word a

theorem required_word16 (n : UInt16) : (some (Json.int n.toNat)).bind word16? = some n := by
  rw [Option.bind_some, word16?_int]

theorem optionally_text (o : Option String) : optionally text? (o.map Json.text) = some o :=
  optionally_map fun _ _ => ⟨nofun, rfl⟩

theorem optionally_time (o : Option Timestamp) :
    optionally Timestamp.ofJson? (o.map Timestamp.toJson) = some o :=
  optionally_map fun t _ => ⟨nofun, t.ofJson?_toJson⟩

theorem optionally_word (o : Option UInt64) : optionally word64? (o.map ofWord64) = some o :=
  optionally_map fun n _ => ⟨nofun, word64?_ofWord64 n⟩

theorem optionally_orNull_text (o : Option String) :
    optionally text? (some (orNull Json.text o)) = some o :=
  optionally_orNull fun _ _ => ⟨nofun, rfl⟩

/-- A value without parts, which is read back as it was. -/
structure Scalar (v : Json) : Prop extends Lasting v where
  height : v.height = 0

theorem scalar_text (s : String) : (Json.text s).Scalar := ⟨⟨rfl, rfl⟩, rfl⟩

theorem scalar_bool (b : Bool) : (Json.bool b).Scalar := ⟨⟨rfl, rfl⟩, rfl⟩

theorem scalar_int {n : Nat} (h : n < Word.range 64) : (Json.int n).Scalar := by
  refine ⟨⟨?_, rfl⟩, rfl⟩
  rw [inRange, Bool.and_eq_true, decide_eq_true_eq, decide_eq_true_eq]
  omega

theorem scalar_word (n : UInt64) : (ofWord64 n).Scalar := scalar_int n.toNat_lt

theorem scalar_word16 (n : UInt16) : (Json.int n.toNat).Scalar :=
  scalar_int (Nat.lt_trans n.toNat_lt (by decide))

theorem scalar_orNull_text (o : Option String) : (orNull Json.text o).Scalar := by
  cases o with
  | none => exact ⟨⟨rfl, rfl⟩, rfl⟩
  | some s => exact scalar_text s

theorem scalar_time (t : Timestamp) : t.toJson.Scalar := scalar_text _

theorem scalar_status (a : Status) : a.toJson.Scalar := scalar_text _

theorem scalar_level (a : Level) : a.toJson.Scalar := scalar_text _

variable {slots : List (String × Option Json)}

theorem flat_object (h : ∀ s ∈ slots, ∀ v ∈ s.2, v.Scalar) :
    (Json.object (filled slots)).Lasting ∧ (Json.object (filled slots)).height ≤ 1 := by
  refine ⟨lasting_object (forall_filled fun s hs v hv => (h s hs v hv).toLasting), ?_⟩
  exact Nat.succ_le_succ (heightMembers_le (forall_filled fun s hs v hv => (h s hs v hv).height.le))

/-- The record is read back from its text. -/
def ReadsBack {α : Type} (write : α → Json) (read : Json → Option α) (a : α) : Prop :=
  (read? (write a).compact.toList).bind read = some a

theorem readsBack_of {α : Type} {write : α → Json} {read : Json → Option α} {a : α}
    (hl : (write a).Lasting) (hh : (write a).height ≤ maxDepth) (hr : read (write a) = some a) :
    ReadsBack write read a := by
  rw [ReadsBack, read?_compact hl.inRange hh, hl.reread]
  exact hr

theorem readsBack_of_flat {α : Type} {write : α → Json} {read : Json → Option α} {a : α}
    (h : (write a).Lasting ∧ (write a).height ≤ 1) (hr : read (write a) = some a) :
    ReadsBack write read a := readsBack_of h.1 (h.2.trans (Nat.le_of_ble_eq_true rfl)) hr

end Json

/-! ### Sessions -/

namespace SessionStart

def slots (s : SessionStart) : List (String × Option Json) :=
  [("session_id", some (.text s.sessionId)), ("chain_id", some (.text s.chainId)),
    ("chain_name", some (.text s.chainName)), ("external_id", some (orNull .text s.externalId)),
    ("domain", some (orNull .text s.domain)),
    ("engine_address", some (orNull .text s.engineAddress)),
    ("snapshot_name", some (orNull .text s.snapshotName)),
    ("parent_session_id", some (orNull .text s.parentSessionId)),
    ("started_at", some s.startedAt.toJson)]

theorem toJson_eq (s : SessionStart) : s.toJson = .object (filled s.slots) := rfl

theorem flat (s : SessionStart) : s.toJson.Lasting ∧ s.toJson.height ≤ 1 := by
  rw [toJson_eq]
  refine flat_object ?_
  simp [slots, scalar_text, scalar_orNull_text, scalar_time]

theorem ofJson?_toJson (s : SessionStart) : ofJson? s.toJson = some s := by
  have hnames : (s.slots.map Prod.fst).Nodup := (by decide : fieldNames.Nodup)
  obtain ⟨f, hf, -, hfind⟩ := ofMembers?_filled hnames fieldNames
  simp only [slots, List.forall_mem_cons] at hfind
  rw [ofJson?, toJson_eq, Fields.of?, hf, Option.bind_eq_bind, Option.bind_some]
  simp only [Fields.required_eq, Fields.orAbsent_eq, hfind, optionally_orNull_text, required_time]
  rfl

end SessionStart

namespace Session

def slots (s : Session) : List (String × Option Json) :=
  [("id", some (.text s.id)), ("external_id", s.externalId.map .text),
    ("domain", s.domain.map .text), ("engine_address", s.engineAddress.map .text),
    ("chain_id", some (.text s.chainId)), ("chain_name", some (.text s.chainName)),
    ("snapshot_name", s.snapshotName.map .text), ("started", some s.started.toJson),
    ("finished", s.finished.map Timestamp.toJson), ("duration_ms", s.durationMs.map ofWord64),
    ("execution_status", some s.status.toJson), ("logging_level", some s.level.toJson),
    ("parent_session_id", s.parentSessionId.map .text),
    ("correlation_id", s.correlationId.map .text), ("sampled", some (.bool s.sampled))]

theorem toJson_eq (s : Session) : s.toJson = .object (filled s.slots) := by
  simp only [toJson, field_eq_filled, optionalField_eq_filled, ← filled_append]
  rfl

theorem flat (s : Session) : s.toJson.Lasting ∧ s.toJson.height ≤ 1 := by
  rw [toJson_eq]
  refine flat_object ?_
  simp [slots, scalar_text, scalar_bool, scalar_word, scalar_time, scalar_status, scalar_level]

theorem ofJson?_toJson (s : Session) : ofJson? s.toJson = some s := by
  have hnames : (s.slots.map Prod.fst).Nodup := (by decide : fieldNames.Nodup)
  obtain ⟨f, hf, hlisted, hfind⟩ := ofMembers?_filled hnames fieldNames
  simp only [slots, List.forall_mem_cons] at hfind
  rw [ofJson?, toJson_eq, Fields.of?, hf, Option.bind_eq_bind, Option.bind_some]
  simp only [Fields.required_eq, Fields.optional_eq hlisted, hfind, optionally_text, optionally_time,
    optionally_word, required_time, required_status, required_level]
  rfl

end Session

namespace Stamp

def slots (s : Stamp) : List (String × Option Json) :=
  [("external_session_id", s.externalSessionId.map .text), ("chain_id", some (.text s.chainId)),
    ("chain_name", some (.text s.chainName)), ("domain", s.domain.map .text),
    ("engine_address", s.engineAddress.map .text), ("snapshot_name", s.snapshotName.map .text),
    ("session_started", some s.sessionStarted.toJson),
    ("session_finished", s.sessionFinished.map Timestamp.toJson),
    ("session_duration_ms", s.sessionDurationMs.map ofWord64),
    ("session_status", some s.sessionStatus.toJson),
    ("session_logging_level", some s.sessionLevel.toJson),
    ("parent_session_id", s.parentSessionId.map .text),
    ("correlation_id", s.correlationId.map .text)]

theorem members_eq (s : Stamp) : s.members = filled s.slots := by
  simp only [members, field_eq_filled, optionalField_eq_filled, ← filled_append]
  rfl

theorem scalar_slots (s : Stamp) : ∀ slot ∈ s.slots, ∀ v ∈ slot.2, v.Scalar := by
  simp [slots, scalar_text, scalar_word, scalar_time, scalar_status, scalar_level]

theorem flat (s : Stamp) : s.toJson.Lasting ∧ s.toJson.height ≤ 1 := by
  rw [toJson, members_eq]
  exact flat_object s.scalar_slots

theorem ofFields?_slots {s : Stamp} {f : Fields} (hlisted : f.listed = false)
    (hfind : ∀ slot ∈ s.slots, f.find? slot.1 = slot.2) : ofFields? f = some s := by
  simp only [slots, List.forall_mem_cons] at hfind
  rw [ofFields?]
  simp only [Fields.required_eq, Fields.optional_eq hlisted, hfind, optionally_text, optionally_time,
    optionally_word, required_time, required_status, required_level]
  rfl

theorem ofJson?_toJson (s : Stamp) : ofJson? s.toJson = some s := by
  have hnames : (s.slots.map Prod.fst).Nodup := (by decide : fieldNames.Nodup)
  obtain ⟨f, hf, hlisted, hfind⟩ := ofMembers?_filled hnames fieldNames
  rw [ofJson?, toJson, members_eq, Fields.of?, hf, Option.bind_some]
  exact ofFields?_slots hlisted hfind

end Stamp

/-! ### Elements -/

namespace Element

def slots (e : Element) : List (String × Option Json) :=
  [("chain_element_id", some (.text e.elementId)), ("element_name", some (.text e.name)),
    ("type_tag", some (.text e.typeTag)),
    ("actual_element_chain_id", some (orNull .text e.subChainId)),
    ("branch_key", some (orNull .text e.branchKey))]

theorem toJson_eq (e : Element) : e.toJson = .object (filled e.slots) := rfl

theorem flat (e : Element) : e.toJson.Lasting ∧ e.toJson.height ≤ 1 := by
  rw [toJson_eq]
  refine flat_object ?_
  simp [slots, scalar_text, scalar_orNull_text]

theorem ofJson?_toJson (e : Element) : ofJson? e.toJson = some e := by
  have hnames : (e.slots.map Prod.fst).Nodup := (by decide : fieldNames.Nodup)
  obtain ⟨f, hf, -, hfind⟩ := ofMembers?_filled hnames fieldNames
  simp only [slots, List.forall_mem_cons] at hfind
  rw [ofJson?, toJson_eq, Fields.of?, hf, Option.bind_eq_bind, Option.bind_some]
  simp only [Fields.required_eq, Fields.orAbsent_eq, hfind, optionally_orNull_text]
  rfl

end Element

namespace ParentHint

def slots (h : ParentHint) : List (String × Option Json) :=
  [("chain_element_id", some (.text h.elementId)), ("branch_key", some (orNull .text h.branchKey)),
    ("has_intermediate_parents", some (.bool h.hasIntermediateParents))]

theorem toJson_eq (h : ParentHint) : h.toJson = .object (filled h.slots) := rfl

theorem flat (h : ParentHint) : h.toJson.Lasting ∧ h.toJson.height ≤ 1 := by
  rw [toJson_eq]
  refine flat_object ?_
  simp [slots, scalar_text, scalar_bool, scalar_orNull_text]

theorem ofJson?_toJson (h : ParentHint) : ofJson? h.toJson = some h := by
  have hnames : (h.slots.map Prod.fst).Nodup := (by decide : fieldNames.Nodup)
  obtain ⟨f, hf, -, hfind⟩ := ofMembers?_filled hnames fieldNames
  simp only [slots, List.forall_mem_cons] at hfind
  rw [ofJson?, toJson_eq, Fields.of?, hf, Option.bind_eq_bind, Option.bind_some,
    Fields.defaulted_of_find? hfind.2.2.1]
  simp only [Fields.required_eq, Fields.orAbsent_eq, hfind, optionally_orNull_text]
  rfl

end ParentHint

/-! ### Snapshots -/

namespace Snapshot

def slots (s : Snapshot) : List (String × Option Json) :=
  [("body", s.body.map .text), ("headers", s.headers.map ofTextMap),
    ("properties", s.properties.map ofValueMap), ("context", s.context.map ofTextMap)]

theorem toJson_eq (s : Snapshot) : s.toJson = .object (filled s.slots) := by
  simp only [toJson, optionalField_eq_filled, ← filled_append]
  rfl

/-- Whether the property values are read back as they are. -/
def isExact (s : Snapshot) : Bool := s.properties.all fun m => isExactMembers m.entries

theorem isExactMembers_properties {s : Snapshot} (h : s.isExact = true) {m : Map.Sorted Json}
    (hm : s.properties = some m) : isExactMembers m.entries = true := by
  rw [isExact, hm] at h
  exact h

theorem lasting {s : Snapshot} (h : s.isExact = true) : s.toJson.Lasting := by
  have htexts : ∀ m : Map.Sorted String, (ofTextMap m).Lasting := by
    refine fun m => lasting_object fun e he => ?_
    obtain ⟨e, -, rfl⟩ := List.mem_map.1 he
    exact (scalar_text e.2).toLasting
  have hvalues : ∀ m, s.properties = some m → (ofValueMap m).Lasting := fun m hm =>
    ⟨inRangeMembers_of_exact _ (isExactMembers_properties h hm),
      congrArg Json.object (rereadMembers_of_exact _ (isExactMembers_properties h hm))⟩
  rw [toJson_eq]
  refine lasting_object (forall_filled ?_)
  simp only [slots, List.forall_mem_cons, List.not_mem_nil, false_implies, implies_true, and_true,
    Option.mem_def, Option.map_eq_some_iff, forall_exists_index, and_imp, forall_apply_eq_imp_iff₂]
  exact ⟨fun b _ => (scalar_text b).toLasting, fun m _ => htexts m, hvalues, fun m _ => htexts m⟩

theorem ofJson?_toJson {s : Snapshot} (h : s.isExact = true) : ofJson? s.toJson = some s := by
  have hnames : (s.slots.map Prod.fst).Nodup := (by decide : fieldNames.Nodup)
  obtain ⟨f, hf, hlisted, hfind⟩ := ofMembers?_filled hnames fieldNames
  have htexts : ∀ o : Option (Map.Sorted String), optionally textMap? (o.map ofTextMap) = some o :=
    fun _ => optionally_map fun m _ => ⟨nofun, textMap?_ofTextMap m⟩
  have hvalues : optionally valueMap? (s.properties.map ofValueMap) = some s.properties :=
    optionally_map fun m hm => ⟨nofun, valueMap?_ofValueMap (isExactMembers_properties h hm)⟩
  simp only [slots, List.forall_mem_cons] at hfind
  rw [ofJson?, toJson_eq, Fields.of?, hf, Option.bind_eq_bind, Option.bind_some]
  simp only [Fields.optional_eq hlisted, hfind, optionally_text, htexts, hvalues]
  rfl

end Snapshot

/-! ### Spans -/

namespace ExceptionSummary

def slots (e : ExceptionSummary) : List (String × Option Json) :=
  [("kind", some (.text e.kind)), ("message", some (.text e.message)),
    ("stack_trace", e.stackTrace.map .text)]

theorem toJson_eq (e : ExceptionSummary) : e.toJson = .object (filled e.slots) := by
  simp only [toJson, field_eq_filled, optionalField_eq_filled, ← filled_append]
  rfl

theorem flat (e : ExceptionSummary) : e.toJson.Lasting ∧ e.toJson.height ≤ 1 := by
  rw [toJson_eq]
  refine flat_object ?_
  simp [slots, scalar_text]

theorem ofJson?_toJson (e : ExceptionSummary) : ofJson? e.toJson = some e := by
  have hnames : (e.slots.map Prod.fst).Nodup := (by decide : fieldNames.Nodup)
  obtain ⟨f, hf, hlisted, hfind⟩ := ofMembers?_filled hnames fieldNames
  simp only [slots, List.forall_mem_cons] at hfind
  rw [ofJson?, toJson_eq, Fields.of?, hf, Option.bind_eq_bind, Option.bind_some]
  simp only [Fields.required_eq, Fields.optional_eq hlisted, hfind, optionally_text]
  rfl

end ExceptionSummary

namespace SpanRef

def slots (r : SpanRef) : List (String × Option Json) :=
  [("session_id", some (.text r.sessionId)), ("span_id", some (.text r.spanId))]

theorem toJson_eq (r : SpanRef) : r.toJson = .object (filled r.slots) := rfl

theorem flat (r : SpanRef) : r.toJson.Lasting ∧ r.toJson.height ≤ 1 := by
  rw [toJson_eq]
  refine flat_object ?_
  simp [slots, scalar_text]

theorem ofJson?_toJson (r : SpanRef) : ofJson? r.toJson = some r := by
  have hnames : (r.slots.map Prod.fst).Nodup := (by decide : fieldNames.Nodup)
  obtain ⟨f, hf, -, hfind⟩ := ofMembers?_filled hnames fieldNames
  simp only [slots, List.forall_mem_cons] at hfind
  rw [ofJson?, toJson_eq, Fields.of?, hf, Option.bind_eq_bind, Option.bind_some]
  simp only [Fields.required_eq, hfind]
  rfl

end SpanRef

namespace Span

/-- The slots of the span's own fields. -/
def slots (x : Span) : List (String × Option Json) :=
  [("id", some (.text x.id)), ("session_id", some (.text x.sessionId)),
    ("chain_element_id", some (.text x.elementId)), ("element_name", some (.text x.elementName)),
    ("type_tag", some (.text x.typeTag)), ("parent_element_id", x.parentId.map .text),
    ("actual_element_chain_id", x.subChainId.map .text), ("started", some x.started.toJson),
    ("finished", x.finished.map Timestamp.toJson), ("duration_ms", x.durationMs.map ofWord64),
    ("before", x.before.map Snapshot.toJson), ("after", x.after.map Snapshot.toJson),
    ("execution_status", some x.status.toJson),
    ("exception", x.exception.map ExceptionSummary.toJson)]

theorem members_eq (x : Span) : x.members = filled (x.slots ++ x.stamp.slots) := by
  rw [filled_append, ← Stamp.members_eq]
  simp only [members, field_eq_filled, optionalField_eq_filled, ← filled_append]
  rfl

theorem nodup_names (x : Span) : ((x.slots ++ x.stamp.slots).map Prod.fst).Nodup := by
  rw [List.map_append]
  exact (by decide : (fieldNames ++ Stamp.fieldNames).Nodup)

theorem filter_members (x : Span) :
    x.members.filter (fun m => !fieldNames.contains m.1) = x.stamp.members := by
  have hown : x.slots.filter (fun s => !fieldNames.contains s.1) = [] := by
    rw [List.filter_eq_nil_iff]
    simp [slots, fieldNames]
  have hstamp : x.stamp.slots.filter (fun s => !fieldNames.contains s.1) = x.stamp.slots := by
    rw [List.filter_eq_self]
    simp [Stamp.slots, fieldNames]
  rw [members_eq, filter_filled (fun name => !fieldNames.contains name), List.filter_append, hown,
    hstamp, List.nil_append, Stamp.members_eq]

/-- Whether the property values are read back as they are. -/
def isExact (x : Span) : Bool := x.before.all Snapshot.isExact && x.after.all Snapshot.isExact

theorem isExact_before {x : Span} (h : x.isExact = true) {s : Snapshot} (hs : x.before = some s) :
    s.isExact = true := by
  have hbefore := (Bool.and_eq_true_iff.1 h).1
  rw [hs] at hbefore
  exact hbefore

theorem isExact_after {x : Span} (h : x.isExact = true) {s : Snapshot} (hs : x.after = some s) :
    s.isExact = true := by
  have hafter := (Bool.and_eq_true_iff.1 h).2
  rw [hs] at hafter
  exact hafter

theorem lasting {x : Span} (h : x.isExact = true) : x.toJson.Lasting := by
  have hbefore : ∀ s, x.before = some s → s.toJson.Lasting :=
    fun s hs => Snapshot.lasting (isExact_before h hs)
  have hafter : ∀ s, x.after = some s → s.toJson.Lasting :=
    fun s hs => Snapshot.lasting (isExact_after h hs)
  have hown : ∀ s ∈ x.slots, ∀ v ∈ s.2, v.Lasting := by
    simpa [slots, (scalar_text _).toLasting, (scalar_time _).toLasting, (scalar_word _).toLasting,
      (scalar_status _).toLasting, (ExceptionSummary.flat _).1] using And.intro hbefore hafter
  rw [toJson, members_eq]
  refine lasting_object (forall_filled fun s hs v hv => ?_)
  rcases List.mem_append.1 hs with hs | hs
  · exact hown s hs v hv
  · exact (x.stamp.scalar_slots s hs v hv).toLasting

theorem ofJson?_toJson {x : Span} (h : x.isExact = true) : ofJson? x.toJson = some x := by
  have hstampNames : (x.stamp.slots.map Prod.fst).Nodup := (by decide : Stamp.fieldNames.Nodup)
  obtain ⟨f, hf, hlisted, hfind⟩ := ofMembers?_filled x.nodup_names fieldNames
  obtain ⟨g, hg, hlisted', hfind'⟩ := ofMembers?_filled hstampNames Stamp.fieldNames
  rw [← members_eq] at hf
  rw [← Stamp.members_eq] at hg
  have hreadable : readableMembers x.stamp.members = true := by
    have hsame : rereadMembers x.stamp.members = x.stamp.members := by
      rw [Stamp.members_eq]
      exact rereadMembers_of_lasting
        (forall_filled fun s hs v hv => (x.stamp.scalar_slots s hs v hv).toLasting)
    rw [← hsame]
    exact readable_rereadMembers _
  have hbefore : optionally Snapshot.ofJson? (x.before.map Snapshot.toJson) = some x.before :=
    optionally_map fun s hs => ⟨nofun, Snapshot.ofJson?_toJson (isExact_before h hs)⟩
  have hafter : optionally Snapshot.ofJson? (x.after.map Snapshot.toJson) = some x.after :=
    optionally_map fun s hs => ⟨nofun, Snapshot.ofJson?_toJson (isExact_after h hs)⟩
  have hexception : optionally ExceptionSummary.ofJson? (x.exception.map ExceptionSummary.toJson) =
      some x.exception := optionally_map fun e _ => ⟨nofun, e.ofJson?_toJson⟩
  have hstamp := Stamp.ofFields?_slots hlisted' hfind'
  simp only [slots, List.cons_append, List.forall_mem_cons] at hfind
  rw [toJson, ofJson?, hf, Option.bind_eq_bind, Option.bind_some]
  simp only [filter_members, if_pos hreadable, hg]
  rw [Option.bind_eq_bind, Option.bind_some]
  simp only [Fields.required_eq, Fields.optional_eq hlisted, hfind, optionally_text, optionally_time,
    optionally_word, required_time, required_status, hbefore, hafter, hexception, hstamp]
  rfl

end Span

/-! ### Answers of a store -/

namespace BulkItem

def slots (i : BulkItem) : List (String × Option Json) :=
  [("id", some (.text i.id)), ("status", some (.int i.status.toNat)), ("error", i.error.map .text)]

theorem toJson_eq (i : BulkItem) : i.toJson = .object (filled i.slots) := by
  simp only [toJson, field_eq_filled, optionalField_eq_filled, ← filled_append]
  rfl

theorem flat (i : BulkItem) : i.toJson.Lasting ∧ i.toJson.height ≤ 1 := by
  rw [toJson_eq]
  refine flat_object ?_
  simp [slots, scalar_text, scalar_word16]

theorem ofJson?_toJson (i : BulkItem) : ofJson? i.toJson = some i := by
  have hnames : (i.slots.map Prod.fst).Nodup := (by decide : fieldNames.Nodup)
  obtain ⟨f, hf, hlisted, hfind⟩ := ofMembers?_filled hnames fieldNames
  simp only [slots, List.forall_mem_cons] at hfind
  rw [ofJson?, toJson_eq, Fields.of?, hf, Option.bind_eq_bind, Option.bind_some]
  simp only [Fields.required_eq, Fields.optional_eq hlisted, hfind, optionally_text, required_word16]
  rfl

end BulkItem

namespace BulkResponse

def slots (r : BulkResponse) : List (String × Option Json) :=
  [("items", some (.list (r.items.map BulkItem.toJson)))]

theorem toJson_eq (r : BulkResponse) : r.toJson = .object (filled r.slots) := rfl

theorem lasting (r : BulkResponse) : r.toJson.Lasting := by
  have hitems : (Json.list (r.items.map BulkItem.toJson)).Lasting := by
    refine lasting_list fun v hv => ?_
    obtain ⟨i, -, rfl⟩ := List.mem_map.1 hv
    exact i.flat.1
  rw [toJson_eq]
  refine lasting_object (forall_filled ?_)
  simpa [slots] using hitems

theorem height_toJson_le (r : BulkResponse) : r.toJson.height ≤ 3 := by
  have hitems : heightItems (r.items.map BulkItem.toJson) ≤ 1 := by
    refine heightItems_le fun v hv => ?_
    obtain ⟨i, -, rfl⟩ := List.mem_map.1 hv
    exact i.flat.2
  rw [toJson_eq]
  refine Nat.succ_le_succ (heightMembers_le (forall_filled (P := fun v => v.height ≤ 2) ?_))
  simpa [slots, Json.height] using hitems

theorem ofJson?_toJson (r : BulkResponse) : ofJson? r.toJson = some r := by
  have hnames : (r.slots.map Prod.fst).Nodup := (by decide : fieldNames.Nodup)
  obtain ⟨f, hf, -, hfind⟩ := ofMembers?_filled hnames fieldNames
  have hitems : (r.items.map BulkItem.toJson).mapM BulkItem.ofJson? = some r.items :=
    mapM_written fun i _ => i.ofJson?_toJson
  simp only [slots, List.forall_mem_cons] at hfind
  rw [ofJson?, toJson_eq, Fields.of?, hf, Option.bind_eq_bind, Option.bind_some, Fields.required_eq,
    hfind.1, Option.bind_some, items?, hitems]
  rfl

end BulkResponse

/-! ### All records -/

/-- **Records are read back**: each from its text, as the value that was written. Property values must
be exact, and the records they stand in must nest no deeper than the reader goes. The members of a
span have distinct names, those of its stamp among them. -/
theorem records_read_back :
    (∀ s : SessionStart, ReadsBack SessionStart.toJson SessionStart.ofJson? s) ∧
    (∀ s : Session, ReadsBack Session.toJson Session.ofJson? s) ∧
    (∀ s : Stamp, ReadsBack Stamp.toJson Stamp.ofJson? s) ∧
    (∀ s : Snapshot, s.isExact = true → s.toJson.height ≤ maxDepth →
      ReadsBack Snapshot.toJson Snapshot.ofJson? s) ∧
    (∀ e : ExceptionSummary, ReadsBack ExceptionSummary.toJson ExceptionSummary.ofJson? e) ∧
    (∀ e : Element, ReadsBack Element.toJson Element.ofJson? e) ∧
    (∀ h : ParentHint, ReadsBack ParentHint.toJson ParentHint.ofJson? h) ∧
    (∀ r : SpanRef, ReadsBack SpanRef.toJson SpanRef.ofJson? r) ∧
    (∀ x : Span, (x.members.map Prod.fst).Nodup ∧
      (x.isExact = true → x.toJson.height ≤ maxDepth → ReadsBack Span.toJson Span.ofJson? x)) ∧
    (∀ i : BulkItem, ReadsBack BulkItem.toJson BulkItem.ofJson? i) ∧
    ∀ r : BulkResponse, ReadsBack BulkResponse.toJson BulkResponse.ofJson? r := by
  refine ⟨fun s => readsBack_of_flat s.flat s.ofJson?_toJson,
    fun s => readsBack_of_flat s.flat s.ofJson?_toJson,
    fun s => readsBack_of_flat s.flat s.ofJson?_toJson,
    fun s hs hdepth => readsBack_of (Snapshot.lasting hs) hdepth (Snapshot.ofJson?_toJson hs),
    fun e => readsBack_of_flat e.flat e.ofJson?_toJson,
    fun e => readsBack_of_flat e.flat e.ofJson?_toJson,
    fun h => readsBack_of_flat h.flat h.ofJson?_toJson,
    fun r => readsBack_of_flat r.flat r.ofJson?_toJson, fun x => ⟨?_, ?_⟩,
    fun i => readsBack_of_flat i.flat i.ofJson?_toJson, fun r => ?_⟩
  · rw [Span.members_eq]
    exact x.nodup_names.sublist (keys_filled_sublist _)
  · exact fun hx hdepth => readsBack_of (Span.lasting hx) hdepth (Span.ofJson?_toJson hx)
  · exact readsBack_of r.lasting (r.height_toJson_le.trans (Nat.le_of_ble_eq_true rfl))
      r.ofJson?_toJson

/-- A span whose capture before has nested property values, and whose capture after is there but
empty. -/
theorem records_read_back_nested :
    let order : Json := .object [("id", .int 18446744073709551615),
      ("lines", .list [.object [("sku", .text "a\n\"b\"")], .null, .bool true])]
    let x := { Span.bare "a" with
      parentId := some "p", before := some (Snapshot.empty.withProperty "order" order),
      after := some .empty, status := .completedNormally }
    x.isExact = true ∧ x.toJson.height = 6 ∧ ReadsBack Span.toJson Span.ofJson? x ∧
      ReadsBack Snapshot.toJson Snapshot.ofJson? .empty := by
  intro order x
  have hexact : x.isExact = true := by decide
  have hheight : x.toJson.height = 6 := by decide
  obtain ⟨-, -, -, hsnapshot, -, -, -, -, hspan, -⟩ := records_read_back
  refine ⟨hexact, hheight, (hspan x).2 hexact ?_, hsnapshot .empty rfl (by decide)⟩
  rw [hheight]
  decide

end SpanRelay
