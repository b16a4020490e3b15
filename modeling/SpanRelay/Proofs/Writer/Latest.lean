import Mathlib.Data.List.Dedup
import SpanRelay.Proofs.Map.Keyed
import SpanRelay.Writer.Batch

/-! # The latest versions

`latest` gathers elements in a table by the ids of their spans, so the ids of the result are
distinct (`nodup_latest`), are those of the elements (`mem_map_id_latest`), and each comes with the
content of its last element (`mem_latest_iff`). The elements left out are the `superseded` ones
(`length_latest`). `lastVersion?` is the same choice among spans. -/

namespace SpanRelay

/-- How many elements are followed by a later one of the same span. -/
def superseded : List QueueElement → Nat
  | [] => 0
  | e :: es => superseded es + if e.id ∈ es.map QueueElement.id then 1 else 0

/-- The table `t` after some elements were gathered. -/
def gather (t : Map.Table String Span) (es : List QueueElement) : Map.Table String Span :=
  es.foldl (fun t e => t.insert e.id e.span) t

/-- The span of the last element with an id. -/
def lastSpan? (id : String) (es : List QueueElement) : Option Span :=
  (es.reverse.find? fun e => e.id = id).map QueueElement.span

theorem latest_eq_values (es : List QueueElement) :
    latest es = (gather .empty es).values := rfl

theorem keyed_gather : ∀ (es : List QueueElement) {t : Map.Table String Span},
    t.Keyed Span.id → (gather t es).Keyed Span.id
  | [], _, h => h
  | e :: es, _, h => keyed_gather es (h.insert e.span)

theorem mem_keys_gather {id : String} : ∀ (es : List QueueElement) (t : Map.Table String Span),
    id ∈ (gather t es).keys ↔ id ∈ t.keys ∨ id ∈ es.map QueueElement.id
  | [], t => by simp [gather]
  | e :: es, t => by
    have ih : id ∈ (gather (t.insert e.id e.span) es).keys ↔ _ :=
      mem_keys_gather es (t.insert e.id e.span)
    rw [gather, List.foldl_cons, ← gather, ih, Map.Table.mem_keys_insert, List.map_cons,
      List.mem_cons]
    tauto

theorem get?_gather (id : String) : ∀ (es : List QueueElement) (t : Map.Table String Span),
    (gather t es).get? id = (lastSpan? id es).or (t.get? id)
  | [], t => by simp [gather, lastSpan?]
  | e :: es, t => by
    rw [gather, List.foldl_cons, ← gather, get?_gather id es, Map.Table.get?_insert]
    unfold lastSpan?
    rw [List.reverse_cons, List.find?_append]
    cases hl : es.reverse.find? fun e => e.id = id with
    | some d => simp
    | none =>
      by_cases he : e.id = id
      · simp [he]
      · simp [he, Ne.symm he]

theorem keyed_gather_empty (es : List QueueElement) : (gather .empty es).Keyed Span.id :=
  keyed_gather es (.empty _)

theorem nodup_latest (es : List QueueElement) : ((latest es).map Span.id).Nodup :=
  (keyed_gather_empty es).nodup_values

theorem mem_map_id_latest {id : String} {es : List QueueElement} :
    id ∈ (latest es).map Span.id ↔ id ∈ es.map QueueElement.id := by
  rw [latest_eq_values, (keyed_gather_empty es).map_values, mem_keys_gather]
  simp [Map.Table.keys, Map.Table.empty]

/-- **The last content of each id.** -/
theorem mem_latest_iff {span : Span} {es : List QueueElement} :
    span ∈ latest es ↔ lastSpan? span.id es = some span := by
  rw [latest_eq_values, (keyed_gather_empty es).mem_values_iff, get?_gather]
  simp

theorem length_dedup_ids (es : List QueueElement) :
    (es.map QueueElement.id).dedup.length + superseded es = es.length := by
  induction es with
  | nil => rfl
  | cons e es ih =>
    rw [List.map_cons]
    by_cases h : e.id ∈ es.map QueueElement.id
    · rw [List.dedup_cons_of_mem h, superseded, if_pos h, List.length_cons]
      omega
    · rw [List.dedup_cons_of_notMem h, superseded, if_neg h, List.length_cons, List.length_cons]
      omega

/-- **The latest versions and the superseded elements** are all of the elements. -/
theorem length_latest (es : List QueueElement) : (latest es).length + superseded es = es.length := by
  have hp : ((latest es).map Span.id).Perm (es.map QueueElement.id).dedup :=
    (List.perm_ext_iff_of_nodup (nodup_latest es) (List.nodup_dedup _)).2 fun id => by
      rw [mem_map_id_latest, List.mem_dedup]
  have hl := hp.length_eq
  rw [List.length_map] at hl
  rw [hl]
  exact length_dedup_ids es

/-! ### Versions of a span -/

/-- The last version of a span. -/
def lastVersion? (id : String) (spans : List Span) : Option Span :=
  spans.reverse.find? fun span => span.id = id

theorem lastVersion?_append (id : String) (xs ys : List Span) :
    lastVersion? id (xs ++ ys) = (lastVersion? id ys).or (lastVersion? id xs) := by
  unfold lastVersion?
  rw [List.reverse_append, List.find?_append]

theorem lastVersion?_eq_none {id : String} {xs : List Span} :
    lastVersion? id xs = none ↔ ∀ x ∈ xs, x.id ≠ id := by
  unfold lastVersion?
  rw [List.find?_eq_none]
  simp

theorem mem_of_lastVersion? {id : String} {xs : List Span} {x : Span}
    (h : lastVersion? id xs = some x) : x ∈ xs ∧ x.id = id :=
  ⟨List.mem_reverse.1 (List.mem_of_find?_eq_some h), by simpa using List.find?_some h⟩

theorem lastVersion?_of_mem {xs : List Span} (h : (xs.map Span.id).Nodup) {x : Span} (hx : x ∈ xs) :
    lastVersion? x.id xs = some x := by
  cases hl : lastVersion? x.id xs with
  | none => exact absurd rfl (lastVersion?_eq_none.1 hl x hx)
  | some y =>
    obtain ⟨hy, hid⟩ := mem_of_lastVersion? hl
    rw [List.inj_on_of_nodup_map h hy hx hid]

end SpanRelay
