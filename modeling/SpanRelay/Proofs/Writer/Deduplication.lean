import Mathlib.Data.List.Induction
import SpanRelay.Proofs.Queue.Bytes
import SpanRelay.Proofs.Writer.Latest

/-! # Deduplication

The spans of `latest` come in the order in which their ids first came (`pairwise_latest`), each with
the content that its id came with last (`mem_latest_iff_last`). Elements with distinct ids are left as
they are (`latest_of_nodup`), so what was gathered before need not be gathered again: elements that
follow a list do the same to the latest versions of that list (`latest_append`). -/

namespace SpanRelay

theorem gather_concat (t : Map.Table String Span) (es : List QueueElement) (e : QueueElement) :
    gather t (es ++ [e]) = (gather t es).insert e.id e.span := List.foldl_append

theorem gather_append (t : Map.Table String Span) (es ds : List QueueElement) :
    gather t (es ++ ds) = gather (gather t es) ds := List.foldl_append

theorem mem_keys_gather_empty {id : String} {es : List QueueElement} :
    id ∈ (gather .empty es).keys ↔ id ∈ es.map QueueElement.id := by
  rw [mem_keys_gather]
  exact or_iff_right List.not_mem_nil

/-! ### Order -/

/-- The keys of the table stand in the order of their first places among the elements. A key that is
set again keeps its place, and a new one comes behind all that were set before. -/
theorem pairwise_keys_gather (es : List QueueElement) :
    (gather .empty es).keys.Pairwise fun a b =>
      (es.map QueueElement.id).idxOf a < (es.map QueueElement.id).idxOf b := by
  induction es using List.reverseRecOn with
  | nil => exact List.Pairwise.nil
  | append_singleton es e ih =>
    have hplace : ∀ id ∈ (gather .empty es).keys,
        ((es ++ [e]).map QueueElement.id).idxOf id = (es.map QueueElement.id).idxOf id := by
      intro id hid
      rw [List.map_append]
      exact List.idxOf_append_of_mem (mem_keys_gather_empty.1 hid)
    have hold : (gather .empty es).keys.Pairwise fun a b =>
        ((es ++ [e]).map QueueElement.id).idxOf a < ((es ++ [e]).map QueueElement.id).idxOf b := by
      refine ih.imp_of_mem fun ha hb hab => ?_
      rw [hplace _ ha, hplace _ hb]
      exact hab
    rw [gather_concat, Map.Table.keys_insert]
    split
    · exact hold
    · rename_i hnew
      rw [mem_keys_gather_empty] at hnew
      refine List.pairwise_append.2 ⟨hold, List.pairwise_singleton _ _, fun a ha b hb => ?_⟩
      rw [List.mem_singleton.1 hb, hplace a ha, List.map_append, List.idxOf_append_of_notMem hnew]
      exact Nat.lt_add_right _ (List.idxOf_lt_length_of_mem (mem_keys_gather_empty.1 ha))

/-- **The first places** of the ids give the order. -/
theorem pairwise_latest (es : List QueueElement) :
    (latest es).Pairwise fun x y =>
      (es.map QueueElement.id).idxOf x.id < (es.map QueueElement.id).idxOf y.id := by
  have hkeys := pairwise_keys_gather es
  rw [← (keyed_gather_empty es).map_values, List.pairwise_map] at hkeys
  exact hkeys

/-! ### Content -/

theorem lastSpan?_eq_some_iff {id : String} {es : List QueueElement} {x : Span} :
    lastSpan? id es = some x ↔ ∃ past e rest, es = past ++ e :: rest ∧ e.id = id ∧ e.span = x ∧
      ∀ d ∈ rest, d.id ≠ id := by
  unfold lastSpan?
  rw [Option.map_eq_some_iff]
  constructor
  · rintro ⟨e, he, rfl⟩
    obtain ⟨hid, later, earlier, hsplit, hlater⟩ := List.find?_eq_some_iff_append.1 he
    refine ⟨earlier.reverse, e, later.reverse, ?_, of_decide_eq_true hid, rfl, fun d hd => ?_⟩
    · rw [← List.reverse_reverse es, hsplit]
      simp
    · simpa using hlater d (List.mem_reverse.1 hd)
  · rintro ⟨past, e, rest, rfl, hid, rfl, hrest⟩
    have hlater : ∀ d ∈ rest.reverse, (!decide (d.id = id)) = true := fun d hd => by
      simpa using hrest d (List.mem_reverse.1 hd)
    refine ⟨e, List.find?_eq_some_iff_append.2 ⟨decide_eq_true hid, ?_⟩, rfl⟩
    exact ⟨rest.reverse, past.reverse, by simp, hlater⟩

/-- **The last content** of each id, and nothing else. -/
theorem mem_latest_iff_last {es : List QueueElement} {x : Span} :
    x ∈ latest es ↔
      ∃ past e rest, es = past ++ e :: rest ∧ e.span = x ∧ ∀ d ∈ rest, d.id ≠ e.id := by
  rw [mem_latest_iff, lastSpan?_eq_some_iff]
  constructor
  · rintro ⟨past, e, rest, hsplit, hid, hx, hrest⟩
    exact ⟨past, e, rest, hsplit, hx, hid ▸ hrest⟩
  · rintro ⟨past, e, rest, hsplit, rfl, hrest⟩
    exact ⟨past, e, rest, hsplit, rfl, rfl, hrest⟩

/-! ### Distinct ids -/

theorem rows_gather_of_nodup (es : List QueueElement) (h : (es.map QueueElement.id).Nodup) :
    (gather .empty es).rows = es.map fun e => (e.id, e.span) := by
  induction es using List.reverseRecOn with
  | nil => rfl
  | append_singleton es e ih =>
    rw [List.map_append, List.nodup_append] at h
    obtain ⟨hes, -, hnew⟩ := h
    have hkey : e.id ∉ (gather .empty es).keys := fun hmem =>
      hnew e.id (mem_keys_gather_empty.1 hmem) e.id List.mem_cons_self rfl
    rw [gather_concat, Map.Table.insert, if_neg (mt Map.Table.contains_iff_mem_keys.1 hkey), ih hes,
      List.map_append]
    rfl

/-- **Distinct elements** stay as they are. -/
theorem latest_of_nodup {es : List QueueElement} (h : (es.map QueueElement.id).Nodup) :
    latest es = es.map QueueElement.span := by
  rw [latest_eq_values, Map.Table.values, rows_gather_of_nodup es h, List.map_map]
  rfl

theorem gather_latest (es : List QueueElement) :
    gather .empty ((latest es).map QueueElement.of) = gather .empty es := by
  have hids : ((latest es).map QueueElement.of).map QueueElement.id = (latest es).map Span.id :=
    List.map_map
  have hrows : (gather .empty ((latest es).map QueueElement.of)).rows = (gather .empty es).rows := by
    rw [rows_gather_of_nodup _ (hids ▸ nodup_latest es), List.map_map, latest_eq_values,
      Map.Table.values, List.map_map]
    -- each value of the table stands under its own key
    refine (List.map_congr_left fun row hrow => ?_).trans (List.map_id _)
    exact Prod.ext ((keyed_gather_empty es).key row hrow) rfl
  exact congrArg Map.Table.mk hrows

/-- **Elements that follow** change the latest versions as they change what these are of. -/
theorem latest_append (es ds : List QueueElement) :
    latest (es ++ ds) = latest ((latest es).map QueueElement.of ++ ds) := by
  rw [latest_eq_values (es ++ ds), latest_eq_values ((latest es).map QueueElement.of ++ ds),
    gather_append, gather_append, gather_latest]

/-- **Deduplication.** The ids of the latest versions are distinct, and are those of the elements. The
versions stand in the order in which their ids first come among the elements, and each is the content
of the last element with its id. Elements with distinct ids are left as they are, and what follows a
list of elements may as well follow the latest versions of that list. -/
theorem latest_deduplicates (es : List QueueElement) :
    ((latest es).map Span.id).Nodup ∧
    (∀ id, id ∈ (latest es).map Span.id ↔ id ∈ es.map QueueElement.id) ∧
    ((latest es).Pairwise fun x y =>
      (es.map QueueElement.id).idxOf x.id < (es.map QueueElement.id).idxOf y.id) ∧
    (∀ x, x ∈ latest es ↔
      ∃ past e rest, es = past ++ e :: rest ∧ e.span = x ∧ ∀ d ∈ rest, d.id ≠ e.id) ∧
    ((es.map QueueElement.id).Nodup → latest es = es.map QueueElement.span) ∧
    ∀ ds, latest (es ++ ds) = latest ((latest es).map QueueElement.of ++ ds) :=
  ⟨nodup_latest es, fun _ => mem_map_id_latest, pairwise_latest es, fun _ => mem_latest_iff_last,
    latest_of_nodup, latest_append es⟩

/-- Elements of three spans, then the first and the second again. -/
theorem latest_deduplicates_interleaved :
    let e (id name : String) : QueueElement := .of { Span.bare id with elementName := name }
    let es := [e "a" "A", e "b" "B", e "c" "C"]
    let ds := [e "b" "B2", e "a" "A2"]
    (es.map QueueElement.id).Nodup ∧ latest es = es.map QueueElement.span ∧
      latest (es ++ ds) = latest ((latest es).map QueueElement.of ++ ds) ∧
      (latest (es ++ ds)).map (fun x => (x.id, x.elementName)) =
        [("a", "A2"), ("b", "B2"), ("c", "C")] := by
  intro e es ds
  obtain ⟨-, -, -, -, hsame, hfollow⟩ := latest_deduplicates es
  have hd : (es.map QueueElement.id).Nodup := by decide
  exact ⟨hd, hsame hd, hfollow ds, by decide⟩

end SpanRelay
