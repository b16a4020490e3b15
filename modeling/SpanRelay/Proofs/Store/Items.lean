import SpanRelay.Proofs.Json.Slots
import SpanRelay.Proofs.Store.Http

/-! # Items by their places

The item of a document comes from the entry at its place in the reply (`items_getElem?`): from the
verdict that speaks for the document (`Speaks`), or it is missing where no entry is there or the entry
is empty. What a verdict says is read off the reply, where a value that is `null` counts as left out
(`Verdict.absent_iff`). `items_by_place` puts this together. -/

namespace SpanRelay

theorem BulkItem.isSuccess_failed (id : String) (status : UInt16) (reason : String) :
    (BulkItem.failed id status reason).isSuccess = false := rfl

namespace Bulk

/-- A verdict of the entry that speaks for the document: the one on its indexing, or any if there is
none on that. -/
def Speaks (entry : Map.Table String Verdict) (v : Verdict) : Prop :=
  entry.get? "index" = some v ∨ entry.get? "index" = none ∧ v ∈ entry.values

variable {d : Document} {entry : Map.Table String Verdict} {v : Verdict}

/-- An entry that is not empty has a verdict that speaks for the document. -/
theorem verdict?_cases (entry : Map.Table String Verdict) :
    (entry.values = [] ∧ verdict? entry = none) ∨ ∃ v, verdict? entry = some v ∧ Speaks entry v := by
  unfold verdict? Speaks
  cases hindex : entry.get? "index" with
  | some v => exact Or.inr ⟨v, rfl, Or.inl rfl⟩
  | none =>
    cases hvalues : entry.values with
    | nil => exact Or.inl ⟨rfl, rfl⟩
    | cons v values => exact Or.inr ⟨v, rfl, Or.inr ⟨rfl, List.mem_cons_self⟩⟩

theorem item_spec (d : Document) (v : Verdict) :
    (v.item d).id = v.id.getD d.id ∧ (v.item d).status = v.status ∧
      ((v.item d).isSuccess = true ↔ v.error = none ∧ v.status < 300) := by
  unfold Verdict.item
  dsimp only
  cases v.error with
  | some error => exact ⟨rfl, rfl, by simp [BulkItem.isSuccess_failed]⟩
  | none =>
    dsimp only
    by_cases hstatus : 300 ≤ v.status
    · rw [if_pos hstatus]
      exact ⟨rfl, rfl, by simp [BulkItem.isSuccess_failed, UInt16.not_lt.2 hstatus]⟩
    · rw [if_neg hstatus]
      exact ⟨rfl, rfl, by simp [BulkItem.isSuccess, UInt16.not_le.1 hstatus]⟩

/-- **The item of a place** comes from the entry of that place. -/
theorem items_getElem? (r : Reply) (ds : List Document) (i : Nat) :
    (align r ds).items[i]? =
      ds[i]?.map fun d => (r.entries[i]?).elim (missingItem d) (itemOf d) := by
  unfold align
  generalize r.entries = entries
  induction ds generalizing entries i with
  | nil => simp
  | cons d ds ih =>
    cases entries with
    | nil => rw [List.zipWith_nil_right, List.nil_append, List.length_nil, List.drop_zero,
        List.getElem?_map]; rfl
    | cons entry entries =>
      cases i with
      | zero => rfl
      | succ i => exact ih i entries

theorem align_take (r : Reply) (ds : List Document) :
    align { r with entries := r.entries.take ds.length } ds = align r ds := by
  have hitems : (align { r with entries := r.entries.take ds.length } ds).items =
      (align r ds).items := by
    refine List.ext_getElem? fun i => ?_
    rw [items_getElem?, items_getElem?, List.getElem?_take]
    by_cases hi : i < ds.length
    · rw [if_pos hi]
    · rw [List.getElem?_eq_none (Nat.le_of_not_lt hi)]
      rfl
  exact congrArg BulkResponse.mk hitems

/-! ### What a verdict is read from -/

/-- The member of a value that is read as a verdict. -/
def Verdict.given? (name : String) (w : Json) : Option Json :=
  (Json.Fields.of? ["_id", "status", "error"] w).bind fun f => f.find? name

theorem optionally_none_iff {α : Type} {read : Json → Option α} {w? : Option Json} {o : Option α}
    (h : Json.optionally read w? = some o) : o = none ↔ w? = none ∨ w? = some .null := by
  rcases w? with _ | w
  · simpa [Json.optionally] using h.symm
  · by_cases hw : w = .null
    · subst hw
      simpa [Json.optionally] using h.symm
    · rw [Json.optionally_some hw] at h
      obtain ⟨a, -, rfl⟩ := Option.map_eq_some_iff.1 h
      simp [hw]

/-- A verdict has no error, or no id, where the value leaves it out or has `null` for it. -/
theorem Verdict.absent_iff {w : Json} {v : Verdict} (h : Verdict.ofJson? w = some v) :
    (v.error = none ↔ given? "error" w = none ∨ given? "error" w = some .null) ∧
      (v.id = none ↔ given? "_id" w = none ∨ given? "_id" w = some .null) := by
  unfold given?
  unfold Verdict.ofJson? at h
  cases hf : Json.Fields.of? ["_id", "status", "error"] w with
  | none =>
    rw [hf] at h
    cases h
  | some f =>
    simp only [hf, Option.bind_some, Option.bind_eq_bind, Option.bind_eq_some_iff,
      Json.Fields.orAbsent_eq] at h ⊢
    obtain ⟨id, hid, status, -, error, herror, hv⟩ := h
    obtain rfl := Option.some.inj hv
    exact ⟨optionally_none_iff herror, optionally_none_iff hid⟩

/-! ### Answers -/

/-- **The items of an answer.** A reply that can be read is answered with one item for each document,
in their order. The item of a document that a verdict at its place speaks for has the id of the verdict,
or else that of the document, and its status; it is a success only for a status below 300 without an
error. The item of any other document is a failure that is worth a repetition. Entries behind the last
document do not count, and it is noted exactly if there are fewer of them than documents. An error or an
id that is `null` in the reply is as good as none. -/
theorem items_by_place (r : Reply) (ds : List Document) :
    let items := (align r ds).items
    (∀ status body, Http.isSuccess status = true →
      (Json.read? body.toList).bind Reply.ofJson? = some r →
      answerOf ds (.reply status body) = (shortfall r ds, .ok (align r ds))) ∧
    items.length = ds.length ∧
    (∀ (i : Nat) (d : Document), ds[i]? = some d → ∃ item, items[i]? = some item ∧
      ((∃ entry v, r.entries[i]? = some entry ∧ Speaks entry v ∧ item.id = v.id.getD d.id ∧
          item.status = v.status ∧ (item.isSuccess = true ↔ v.error = none ∧ v.status < 300)) ∨
        ((∀ entry, r.entries[i]? = some entry → entry.values = []) ∧ item.id = d.id ∧
          item.status = 500 ∧ item.isSuccess = false ∧ item.isRetryable = true))) ∧
    align { r with entries := r.entries.take ds.length } ds = align r ds ∧
    ((r.entries.length < ds.length ∧
        shortfall r ds = [.shortResponse ds.length r.entries.length r.errors]) ∨
      (ds.length ≤ r.entries.length ∧ shortfall r ds = [])) ∧
    ∀ w v, Verdict.ofJson? w = some v →
      (v.error = none ↔ Verdict.given? "error" w = none ∨ Verdict.given? "error" w = some .null) ∧
      (v.id = none ↔ Verdict.given? "_id" w = none ∨ Verdict.given? "_id" w = some .null) := by
  intro items
  refine ⟨fun status body hstatus hr => ?_, length_align r ds, fun i d hd => ?_, align_take r ds, ?_,
    fun w v h => Verdict.absent_iff h⟩
  · unfold answerOf
    dsimp only
    rw [if_pos hstatus, hr]
  · have hitem := items_getElem? r ds i
    rw [hd, Option.map_some] at hitem
    refine ⟨_, hitem, ?_⟩
    cases hentry : r.entries[i]? with
    | none => exact Or.inr ⟨nofun, rfl, rfl, rfl, rfl⟩
    | some entry =>
      rw [Option.elim_some, itemOf]
      rcases verdict?_cases entry with ⟨hvalues, hnone⟩ | ⟨v, hv, hspeaks⟩
      · rw [hnone]
        refine Or.inr ⟨fun entry' h => ?_, rfl, rfl, rfl, rfl⟩
        rwa [← Option.some.inj h]
      · rw [hv]
        exact Or.inl ⟨entry, v, rfl, hspeaks, item_spec d v⟩
  · unfold shortfall
    by_cases hshort : r.entries.length < ds.length
    · exact Or.inl ⟨hshort, if_pos hshort⟩
    · exact Or.inr ⟨Nat.le_of_not_lt hshort, if_neg hshort⟩

/-- Four entries for five documents: a success whose error is `null`, a failure under another action, a
status that is none of a success, and an empty one. -/
theorem items_by_place_mixed :
    let ds : List Document := [⟨"a", "1"⟩, ⟨"b", "2"⟩, ⟨"c", "3"⟩, ⟨"d", "4"⟩, ⟨"e", "5"⟩]
    let body := "\x7b\"errors\":true,\"items\":[" ++
      "\x7b\"index\":\x7b\"_id\":\"a\",\"status\":201,\"error\":null\x7d\x7d," ++
      "\x7b\"create\":\x7b\"status\":429,\"error\":\"busy\"\x7d\x7d," ++
      "\x7b\"index\":\x7b\"status\":302\x7d\x7d,\x7b\x7d]\x7d"
    let made : Json := .object [("status", .int 201), ("error", .null)]
    Http.isSuccess 200 = true ∧ ds[4]? = some ⟨"e", "5"⟩ ∧
      Verdict.ofJson? made = some ⟨none, 201, none⟩ ∧
      (Verdict.given? "error" made = none ∨ Verdict.given? "error" made = some .null) ∧
      ∃ r, (Json.read? body.toList).bind Reply.ofJson? = some r ∧
        shortfall r ds = [.shortResponse 5 4 true] ∧
        (align r ds).items.map (fun i => (i.id, i.status, i.isSuccess)) =
          [("a", 201, true), ("b", 429, false), ("c", 302, false), ("d", 500, false),
            ("e", 500, false)] ∧
        ∃ item, (align r ds).items[4]? = some item ∧ item.id = "e" ∧ item.isRetryable = true := by
  intro ds body made
  have hstatus : Http.isSuccess 200 = true := by decide
  have hlast : ds[4]? = some ⟨"e", "5"⟩ := rfl
  have hmade : Verdict.ofJson? made = some ⟨none, 201, none⟩ := rfl
  have hvalue : answerOf ds (.reply 200 body) = ([.shortResponse 5 4 true], .ok ⟨[
      ⟨"a", 201, none⟩, ⟨"b", 429, some "\"busy\""⟩, ⟨"c", 302, some "unexpected item status"⟩,
      ⟨"d", 500, some "missing bulk item"⟩, ⟨"e", 500, some "missing bulk item"⟩]⟩) := by
    decide +kernel
  obtain ⟨_, _, r, hexchange, hr, -⟩ := reply_of_answerOf (congrArg Prod.snd hvalue)
  cases hexchange
  obtain ⟨hanswer, -, hitems, -, hnoted, habsent⟩ := items_by_place r ds
  rw [hanswer 200 body hstatus hr, Prod.mk.injEq, Except.ok.injEq] at hvalue
  obtain ⟨hshort, halign⟩ := hvalue
  have hlength : r.entries.length = 4 := by
    rcases hnoted with ⟨-, h⟩ | ⟨-, h⟩
    · rw [hshort, List.cons.injEq, Event.shortResponse.injEq] at h
      exact h.1.2.1.symm
    · rw [hshort] at h
      cases h
  obtain ⟨item, hitem, hreport⟩ := hitems 4 _ hlast
  refine ⟨hstatus, hlast, hmade, (habsent made _ hmade).1.1 rfl, r, hr, hshort, by rw [halign]; rfl,
    item, hitem, ?_⟩
  rcases hreport with ⟨entry, v, hentry, -⟩ | ⟨-, hid, -, -, hretryable⟩
  · rw [List.getElem?_eq_none (Nat.le_of_eq hlength)] at hentry
    cases hentry
  · exact ⟨hid, hretryable⟩

end Bulk

end SpanRelay
