import SpanRelay.Json.Record
import SpanRelay.Proofs.Json.Reread

/-! # Values that come back as they were

A value without floating point numbers is read back as itself (`reread_of_exact`). Where a record holds
free values it holds them in their canonical form, with the members of every object sorted, and this
form does not change when it is read again (`valueMap?_ofValueMap`). `isExact` says both of a value. -/

namespace SpanRelay

/-! ### Sorted maps -/

namespace Map

variable {α : Type}

theorem insertEntry_of_lt {name : String} {value : α} {es : List (String × α)}
    (h : ∀ e ∈ es, e.1 < name) : insertEntry name value es = es ++ [(name, value)] := by
  induction es with
  | nil => rfl
  | cons e es ih =>
    have hlt : e.1 < name := h e List.mem_cons_self
    have hne : name ≠ e.1 := fun he => String.lt_irrefl name (he ▸ hlt)
    have hge : ¬ name < e.1 := fun hgt => String.lt_irrefl name (String.lt_trans hgt hlt)
    rw [insertEntry, if_neg hge, if_neg hne, ih fun d hd => h d (List.mem_cons_of_mem _ hd)]
    rfl

theorem Sorted.entries_foldl_insert {m : Sorted α} {es : List (String × α)}
    (h : (m.entries ++ es).Pairwise fun a b => a.1 < b.1) :
    (es.foldl (fun m e => m.insert e.1 e.2) m).entries = m.entries ++ es := by
  induction es generalizing m with
  | nil => exact (List.append_nil _).symm
  | cons e es ih =>
    have hinsert : (m.insert e.1 e.2).entries = m.entries ++ [e] :=
      insertEntry_of_lt fun d hd => (List.pairwise_append.1 h).2.2 d hd e List.mem_cons_self
    rw [List.foldl_cons, ih, hinsert, List.append_assoc, List.singleton_append]
    rw [hinsert, List.append_assoc, List.singleton_append]
    exact h

/-- **Sorted entries** are the entries of their map. -/
theorem Sorted.entries_ofList {es : List (String × α)} (h : es.Pairwise fun a b => a.1 < b.1) :
    (ofList es).entries = es := entries_foldl_insert (m := empty) h

theorem Sorted.ofList_entries (m : Sorted α) : ofList m.entries = m :=
  eq_of_entries_eq (entries_ofList m.sorted)

end Map

namespace Json

/-! ### Exact values -/

mutual

/-- Whether the value has no floating point numbers, its whole numbers are of 64 bits, and the members
of its objects are sorted by name, each name once. -/
def isExact : Json → Bool
  | .null | .bool _ | .text _ => true
  | .int n => (Json.int n).inRange
  | .real _ | .unreadable => false
  | .list vs => isExactItems vs
  | .object ms => isExactMembers ms && decide (ms.Pairwise fun a b => a.1 < b.1)

def isExactItems : List Json → Bool
  | [] => true
  | v :: vs => isExact v && isExactItems vs

def isExactMembers : List (String × Json) → Bool
  | [] => true
  | (_, v) :: ms => isExact v && isExactMembers ms

end

mutual

theorem inRange_of_exact : ∀ v : Json, v.isExact = true → v.inRange = true
  | .null, _ | .bool _, _ | .text _, _ => rfl
  | .int _, h => h
  | .list vs, h => inRangeItems_of_exact vs h
  | .object ms, h => inRangeMembers_of_exact ms (Bool.and_eq_true_iff.1 h).1

theorem inRangeItems_of_exact : ∀ vs : List Json, isExactItems vs = true → inRangeItems vs = true
  | [], _ => rfl
  | v :: vs, h => by
    obtain ⟨hv, hvs⟩ := Bool.and_eq_true_iff.1 h
    rw [inRangeItems, inRange_of_exact v hv, inRangeItems_of_exact vs hvs]
    rfl

theorem inRangeMembers_of_exact : ∀ ms : List (String × Json),
    isExactMembers ms = true → inRangeMembers ms = true
  | [], _ => rfl
  | (_, v) :: ms, h => by
    obtain ⟨hv, hms⟩ := Bool.and_eq_true_iff.1 h
    rw [inRangeMembers, inRange_of_exact v hv, inRangeMembers_of_exact ms hms]
    rfl

end

mutual

/-- **An exact value** is read back as itself. -/
theorem reread_of_exact : ∀ v : Json, v.isExact = true → v.reread = v
  | .null, _ | .bool _, _ | .text _, _ | .int _, _ => rfl
  | .list vs, h => congrArg Json.list (rereadItems_of_exact vs h)
  | .object ms, h => congrArg Json.object (rereadMembers_of_exact ms (Bool.and_eq_true_iff.1 h).1)

theorem rereadItems_of_exact : ∀ vs : List Json, isExactItems vs = true → rereadItems vs = vs
  | [], _ => rfl
  | v :: vs, h => by
    obtain ⟨hv, hvs⟩ := Bool.and_eq_true_iff.1 h
    rw [rereadItems, reread_of_exact v hv, rereadItems_of_exact vs hvs]

theorem rereadMembers_of_exact : ∀ ms : List (String × Json),
    isExactMembers ms = true → rereadMembers ms = ms
  | [], _ => rfl
  | (name, v) :: ms, h => by
    obtain ⟨hv, hms⟩ := Bool.and_eq_true_iff.1 h
    rw [rereadMembers, reread_of_exact v hv, rereadMembers_of_exact ms hms]

end

mutual

theorem canonical_of_exact : ∀ v : Json, v.isExact = true → v.canonical = v
  | .null, _ | .bool _, _ | .text _, _ | .int _, _ => rfl
  | .list vs, h => congrArg Json.list (canonicalItems_of_exact vs h)
  | .object ms, h => by
    obtain ⟨hms, hsorted⟩ := Bool.and_eq_true_iff.1 h
    rw [canonical, canonicalMembers_of_exact ms hms,
      Map.Sorted.entries_ofList (of_decide_eq_true hsorted)]

theorem canonicalItems_of_exact : ∀ vs : List Json, isExactItems vs = true → canonicalItems vs = vs
  | [], _ => rfl
  | v :: vs, h => by
    obtain ⟨hv, hvs⟩ := Bool.and_eq_true_iff.1 h
    rw [canonicalItems, canonical_of_exact v hv, canonicalItems_of_exact vs hvs]

theorem canonicalMembers_of_exact : ∀ ms : List (String × Json),
    isExactMembers ms = true → canonicalMembers ms = ms
  | [], _ => rfl
  | (name, v) :: ms, h => by
    obtain ⟨hv, hms⟩ := Bool.and_eq_true_iff.1 h
    rw [canonicalMembers, canonical_of_exact v hv, canonicalMembers_of_exact ms hms]

end

/-! ### Maps -/

theorem mapM_written {α β : Type} {write : α → β} {read : β → Option α} {as : List α}
    (h : ∀ a ∈ as, read (write a) = some a) : (as.map write).mapM read = some as := by
  induction as with
  | nil => rfl
  | cons a as ih =>
    rw [List.map_cons, List.mapM_cons, h a List.mem_cons_self,
      ih fun b hb => h b (List.mem_cons_of_mem _ hb)]
    rfl

theorem textMap?_ofTextMap (m : Map.Sorted String) : textMap? (ofTextMap m) = some m := by
  have hentries : (m.entries.map fun e => (e.1, Json.text e.2)).mapM
      (fun m => m.2.text?.map fun s => (m.1, s)) = some m.entries := mapM_written fun _ _ => rfl
  rw [ofTextMap, textMap?, hentries]
  exact congrArg some m.ofList_entries

theorem valueMap?_ofValueMap {m : Map.Sorted Json} (h : isExactMembers m.entries = true) :
    valueMap? (ofValueMap m) = some m := by
  have hreadable : readableMembers m.entries = true := by
    rw [← rereadMembers_of_exact _ h]
    exact readable_rereadMembers _
  rw [ofValueMap, valueMap?, if_pos hreadable, canonicalMembers_of_exact _ h, m.ofList_entries]

end Json

end SpanRelay
