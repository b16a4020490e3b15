import SpanRelay.Proofs.Json.Reread
import SpanRelay.Store.Document

/-! # Written spans

Everything in the record of a span but its property values is flat, so the record can be read if these
nest three levels less deep than the reader goes (`fits_toJson`). The document of such a span is read
as the `reread` of its record (`parse?_body_ofSpan`). -/

namespace SpanRelay

namespace Json

/-- The value can be written and read: its whole numbers are of 64 bits, and it nests at most `k`
deep. -/
structure Fits (k : Nat) (v : Json) : Prop where
  inRange : v.inRange = true
  height : v.height ≤ k

variable {k : Nat}

theorem fits_text (k : Nat) (s : String) : (Json.text s).Fits k := ⟨rfl, Nat.zero_le k⟩

theorem fits_ofWord64 (k : Nat) (n : UInt64) : (ofWord64 n).Fits k := by
  refine ⟨?_, Nat.zero_le k⟩
  have hlt : n.toNat < Word.range 64 := n.toNat_lt
  rw [ofWord64, Json.inRange, Bool.and_eq_true, decide_eq_true_eq, decide_eq_true_eq]
  omega

theorem fits_object {ms : List (String × Json)} (h : ∀ m ∈ ms, m.2.Fits k) :
    (Json.object ms).Fits (k + 1) :=
  ⟨inRangeMembers_of_forall fun m hm => (h m hm).inRange,
    Nat.succ_le_succ (heightMembers_le fun m hm => (h m hm).height)⟩

/-- The members fit. -/
def FitsAll (k : Nat) (ms : List (String × Json)) : Prop := ∀ m ∈ ms, m.2.Fits k

theorem FitsAll.append {ms ns : List (String × Json)} (h : FitsAll k ms) (h' : FitsAll k ns) :
    FitsAll k (ms ++ ns) := fun m hm => (List.mem_append.1 hm).elim (h m) (h' m)

theorem fitsAll_field {v : Json} (h : v.Fits k) (name : String) : FitsAll k (field name v) := by
  intro m hm
  rw [List.mem_singleton.1 hm]
  exact h

theorem fitsAll_optionalField {α : Type} {write : α → Json} {o : Option α}
    (h : ∀ a, o = some a → (write a).Fits k) (name : String) :
    FitsAll k (optionalField name write o) := by
  cases o with
  | none => exact nofun
  | some a => exact fitsAll_field (h a rfl) name

theorem fitsAll_text (k : Nat) (name s : String) : FitsAll k (field name (.text s)) :=
  fitsAll_field (fits_text k s) name

theorem fitsAll_optionalText (k : Nat) (name : String) (o : Option String) :
    FitsAll k (optionalField name .text o) := fitsAll_optionalField (fun s _ => fits_text k s) name

theorem fitsAll_optionalTime (k : Nat) (name : String) (o : Option Timestamp) :
    FitsAll k (optionalField name Timestamp.toJson o) :=
  fitsAll_optionalField (fun _ _ => fits_text k _) name

theorem fitsAll_optionalWord (k : Nat) (name : String) (o : Option UInt64) :
    FitsAll k (optionalField name ofWord64 o) :=
  fitsAll_optionalField (fun n _ => fits_ofWord64 k n) name

theorem fits_ofTextMap (k : Nat) (m : Map.Sorted String) : (ofTextMap m).Fits (k + 1) := by
  refine fits_object fun e he => ?_
  obtain ⟨e, -, rfl⟩ := List.mem_map.1 he
  exact fits_text k e.2

end Json

open Json

/-- The property values of a snapshot nest at most `k` deep, and their whole numbers are of 64 bits. -/
def Snapshot.Bounded (k : Nat) (s : Snapshot) : Prop :=
  ∀ properties, s.properties = some properties → ∀ e ∈ properties.entries, e.2.Fits k

/-- The property values captured on both sides are bounded. -/
def Span.Bounded (k : Nat) (x : Span) : Prop :=
  ∀ s, x.before = some s ∨ x.after = some s → s.Bounded k

theorem Snapshot.fits_toJson {k : Nat} {s : Snapshot} (h : s.Bounded k) : s.toJson.Fits (k + 2) :=
  fits_object <| (((fitsAll_optionalText _ _ _).append
    (fitsAll_optionalField (fun m _ => fits_ofTextMap _ m) _)).append
    (fitsAll_optionalField (fun m hm => fits_object (h m hm)) _)).append
    (fitsAll_optionalField (fun m _ => fits_ofTextMap _ m) _)

theorem ExceptionSummary.fits_toJson (k : Nat) (e : ExceptionSummary) : e.toJson.Fits (k + 1) :=
  fits_object <| ((fitsAll_text k _ _).append (fitsAll_text k _ _)).append
    (fitsAll_optionalText k _ _)

theorem Stamp.fits_members (k : Nat) (s : Stamp) : FitsAll k s.members := by
  unfold Stamp.members
  repeat' apply FitsAll.append
  all_goals first
    | exact fitsAll_text _ _ _
    | exact fitsAll_optionalText _ _ _
    | exact fitsAll_optionalTime _ _ _
    | exact fitsAll_optionalWord _ _ _

/-- **The record of a span** can be read if its property values nest three levels less deep. -/
theorem Span.fits_toJson {k : Nat} {x : Span} (h : x.Bounded k) : x.toJson.Fits (k + 3) := by
  have hbefore : FitsAll (k + 2) (optionalField "before" Snapshot.toJson x.before) :=
    fitsAll_optionalField (fun s hs => Snapshot.fits_toJson (h s (Or.inl hs))) _
  have hafter : FitsAll (k + 2) (optionalField "after" Snapshot.toJson x.after) :=
    fitsAll_optionalField (fun s hs => Snapshot.fits_toJson (h s (Or.inr hs))) _
  have hexception : FitsAll (k + 2) (optionalField "exception" ExceptionSummary.toJson x.exception) :=
    fitsAll_optionalField (fun e _ => ExceptionSummary.fits_toJson _ e) _
  refine fits_object (FitsAll.append ?_ (Stamp.fits_members _ _))
  repeat' apply FitsAll.append
  all_goals first
    | exact fitsAll_text _ _ _
    | exact fitsAll_optionalText _ _ _
    | exact fitsAll_optionalTime _ _ _
    | exact fitsAll_optionalWord _ _ _
    | assumption

/-- The property values of a span nest as deep as the reader allows within its record. -/
def Span.Readable (x : Span) : Prop := x.Bounded (maxDepth - 3)

/-- **The document of a span** is read as its record. -/
theorem parse?_body_ofSpan {x : Span} (h : x.Readable) :
    parse? (Document.ofSpan x).body = some x.toJson.reread := by
  have hfits := Span.fits_toJson h
  exact parse?_compact hfits.inRange hfits.height

end SpanRelay
