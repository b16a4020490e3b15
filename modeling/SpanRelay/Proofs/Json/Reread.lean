import SpanRelay.Proofs.Json.Scalar

/-! # Values that are read back

A value that was written is read as `reread` says: the same value, but for floating point numbers,
which come back as scaled reading makes them, and for what has no written form of its own, which comes
back as `null` (`parse?_compact`). It has to nest no deeper than `maxDepth`, and its whole numbers have
to be of 64 bits. The proof follows the printer (`value?_print`), with two steps of fuel for each
character. -/

namespace SpanRelay.Json

open Text Decimal

/-! ### What is read -/

mutual

/-- The value as it is read from its text. -/
def reread : Json → Json
  | .list vs => .list (rereadItems vs)
  | .object ms => .object (rereadMembers ms)
  | .real x => (Decimal.reread x).elim .null .real
  | .unreadable => .null
  | .null => .null
  | .bool b => .bool b
  | .int n => .int n
  | .text s => .text s

def rereadItems : List Json → List Json
  | [] => []
  | v :: vs => reread v :: rereadItems vs

def rereadMembers : List (String × Json) → List (String × Json)
  | [] => []
  | (name, v) :: ms => (name, reread v) :: rereadMembers ms

end

mutual

/-- How deep lists and objects nest. -/
def height : Json → Nat
  | .list vs => heightItems vs + 1
  | .object ms => heightMembers ms + 1
  | .null | .bool _ | .int _ | .real _ | .text _ | .unreadable => 0

def heightItems : List Json → Nat
  | [] => 0
  | v :: vs => max (height v) (heightItems vs)

def heightMembers : List (String × Json) → Nat
  | [] => 0
  | (_, v) :: ms => max (height v) (heightMembers ms)

end

mutual

/-- Whether the whole numbers are of 64 bits, with or without a sign. -/
def inRange : Json → Bool
  | .list vs => inRangeItems vs
  | .object ms => inRangeMembers ms
  | .int n => -(Word.range 63 : Int) ≤ n && n < (Word.range 64 : Int)
  | .null | .bool _ | .real _ | .text _ | .unreadable => true

def inRangeItems : List Json → Bool
  | [] => true
  | v :: vs => inRange v && inRangeItems vs

def inRangeMembers : List (String × Json) → Bool
  | [] => true
  | (_, v) :: ms => inRange v && inRangeMembers ms

end

/-! ### Members and items -/

theorem inRangeMembers_of_forall {ms : List (String × Json)} (h : ∀ m ∈ ms, m.2.inRange = true) :
    inRangeMembers ms = true := by
  induction ms with
  | nil => rfl
  | cons m ms ih =>
    rw [inRangeMembers, h m List.mem_cons_self, ih fun m' hm' => h m' (List.mem_cons_of_mem _ hm')]
    rfl

theorem heightMembers_le {k : Nat} {ms : List (String × Json)} (h : ∀ m ∈ ms, m.2.height ≤ k) :
    heightMembers ms ≤ k := by
  induction ms with
  | nil => exact Nat.zero_le k
  | cons m ms ih =>
    exact Nat.max_le.2 ⟨h m List.mem_cons_self, ih fun m' hm' => h m' (List.mem_cons_of_mem _ hm')⟩

theorem inRangeItems_of_forall {vs : List Json} (h : ∀ v ∈ vs, v.inRange = true) :
    inRangeItems vs = true := by
  induction vs with
  | nil => rfl
  | cons v vs ih =>
    rw [inRangeItems, h v List.mem_cons_self, ih fun w hw => h w (List.mem_cons_of_mem _ hw)]
    rfl

theorem heightItems_le {k : Nat} {vs : List Json} (h : ∀ v ∈ vs, v.height ≤ k) :
    heightItems vs ≤ k := by
  induction vs with
  | nil => exact Nat.zero_le k
  | cons v vs ih =>
    exact Nat.max_le.2 ⟨h v List.mem_cons_self, ih fun w hw => h w (List.mem_cons_of_mem _ hw)⟩

/-! ### Readability -/

mutual

theorem readable_reread : ∀ v : Json, v.reread.readable = true
  | .list vs => readable_rereadItems vs
  | .object ms => readable_rereadMembers ms
  | .real x => by
    rw [reread]
    cases Decimal.reread x <;> rfl
  | .unreadable | .null | .bool _ | .int _ | .text _ => rfl

theorem readable_rereadItems : ∀ vs : List Json, readableItems (rereadItems vs) = true
  | [] => rfl
  | v :: vs => by
    rw [rereadItems, readableItems, readable_reread v, readable_rereadItems vs]
    rfl

theorem readable_rereadMembers : ∀ ms : List (String × Json),
    readableMembers (rereadMembers ms) = true
  | [] => rfl
  | (_, v) :: ms => by
    rw [rereadMembers, readableMembers, readable_reread v, readable_rereadMembers ms]
    rfl

end

/-! ### Values without parts -/

variable {fuel depth : Nat} {rest : List Char}

theorem skipSpace_cons {c : Char} (h : isSpace c = false) (cs : List Char) :
    skipSpace (c :: cs) = c :: cs := by
  unfold skipSpace
  rw [List.dropWhile_cons_of_neg]
  rw [h]
  exact Bool.false_ne_true

theorem value?_decimal {c : Char} (h : isDecimal c = true) (cs : List Char) :
    value? (fuel + 1) depth (c :: cs) = number? false (c :: cs) := by
  have hne : ∀ d, isDecimal d = false → c ≠ d := by
    rintro d hd rfl
    rw [h] at hd
    cases hd
  have hspace : isSpace c = false := by
    unfold isSpace
    simp [hne ' ' rfl, hne '\n' rfl, hne '\t' rfl, hne '\r' rfl]
  rw [value?, skipSpace_cons hspace]
  split
  all_goals first
    | rfl
    | rename_i he; exact absurd (List.cons.inj he).1 (hne _ rfl)

theorem value?_signed {negative : Bool} {cs : List Char} {v : Json}
    (hcs : ∃ c cs', cs = c :: cs' ∧ isDecimal c = true)
    (h : number? negative (cs ++ rest) = some (v, rest)) :
    value? (fuel + 1) depth ((if negative then ['-'] else []) ++ cs ++ rest) = some (v, rest) := by
  cases negative with
  | true => exact h
  | false =>
    obtain ⟨c, cs', rfl, hc⟩ := hcs
    exact (value?_decimal hc _).trans h

theorem exists_cons_digits (n : Nat) : ∃ c cs, digits n = c :: cs ∧ isDecimal c = true := by
  obtain ⟨c, cs, hcs⟩ := List.exists_cons_of_ne_nil (digits_ne_nil n)
  exact ⟨c, cs, hcs, isDecimal_of_mem_digits n c (by rw [hcs]; exact List.mem_cons_self)⟩

theorem value?_int {n : Int} (hn : (Json.int n).inRange = true) (h : Follows rest) :
    value? (fuel + 1) depth (signedDigits n ++ rest) = some (.int n, rest) := by
  obtain ⟨hlow, hhigh⟩ := Bool.and_eq_true_iff.1 hn
  have hlow := of_decide_eq_true hlow
  have hhigh := of_decide_eq_true hhigh
  have hsigned : signedDigits n = (if decide (n < 0) then ['-'] else []) ++ digits n.natAbs := by
    unfold signedDigits
    by_cases hneg : n < 0 <;> simp [hneg]
  have hwhole : whole? (decide (n < 0)) (digits n.natAbs) = some (.int n) := by
    unfold whole?
    rw [ofDigits_digits]
    dsimp only
    by_cases hneg : n < 0
    · rw [if_pos (decide_eq_true hneg), if_pos (by omega)]
      congr 2
      omega
    · rw [if_neg (by simpa using hneg), if_pos (by omega)]
      congr 2
      omega
  rw [hsigned]
  exact value?_signed (exists_cons_digits _) (number?_digits h hwhole)

/-- A finite number is written as the numeral of its shortest decimal, behind its sign. -/
theorem printReal_finite {x : Float} {negative : Bool} {m : Nat} {p : Int}
    (h : Shape.ofFloat x = .finite negative m p) :
    (shortest m p).numeral.Proper ∧
      printReal x = (if negative then ['-'] else []) ++ (shortest m p).numeral.text := by
  obtain ⟨hm, hp, hp'⟩ := bounds_of_finite h
  refine ⟨Digits.proper_numeral (significand_shortest_eq_zero hm hp hp'), ?_⟩
  rw [printReal, h]
  dsimp only
  rw [Layout.write, h]
  dsimp only
  rw [writeDigits_exchange]

theorem printReal_of_ne {x : Float} (h : ∀ negative m p, Shape.ofFloat x ≠ .finite negative m p) :
    printReal x = ['n', 'u', 'l', 'l'] := by
  unfold printReal
  split
  · exact absurd ‹_› (h _ _ _)
  · rfl

theorem value?_real (x : Float) (h : Follows rest) :
    value? (fuel + 1) depth (printReal x ++ rest) =
      some ((Decimal.reread x).elim .null .real, rest) := by
  have hnull : value? (fuel + 1) depth (['n', 'u', 'l', 'l'] ++ rest) = some (.null, rest) := rfl
  cases hx : Shape.ofFloat x with
  | nan =>
    rw [printReal_of_ne (by simp [hx]), Decimal.reread, hx]
    exact hnull
  | infinite negative =>
    rw [printReal_of_ne (by simp [hx]), Decimal.reread, hx]
    exact hnull
  | finite negative m p =>
    obtain ⟨y, hy, hread⟩ := exists_reread hx
    obtain ⟨hproper, htext⟩ := printReal_finite hx
    obtain ⟨c, cs, hcs⟩ := List.exists_cons_of_ne_nil hproper.nonempty
    have hc : isDecimal c = true := hproper.whole c (by rw [hcs]; exact List.mem_cons_self)
    rw [hread, htext]
    refine value?_signed ?_ (number?_text hproper hy h)
    rw [Numeral.text, hcs, List.cons_append]
    exact ⟨c, _, rfl, hc⟩

theorem value?_quoted (s : String) :
    value? (fuel + 1) depth (quoted s ++ rest) = some (.text s, rest) := by
  have hquote : ∀ cs, value? (fuel + 1) depth ('"' :: cs) =
      (string? cs).bind fun r => some (r.1.elim .unreadable .text, r.2) := fun _ => rfl
  rw [quoted, List.cons_append, List.append_assoc, hquote, List.singleton_append, string?_quoted]
  rfl

/-! ### Lists and objects -/

theorem nested_of_lt (h : depth < maxDepth) (v : Json) : nested depth v = v := if_pos h

theorem exists_cons_print (v : Json) : ∃ c cs, v.print = c :: cs ∧ isSpace c = false ∧ c ≠ ']' := by
  have hdigit : ∀ c, isDecimal c = true → isSpace c = false ∧ c ≠ ']' := by
    intro c hc
    have hne : ∀ d, isDecimal d = false → c ≠ d := by
      rintro d hd rfl
      rw [hc] at hd
      cases hd
    refine ⟨?_, hne ']' rfl⟩
    unfold isSpace
    simp [hne ' ' rfl, hne '\n' rfl, hne '\t' rfl, hne '\r' rfl]
  cases v with
  | null | unreadable => exact ⟨'n', _, rfl, rfl, by decide⟩
  | bool b => cases b <;> exact ⟨_, _, rfl, rfl, by decide⟩
  | text s => exact ⟨'"', _, rfl, rfl, by decide⟩
  | int n =>
    obtain ⟨c, cs, hcs, hc⟩ := exists_cons_digits n.natAbs
    rw [print, signedDigits]
    split
    · exact ⟨'-', _, rfl, rfl, by decide⟩
    · exact ⟨c, cs, hcs, hdigit c hc⟩
  | real x =>
    rw [print]
    cases hx : Shape.ofFloat x with
    | nan | infinite negative =>
      rw [printReal_of_ne (by simp [hx])]
      exact ⟨'n', _, rfl, rfl, by decide⟩
    | finite negative m p =>
      obtain ⟨hproper, htext⟩ := printReal_finite hx
      obtain ⟨c, cs, hcs⟩ := List.exists_cons_of_ne_nil hproper.nonempty
      rw [htext, Numeral.text, hcs, List.cons_append]
      cases negative with
      | true => exact ⟨'-', _, rfl, rfl, by decide⟩
      | false =>
        exact ⟨c, _, rfl, hdigit c (hproper.whole c (by rw [hcs]; exact List.mem_cons_self))⟩
  | list vs => cases vs <;> exact ⟨'[', _, by rw [print], rfl, by decide⟩
  | object ms => cases ms <;> exact ⟨'{', _, by rw [print], rfl, by decide⟩

theorem follows_printItems (vs : List Json) : Follows (printItems vs ++ rest) := by
  cases vs with
  | nil => exact follows_cons (Or.inr (Or.inl rfl)) _
  | cons v vs => exact follows_cons (Or.inl rfl) _

theorem follows_printMembers (ms : List (String × Json)) : Follows (printMembers ms ++ rest) := by
  cases ms with
  | nil => exact follows_cons (Or.inr (Or.inr rfl)) _
  | cons m ms => exact follows_cons (Or.inl rfl) _

theorem value?_bracket (cs : List Char) : value? (fuel + 1) depth ('[' :: cs) =
    match skipSpace cs with
    | ']' :: cs => some (nested depth (.list []), cs)
    | cs => (items? fuel (depth + 1) cs).bind fun r => some (nested depth (.list r.1), r.2) := rfl

theorem value?_list (v : Json) (tail : List Char) :
    value? (fuel + 1) depth ('[' :: (v.print ++ tail)) =
      (items? fuel (depth + 1) (v.print ++ tail)).bind fun r =>
        some (nested depth (.list r.1), r.2) := by
  obtain ⟨c, cs, hcs, hspace, hne⟩ := exists_cons_print v
  rw [value?_bracket, hcs, List.cons_append, skipSpace_cons hspace]
  split
  · rename_i he
    exact absurd (List.cons.inj he).1 hne
  · rfl

theorem value?_object (name : String) (tail : List Char) :
    value? (fuel + 1) depth ('{' :: (quoted name ++ tail)) =
      (members? fuel (depth + 1) (quoted name ++ tail)).bind fun r =>
        some (nested depth (r.1.elim .unreadable .object), r.2) := rfl

theorem items?_of_value {cs : List Char} {v : Json} (hv : value? fuel depth cs = some (v, rest)) :
    items? (fuel + 1) depth cs =
      match skipSpace rest with
      | ']' :: rest => some ([v], rest)
      | ',' :: rest => (items? fuel depth rest).bind fun r => some (v :: r.1, r.2)
      | _ => none := by
  rw [items?, hv]
  rfl

theorem members?_quote (cs : List Char) : members? (fuel + 1) depth ('"' :: cs) =
    (string? cs).bind fun s => match skipSpace s.2 with
      | ':' :: rest => (value? fuel depth rest).bind fun r => match skipSpace r.2 with
        | '}' :: rest => some (s.1.map fun name => [(name, r.1)], rest)
        | ',' :: rest => (members? fuel depth rest).bind fun t =>
            some (s.1.bind fun name => t.1.map ((name, r.1) :: ·), t.2)
        | _ => none
      | _ => none := rfl

theorem members?_of_value {name : String} {cs : List Char} {v : Json}
    (hv : value? fuel depth cs = some (v, rest)) :
    members? (fuel + 1) depth (quoted name ++ ':' :: cs) =
      match skipSpace rest with
      | '}' :: rest => some (some [(name, v)], rest)
      | ',' :: rest => (members? fuel depth rest).bind fun r =>
          some (r.1.map ((name, v) :: ·), r.2)
      | _ => none := by
  rw [quoted, List.cons_append, List.append_assoc, members?_quote, List.singleton_append,
    string?_quoted]
  change (value? fuel depth cs).bind _ = _
  rw [hv]
  rfl

mutual

/-- **A printed value** is read, with two steps of fuel for each character. -/
theorem value?_print : ∀ (v : Json) {fuel depth : Nat} {rest : List Char},
    v.inRange = true → depth + v.height ≤ maxDepth → 2 * v.print.length ≤ fuel → Follows rest →
      value? fuel depth (v.print ++ rest) = some (v.reread, rest)
  | v, 0, _, _, _, _, hf, _ => by
    obtain ⟨c, cs, hcs, -⟩ := exists_cons_print v
    rw [hcs, List.length_cons] at hf
    omega
  | .null, _ + 1, _, _, _, _, _, _ => rfl
  | .unreadable, _ + 1, _, _, _, _, _, _ => rfl
  | .bool true, _ + 1, _, _, _, _, _, _ => rfl
  | .bool false, _ + 1, _, _, _, _, _, _ => rfl
  | .int _, _ + 1, _, _, hn, _, _, hr => value?_int hn hr
  | .real x, _ + 1, _, _, _, _, _, hr => value?_real x hr
  | .text s, _ + 1, _, _, _, _, _, _ => value?_quoted s
  | .list [], fuel + 1, depth, rest, _, hd, _, _ => by
    have hlt : depth < maxDepth := by
      rw [height, heightItems] at hd
      omega
    exact congrArg (fun v => some (v, rest)) (nested_of_lt hlt (.list []))
  | .list (v :: vs), fuel + 1, depth, rest, hn, hd, hf, _ => by
    rw [height] at hd
    rw [print, List.length_cons, List.length_append] at hf
    rw [print, List.cons_append, List.append_assoc, value?_list,
      items?_print v vs hn (by omega) (by omega), Option.bind_some, nested_of_lt (by omega)]
    rfl
  | .object [], fuel + 1, depth, rest, _, hd, _, _ => by
    have hlt : depth < maxDepth := by
      rw [height, heightMembers] at hd
      omega
    exact congrArg (fun v => some (v, rest)) (nested_of_lt hlt (.object []))
  | .object ((name, v) :: ms), fuel + 1, depth, rest, hn, hd, hf, _ => by
    rw [height] at hd
    simp only [print, List.length_cons, List.length_append] at hf
    rw [print, List.cons_append, List.append_assoc, value?_object, List.cons_append,
      List.append_assoc, members?_print name v ms hn (by omega) (by omega), Option.bind_some,
      Option.elim_some, nested_of_lt (by omega)]
    rfl

theorem items?_print : ∀ (v : Json) (vs : List Json) {fuel depth : Nat} {rest : List Char},
    inRangeItems (v :: vs) = true → depth + heightItems (v :: vs) ≤ maxDepth →
      2 * (v.print.length + (printItems vs).length) + 1 ≤ fuel →
      items? fuel depth (v.print ++ (printItems vs ++ rest)) =
        some (rereadItems (v :: vs), rest)
  | v, vs, 0, _, _, _, _, hf => by omega
  | v, [], fuel + 1, depth, rest, hn, hd, hf => by
    rw [inRangeItems, Bool.and_eq_true_iff] at hn
    rw [heightItems] at hd
    have hv := @value?_print v fuel depth _ hn.1 (by omega) (by omega)
      (@follows_printItems rest [])
    rw [items?_of_value hv]
    rfl
  | v, w :: vs, fuel + 1, depth, rest, hn, hd, hf => by
    rw [inRangeItems, Bool.and_eq_true_iff] at hn
    rw [heightItems] at hd
    have hv := @value?_print v fuel depth _ hn.1 (by omega) (by omega)
      (@follows_printItems rest (w :: vs))
    simp only [printItems, List.length_cons, List.length_append] at hf
    have hvs := @items?_print w vs fuel depth rest hn.2 (by omega) (by omega)
    rw [items?_of_value hv]
    change (items? fuel depth (w.print ++ printItems vs ++ rest)).bind _ = _
    rw [List.append_assoc, hvs]
    rfl

theorem members?_print : ∀ (name : String) (v : Json) (ms : List (String × Json)) {fuel depth : Nat}
    {rest : List Char}, inRangeMembers ((name, v) :: ms) = true →
      depth + heightMembers ((name, v) :: ms) ≤ maxDepth →
      2 * ((quoted name).length + (v.print.length + (printMembers ms).length)) + 1 ≤ fuel →
      members? fuel depth (quoted name ++ ':' :: (v.print ++ (printMembers ms ++ rest))) =
        some (some (rereadMembers ((name, v) :: ms)), rest)
  | name, v, ms, 0, _, _, _, _, hf => by omega
  | name, v, [], fuel + 1, depth, rest, hn, hd, hf => by
    rw [inRangeMembers, Bool.and_eq_true_iff] at hn
    rw [heightMembers] at hd
    have hv := @value?_print v fuel depth _ hn.1 (by omega) (by omega)
      (@follows_printMembers rest [])
    rw [members?_of_value hv]
    rfl
  | name, v, (name', w) :: ms, fuel + 1, depth, rest, hn, hd, hf => by
    rw [inRangeMembers, Bool.and_eq_true_iff] at hn
    rw [heightMembers] at hd
    have hv := @value?_print v fuel depth _ hn.1 (by omega) (by omega)
      (@follows_printMembers rest ((name', w) :: ms))
    simp only [printMembers, List.length_cons, List.length_append] at hf
    have hms := @members?_print name' w ms fuel depth rest hn.2 (by omega) (by omega)
    rw [members?_of_value hv]
    change (members? fuel depth
      (quoted name' ++ ':' :: (w.print ++ printMembers ms) ++ rest)).bind _ = _
    rw [List.append_assoc, List.cons_append, List.append_assoc, hms]
    rfl

end

theorem read?_compact {v : Json} (hn : v.inRange = true) (hd : v.height ≤ maxDepth) :
    read? v.compact.toList = some v.reread := by
  have hv := @value?_print v (2 * v.print.length + 2) 0 [] hn (by omega) (by omega)
    follows_nil
  rw [List.append_nil] at hv
  unfold compact read?
  rw [String.toList_ofList, hv]
  rfl

/-- **A written value** is read as `reread` says. -/
theorem parse?_compact {v : Json} (hn : v.inRange = true) (hd : v.height ≤ maxDepth) :
    parse? v.compact = some v.reread := by
  unfold parse?
  rw [read?_compact hn hd]
  exact if_pos (readable_reread v)

end SpanRelay.Json
