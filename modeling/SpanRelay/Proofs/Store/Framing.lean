import SpanRelay.Proofs.Json.Printable
import SpanRelay.Store.Bulk

/-! # The lines of a bulk request

A bulk request is read line by line, so a newline inside a document would shift every action after it.
Actions and the bodies of spans are written values, and these are single lines. So the lines of a
request are the actions and bodies of its documents in order (`splitOn_body`), an action line is read
as the index and the id it names (`target?_action`), and `decode?` gets out of a request the documents
it was made of (`request_framing`). -/

namespace SpanRelay.Bulk

/-! ### Reading a request -/

/-- The index and the id that an action line names. -/
def target? (line : List Char) : Option (String × String) := do
  let v ← Json.parse? (String.ofList line)
  let named ← v.member? "index"
  return (← (named.member? "_index").bind Json.text?, ← (named.member? "_id").bind Json.text?)

/-- The documents of lines that stand in pairs, each with the index that its action names. -/
def paired? : List (List Char) → Option (List (String × Document))
  | [] => some []
  | [_] => none
  | line :: body :: rest => do
    let (index, id) ← target? line
    let ds ← paired? rest
    return (index, ⟨id, String.ofList body⟩) :: ds

/-- The documents of a request, each with its index. A newline ends each line, the last one
included. -/
def decode? (request : String) : Option (List (String × Document)) :=
  let lines := request.toList.splitOn '\n'
  if lines.getLast? = some [] then paired? lines.dropLast else none

/-- The two lines of each document. -/
def framed (index : String) (ds : List Document) : List (List Char) :=
  ds.flatMap fun d => [(action index d).print, d.body.toList]

variable {index : String} {ds : List Document}

/-! ### Splitting -/

/-- Text that ends each of its lines with a newline is split into these lines, and nothing is left
behind the last newline. -/
theorem splitOn_lines {ls : List (List Char)} (h : ∀ l ∈ ls, '\n' ∉ l) :
    (ls.flatMap (· ++ ['\n'])).splitOn '\n' = ls ++ [[]] := by
  induction ls with
  | nil => rfl
  | cons l ls ih =>
    have hl : l.splitOn '\n' = [l] := List.splitOn_eq_singleton (h l List.mem_cons_self)
    have ih := ih fun l' hl' => h l' (List.mem_cons_of_mem _ hl')
    rw [List.flatMap_cons, List.append_assoc, List.singleton_append, List.splitOn_append_cons_self, hl,
      ih]
    rfl

theorem toList_body (index : String) (ds : List Document) :
    (body index ds).toList = (framed index ds).flatMap (· ++ ['\n']) := by
  rw [body, String.toList_ofList, framed, List.flatMap_assoc]
  refine congrArg (List.flatMap · ds) (funext fun d => ?_)
  simp [lines]

theorem getLast?_body (index : String) (h : ds ≠ []) :
    (body index ds).toList.getLast? = some '\n' := by
  obtain ⟨init, d, rfl⟩ := (List.eq_nil_or_concat' ds).resolve_left h
  have hline : ∃ cs, lines index d = cs ++ ['\n'] :=
    ⟨(action index d).print ++ '\n' :: d.body.toList, by simp [lines]⟩
  obtain ⟨cs, hcs⟩ := hline
  rw [body, String.toList_ofList, List.flatMap_append, List.flatMap_singleton, hcs,
    ← List.append_assoc, List.getLast?_concat]

/-- **The lines of a request** are the actions and bodies of its documents, if no body has a
newline. -/
theorem splitOn_body (h : ∀ d ∈ ds, '\n' ∉ d.body.toList) :
    (body index ds).toList.splitOn '\n' = framed index ds ++ [[]] := by
  rw [toList_body]
  refine splitOn_lines fun l hl => ?_
  obtain ⟨d, hd, hl⟩ := List.mem_flatMap.1 hl
  simp only [List.mem_cons, List.not_mem_nil, or_false] at hl
  rcases hl with rfl | rfl
  · exact Json.newline_notMem_print _
  · exact h d hd

theorem newline_notMem_ofSpan (span : Span) : '\n' ∉ (Document.ofSpan span).body.toList := by
  rw [Document.ofSpan, Json.compact, String.toList_ofList]
  exact Json.newline_notMem_print _

/-! ### Actions -/

/-- An action line is read as the action, whatever characters index and id have. -/
theorem parse?_action (index : String) (d : Document) :
    Json.parse? (String.ofList (action index d).print) = some (action index d) :=
  Json.parse?_compact rfl (Nat.le_of_ble_eq_true rfl)

theorem target?_action (index : String) (d : Document) :
    target? (action index d).print = some (index, d.id) := by
  rw [target?, parse?_action]
  rfl

theorem paired?_framed (index : String) (ds : List Document) :
    paired? (framed index ds) = some (ds.map fun d => (index, d)) := by
  induction ds with
  | nil => rfl
  | cons d ds ih =>
    rw [framed, List.flatMap_cons, ← framed]
    change ((target? (action index d).print).bind fun t => (paired? (framed index ds)).bind fun ds' =>
      some ((t.1, ⟨t.2, String.ofList d.body.toList⟩) :: ds')) = _
    rw [target?_action, ih, Option.bind_some, Option.bind_some, String.ofList_toList]
    rfl

theorem decode?_body (h : ∀ d ∈ ds, '\n' ∉ d.body.toList) :
    decode? (body index ds) = some (ds.map fun d => (index, d)) := by
  rw [decode?, splitOn_body h, if_pos List.getLast?_concat, List.dropLast_concat, paired?_framed]

/-- **Bulk requests are framed**: whatever characters the spans have in their names and texts, a
request is empty or ends with a newline, its lines are an action and a body for each document in
order, each action is read as the one that names index and id, and the request is decoded to these
documents. No other documents of spans, or another index, make the same request. -/
theorem request_framing (index : String) (spans : List Span) :
    let ds := spans.map Document.ofSpan
    let request := body index ds
    (ds = [] ∧ request = "" ∨ request.toList.getLast? = some '\n') ∧
    request.toList.splitOn '\n' =
      (ds.flatMap fun d => [(action index d).print, d.body.toList]) ++ [[]] ∧
    (∀ d ∈ ds, Json.parse? (String.ofList (action index d).print) =
      some (.object [("index", .object [("_id", .text d.id), ("_index", .text index)])])) ∧
    decode? request = some (ds.map fun d => (index, d)) ∧
    ∀ index' (spans' : List Span), body index' (spans'.map Document.ofSpan) = request →
      spans'.map Document.ofSpan = ds ∧ (ds = [] ∨ index' = index) := by
  intro ds request
  have hbodies : ∀ spans : List Span, ∀ d ∈ spans.map Document.ofSpan, '\n' ∉ d.body.toList := by
    intro spans d hd
    obtain ⟨span, -, rfl⟩ := List.mem_map.1 hd
    exact newline_notMem_ofSpan span
  have hdecode : decode? request = some (ds.map fun d => (index, d)) := decode?_body (hbodies spans)
  refine ⟨?_, splitOn_body (hbodies spans), fun d _ => parse?_action index d, hdecode, ?_⟩
  · rcases eq_or_ne ds [] with hnil | hne
    · exact Or.inl ⟨hnil, by change body index ds = ""; rw [hnil]; rfl⟩
    · exact Or.inr (getLast?_body index hne)
  · intro index' spans' hsame
    have hboth : decode? (body index' (spans'.map Document.ofSpan)) =
        some ((spans'.map Document.ofSpan).map fun d => (index', d)) := decode?_body (hbodies spans')
    rw [hsame, hdecode] at hboth
    have hpairs := Option.some.inj hboth
    have hds := congrArg (List.map Prod.snd) hpairs
    simp only [List.map_map, Function.comp_def, List.map_id'] at hds
    refine ⟨hds.symm, ?_⟩
    cases hd : ds with
    | nil => exact Or.inl rfl
    | cons d rest =>
      rw [← hds, hd, List.map_cons, List.map_cons] at hpairs
      exact Or.inr (congrArg Prod.fst (List.cons.inj hpairs).1).symm

end SpanRelay.Bulk
