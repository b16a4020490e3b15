import SpanRelay.Json.Record

/-! # Chain elements

An `Element` is the static identity of the step that is executed, a `ParentHint` the declared
logical parent of a new span. Both name an occurrence by its `executionKey`: the element, and the
branch where there is one. -/

namespace SpanRelay

/-- The name of an occurrence of an element, in a branch or in none. -/
def executionKey (elementId : String) : Option String → String
  | some branch => elementId ++ "#" ++ branch
  | none => elementId

/-- The static identity of a chain element. -/
structure Element where
  /-- The logical step, the same for repeated executions. -/
  elementId : String
  name : String
  typeTag : String
  /-- The chain the element belongs to, if that is a referenced one. -/
  subChainId : Option String
  /-- Tells concurrent occurrences apart: the iteration of a loop, the branch of a split. -/
  branchKey : Option String
deriving DecidableEq, Repr

namespace Element

/-- The key under which an occurrence of the element is recorded. -/
def executionKey (e : Element) : String := SpanRelay.executionKey e.elementId e.branchKey

def fieldNames : List String :=
  ["chain_element_id", "element_name", "type_tag", "actual_element_chain_id", "branch_key"]

/-- The record as a value; absent fields are written as `null`. -/
def toJson (e : Element) : Json :=
  .object (
    Json.field "chain_element_id" (.text e.elementId) ++
    Json.field "element_name" (.text e.name) ++
    Json.field "type_tag" (.text e.typeTag) ++
    Json.field "actual_element_chain_id" (Json.orNull .text e.subChainId) ++
    Json.field "branch_key" (Json.orNull .text e.branchKey))

/-- The record read back. The chain and the branch may be left out or be `null`. -/
def ofJson? (v : Json) : Option Element := do
  let f ← Json.Fields.of? fieldNames v
  return {
    elementId := ← f.required "chain_element_id" Json.text?
    name := ← f.required "element_name" Json.text?
    typeTag := ← f.required "type_tag" Json.text?
    subChainId := ← f.orAbsent "actual_element_chain_id" Json.text?
    branchKey := ← f.orAbsent "branch_key" Json.text? }

end Element

/-- The declared logical parent of a new span. -/
structure ParentHint where
  elementId : String
  branchKey : Option String
  /-- The parent may have been executed several overlapping times; the innermost occurrence that is
  still open is meant. -/
  hasIntermediateParents : Bool
deriving DecidableEq, Repr

namespace ParentHint

/-- The key under which the parent's occurrence is recorded. -/
def executionKey (h : ParentHint) : String := SpanRelay.executionKey h.elementId h.branchKey

/-- The hint at an element without a branch, executed one at a time. -/
def plain (elementId : String) : ParentHint := ⟨elementId, none, false⟩

def fieldNames : List String := ["chain_element_id", "branch_key", "has_intermediate_parents"]

/-- The record as a value; an absent branch is written as `null`. -/
def toJson (h : ParentHint) : Json :=
  .object (
    Json.field "chain_element_id" (.text h.elementId) ++
    Json.field "branch_key" (Json.orNull .text h.branchKey) ++
    Json.field "has_intermediate_parents" (.bool h.hasIntermediateParents))

/-- The record read back. The branch may be left out or be `null`, and without the last field the parent
is executed one at a time. -/
def ofJson? (v : Json) : Option ParentHint := do
  let f ← Json.Fields.of? fieldNames v
  return {
    elementId := ← f.required "chain_element_id" Json.text?
    branchKey := ← f.orAbsent "branch_key" Json.text?
    hasIntermediateParents := ← f.defaulted "has_intermediate_parents" Json.bool? false }

end ParentHint

end SpanRelay
