import SpanRelay.Store.Memory

/-! # The scripted store

A `ScriptedStore` is for rehearsals: it records every request, answers the first ones from a script
and hands the others on to a store in memory. -/

namespace SpanRelay

/-- One answer of a script. -/
inductive Cue
  | fail (error : RelayError)
  /-- The request is answered with these items, and nothing is stored. -/
  | reply (items : List BulkItem)
  /-- The request is handed on. -/
  | pass

/-- A request as it was recorded. -/
structure RecordedRequest where
  arrival : Nat
  ids : List String
deriving DecidableEq, Repr

/-- A store in memory behind a script. -/
structure ScriptedStore where
  memory : MemoryStore
  script : List Cue
  requests : List RecordedRequest

namespace ScriptedStore

/-- The answer of the script to the next request. -/
def nextCue (s : ScriptedStore) : Cue := s.script.headD .pass

/-- The store after the answer to a request. -/
def answer (index : String) (ds : List Document) (s : ScriptedStore) :
    ScriptedStore × List Event × Answer :=
  let rest := { s with script := s.script.tail }
  match s.nextCue with
  | .fail error => (rest, [], .error error)
  | .reply items => (rest, [], .ok ⟨items⟩)
  | .pass =>
    let (memory, answer) := s.memory.bulkIndex index ds
    ({ rest with memory }, [], answer)

/-- The store as its writer meets it. Only a request that is handed on takes time. -/
def sink : Sink ScriptedStore where
  name := "memory"
  receive now _ ds s :=
    let pause := match s.nextCue with
      | .pass => s.memory.latency.getD 0
      | .fail _ | .reply _ => 0
    ({ s with requests := s.requests ++ [⟨now, ds.map Document.id⟩] }, pause)
  answer := answer

end ScriptedStore

end SpanRelay
