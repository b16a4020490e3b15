import SpanRelay.Proofs.Pipeline.Memory
import SpanRelay.Proofs.Simulation.Schedule
import SpanRelay.Proofs.Simulation.Steps

/-! # What a simulation leaves

If all or no sessions are sampled, the ids of the spans are distinct and nothing is dropped on the way to
a store in memory in which nothing goes wrong, it is known what is `Concluded` when the pipeline was shut
down, whatever turns the sessions and the writer have taken: no session is registered, no bytes are in
use, nothing is lost, and the ids of the documents are the `documentIds` of the plan
(`concluded_of_interleaved`). -/

namespace SpanRelay

theorem isSampled_one (draw : UInt64) : isSampled 1.0 draw = true := by
  unfold isSampled
  exact if_pos (by decide +kernel)

theorem isSampled_zero (draw : UInt64) : isSampled 0.0 draw = false := by
  unfold isSampled
  rw [if_neg (by decide +kernel), if_pos (by decide +kernel)]

namespace Plan

variable {p : Plan} {w : Surroundings} {sampled : Bool}

/-! ### The documents of a plan -/

/-- How many steps a session takes: up to the one that fails, if one does, else all. -/
def reach (p : Plan) : Nat :=
  match p.failAt with
  | some k => k + 1
  | none => p.steps

/-- How many documents each session leaves. -/
def documentsPerSession (p : Plan) (sampled : Bool) : Nat :=
  match p.level with
  | .off => 0
  | .error => if p.failAt.isSome then 1 else 0
  | .info | .debug => if sampled then p.reach else 0

/-- The ids of the documents that the sessions leave. -/
def documentIds (p : Plan) (w : Surroundings) (sampled : Bool) : List String :=
  (List.range p.sessions).flatMap fun i =>
    ((List.range p.reach).filter (p.keeps sampled)).map (p.spanId w i)

theorem executed_eq_reach (hfail : ∀ k, p.failAt = some k → k < p.steps) : p.executed = p.reach := by
  unfold reach
  cases hf : p.failAt with
  | none => exact executed_of_none hf
  | some k => exact executed_of_failAt hf (hfail k hf)

theorem mem_documentIds {id : String} : id ∈ p.documentIds w sampled ↔
    ∃ i < p.sessions, ∃ k < p.reach, p.keeps sampled k = true ∧ id = p.spanId w i k := by
  simp only [documentIds, List.mem_flatMap, List.mem_map, List.mem_filter, List.mem_range, and_assoc,
    eq_comm (a := id)]

theorem nodup_documentIds (hids : p.DistinctIds w) (hfail : ∀ k, p.failAt = some k → k < p.steps) :
    (p.documentIds w sampled).Nodup := by
  have hlt : ∀ {k}, k ∈ (List.range p.reach).filter (p.keeps sampled) → k < p.executed := fun hk =>
    executed_eq_reach hfail ▸ List.mem_range.1 (List.mem_of_mem_filter hk)
  refine List.nodup_flatMap.2 ⟨fun i hi => ?_, ?_⟩
  · have hi' := List.mem_range.1 hi
    exact List.Nodup.map_on (fun k hk l hl h => (hids i hi' k (hlt hk) i hi' l (hlt hl) h).2)
      (List.nodup_range.filter _)
  · refine List.nodup_range.imp_of_mem fun {i j} hi hj hij id hidi hidj => hij ?_
    obtain ⟨k, hk, rfl⟩ := List.mem_map.1 hidi
    obtain ⟨l, hl, h⟩ := List.mem_map.1 hidj
    exact (hids j (List.mem_range.1 hj) l (hlt hl) i (List.mem_range.1 hi) k (hlt hk) h).1.symm

/-- **How many documents** the sessions leave together. -/
theorem length_documentIds :
    (p.documentIds w sampled).length = p.sessions * p.documentsPerSession sampled := by
  have hkept : ((List.range p.reach).filter (p.keeps sampled)).length =
      p.documentsPerSession sampled := by
    unfold keeps documentsPerSession
    cases p.level with
    | off => simp
    | error =>
      dsimp only
      cases hf : p.failAt with
      | none => simp
      | some k =>
        simp only [reach, hf, List.range_succ, Option.some_inj]
        have hbefore : (List.range k).filter (fun l => decide (k = l)) = [] :=
          List.filter_eq_nil_iff.2 fun l hl => by
            simpa using Nat.ne_of_gt (List.mem_range.1 hl)
        simp [hbefore]
    | info | debug => cases sampled <;> simp
  rw [documentIds, List.length_flatMap]
  simp [hkept]

/-- **The spans that are handed over** are those of the documents. -/
theorem Interleaved.isSome_lastVersion? {cs : List Call} {sample : UInt64 → Bool}
    (h : p.Interleaved w cs) (hids : p.DistinctIds w) (hfail : ∀ k, p.failAt = some k → k < p.steps)
    (hsample : ∀ i < p.sessions, sample (w.draw i) = sampled) (id : String) :
    (lastVersion? id (Registry.empty.handed p.policy sample cs)).isSome = true ↔
      id ∈ p.documentIds w sampled := by
  have hreach := executed_eq_reach hfail
  rw [mem_documentIds]
  constructor
  · intro hsome
    obtain ⟨x, hx⟩ := Option.isSome_iff_exists.1 hsome
    obtain ⟨hmem, rfl⟩ := mem_of_lastVersion? hx
    obtain ⟨i, hi, k, hk, hid⟩ := h.exists_step hmem
    refine ⟨i, hi, k, hreach ▸ hk, ?_, hid⟩
    have hstep := h.leaves hids hfail hsample hi hk
    by_contra hnot
    rw [if_neg hnot, ← hid, hx] at hstep
    cases hstep
  · rintro ⟨i, hi, k, hk, hkeeps, rfl⟩
    have hstep := h.leaves hids hfail hsample hi (hreach ▸ hk)
    rw [if_pos hkeeps] at hstep
    obtain ⟨x, hx, -⟩ := hstep
    rw [hx]
    rfl

/-! ### The end of a simulation -/

/-- What is left by a plan whose sessions are all sampled or all not, in the index of a store. -/
structure Concluded (p : Plan) (w : Surroundings) (index : String) (sampled : Bool)
    (last : Pipeline MemoryStore) : Prop where
  stopped : last.desk.writer.phase = .stopped
  activeSessions : last.stats.activeSessions = 0
  queuedBytes : last.stats.queuedBytes = 0
  lost : last.stats.tally.lost = 0
  /-- The documents are those of the steps that are kept. -/
  ids : ((last.desk.store.entries index).map Prod.fst).Perm (p.documentIds w sampled)
  count : last.desk.store.count index = p.sessions * p.documentsPerSession sampled
  leaves : ∀ i < p.sessions, ∀ k < p.reach, p.keeps sampled k = true →
    ∃ x : Span, last.desk.store.document? index (p.spanId w i k) = some x.stored ∧ p.Leaves w i k x

theorem bounded_of_mem_script {clock : Clock} {i : Nat} {c : Call} (hc : c ∈ p.script w clock i)
    {m : Snapshot} (hm : c.message? = some m) (k : Nat) : m.Bounded k := by
  have hnone : m.properties = none := by
    rcases List.mem_cons.1 hc with rfl | hc
    · cases hm
    · rcases List.mem_append.1 hc with hc | hc
      · obtain ⟨k, -, rfl | rfl⟩ := mem_body.1 hc <;> cases hm <;> rfl
      · rw [List.mem_singleton.1 hc] at hm
        cases hm
  intro properties hp
  rw [hnone] at hp
  cases hp

variable {config : Config} {store : MemoryStore} {q : Pipeline MemoryStore} {cs : List Call}
  {os : List Occurrence}

/-- **Each run** in which the sessions take turns is concluded. -/
theorem concluded_of_interleaved (hids : p.DistinctIds w)
    (hfail : ∀ k, p.failAt = some k → k < p.steps)
    (hsampling : config.samplingProbability = if sampled then 1.0 else 0.0)
    (hblank : store.Blank config.indexName) (hstart : Pipeline.start config p.policy store = .ok q)
    (hcalls : p.Interleaved w cs) (hos : Conveys os (q.registry.handed q.policy q.sample cs))
    (hcount : config.queueMaxBytes < byteRange - 1 ∨ q.desk.Countable MemoryStore.sink os)
    (hdrop : (q.desk.course MemoryStore.sink os).account.tally.dropped = 0) :
    p.Concluded w config.indexName sampled
      ((q.after MemoryStore.sink cs os).shutdown MemoryStore.sink) := by
  obtain ⟨hvalid, rfl⟩ := Pipeline.eq_of_start hstart
  let sample := isSampled config.samplingProbability
  let handed := Registry.empty.handed p.policy sample cs
  have hsample : ∀ i < p.sessions, sample (w.draw i) = sampled := by
    intro i _
    unfold sample
    rw [hsampling]
    cases sampled with
    | true => exact isSampled_one _
    | false => exact isSampled_zero _
  have hreadable : ∀ x ∈ handed, x.Readable := by
    refine Registry.bounded_handed fun c hc m hm => ?_
    obtain ⟨i, -, clock, -, -, hmem⟩ := hcalls.exists_script hc
    exact bounded_of_mem_script hmem hm _
  obtain ⟨hstopped, hqueued, hlost, hnodup, hdocument⟩ :=
    Desk.settled_shutdown (drainLength_pos_of_validate hvalid) hblank hos.goesOn
      (fun x hx => hreadable x (hos.mem_iff.1 hx)) hcount hdrop
  have hlast : ∀ id, lastVersion? id (offeredIn os) = lastVersion? id handed :=
    hos.lastVersion?_eq (hcalls.sessionId_eq_of_handed hids)
  let start : Desk MemoryStore := .of config.queue config.writer store
  let last := (start.course MemoryStore.sink os).shutdown MemoryStore.sink
  have hkeys : (last.store.stock config.indexName).keys.Perm (p.documentIds w sampled) := by
    refine (List.perm_ext_iff_of_nodup hnodup (nodup_documentIds hids hfail)).2 fun id => ?_
    refine Map.Table.contains_iff_mem_keys.symm.trans ?_
    rw [← hcalls.isSome_lastVersion? hids hfail hsample, Map.Table.contains, MemoryStore.get?_stock,
      hdocument, hlast, Option.isSome_map]
  refine ⟨hstopped, hcalls.size_calls p.policy sample, hqueued, hlost, hkeys, ?_, ?_⟩
  · have hlength := hkeys.length_eq
    rw [Map.Table.keys, List.length_map, length_documentIds] at hlength
    exact hlength
  · intro i hi k hk hkeeps
    have hstep := hcalls.leaves hids hfail hsample hi (executed_eq_reach hfail ▸ hk)
    rw [if_pos hkeeps] at hstep
    obtain ⟨x, hx, hleaves⟩ := hstep
    exact ⟨x, (hdocument _).trans (congrArg (Option.map Span.stored) ((hlast _).trans hx)), hleaves⟩

end Plan

end SpanRelay
