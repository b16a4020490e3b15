import Mathlib.Order.Nat
import Mathlib.Tactic.SplitIfs
import SpanRelay.Config.File
import SpanRelay.File.Directory

/-! # Loading the settings

A configuration is `Runnable` if each of its settings lets the pipeline run; `fault?` finds a setting
exactly in the others (`fault?_eq_none_iff`). The settings of a file are looked over twice, as they
stand in the file and with the variables laid over them: `load_file_iff` says when they are loaded, and
what is reported otherwise. So variables cannot mend a file (`faulty_file_not_mended`). -/

namespace SpanRelay.Config

deriving instance DecidableEq for Config

/-- The pipeline can run with the settings. -/
structure Runnable (c : Config) : Prop where
  queueCapacity : 0 < c.queueCapacity
  queueMaxBytes : 0 < c.queueMaxBytes
  batchThreshold : 0 < c.batchThreshold
  drainLength : 0 < c.drainLength
  sampling : 0.0 ≤ c.samplingProbability ∧ c.samplingProbability ≤ 1.0
  retryDelays : c.minRetryDelayMs ≤ c.maxRetryDelayMs
  requestLimits : c.singleThresholdBytes ≤ c.requestMaxBytes
  indexName : c.indexName ≠ ""

theorem fault?_eq_none_iff {c : Config} : c.fault? = none ↔ c.Runnable := by
  unfold fault?
  constructor
  · intro h
    split_ifs at h with hcapacity hbytes hcounts hsampling hdelays hlimits hindex
    obtain ⟨hbatch, hdrain⟩ := not_or.1 hcounts
    exact {
      queueCapacity := Nat.pos_of_ne_zero hcapacity
      queueMaxBytes := Nat.pos_of_ne_zero hbytes
      batchThreshold := Nat.pos_of_ne_zero hbatch
      drainLength := Nat.pos_of_ne_zero hdrain
      sampling := by simpa using hsampling
      retryDelays := Nat.le_of_not_lt hdelays
      requestLimits := Nat.le_of_not_lt hlimits
      indexName := by simpa using hindex }
  · intro h
    have hcounts : ¬(c.batchThreshold = 0 ∨ c.drainLength = 0) :=
      not_or.2 ⟨h.batchThreshold.ne', h.drainLength.ne'⟩
    have hsampling : (!(decide (0.0 ≤ c.samplingProbability) &&
        decide (c.samplingProbability ≤ 1.0))) = false := by simpa using h.sampling
    have hindex : c.indexName.isEmpty = false := by simpa using h.indexName
    rw [if_neg h.queueCapacity.ne', if_neg h.queueMaxBytes.ne', if_neg hcounts, hsampling, hindex,
      if_neg Bool.false_ne_true, if_neg h.retryDelays.not_gt, if_neg h.requestLimits.not_gt,
      if_neg Bool.false_ne_true]

theorem validate_cases (c : Config) :
    (c.Runnable ∧ c.validate = .ok c) ∨
      ∃ fault, c.fault? = some fault ∧ ¬ c.Runnable ∧ c.validate = .error (.config fault.message) := by
  unfold validate
  cases hfault : c.fault? with
  | none => exact Or.inl ⟨fault?_eq_none_iff.1 hfault, rfl⟩
  | some fault =>
    have hnot : ¬ c.Runnable := by
      rw [← fault?_eq_none_iff, hfault]
      exact Option.some_ne_none fault
    exact Or.inr ⟨fault, rfl, hnot, rfl⟩

variable {files : Files} {path text : String} {c : Config}

theorem ofFile_eq (ht : files.text path = .ok text) (hc : ofText path text = .ok c) :
    ofFile files path = c.validate := by
  unfold ofFile
  rw [ht]
  show (ofText path text >>= fun c => c.validate) = c.validate
  rw [hc]
  rfl

/-- **Loading the settings of a file** that can be read. It succeeds exactly if the pipeline can run both
with the settings of the file alone and with the variables laid over them, and then it gives the
latter. Else the first fault is reported: of the file, whatever the variables say, or of the effective
settings. -/
theorem load_file_iff (ht : files.text path = .ok text) (hc : ofText path text = .ok c)
    (vars : Variables) :
    let effective := c.overriddenBy vars
    (∀ loaded, load files vars (some path) = .ok loaded ↔
      loaded = effective ∧ effective.Runnable ∧ c.Runnable) ∧
    (¬ c.Runnable → ∃ fault, c.fault? = some fault ∧ load files vars (some path) =
      .error ⟨[loadingNote path], .relay (.config fault.message)⟩) ∧
    (c.Runnable → ¬ effective.Runnable → ∃ fault, effective.fault? = some fault ∧
      load files vars (some path) = .error ⟨[checkingNote], .relay (.config fault.message)⟩) := by
  intro effective
  have hload : load files vars (some path) =
      ((c.validate.mapError fun e => (Failure.of e).under (loadingNote path)) >>= fun c =>
        (c.overriddenBy vars).validate.mapError fun e => (Failure.of e).under checkingNote) := by
    rw [← ofFile_eq ht hc]
    rfl
  rcases validate_cases c with ⟨hrun, hvalid⟩ | ⟨fault, hfault, hnot, hvalid⟩
  · have hload' : load files vars (some path) =
        effective.validate.mapError fun e => (Failure.of e).under checkingNote := by
      rw [hload, hvalid]
      rfl
    rcases validate_cases effective with ⟨hrun', hvalid'⟩ | ⟨fault, hfault, hnot, hvalid'⟩
    · rw [hvalid'] at hload'
      refine ⟨fun loaded => ?_, fun h => absurd hrun h, fun _ h => absurd hrun' h⟩
      rw [hload']
      exact ⟨fun h => ⟨(Except.ok.inj h).symm, hrun', hrun⟩, fun h => by rw [h.1]; rfl⟩
    · rw [hvalid'] at hload'
      refine ⟨fun loaded => ?_, fun h => absurd hrun h, fun _ _ => ⟨fault, hfault, hload'⟩⟩
      rw [hload']
      exact ⟨nofun, fun h => absurd h.2.1 hnot⟩
  · rw [hvalid] at hload
    refine ⟨fun loaded => ?_, fun _ => ⟨fault, hfault, hload⟩, fun h => absurd h hnot⟩
    rw [hload]
    exact ⟨nofun, fun h => absurd h.2.2 hnot⟩

/-- A file with delays that the variables bring out of order, and one that they leave in order. -/
theorem load_file_delays :
    let text := "min_retry_delay_ms: 500"
    let files := (Directory.ofList [("c.yaml", text.toUTF8)]).files
    let c : Config := { Config.default with minRetryDelayMs := 500 }
    let lowered : Variables := .ofTable ⟨[("SESSIONTRACE_MAX_RETRY_DELAY_MS", "400")]⟩
    let raised : Variables := .ofTable ⟨[("SESSIONTRACE_MIN_RETRY_DELAY_MS", "600")]⟩
    files.text "c.yaml" = .ok text ∧ ofText "c.yaml" text = .ok c ∧ c.Runnable ∧
      (¬ (c.overriddenBy lowered).Runnable ∧ ∃ fault,
        load files lowered (some "c.yaml") = .error ⟨[checkingNote], .relay (.config fault)⟩) ∧
      load files raised (some "c.yaml") = .ok { Config.default with minRetryDelayMs := 600 } := by
  intro text files c lowered raised
  have ht : files.text "c.yaml" = .ok text := by decide +kernel
  have hc : ofText "c.yaml" text = .ok c := by decide +kernel
  have hrun : c.Runnable := fault?_eq_none_iff.1 (Option.isNone_iff_eq_none.1 (by decide +kernel))
  have hlowered : ¬ (c.overriddenBy lowered).Runnable := by
    rw [← fault?_eq_none_iff, ← Option.isNone_iff_eq_none]
    decide +kernel
  have hraised : (c.overriddenBy raised).Runnable :=
    fault?_eq_none_iff.1 (Option.isNone_iff_eq_none.1 (by decide +kernel))
  obtain ⟨-, -, heffective⟩ := load_file_iff ht hc lowered
  obtain ⟨hloaded, -, -⟩ := load_file_iff ht hc raised
  obtain ⟨fault, -, hfault⟩ := heffective hrun hlowered
  exact ⟨ht, hc, hrun, ⟨hlowered, _, hfault⟩, (hloaded _).2 ⟨by decide +kernel, hraised, hrun⟩⟩

/-- The file has a capacity of zero. It is refused, although a variable gives a capacity with which the
pipeline can run. -/
theorem faulty_file_not_mended :
    let text := "queue_capacity = 0"
    let files := (Directory.ofList [("c.toml", text.toUTF8)]).files
    let c : Config := { Config.default with queueCapacity := 0 }
    let vars : Variables := .ofTable ⟨[("SESSIONTRACE_QUEUE_CAPACITY", "5")]⟩
    files.text "c.toml" = .ok text ∧ ofText "c.toml" text = .ok c ∧ (c.overriddenBy vars).Runnable ∧
      ¬ ∃ loaded, load files vars (some "c.toml") = .ok loaded := by
  intro text files c vars
  refine ⟨by decide +kernel, by decide +kernel, ?_, ?_⟩
  · exact fault?_eq_none_iff.1 (Option.isNone_iff_eq_none.1 (by decide +kernel))
  · rintro ⟨loaded, hloaded⟩
    have hrefused : (load files vars (some "c.toml")).isOk = false := by decide +kernel
    rw [hloaded] at hrefused
    cases hrefused

end SpanRelay.Config
