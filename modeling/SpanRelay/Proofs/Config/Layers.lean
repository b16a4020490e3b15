import Mathlib.Data.List.Nodup
import Mathlib.Logic.Function.Basic
import SpanRelay.Config.Override

/-! # Layers of settings

Each variable belongs to one `Setting`, and `Config.get` is the value of a setting. A source of
variables that is laid over a configuration gives each setting what its own variable gives, if that
can be read, and else leaves it (`get_overriddenBy`); a configuration is known by its settings
(`ext_get`). So two layers are one: `g.above f` takes each variable from `g` if its value is usable
there, and else from `f` (`overriddenBy_layers`). -/

namespace SpanRelay

/-- What a setting holds. -/
inductive SettingKind
  /-- A whole number of so many bits. -/
  | whole (bits : Nat)
  | real
  | text
  /-- A text that may be absent. -/
  | optionalText
deriving DecidableEq, Repr

namespace SettingKind

def Value : SettingKind → Type
  | whole _ => Nat
  | real => Float
  | text => String
  | optionalText => Option String

/-- The value that a variable gives: a number is read, and any text is taken as it is. -/
def read? : (k : SettingKind) → String → Option k.Value
  | whole bits => Variables.nat? (Word.range bits)
  | real => Variables.real?
  | text => some
  | optionalText => some ∘ some

end SettingKind

/-- A setting that a variable may replace. -/
inductive Setting
  | queueCapacity
  | queueMaxBytes
  | requestMaxBytes
  | singleThresholdBytes
  | batchThreshold
  | drainLength
  | minBulkLength
  | minRetryDelayMs
  | maxRetryDelayMs
  | maxWriteRetries
  | samplingProbability
  | indexName
  | storeEndpoint
  | storeTimeoutMs
  | storeUsername
  | storePassword
deriving DecidableEq, Repr

namespace Setting

def all : List Setting :=
  [queueCapacity, queueMaxBytes, requestMaxBytes, singleThresholdBytes, batchThreshold, drainLength,
    minBulkLength, minRetryDelayMs, maxRetryDelayMs, maxWriteRetries, samplingProbability, indexName,
    storeEndpoint, storeTimeoutMs, storeUsername, storePassword]

theorem mem_all (s : Setting) : s ∈ all := by
  cases s <;> decide

def kind : Setting → SettingKind
  | maxWriteRetries => .whole 32
  | samplingProbability => .real
  | indexName | storeEndpoint => .text
  | storeUsername | storePassword => .optionalText
  | queueCapacity | queueMaxBytes | requestMaxBytes | singleThresholdBytes | batchThreshold
  | drainLength | minBulkLength | minRetryDelayMs | maxRetryDelayMs | storeTimeoutMs => .whole 64

/-- The name of its variable, behind the prefix of all of them. -/
def name : Setting → String
  | queueCapacity => "QUEUE_CAPACITY"
  | queueMaxBytes => "QUEUE_MAX_BYTES"
  | requestMaxBytes => "BULK_REQUEST_MAX_BYTES"
  | singleThresholdBytes => "SINGLE_PAYLOAD_THRESHOLD_BYTES"
  | batchThreshold => "BATCH_ELEMENT_THRESHOLD"
  | drainLength => "DRAIN_BATCH_SIZE"
  | minBulkLength => "MIN_BULK_BATCH_LEN"
  | minRetryDelayMs => "MIN_RETRY_DELAY_MS"
  | maxRetryDelayMs => "MAX_RETRY_DELAY_MS"
  | maxWriteRetries => "MAX_WRITE_RETRIES"
  | samplingProbability => "SAMPLING_PROBABILITY"
  | indexName => "INDEX_NAME"
  | storeEndpoint => "STORE_ENDPOINT"
  | storeTimeoutMs => "STORE_TIMEOUT_MS"
  | storeUsername => "STORE_USERNAME"
  | storePassword => "STORE_PASSWORD"

/-- The variable that may replace the setting. -/
def variableName (s : Setting) : String := Variables.namePrefix ++ s.name

/-- The variables of all settings are those that are taken from the system. -/
theorem map_variableName_all : all.map variableName = Config.variableNames := rfl

theorem variableName_injective : Function.Injective variableName := by
  have hnodup : (all.map variableName).Nodup := by decide +kernel
  exact fun s t h => List.inj_on_of_nodup_map hnodup s.mem_all t.mem_all h

/-- The value of a variable can be read for the setting. -/
def accepts (s : Setting) (value : String) : Bool := (s.kind.read? value).isSome

end Setting

/-! ### Sources of variables -/

namespace Variables

/-- The variable belongs to a setting for which the value can be read. -/
def usable (name value : String) : Bool :=
  Setting.all.any fun s => s.variableName = name && s.accepts value

/-- The source that answers as `upper` where that has a usable value, and else as `lower`. -/
def above (upper lower : Variables) : Variables := fun name =>
  match upper name with
  | some value => if usable name value then some value else lower name
  | none => lower name

theorem usable_variableName (s : Setting) (value : String) :
    usable s.variableName value = s.accepts value := by
  rw [Bool.eq_iff_iff, usable, List.any_eq_true]
  constructor
  · rintro ⟨t, -, ht⟩
    obtain ⟨hname, haccepts⟩ := Bool.and_eq_true_iff.1 ht
    rwa [← Setting.variableName_injective (of_decide_eq_true hname)]
  · intro haccepts
    exact ⟨s, s.mem_all, by simpa using haccepts⟩

/-- The setting as the source gives it over `current`. -/
def gives (vars : Variables) (s : Setting) (current : s.kind.Value) : s.kind.Value :=
  vars.apply s.name s.kind.read? current

theorem gives_eq (vars : Variables) (s : Setting) (current : s.kind.Value) :
    vars.gives s current = ((vars s.variableName).bind s.kind.read?).getD current := rfl

theorem gives_of_not_accepts {vars : Variables} {s : Setting}
    (h : ∀ value, vars s.variableName = some value → s.accepts value = false)
    (current : s.kind.Value) : vars.gives s current = current := by
  rw [gives_eq]
  cases hvalue : vars s.variableName with
  | none => rfl
  | some value =>
    have hread : s.kind.read? value = none := by simpa [Setting.accepts] using h value hvalue
    rw [Option.bind_some, hread]
    rfl

theorem gives_above (upper lower : Variables) (s : Setting) (current : s.kind.Value) :
    (upper.above lower).gives s current = upper.gives s (lower.gives s current) := by
  simp only [gives_eq, above]
  cases upper s.variableName with
  | none => rfl
  | some value =>
    dsimp only
    rw [usable_variableName, Setting.accepts]
    cases hread : s.kind.read? value with
    | none => simp [hread]
    | some setting => simp [hread]

theorem gives_congr {f g : Variables} {s : Setting} (h : f s.variableName = g s.variableName)
    (current : s.kind.Value) : f.gives s current = g.gives s current := by
  rw [gives_eq, gives_eq, h]

end Variables

/-! ### Configurations by their settings -/

namespace Config

/-- The value of a setting. -/
def get (c : Config) : (s : Setting) → s.kind.Value
  | .queueCapacity => c.queueCapacity
  | .queueMaxBytes => c.queueMaxBytes
  | .requestMaxBytes => c.requestMaxBytes
  | .singleThresholdBytes => c.singleThresholdBytes
  | .batchThreshold => c.batchThreshold
  | .drainLength => c.drainLength
  | .minBulkLength => c.minBulkLength
  | .minRetryDelayMs => c.minRetryDelayMs
  | .maxRetryDelayMs => c.maxRetryDelayMs
  | .maxWriteRetries => c.maxWriteRetries
  | .samplingProbability => c.samplingProbability
  | .indexName => c.indexName
  | .storeEndpoint => c.store.endpoint
  | .storeTimeoutMs => c.store.timeoutMs
  | .storeUsername => c.store.username
  | .storePassword => c.store.password

theorem eq_mk_get (c : Config) : c = {
    queueCapacity := c.get .queueCapacity
    queueMaxBytes := c.get .queueMaxBytes
    requestMaxBytes := c.get .requestMaxBytes
    singleThresholdBytes := c.get .singleThresholdBytes
    batchThreshold := c.get .batchThreshold
    drainLength := c.get .drainLength
    minBulkLength := c.get .minBulkLength
    minRetryDelayMs := c.get .minRetryDelayMs
    maxRetryDelayMs := c.get .maxRetryDelayMs
    maxWriteRetries := c.get .maxWriteRetries
    samplingProbability := c.get .samplingProbability
    indexName := c.get .indexName
    store := ⟨c.get .storeEndpoint, c.get .storeTimeoutMs, c.get .storeUsername,
      c.get .storePassword⟩ } := rfl

theorem ext_get {c c' : Config} (h : ∀ s, c.get s = c'.get s) : c = c' := by
  rw [eq_mk_get c, eq_mk_get c']
  simp only [h]

/-- **Each setting by its own variable.** -/
theorem get_overriddenBy (c : Config) (vars : Variables) (s : Setting) :
    (c.overriddenBy vars).get s = vars.gives s (c.get s) := by
  cases s <;> rfl

/-- **Layers of variables.** Two sources laid over a configuration one after the other are one source
laid over it, in which each variable has the value of the second source where that is usable, and else
that of the first. So a source laid over it again changes nothing, a value that cannot be read is as
good as none and leaves its setting, and a variable affects its own setting only. -/
theorem overriddenBy_layers (c : Config) (f g : Variables) :
    (c.overriddenBy f).overriddenBy g = c.overriddenBy (g.above f) ∧
    (c.overriddenBy f).overriddenBy f = c.overriddenBy f ∧
    (∀ name value, Variables.usable name value = false →
      c.overriddenBy (Function.update f name (some value)) =
        c.overriddenBy (Function.update f name none)) ∧
    (∀ s : Setting, (∀ value, f s.variableName = some value → s.accepts value = false) →
      (c.overriddenBy f).get s = c.get s) ∧
    ∀ (s : Setting) (name : String) (value? : Option String), name ≠ s.variableName →
      (c.overriddenBy (Function.update f name value?)).get s = (c.overriddenBy f).get s := by
  refine ⟨ext_get fun s => ?_, ext_get fun s => ?_, fun name value hunusable => ext_get fun s => ?_,
    fun s hunread => ?_, fun s name value? hne => ?_⟩
  · simp only [get_overriddenBy, Variables.gives_above]
  · simp only [get_overriddenBy, Variables.gives_eq]
    cases (f s.variableName).bind s.kind.read? <;> rfl
  · simp only [get_overriddenBy]
    by_cases hname : s.variableName = name
    · subst hname
      rw [Variables.usable_variableName] at hunusable
      rw [Variables.gives_of_not_accepts, Variables.gives_of_not_accepts] <;>
        simp [hunusable]
    · exact Variables.gives_congr (by simp [hname]) _
  · rw [get_overriddenBy]
    exact Variables.gives_of_not_accepts hunread _
  · simp only [get_overriddenBy]
    exact Variables.gives_congr (Function.update_of_ne (Ne.symm hne) _ _) _

/-- A number that cannot be read is passed over in either layer, and any text is taken. -/
theorem overriddenBy_layers_unread :
    let f : Variables := .ofTable ⟨[("SESSIONTRACE_QUEUE_CAPACITY", " 42 "),
      ("SESSIONTRACE_MAX_WRITE_RETRIES", "many")]⟩
    let g : Variables := .ofTable ⟨[("SESSIONTRACE_QUEUE_CAPACITY", "-1"),
      ("SESSIONTRACE_INDEX_NAME", "")]⟩
    let name := Setting.maxWriteRetries.variableName
    let layered := default.overriddenBy (g.above f)
    Variables.usable name "many" = false ∧
      (∀ value, f name = some value → Setting.maxWriteRetries.accepts value = false) ∧
      name ≠ Setting.queueCapacity.variableName ∧
      (default.overriddenBy f).overriddenBy g = layered ∧
      (layered.queueCapacity, layered.maxWriteRetries, layered.indexName) = (42, 5, "") ∧
      default.overriddenBy (Function.update f name (some "many")) =
        default.overriddenBy (Function.update f name none) ∧
      (default.overriddenBy f).get .maxWriteRetries = default.get .maxWriteRetries ∧
      (default.overriddenBy (Function.update f name (some "9"))).get .queueCapacity =
        (default.overriddenBy f).get .queueCapacity := by
  intro f g name layered
  have hunusable : Variables.usable name "many" = false := by decide +kernel
  have hmany : f name = some "many" := by decide +kernel
  have hunread : ∀ value, f name = some value → Setting.maxWriteRetries.accepts value = false := by
    intro value hvalue
    rw [← Option.some.inj (hmany.symm.trans hvalue)]
    decide +kernel
  have hne : name ≠ Setting.queueCapacity.variableName := by decide +kernel
  obtain ⟨hlayers, -, hunused, hkept, hother⟩ := overriddenBy_layers default f g
  exact ⟨hunusable, hunread, hne, hlayers, by decide +kernel, hunused name "many" hunusable,
    hkept .maxWriteRetries hunread, hother .queueCapacity name (some "9") hne⟩

end Config

end SpanRelay
