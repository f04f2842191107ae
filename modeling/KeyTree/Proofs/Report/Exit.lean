import KeyTree.Proofs.Report.Chance
/-!
The exit status of a report is decided by the settings, and so is the error.

All settings are read before the first line is printed, in a fixed order, so a report either goes
through or prints nothing and names the first fault (`outcome_decided`).  Only what is left to
chance can end it otherwise.
-/

set_option autoImplicit false
set_option relaxedAutoImplicit false

namespace KeyTree

/-- The faults in the order in which they are looked for. -/
def ConfigError.order : List ConfigError :=
  [.memoryLock, .sanityCheck, .seed, .seedLength, .path]

def ConfigError.reported : ConfigError → ReportError
  | .memoryLock => .engine (.config .memoryLock)
  | .sanityCheck => .engine (.config .sanityCheck)
  | .seed => .config .seed
  | .seedLength => .config .seedLength
  | .path => .config .path

def ConfigError.announcement : ConfigError → String
  | .memoryLock => "Error: Context(Config(Invalid(\"COINKEY_MEMORY_LOCK\")))"
  | .sanityCheck => "Error: Context(Config(Invalid(\"COINKEY_SANITY_CHECK\")))"
  | .seed => "Error: Config(Invalid(\"COINKEY_SEED\"))"
  | .seedLength => "Error: Config(Invalid(\"COINKEY_SEED must be 16 to 64 bytes\"))"
  | .path => "Error: Config(Invalid(\"COINKEY_PATH\"))"

namespace Report

open Outcome

/-- The report ends with the error of a fault before anything is printed. -/
structure RefusedFor (o : Outcome) (fault : ConfigError) : Prop where
  status : o.status = 1
  lines : o.lines = []
  error : o.error = some fault.reported
  errorLine : o.errorLine? = some fault.announcement

/-! ### The first fault -/

section

variable {env : Environment} {source rest : Entropy} {fault : ConfigError}

private theorem refusedFor_mk (fault : ConfigError) :
    RefusedFor ⟨[], some fault.reported⟩ fault where
  status := rfl
  lines := rfl
  error := rfl
  errorLine := by cases fault <;> decide +kernel

private theorem refusedFor_of_config (read : EngineConfig.ofEnvironment env = .error fault)
    (source : Entropy) :
    env.FirstFault ConfigError.order fault ∧ RefusedFor (outcome env source) fault := by
  have first := (Judges.engineConfig env).firstFault read
  have wrapped : fault.reported = .engine (.config fault) := by
    have among := first.mem
    simp only [List.mem_cons, List.not_mem_nil, or_false] at among
    rcases among with rfl | rfl <;> rfl
  refine ⟨first.append_right [.seed, .seedLength, .path], ?_⟩
  rw [outcome_eq, started_of_fault read, stage, ← wrapped]
  exact refusedFor_mk fault

private theorem refusedFor_of_settings (begun : started env source = .ok rest)
    (read : Settings.ofEnvironment env = .error fault) :
    env.FirstFault ConfigError.order fault ∧ RefusedFor (outcome env source) fault := by
  obtain ⟨config, config_read, -⟩ := exists_config_of_started begun
  have first := (Judges.settings env).firstFault read
  have wrapped : fault.reported = .config fault := by
    have among := first.mem
    simp only [List.mem_cons, List.not_mem_nil, or_false] at among
    rcases among with rfl | rfl | rfl <;> rfl
  refine ⟨.append_left ((Judges.engineConfig env).all_avoided config_read) first, ?_⟩
  rw [outcome_eq, begun, stage_ok, read, stage, ← wrapped]
  exact refusedFor_mk fault

end

section

variable {env : Environment} {source : Entropy}

private theorem exists_refusedFor (refused : ¬ Accepted env)
    (undisturbed : Undisturbed env source) :
    ∃ fault, env.FirstFault ConfigError.order fault ∧ RefusedFor (outcome env source) fault := by
  cases config_read : EngineConfig.ofEnvironment env with
  | error fault => exact ⟨fault, refusedFor_of_config config_read source⟩
  | ok config =>
      obtain ⟨rest, leaves, -⟩ := undisturbed config config_read
      have begun := (started_eq_ok_iff_leaves config_read).mpr leaves
      cases read : Settings.ofEnvironment env with
      | error fault => exact ⟨fault, refusedFor_of_settings begun read⟩
      | ok settings => exact absurd (accepted_of_read config_read read) refused

end

/-- Unless chance disturbs it, a report ends with status zero exactly if its settings are accepted,
whatever the message is.  Else it ends with status one, prints nothing, and its only error is that
of the first fault. -/
theorem outcome_decided (env : Environment) (source : Entropy)
    (undisturbed : Undisturbed env source) :
    ((outcome env source).status = 0 ↔ Accepted env) ∧
      (¬ Accepted env → ∃! fault,
        env.FirstFault ConfigError.order fault ∧ RefusedFor (outcome env source) fault) := by
  constructor
  · rw [status_eq_zero_iff, and_iff_left undisturbed]
  · intro refused
    obtain ⟨fault, first, reported⟩ := exists_refusedFor refused undisturbed
    exact ⟨fault, ⟨first, reported⟩, fun fault' other => other.1.unique first⟩

/-! ### Environments with and without faults -/

/-- The seed is too short, and the path does not start at the root. -/
def shortEnvironment : Environment :=
  (sampleEnvironment.withText "COINKEY_SEED" " 0A ").withText "COINKEY_PATH" "44/0"

private theorem config_shortEnvironment :
    EngineConfig.ofEnvironment shortEnvironment = .ok ⟨true, true⟩ := by
  decide

private theorem settings_shortEnvironment :
    Settings.ofEnvironment shortEnvironment = .error .seedLength := by
  decide +kernel

private theorem undisturbed_shortEnvironment : Undisturbed shortEnvironment sampleSource := by
  intro config config_read
  cases config_shortEnvironment.symm.trans config_read
  refine ⟨⟨sampleSeed.toList⟩, Sample.testable, ?_⟩
  intro settings read
  cases settings_shortEnvironment.symm.trans read

/-- In addition to this, a switch is not written in lower case. -/
def upperEnvironment : Environment :=
  shortEnvironment.withText "COINKEY_MEMORY_LOCK" "True"

private theorem config_upperEnvironment :
    EngineConfig.ofEnvironment upperEnvironment = .error .memoryLock := by
  decide

private theorem undisturbed_upperEnvironment (source : Entropy) :
    Undisturbed upperEnvironment source := by
  intro config config_read
  cases config_upperEnvironment.symm.trans config_read

theorem outcome_decided_samples :
    (outcome sampleEnvironment sampleSource).status = 0 ∧
      RefusedFor (outcome shortEnvironment sampleSource) .seedLength ∧
      RefusedFor (outcome upperEnvironment ⟨[]⟩) .memoryLock := by
  have refuses {env : Environment} {source : Entropy} {fault : ConfigError}
      (first : env.FirstFault ConfigError.order fault) (undisturbed : Undisturbed env source) :
      RefusedFor (outcome env source) fault := by
    obtain ⟨-, refusal⟩ := outcome_decided env source undisturbed
    obtain ⟨fault', ⟨first', refused⟩, -⟩ := refusal fun accepted => first.not_avoids (accepted _)
    cases first.unique first'
    exact refused
  refine ⟨?_, refuses ?_ undisturbed_shortEnvironment,
    refuses ?_ (undisturbed_upperEnvironment _)⟩
  · obtain ⟨status_iff, -⟩ := outcome_decided _ _ undisturbed_sampleEnvironment
    exact status_iff.mpr accepted_sampleEnvironment
  · exact .append_left ((Judges.engineConfig _).all_avoided config_shortEnvironment)
      ((Judges.settings _).firstFault settings_shortEnvironment)
  · exact ((Judges.engineConfig _).firstFault config_upperEnvironment).append_right _

end Report

end KeyTree
