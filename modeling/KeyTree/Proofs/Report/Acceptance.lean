import KeyTree.Engine.Basic
import KeyTree.Proofs.Report.Settings
/-!
Which environments are accepted, and which fault is found in the others.

What each variable must hold is said without the readers (`Avoids`).  A reader that looks for some
faults in order either succeeds, and then there is none of them, or fails with the first (`Judges`);
readers put after each other look for the faults of both.
-/

set_option autoImplicit false
set_option relaxedAutoImplicit false

namespace KeyTree

namespace Settings

/-- The text is hexadecimal for this number of bytes: two digits for each, in either case, with
white space at both ends passed over. -/
def IsHexOf (s : String) (n : Nat) : Prop :=
  ∃ cs, Text.Padded s.toList cs ∧ (∀ c ∈ cs, Hex.IsDigit c) ∧ cs.length = 2 * n

private theorem isHexOf_iff {s : String} {n : Nat} : IsHexOf s n ↔
    ∃ bs, Hex.decode (String.ofList (Text.trim s.toList)) = .ok bs ∧ bs.length = n := by
  constructor
  · rintro ⟨cs, padded, digits, length_eq⟩
    obtain ⟨bs, spells, count⟩ := Hex.exists_spells_iff.mpr ⟨digits, length_eq⟩
    exact ⟨bs, decode_trim_eq_ok_iff.mpr ⟨cs, padded, spells⟩, count⟩
  · rintro ⟨bs, decoded, count⟩
    obtain ⟨cs, padded, spells⟩ := decode_trim_eq_ok_iff.mp decoded
    obtain ⟨digits, length_eq⟩ := Hex.exists_spells_iff.mp ⟨bs, spells, count⟩
    exact ⟨cs, padded, digits, length_eq⟩

private theorem isSeedLength_iff {n : Nat} : isSeedLength n = true ↔ 16 ≤ n ∧ n ≤ 64 := by
  rw [isSeedLength, Bool.and_eq_true, decide_eq_true_iff, decide_eq_true_iff]

private theorem exists_parse_defaultPath : ∃ p, Path.parse defaultPath = .ok p :=
  exists_of_toBool (by decide +kernel)

end Settings

namespace Environment

/-- The variable is not set, holds bytes that are no text, or holds a text of this kind. -/
inductive Admits (env : Environment) (name : String) (Good : String → Prop) : Prop where
  | unset : env name = none → Admits env name Good
  | bytes {bs : Bytes} : env name = some (.bytes bs) → Admits env name Good
  | text {s : String} : env name = some (.text s) → Good s → Admits env name Good

def IsSwitch (s : String) : Prop :=
  s = "true" ∨ s = "false"

def Avoids (env : Environment) : ConfigError → Prop
  | .memoryLock => env.Admits "COINKEY_MEMORY_LOCK" IsSwitch
  | .sanityCheck => env.Admits "COINKEY_SANITY_CHECK" IsSwitch
  | .seed => env.Admits "COINKEY_SEED" fun s => ∃ n, Settings.IsHexOf s n
  | .seedLength => env.Admits "COINKEY_SEED" fun s => ∃ n, Settings.IsHexOf s n ∧ 16 ≤ n ∧ n ≤ 64
  | .path => env.Admits "COINKEY_PATH" fun s => ∃ p, Path.parse s = .ok p

/-- The fault is the first one in a list that the variables have. -/
inductive FirstFault (env : Environment) : List ConfigError → ConfigError → Prop where
  | here {fault : ConfigError} {others : List ConfigError} :
      ¬ env.Avoids fault → FirstFault env (fault :: others) fault
  | later {other fault : ConfigError} {others : List ConfigError} :
      env.Avoids other → FirstFault env others fault → FirstFault env (other :: others) fault

variable {env : Environment} {name : String} {Good : String → Prop}

private theorem admits_iff : env.Admits name Good ↔ ∀ s, env.text? name = some s → Good s := by
  rw [text?]
  constructor
  · rintro (unset | holds | ⟨holds, good⟩) s found
    · rw [unset] at found
      cases found
    · rw [holds] at found
      cases found
    · rw [holds] at found
      cases found
      exact good
  · intro good
    cases holds : env name with
    | none => exact .unset holds
    | some value =>
        cases value with
        | bytes bs => exact .bytes holds
        | text s =>
            rw [holds] at good
            exact .text holds (good s rfl)

private theorem admits_of_unset (unset : env.text? name = none) : env.Admits name Good := by
  refine admits_iff.mpr fun s found => ?_
  cases unset.symm.trans found

private theorem admits_iff_of_set {s : String} (found : env.text? name = some s) :
    env.Admits name Good ↔ Good s := by
  rw [admits_iff]
  constructor
  · exact fun good => good s found
  · intro good s' found'
    cases found.symm.trans found'
    exact good

/-! ### The first fault -/

namespace FirstFault

variable {faults others : List ConfigError} {fault fault' : ConfigError}

theorem mem (first : FirstFault env faults fault) : fault ∈ faults := by
  induction first with
  | here _ => exact List.mem_cons_self
  | later _ _ ih => exact List.mem_cons_of_mem _ ih

theorem not_avoids (first : FirstFault env faults fault) : ¬ env.Avoids fault := by
  induction first with
  | here present => exact present
  | later _ _ ih => exact ih

theorem unique (first : FirstFault env faults fault) (first' : FirstFault env faults fault') :
    fault = fault' := by
  induction first with
  | here present =>
      cases first' with
      | here _ => rfl
      | later avoided _ => exact absurd avoided present
  | later avoided _ ih =>
      cases first' with
      | here present => exact absurd avoided present
      | later _ rest => exact ih rest

theorem append_right (first : FirstFault env faults fault) (others : List ConfigError) :
    FirstFault env (faults ++ others) fault := by
  induction first with
  | here present => exact .here present
  | later avoided _ ih => exact .later avoided ih

theorem append_left (avoided : ∀ f ∈ faults, env.Avoids f) (first : FirstFault env others fault) :
    FirstFault env (faults ++ others) fault := by
  induction faults with
  | nil => exact first
  | cons f faults ih =>
      obtain ⟨own, avoided⟩ := List.forall_mem_cons.mp avoided
      exact .later own (ih avoided)

end FirstFault

end Environment

/-! ### Readers -/

/-- A reader that looks for some faults in order: it succeeds if there is none, and else it fails
with the first. -/
inductive Judges {α : Type} (env : Environment) (faults : List ConfigError) :
    Except ConfigError α → Prop where
  | accepted (a : α) : (∀ f ∈ faults, env.Avoids f) → Judges env faults (.ok a)
  | refused {fault : ConfigError} : env.FirstFault faults fault → Judges env faults (.error fault)

namespace Judges

variable {α β : Type} {env : Environment} {faults others : List ConfigError} {fault : ConfigError}
  {result : Except ConfigError α}

theorem all_avoided (judged : Judges env faults result) {a : α} (read : result = .ok a) :
    ∀ f ∈ faults, env.Avoids f := by
  cases judged with
  | accepted _ avoided => exact avoided
  | refused _ => cases read

theorem firstFault (judged : Judges env faults result) (read : result = .error fault) :
    env.FirstFault faults fault := by
  cases judged with
  | accepted _ _ => cases read
  | refused first =>
      cases read
      exact first

theorem exists_eq_ok (judged : Judges env faults result) (avoided : ∀ f ∈ faults, env.Avoids f) :
    ∃ a, result = .ok a := by
  cases judged with
  | accepted a _ => exact ⟨a, rfl⟩
  | refused first => exact absurd (avoided _ first.mem) first.not_avoids

private theorem bind {next : α → Except ConfigError β} (judged : Judges env faults result)
    (nexts : ∀ a, Judges env others (next a)) :
    Judges env (faults ++ others) (result >>= next) := by
  cases judged with
  | refused first => exact .refused (first.append_right others)
  | accepted a avoided =>
      -- The second reader runs only where the faults of the first are avoided.
      rw [ok_bind]
      cases read : next a with
      | ok b =>
          have rest := (nexts a).all_avoided read
          exact .accepted b (List.forall_mem_append.mpr ⟨avoided, rest⟩)
      | error fault => exact .refused (.append_left avoided ((nexts a).firstFault read))

private theorem map (judged : Judges env faults result) (f : α → β) :
    Judges env faults (result.map f) := by
  cases judged with
  | accepted a avoided => exact .accepted (f a) avoided
  | refused first => exact .refused first

private theorem pure (a : α) : Judges env [] (.ok a) :=
  .accepted a nofun

private theorem singleton (found : env.Avoids fault → ∃ a, result = .ok a)
    (missed : ¬ env.Avoids fault → result = .error fault) : Judges env [fault] result := by
  by_cases avoided : env.Avoids fault
  · obtain ⟨a, rfl⟩ := found avoided
    exact .accepted a (List.forall_mem_singleton.mpr avoided)
  · rw [missed avoided]
    exact .refused (.here avoided)

private theorem readSwitch (fault : ConfigError)
    (switch : env.Avoids fault ↔ env.Admits fault.subject Environment.IsSwitch) :
    Judges env [fault] (EngineConfig.readSwitch env fault) := by
  rw [EngineConfig.readSwitch]
  cases found : env.text? fault.subject with
  | none =>
      have avoided := switch.mpr (Environment.admits_of_unset found)
      exact .accepted true (List.forall_mem_singleton.mpr avoided)
  | some s =>
      rw [Environment.admits_iff_of_set found] at switch
      refine singleton (fun avoided => ?_) fun present => ?_
      · rcases switch.mp avoided with rfl | rfl
        · exact ⟨true, rfl⟩
        · exact ⟨false, rfl⟩
      · obtain ⟨not_on, not_off⟩ := not_or.mp (mt switch.mpr present)
        simp only [Environment.readBool?, if_neg not_on, if_neg not_off]

theorem engineConfig (env : Environment) :
    Judges env [.memoryLock, .sanityCheck] (EngineConfig.ofEnvironment env) :=
  (readSwitch .memoryLock Iff.rfl).bind fun _ =>
    (readSwitch .sanityCheck Iff.rfl).bind fun _ => pure _

/-- A text that is not hexadecimal is refused before its length is looked at. -/
theorem readSeed {s : String} (found : env.text? "COINKEY_SEED" = some s) :
    Judges env [.seed, .seedLength] (Settings.readSeed s) := by
  have seed_iff : env.Avoids .seed ↔ _ := Environment.admits_iff_of_set found
  have length_iff : env.Avoids .seedLength ↔ _ := Environment.admits_iff_of_set found
  simp only [Settings.isHexOf_iff] at seed_iff length_iff
  cases decoded : Hex.decode (String.ofList (Text.trim s.toList)) with
  | error fault =>
      have present : ¬ env.Avoids .seed := by
        rw [seed_iff, decoded]
        rintro ⟨n, bs, same, -⟩
        cases same
      have read : Settings.readSeed s = .error .seed := by rw [Settings.readSeed, decoded]
      rw [read]
      exact .refused (.here present)
  | ok bs =>
      have avoided : env.Avoids .seed := seed_iff.mpr ⟨bs.length, bs, decoded, rfl⟩
      have range_iff : env.Avoids .seedLength ↔ Settings.isSeedLength bs.length = true := by
        rw [length_iff, decoded, Settings.isSeedLength_iff]
        constructor
        · rintro ⟨n, ⟨bs', same, rfl⟩, range⟩
          cases same
          exact range
        · exact fun range => ⟨bs.length, ⟨bs, rfl, rfl⟩, range⟩
      rw [Settings.readSeed_of_decoded decoded]
      split
      · rename_i range
        exact .accepted bs (List.forall_mem_cons.mpr
          ⟨avoided, List.forall_mem_singleton.mpr (range_iff.mpr range)⟩)
      · rename_i outside
        exact .refused (.later avoided (.here (mt range_iff.mp outside)))

private theorem seedOf (env : Environment) :
    Judges env [.seed, .seedLength] (Settings.seedOf env) := by
  rw [Settings.seedOf]
  cases found : env.text? "COINKEY_SEED" with
  | none =>
      exact .accepted none (List.forall_mem_cons.mpr ⟨Environment.admits_of_unset found,
        List.forall_mem_singleton.mpr (Environment.admits_of_unset found)⟩)
  | some s => exact (readSeed found).map some

private theorem pathOf (env : Environment) : Judges env [.path] (Settings.pathOf env) := by
  have read_iff : env.Avoids .path ↔
      ∃ p, Path.parse ((env.text? "COINKEY_PATH").getD Settings.defaultPath) = .ok p := by
    cases found : env.text? "COINKEY_PATH" with
    | none =>
        exact iff_of_true (Environment.admits_of_unset found) Settings.exists_parse_defaultPath
    | some s => exact Environment.admits_iff_of_set found
  rw [Settings.pathOf]
  refine singleton (fun avoided => ?_) fun present => ?_
  · obtain ⟨p, read⟩ := read_iff.mp avoided
    exact ⟨p, mapError_eq_ok_iff.mpr read⟩
  · cases read : Path.parse ((env.text? "COINKEY_PATH").getD Settings.defaultPath) with
    | error fault => rfl
    | ok p => exact absurd (read_iff.mpr ⟨p, read⟩) present

theorem settings (env : Environment) :
    Judges env [.seed, .seedLength, .path] (Settings.ofEnvironment env) :=
  (seedOf env).bind fun _ => (pathOf env).bind fun _ => pure _

end Judges

end KeyTree
