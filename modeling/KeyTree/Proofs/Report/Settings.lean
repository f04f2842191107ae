import KeyTree.Proofs.Encoding.Hex
import KeyTree.Proofs.Tree.Path
import KeyTree.Report.Settings
/-!
The settings of a report, variable by variable, and what of them is kept when the text of a variable
is replaced.
-/

set_option autoImplicit false
set_option relaxedAutoImplicit false

namespace KeyTree

namespace Environment

variable {env : Environment} {name other : String} {s : String}

def withText (env : Environment) (name s : String) : Environment :=
  fun other => if other = name then some (.text s) else env other

private theorem text?_withText : (env.withText name s).text? name = some s := by
  rw [text?, withText, if_pos rfl]

theorem text?_withText_of_ne (apart : other ≠ name) :
    (env.withText name s).text? other = env.text? other := by
  rw [text?, withText, if_neg apart]
  rfl

end Environment

namespace Settings

variable {env : Environment} {settings : Settings} {s : String}

theorem ofEnvironment_eq_ok_iff : ofEnvironment env = .ok settings ↔
    seedOf env = .ok settings.seed ∧ pathOf env = .ok settings.path ∧
      env.text? "COINKEY_MESSAGE" = settings.message := by
  rw [ofEnvironment, bind_eq_ok_iff]
  constructor
  · rintro ⟨seed, seed_read, made⟩
    obtain ⟨path, path_read, same⟩ := bind_eq_ok_iff.mp made
    cases same
    exact ⟨seed_read, path_read, rfl⟩
  · rintro ⟨seed_read, path_read, message⟩
    refine ⟨settings.seed, seed_read, ?_⟩
    rw [path_read, message]
    rfl

theorem seedOf_of_unset (unset : env.text? "COINKEY_SEED" = none) : seedOf env = .ok none := by
  rw [seedOf, unset]

theorem exists_seedOf_of_set (isSet : (env.text? "COINKEY_SEED").isSome = true)
    (read : ofEnvironment env = .ok settings) : ∃ seed, settings.seed = some seed := by
  obtain ⟨s, found⟩ := Option.isSome_iff_exists.mp isSet
  obtain ⟨seed_read, -, -⟩ := ofEnvironment_eq_ok_iff.mp read
  rw [seedOf, found] at seed_read
  obtain ⟨seed, -, same⟩ := map_eq_ok_iff.mp seed_read
  exact ⟨seed, same.symm⟩

theorem decode_trim_eq_ok_iff {bs : Bytes} :
    Hex.decode (String.ofList (Text.trim s.toList)) = .ok bs ↔
      ∃ cs, Text.Padded s.toList cs ∧ Hex.Spells cs bs := by
  rw [Hex.decode_eq_ok_iff, String.toList_ofList]
  constructor
  · intro spells
    exact ⟨_, Text.padded_trim s.toList, spells⟩
  · rintro ⟨cs, padded, spells⟩
    rwa [(Text.trim_eq_iff spells.solid).mpr padded]

theorem readSeed_of_decoded {bs : Bytes}
    (decoded : Hex.decode (String.ofList (Text.trim s.toList)) = .ok bs) :
    readSeed s = if isSeedLength bs.length then .ok bs else .error .seedLength := by
  rw [readSeed, decoded]

theorem readSeed_eq_ok {before cs after : List Char} {seed : Bytes}
    (blank_before : Text.Blank before) (spells : Hex.Spells cs seed)
    (blank_after : Text.Blank after) (length_ok : isSeedLength seed.length = true) :
    readSeed (String.ofList (before ++ (cs ++ after))) = .ok seed := by
  have padded : Text.Padded (String.ofList (before ++ (cs ++ after))).toList cs :=
    ⟨before, after, blank_before, blank_after, String.toList_ofList⟩
  rw [readSeed_of_decoded (decode_trim_eq_ok_iff.mpr ⟨cs, padded, spells⟩), if_pos length_ok]

theorem ofEnvironment_withText_seed {text : String} {seed : Bytes}
    (read : ofEnvironment env = .ok settings) (seed_read : readSeed text = .ok seed) :
    ofEnvironment (env.withText "COINKEY_SEED" text) =
      .ok ⟨some seed, settings.path, settings.message⟩ := by
  obtain ⟨-, path_read, message⟩ := ofEnvironment_eq_ok_iff.mp read
  refine ofEnvironment_eq_ok_iff.mpr ⟨?_, ?_, ?_⟩
  · rw [seedOf, Environment.text?_withText]
    exact map_eq_ok_iff.mpr ⟨seed, seed_read, rfl⟩
  · rw [pathOf, Environment.text?_withText_of_ne (by decide)]
    exact path_read
  · rw [Environment.text?_withText_of_ne (by decide)]
    exact message

theorem ofEnvironment_withText_path (read : ofEnvironment env = .ok settings) :
    ofEnvironment (env.withText "COINKEY_PATH" settings.path.text) = .ok settings := by
  obtain ⟨seed_read, -, message⟩ := ofEnvironment_eq_ok_iff.mp read
  refine ofEnvironment_eq_ok_iff.mpr ⟨?_, ?_, ?_⟩
  · rw [seedOf, Environment.text?_withText_of_ne (by decide)]
    exact seed_read
  · rw [pathOf, Environment.text?_withText, Option.getD_some, Path.parse_text]
    rfl
  · rw [Environment.text?_withText_of_ne (by decide)]
    exact message

end Settings

end KeyTree
