import KeyTree.Proofs.Engine.Lifecycle
import KeyTree.Proofs.Engine.SelfTest
import KeyTree.Proofs.Report.Acceptance
import KeyTree.Proofs.Report.Runs
import KeyTree.Proofs.Tree.CompactSigning
import KeyTree.Proofs.Tree.Secrets
/-!
What a report leaves to chance.

All settings are read before the first line is printed.  What can still go wrong depends on random
bytes and hashes: the self test, the seed that is drawn, the secrets on the way to the leaf, and
the nonce for the message.  `Undisturbed` says what these have to be, without the functions that
use them, and no more is needed: a report ends with status zero exactly if its settings are
accepted and chance does not disturb it (`status_eq_zero_iff`).
-/

set_option autoImplicit false
set_option relaxedAutoImplicit false

namespace KeyTree.Report

open Outcome Curve Ecdsa

def Accepted (env : Environment) : Prop :=
  ∀ fault, env.Avoids fault

/-- The random bytes that are left for the report: those after the self test if it is asked for,
and else all. -/
def Leaves (config : EngineConfig) (source rest : Entropy) : Prop :=
  if config.sanityCheck then Engine.Testable source rest else rest = source

/-- The seed that is set, or the next random bytes. -/
def seedFor (settings : Settings) (rest : Entropy) : Bytes :=
  settings.seed.getD (rest.remaining.take seedSize)

/-- The hashes of a seed tell the secrets from the root to the leaf, and the hashes of the leaf's
secret and the message a nonce, if there is a message. -/
def Derives (path : Path) (message : Option String) (seed : Bytes) : Prop :=
  ∃ d chainCode leaf, RootSecret seed d chainCode ∧ LeafSecret d chainCode path.indexes leaf ∧
    ∀ text, message = some text → Signable leaf (sha256 (Bytes.ofText text))

/-- There are random bytes for a seed that is not set, and the hashes of the seed are good. -/
structure Completes (settings : Settings) (rest : Entropy) : Prop where
  supplied : settings.seed = none → seedSize ≤ rest.remaining.length
  derives : Derives settings.path settings.message (seedFor settings rest)

/-- Nothing goes wrong by chance with the settings that the variables hold. -/
def Undisturbed (env : Environment) (source : Entropy) : Prop :=
  ∀ config, EngineConfig.ofEnvironment env = .ok config → ∃ rest, Leaves config source rest ∧
    ∀ settings, Settings.ofEnvironment env = .ok settings → Completes settings rest

/-! ### The start -/

section

variable {env : Environment} {source rest : Entropy} {config : EngineConfig} {fault : ConfigError}

theorem started_of_fault (read : EngineConfig.ofEnvironment env = .error fault) :
    started env source = .error (.config fault) := by
  rw [started, Engine.startFrom, Update.apply_bind, read]
  rfl

private theorem started_of_config (read : EngineConfig.ofEnvironment env = .ok config) :
    started env source =
      (if config.sanityCheck then Engine.selfTest source else .ok source).mapError
        .selfTestFailed := by
  rw [started, Engine.startFrom, Update.apply_bind, read]
  change ((Engine.startWith Engine.selfTest config source).apply Engine.idle).1 = _
  have stopped : ¬ Engine.idle.running = true := by decide
  rw [Engine.apply_startWith, if_neg stopped]
  generalize (if config.sanityCheck then Engine.selfTest source else .ok source) = answer
  cases answer <;> rfl

theorem started_eq_ok_iff_leaves (read : EngineConfig.ofEnvironment env = .ok config) :
    started env source = .ok rest ↔ Leaves config source rest := by
  rw [started_of_config read, mapError_eq_ok_iff, Leaves]
  split
  · exact Engine.selfTest_eq_ok_iff
  · rw [Except.ok.injEq, eq_comm]

theorem exists_config_of_started (begun : started env source = .ok rest) :
    ∃ config, EngineConfig.ofEnvironment env = .ok config ∧ Leaves config source rest := by
  cases read : EngineConfig.ofEnvironment env with
  | error fault =>
      rw [started_of_fault read] at begun
      cases begun
  | ok config => exact ⟨config, rfl, (started_eq_ok_iff_leaves read).mp begun⟩

end

/-! ### After the start -/

section

variable {settings : Settings} {rest : Entropy} {leaf : PrivateNode} {d : Scalar}

private theorem exists_signs_iff {k : SecretKey} {A : Affine} (holds : k.Holds d A)
    (hash : Octets 32) :
    (∃ der c, k.sign hash 0 = .ok der ∧ k.signCompact hash = .ok c) ↔ Signable d hash := by
  have both := holds.signsBoth hash fun d => Nonce.derive? d hash 0
  rw [← exists_madeBy_iff]
  constructor
  · rintro ⟨der, c, signed, -⟩
    obtain ⟨nonce, σ, drawn, made⟩ := both.exists_of_signBy signed
    exact ⟨σ, nonce, drawn, made⟩
  · rintro ⟨σ, nonce, drawn, made⟩
    obtain ⟨der, c, id, key, signed, packed, -⟩ := both.signs nonce σ drawn made
    exact ⟨der, c, signed, packed⟩

private theorem exists_signatureLines_iff {A : Affine} (holds : leaf.key.Holds d A)
    (text : String) : (∃ lines, signatureLines leaf text = .ok lines) ↔
      Signable d (sha256 (Bytes.ofText text)) := by
  rw [← exists_signs_iff holds]
  simp only [signatureLines, bind_eq_ok_iff]
  constructor
  · rintro ⟨lines, der, signed, c, packed, -⟩
    exact ⟨der, c, signed, packed⟩
  · rintro ⟨der, c, signed, packed⟩
    exact ⟨_, der, signed, c, packed, rfl⟩

private theorem exists_messageLines_iff {A : Affine} (holds : leaf.key.Holds d A)
    (message : Option String) : (∃ lines, messageLines leaf message = .ok lines) ↔
      ∀ text, message = some text → Signable d (sha256 (Bytes.ofText text)) := by
  cases message with
  | none => exact iff_of_true ⟨[], rfl⟩ nofun
  | some text =>
      rw [messageLines, exists_signatureLines_iff holds]
      constructor
      · rintro signable text' same
        cases same
        exact signable
      · exact fun signable => signable text rfl

private theorem exists_nodesOf {path : Path} {seed : Bytes} {root : PrivateNode}
    (seeded : PrivateNode.ofSeed seed = .ok root) (derived : root.derivePath path = .ok leaf) :
    ∃ nodes, nodesOf path seed = .ok nodes ∧ nodes.leaf = leaf := by
  have wellFormed := PrivateNode.wellFormed_of_ofSeed seeded
  obtain ⟨rootPublic, root_neutered⟩ := wellFormed.exists_neuter
  obtain ⟨leafPublic, leaf_neutered⟩ := (wellFormed.derivePath derived).exists_neuter
  refine ⟨⟨leaf, rootPublic, leafPublic⟩, ?_, rfl⟩
  rw [nodesOf, seeded, ok_bind, derived, ok_bind, leaf_neutered, ok_bind, root_neutered]
  rfl

private theorem exists_nodesOf_iff {path : Path} {seed : Bytes} :
    (∃ nodes, nodesOf path seed = .ok nodes ∧ nodes.leaf.key = .ofScalar d true) ↔
      ∃ root chainCode, RootSecret seed root chainCode ∧
        LeafSecret root chainCode path.indexes d := by
  constructor
  · rintro ⟨nodes, made, key⟩
    obtain ⟨root, seeded, derived, -, -⟩ := exists_of_nodesOf made
    obtain ⟨secret, chainCode, rooted, rfl⟩ := PrivateNode.ofSeed_eq_ok_iff.mp seeded
    exact ⟨secret, chainCode, rooted,
      (PrivateNode.exists_derivePath_iff rooted.nonzero rfl).mp ⟨nodes.leaf, derived, key⟩⟩
  · rintro ⟨secret, chainCode, rooted, leads⟩
    let root : PrivateNode := ⟨.root chainCode, .ofScalar secret true⟩
    have seeded : PrivateNode.ofSeed seed = .ok root :=
      PrivateNode.ofSeed_eq_ok_iff.mpr ⟨secret, chainCode, rooted, rfl⟩
    obtain ⟨leaf, derived, key⟩ :=
      (PrivateNode.exists_derivePath_iff (x := root) rooted.nonzero rfl).mpr leads
    obtain ⟨nodes, made, rfl⟩ := exists_nodesOf seeded derived
    exact ⟨nodes, made, key⟩

private theorem bodyOf_error_eq_none_iff {path : Path} {message : Option String} {seed : Bytes} :
    (bodyOf path message seed).error = none ↔ Derives path message seed := by
  constructor
  · intro clean
    obtain ⟨nodes, lines, made, signed, -⟩ := exists_of_bodyOf clean
    obtain ⟨root, seeded, derived, -, -⟩ := exists_of_nodesOf made
    have wellFormed := (PrivateNode.wellFormed_of_ofSeed seeded).derivePath derived
    obtain ⟨d, nonzero, key⟩ := wellFormed.exists_key
    obtain ⟨secret, chainCode, rooted, leads⟩ := exists_nodesOf_iff.mp ⟨nodes, made, key⟩
    obtain ⟨A, holds⟩ := PrivateNode.exists_holds_of_key nonzero key
    exact ⟨secret, chainCode, d, rooted, leads,
      (exists_messageLines_iff holds message).mp ⟨lines, signed⟩⟩
  · rintro ⟨secret, chainCode, d, rooted, leads, signable⟩
    obtain ⟨nodes, made, key⟩ := exists_nodesOf_iff.mpr ⟨secret, chainCode, rooted, leads⟩
    obtain ⟨A, holds⟩ :=
      PrivateNode.exists_holds_of_key (leads.nonzero rooted.nonzero) key
    obtain ⟨lines, signed⟩ := (exists_messageLines_iff holds message).mpr signable
    rw [bodyOf, made, stage_ok, signed, stage_ok]

private theorem reportOf_error_eq_none_iff :
    (reportOf settings rest).error = none ↔ Completes settings rest := by
  cases chosen : settings.seed with
  | some seed =>
      have same : seedFor settings rest = seed := by rw [seedFor, chosen, Option.getD_some]
      rw [reportOf_of_set chosen, bodyOf_error_eq_none_iff, ← same]
      constructor
      · exact fun derives => ⟨fun unset => (by cases chosen.symm.trans unset), derives⟩
      · exact fun completes => completes.derives
  | none =>
      have same : seedFor settings rest = rest.remaining.take seedSize := by
        rw [seedFor, chosen, Option.getD_none]
      constructor
      · intro clean
        have drawing := clean
        rw [reportOf, chosen] at drawing
        obtain ⟨⟨seed, left⟩, drawn, -⟩ := exists_of_error_stage _ _ drawing
        obtain ⟨taken, -⟩ := Entropy.draw_eq_ok_iff.mp drawn
        have enough : seedSize ≤ rest.remaining.length := by
          rw [← seed.length_eq, taken]
          exact List.length_take_le' _ _
        rw [reportOf_of_drawn chosen drawn, error_after, bodyOf_error_eq_none_iff, taken] at clean
        exact ⟨fun _ => enough, same ▸ clean⟩
      · intro completes
        let seed : Octets seedSize :=
          ⟨rest.remaining.take seedSize, List.length_take_of_le (completes.supplied chosen)⟩
        have drawn : rest.draw seedSize = .ok (seed, ⟨rest.remaining.drop seedSize⟩) :=
          Entropy.draw_eq_ok_iff.mpr ⟨rfl, rfl⟩
        have taken : seed.toList = seedFor settings rest := same.symm
        rw [reportOf_of_drawn chosen drawn, error_after, bodyOf_error_eq_none_iff, taken]
        exact completes.derives

end

section

variable {env : Environment} {source : Entropy}

theorem accepted_of_read {config : EngineConfig} {settings : Settings}
    (config_read : EngineConfig.ofEnvironment env = .ok config)
    (read : Settings.ofEnvironment env = .ok settings) : Accepted env := by
  have engine := (Judges.engineConfig env).all_avoided config_read
  have others := (Judges.settings env).all_avoided read
  intro fault
  cases fault with
  | memoryLock | sanityCheck => exact engine _ (by decide)
  | seed | seedLength | path => exact others _ (by decide)

/-- A report ends with status zero exactly if its settings are accepted and chance does not disturb
it. -/
theorem status_eq_zero_iff :
    (outcome env source).status = 0 ↔ Accepted env ∧ Undisturbed env source := by
  rw [Outcome.status_eq_zero_iff]
  constructor
  · intro clean
    have stages := clean
    rw [outcome_eq] at stages
    obtain ⟨rest, begun, stages⟩ := exists_of_error_stage _ _ stages
    obtain ⟨settings, read, -⟩ := exists_of_error_stage _ _ stages
    obtain ⟨config, config_read, leaves⟩ := exists_config_of_started begun
    rw [outcome_of_started begun read, reportOf_error_eq_none_iff] at clean
    refine ⟨accepted_of_read config_read read, ?_⟩
    intro config' config_read'
    cases config_read.symm.trans config_read'
    refine ⟨rest, leaves, ?_⟩
    intro settings' read'
    cases read.symm.trans read'
    exact clean
  · rintro ⟨accepted, undisturbed⟩
    obtain ⟨config, config_read⟩ := (Judges.engineConfig env).exists_eq_ok fun f _ => accepted f
    obtain ⟨settings, read⟩ := (Judges.settings env).exists_eq_ok fun f _ => accepted f
    obtain ⟨rest, leaves, completes⟩ := undisturbed config config_read
    have begun := (started_eq_ok_iff_leaves config_read).mpr leaves
    rw [outcome_of_started begun read, reportOf_error_eq_none_iff]
    exact completes settings read

end

/-! ### A run with every stage -/

/-- A message and a path of two steps are set.  The self test is asked for, and the seed is
drawn. -/
def sampleEnvironment : Environment :=
  (Environment.withText (fun _ => none) "COINKEY_PATH" " m/0'/1").withText "COINKEY_MESSAGE" "hello"

def sampleSettings : Settings :=
  ⟨none, ⟨[0x80000000, 1]⟩, some "hello"⟩

/-- Of the candidates for the secret of the self test the first is zero and the second one. -/
def sampleSource : Entropy :=
  ⟨List.replicate 32 0 ++ Bytes.bigEndian 32 1 ++ sampleSeed.toList⟩

private theorem config_sampleEnvironment :
    EngineConfig.ofEnvironment sampleEnvironment = .ok ⟨true, true⟩ := by
  decide

theorem settings_sampleEnvironment :
    Settings.ofEnvironment sampleEnvironment = .ok sampleSettings := by
  decide +kernel

-- The digests on the way are written out, so that each is evaluated once.
namespace Sample

def testHash : Octets 32 :=
  .ofNat 32 0x99271b62cc6025459e8d0f8f499c505fbdca8449e0fd11da80c4236d1834c778

def testNonce : Scalar :=
  .ofNat order 0xba47551f913cab1f6ab4b6d2ab89c08fc9eefff8c7ca5c1298ce98cba0eafc07

def testPoint : Affine where
  x := .ofNat fieldPrime 0x1ff7f6d7372b65199817f808991e0616f591ee75cd382fa8fa6fcb93b0933cae
  y := .ofNat fieldPrime 0xaa51b721c0b968a68e6dfb26b4a2e5f261ffa282a4defa6335427e959f4e8eb1

def root : Scalar :=
  .ofNat order 0xdc562117768289e56e9a57094ce7a0ab2f9e0d4cf20245663d203864596871b3

def rootCode : ChainCode where
  octets := .ofNat 32 0x7b37dd9981f4a8309384c8a17563d72137b76a08fc8c220d34fb8cd20a17ead5

/-- What is added for the hardened child. -/
def childTweak : Octets 32 :=
  .ofNat 32 0x84889119c200ccb0b1e40fedd2f33c15d3658a3f139a82163779575f61813472

def child : Scalar :=
  .ofNat order 0x60deb23138835696207e66f71fdadcc24854baa556542740b4c73136eab364e4

def childCode : ChainCode where
  octets := .ofNat 32 0x52ab9886d1f5558e8c66e4f611c63f3b7554446b833b7d28d5b7278a1fee22a2

def childPoint : Affine where
  x := .ofNat fieldPrime 0x48177cd27acb1313609277e8a5715d53c3072b7a46c631b26f3d89b0909fd1f5
  y := .ofNat fieldPrime 0xc3aeac8de613936412a556afc5af8d9d2f99effd09dd38a329821530a71cee2d

/-- What is added for the leaf. -/
def leafTweak : Octets 32 :=
  .ofNat 32 0x25d22bdadc02edb715c4b27d48a35b25172de57ea652001c4ab80e9ff190fa19

def leaf : Scalar :=
  .ofNat order 0x86b0de0c1486444d36431974687e37e75f82a023fca6275cff7f3fd6dc445efd

def leafCode : ChainCode where
  octets := .ofNat 32 0x5d282742e7b8a1f8aa7734056b553accee2ab1cb03d551f9555864d15fd4669a

def messageHash : Octets 32 :=
  .ofNat 32 0x2cf24dba5fb0a30e26e83b2ac5b9e29e1b161e5c1fa7425e73043362938b9824

def messageNonce : Scalar :=
  .ofNat order 0x240533d88d97773e7829a217dba2c885ca07894d683c3eda52a6d63fee380183

def messagePoint : Affine where
  x := .ofNat fieldPrime 0xadd81ebc0027bc1c38cc279fbac65822927ca6cec59662478c1de837b43c2987
  y := .ofNat fieldPrime 0x8572332f35c86d83b409cb03b7855fedc87eb6f0233d2fb07d0ef5f0d601d5e9

private theorem point_of_times {k : Scalar} {R : Affine}
    (computed : generator.times k = .affine R) : Point.ofGroup (k.val • G) = .affine R := by
  rw [← toZMod_smul, ← generator_times, computed]

private theorem yields_of_next {d nonce : Scalar} {hash : Octets 32} (nonzero : nonce ≠ 0)
    (first : (Nonce.Generator.seed (d.toOctets 32) hash []).next.1 = nonce.toOctets 32) :
    Nonce.Yields d hash nonce := by
  refine ⟨0, by decide, nonzero, ?_, fun j before => absurd before (Nat.not_lt_zero j)⟩
  rw [← value_scalar nonce, ← first]
  rfl

private theorem yields_sampleSource : sampleSource.Yields 1 ⟨sampleSeed.toList⟩ := by
  refine ⟨1, by decide, ⟨by decide, by decide +kernel, ?_⟩, by decide, rfl⟩
  intro j before
  obtain rfl : j = 0 := by omega
  exact .inl (by decide +kernel)

theorem testable : Engine.Testable sampleSource ⟨sampleSeed.toList⟩ := by
  have hashed : Engine.testHash = testHash := by decide +kernel
  rw [Engine.Testable, hashed]
  refine ⟨1, testNonce, testPoint, yields_sampleSource, ?_, ?_, .inl (by decide +kernel)⟩
  · exact yields_of_next (by decide +kernel) (by decide +kernel)
  · exact {
      point := point_of_times (by decide +kernel)
      first := by decide +kernel
      second := by decide +kernel }

private theorem rootSecret : RootSecret sampleSeed.toList root rootCode := by
  have digest : hmacSha512 (Bytes.ofText PrivateNode.seedKey) sampleSeed.toList =
      (root.toOctets 32).append rootCode.octets := by
    decide +kernel
  exact {
    nonzero := by decide +kernel
    left := by rw [digest, leftHalf_append, value_scalar]
    right := by rw [digest, rightHalf_append] }

private theorem childSecret : ChildSecret root rootCode 0x80000000 child childCode
    (0 :: (root.toOctets 32).toList ++ Bytes.bigEndian 4 0x80000000) := by
  have hashed : SecretKey.MessageFor root 0x80000000
      (0 :: (root.toOctets 32).toList ++ Bytes.bigEndian 4 0x80000000) :=
    ⟨fun _ => rfl, fun plain => absurd plain (by decide), by decide +kernel⟩
  exact .of_append hashed (by decide +kernel : _ = childTweak.append childCode.octets)
    (by decide +kernel) (by decide +kernel) (by decide +kernel)

private theorem leafSecret : ChildSecret child childCode 1 leaf leafCode
    ((PublicKey.compressedForm childPoint).toList ++ Bytes.bigEndian 4 1) := by
  have point := point_of_times (k := child) (R := childPoint) (by decide +kernel)
  have hashed : SecretKey.MessageFor child 1
      ((PublicKey.compressedForm childPoint).toList ++ Bytes.bigEndian 4 1) :=
    ⟨fun hardened => absurd hardened (by decide), fun _ => ⟨childPoint, point, rfl⟩,
      by decide +kernel⟩
  exact .of_append hashed (by decide +kernel : _ = leafTweak.append leafCode.octets)
    (by decide +kernel) (by decide +kernel) (by decide +kernel)

private theorem signable : Signable leaf (sha256 (Bytes.ofText "hello")) := by
  have hashed : sha256 (Bytes.ofText "hello") = messageHash := by decide +kernel
  rw [hashed]
  refine ⟨messageNonce, messagePoint, ?_, ?_⟩
  · exact yields_of_next (by decide +kernel) (by decide +kernel)
  · exact {
      point := point_of_times (by decide +kernel)
      first := by decide +kernel
      second := by decide +kernel }

end Sample

theorem accepted_sampleEnvironment : Accepted sampleEnvironment :=
  accepted_of_read config_sampleEnvironment settings_sampleEnvironment

theorem undisturbed_sampleEnvironment : Undisturbed sampleEnvironment sampleSource := by
  intro config config_read
  cases config_sampleEnvironment.symm.trans config_read
  refine ⟨⟨sampleSeed.toList⟩, Sample.testable, ?_⟩
  intro settings read
  cases settings_sampleEnvironment.symm.trans read
  have leads : LeafSecret Sample.root Sample.rootCode sampleSettings.path.indexes Sample.leaf :=
    .step Sample.childSecret (.step Sample.leafSecret (.here Sample.leaf Sample.leafCode))
  refine ⟨fun _ => by decide, Sample.root, Sample.rootCode, Sample.leaf, Sample.rootSecret, leads,
    ?_⟩
  rintro text same
  cases same
  exact Sample.signable

end KeyTree.Report
