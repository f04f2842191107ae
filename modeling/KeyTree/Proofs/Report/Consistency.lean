import KeyTree.Proofs.Key.EncodedSignature
import KeyTree.Proofs.Report.Chance
import KeyTree.Proofs.Tree.Challenge
import KeyTree.Proofs.Tree.Roots
import KeyTree.Proofs.Tree.Written
/-!
The texts that a report prints fit each other.

Each is read back by the reader of its kind: the path as the path that was set, the texts of the
nodes as the public views of the root and of the leaf, and the signatures as one low signature of
the message that is good for the key of the leaf.
-/

set_option autoImplicit false
set_option relaxedAutoImplicit false

namespace KeyTree.Report

open Outcome Ecdsa

/-- The texts of a report without their labels.  The seed is printed if it was drawn, and the two
forms of a signature if there is a message. -/
structure Texts where
  seed : Option String
  master : String
  path : String
  leaf : String
  key : String
  id : String
  signature : Option (String × String)

namespace Texts

def signatureLines : Option (String × String) → List String
  | none => []
  | some (der, compact) => ["signature:   " ++ der, "compact:     " ++ compact]

def lines (t : Texts) : List String :=
  t.seed.toList.map ("seed:        " ++ ·) ++
    ["master xpub: " ++ t.master,
      "path:        " ++ t.path,
      "leaf xpub:   " ++ t.leaf,
      "leaf key:    " ++ t.key,
      "leaf id:     " ++ t.id] ++
    signatureLines t.signature

end Texts

/-- The texts are the two forms of one low signature of a hash that is good for a key, and the
compact one gives the key back unless its id is three. -/
structure Signs (key : PublicKey) (hash : Octets 32) (der compact : String) (e : EncodedSignature)
    (c : CompactSignature) (σ : Signature) (id : UInt8) : Prop where
  der_read : EncodedSignature.ofHex der = .ok e
  low : e.isLow = true
  verifies : (KeyPair.ofPublicKey key).verifies hash e.bytes = true
  compact_read : CompactSignature.ofHex compact = .ok c
  elements : Signature.ofDer? e.bytes = some σ
  parts : c.parts = .ok ⟨σ.toRaw, id, key.compressed⟩
  recovered : id ≠ 3 → c.recover hash = .ok key

/-- The texts fit each other and the settings, with the public views `M` of the root and `N` of the
leaf. -/
structure Texts.Consistent (t : Texts) (settings : Settings) (M N : PublicNode) : Prop where
  path_read : Path.parse t.path = .ok settings.path
  path_canonical : t.path = "m" ++ String.join (settings.path.indexes.map Path.stepText)
  master_read : PublicNode.ofText t.master = .ok M
  leaf_read : PublicNode.ofText t.leaf = .ok N
  depth : N.depth.toNat = settings.path.indexes.length % 256
  key : t.key = Hex.encode N.key.toBytes
  id : t.id = Hex.encode (hash160 N.key.toBytes).toList
  derived : (∀ i ∈ settings.path.indexes, isHardened i = false) →
    M.derivePath settings.path = .ok N
  unsigned : settings.message = none → t.signature = none
  signed : ∀ message, settings.message = some message → ∃ der compact e c σ id,
    t.signature = some (der, compact) ∧
      Signs N.key (sha256 (Bytes.ofText message)) der compact e c σ id

/-! ### Signatures -/

section

variable {leaf : PrivateNode} {N : PublicNode} {hash : Octets 32}

private theorem publicKey_of_neuter (wellFormed : leaf.WellFormed)
    (neutered : leaf.neuter = .ok N) : leaf.key.publicKey = .ok N.key := by
  obtain ⟨d, A, holds⟩ := wellFormed.exists_holds
  rw [PrivateNode.neuter_eq holds] at neutered
  cases neutered
  rw [holds.publicKey, wellFormed.compressed]

private theorem signs_of_matches {k : SecretKey} {der : Bytes} {c : CompactSignature}
    {σ : Signature} {id : RecoveryId} {key : PublicKey} (fitting : k.Matches hash der c σ id key)
    (good : (KeyPair.ofPublicKey key).verifies hash der = true) :
    Signs key hash (Hex.encode der) c.toHex ⟨der⟩ c σ id.toByte := by
  have written : σ.toDer = der := Signature.ofDer?_eq_some_iff.mp fitting.decoded
  have short : der.length ≤ EncodedSignature.maxSize :=
    written ▸ Signature.length_toDer_le_maxSize σ
  have low : Signature.isLowDer der = true := by
    rw [Signature.isLowDer, fitting.decoded]
    exact Signature.isLow_iff.mpr fitting.low
  have parts : c.parts = .ok ⟨σ.toRaw, id.toByte, key.compressed⟩ := by
    rw [fitting.encoding]
    exact CompactSignature.parts_of_octets id.toByte_lt fitting.octets
  exact {
    der_read := EncodedSignature.ofHex_toHex short
    low := low
    verifies := good
    compact_read := CompactSignature.ofHex_toHex c
    elements := fitting.decoded
    parts := parts
    recovered := fun notThree => fitting.recover_eq_ok_iff.mpr ⟨rfl, notThree⟩ }

private theorem exists_signs (wellFormed : leaf.WellFormed) (neutered : leaf.neuter = .ok N)
    {der : Bytes} {compact : CompactSignature} (signed : leaf.key.sign hash 0 = .ok der)
    (packed : leaf.key.signCompact hash = .ok compact) :
    ∃ σ id, Signs N.key hash (Hex.encode der) compact.toHex ⟨der⟩ compact σ id := by
  obtain ⟨d, A, holds⟩ := wellFormed.exists_holds
  have both := holds.signsBoth hash fun d => Nonce.derive? d hash 0
  obtain ⟨nonce, σ, drawn, made⟩ := both.exists_of_signBy signed
  obtain ⟨der', c, id, key, signed', packed', fitting⟩ := both.signs nonce σ drawn made
  cases signed'.symm.trans signed
  cases packed'.symm.trans packed
  cases fitting.publicKey.symm.trans (publicKey_of_neuter wellFormed neutered)
  exact ⟨σ.lowS, id.toByte,
    signs_of_matches fitting (holds.verifies_of_signBy fitting.publicKey signed')⟩

end

/-! ### The texts -/

private theorem exists_of_messageLines {leaf : PrivateNode} {N : PublicNode}
    {message : Option String}
    {lines : List String} (wellFormed : leaf.WellFormed) (neutered : leaf.neuter = .ok N)
    (signed : messageLines leaf message = .ok lines) : ∃ signature,
      lines = Texts.signatureLines signature ∧ (message = none → signature = none) ∧
        ∀ text, message = some text → ∃ der compact e c σ id, signature = some (der, compact) ∧
          Signs N.key (sha256 (Bytes.ofText text)) der compact e c σ id := by
  cases message with
  | none =>
      cases signed
      exact ⟨none, rfl, fun _ => rfl, nofun⟩
  | some text =>
      obtain ⟨der, plain, made⟩ := bind_eq_ok_iff.mp signed
      obtain ⟨compact, packed, same⟩ := bind_eq_ok_iff.mp made
      cases same
      obtain ⟨σ, id, signs⟩ := exists_signs wellFormed neutered plain packed
      refine ⟨some (Hex.encode der, compact.toHex), rfl, nofun, ?_⟩
      intro text' same
      cases same
      exact ⟨_, _, _, _, σ, id, rfl, signs⟩

private theorem exists_consistent {settings : Settings} {seed : Bytes} {nodes : Nodes}
    {lines : List String} (made : nodesOf settings.path seed = .ok nodes)
    (signed : messageLines nodes.leaf settings.message = .ok lines) (shown : Option String) :
    ∃ t : Texts, t.Consistent settings nodes.rootPublic nodes.leafPublic ∧
      t.lines =
        shown.toList.map ("seed:        " ++ ·) ++ (nodes.lines settings.path ++ lines) := by
  obtain ⟨root, seeded, derived, leaf_neutered, root_neutered⟩ := exists_of_nodesOf made
  have root_wellFormed := PrivateNode.wellFormed_of_ofSeed seeded
  have leaf_wellFormed : nodes.leaf.WellFormed := root_wellFormed.derivePath derived
  have public_root := PublicNode.wellFormed_of_neuter root_wellFormed root_neutered
  have public_leaf := PublicNode.wellFormed_of_neuter leaf_wellFormed leaf_neutered
  obtain ⟨signature, rfl, unsigned, forms⟩ :=
    exists_of_messageLines leaf_wellFormed leaf_neutered signed
  have depth : nodes.leafPublic.depth.toNat = settings.path.indexes.length % 256 := by
    have start : root.depth = 0 := by
      obtain ⟨key, -, same⟩ := bind_eq_ok_iff.mp seeded
      cases same
      rfl
    rw [PrivateNode.toNodeHeader_of_neuter leaf_neutered, PrivateNode.depth_of_derivePath derived,
      start]
    exact congrArg (· % 256) (Nat.zero_add _)
  have plain_derived (plain : ∀ i ∈ settings.path.indexes, isHardened i = false) :
      nodes.rootPublic.derivePath settings.path = .ok nodes.leafPublic := by
    have agree := root_wellFormed.derivePath_neuter_eq plain
    rw [root_neutered, ok_bind] at agree
    rw [PublicNode.derivePath, ← agree, bind_eq_ok_iff]
    exact ⟨nodes.leaf, derived, leaf_neutered⟩
  refine ⟨⟨shown, nodes.rootPublic.toText, settings.path.text, nodes.leafPublic.toText,
    nodes.leafPublic.key.toHex, Hex.encode nodes.leafPublic.identifier.toList, signature⟩, ?_, ?_⟩
  · exact {
      path_read := Path.parse_text settings.path
      path_canonical := Path.text_eq settings.path
      master_read := PublicNode.ofText_eq_ok_iff.mpr ⟨public_root, rfl⟩
      leaf_read := PublicNode.ofText_eq_ok_iff.mpr ⟨public_leaf, rfl⟩
      depth := depth
      key := rfl
      id := rfl
      derived := plain_derived
      unsigned := unsigned
      signed := forms }
  · rw [Texts.lines, List.append_assoc]
    rfl

/-- Whenever a run ends without an error, its settings are accepted and what it prints are texts
that fit each other and the settings. -/
theorem outcome_consistent (env : Environment) (source : Entropy)
    (ended : (outcome env source).status = 0) : ∃ settings t M N,
      Settings.ofEnvironment env = .ok settings ∧ (outcome env source).lines = Texts.lines t ∧
        Texts.Consistent t settings M N := by
  have clean := Outcome.status_eq_zero_iff.mp ended
  rw [outcome_eq] at clean
  obtain ⟨rest, begun, clean⟩ := exists_of_error_stage _ _ clean
  obtain ⟨settings, read, clean⟩ := exists_of_error_stage _ _ clean
  obtain ⟨shown, seed, clean, printed⟩ := exists_of_reportOf clean
  obtain ⟨nodes, lines, made, signed, body⟩ := exists_of_bodyOf clean
  obtain ⟨t, consistent, lines_eq⟩ := exists_consistent made signed shown
  refine ⟨settings, t, nodes.rootPublic, nodes.leafPublic, read, ?_, consistent⟩
  rw [outcome_of_started begun read, printed, body, lines_eq]

theorem outcome_consistent_sampleSeed : ∃ t M N,
    (outcome sampleEnvironment sampleSource).lines = Texts.lines t ∧
      Texts.Consistent t sampleSettings M N := by
  have ended : (outcome sampleEnvironment sampleSource).status = 0 :=
    status_eq_zero_iff.mpr ⟨accepted_sampleEnvironment, undisturbed_sampleEnvironment⟩
  obtain ⟨settings, t, M, N, read, lines, consistent⟩ := outcome_consistent _ _ ended
  cases settings_sampleEnvironment.symm.trans read
  exact ⟨t, M, N, lines, consistent⟩

end KeyTree.Report
