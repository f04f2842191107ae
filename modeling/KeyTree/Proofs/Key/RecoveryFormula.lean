import KeyTree.Proofs.Key.Recovery
/-!
Recovery and its formula.

Recovery brings a signature into its low form first and turns the parity of the id with it.  What it
answers is the plain formula, with the second element and the id as they were given
(`recovery_exact`).  The twin of a signature leads to the same point under the opposite id, but for
an id of two the opposite one is three, which is refused (`recover_twin`).
-/

set_option autoImplicit false
set_option relaxedAutoImplicit false

namespace KeyTree

open Curve

namespace Signature

def pack (r s : Nat) : Octets 64 :=
  (Octets.ofNat 32 r).append (Octets.ofNat 32 s)

def first (raw : Octets 64) : Nat :=
  (raw.take (n := 32) 32).value

def second (raw : Octets 64) : Nat :=
  (raw.drop (n := 32) 32).value

private theorem ofRaw?_pack_eq_some_iff {r s : Nat} {σ : Signature} (r_lt : r < order)
    (s_lt : s < order) : ofRaw? (pack r s) = some σ ↔ σ.r.val = r ∧ σ.s.val = s := by
  have room : order < 256 ^ 32 := by decide
  rw [ofRaw?_eq_some_iff, pack, Octets.take_append, Octets.drop_append,
    Octets.value_ofNat (r_lt.trans room), Octets.value_ofNat (s_lt.trans room)]

end Signature

namespace Ecdsa

/-- The `x` of the point that a signature was made from: `r`, with the order added if bit 1 of the
id is set. -/
def startX (r : Nat) (b : UInt8) : Nat :=
  if b.toNat.testBit 1 then r + order else r

/-- `R` is the point with this `x` whose `y` has the parity that bit 0 of the id gives. -/
def StartsFrom (r : Nat) (b : UInt8) (R : PointGroup) : Prop :=
  ∃ A, Point.ofGroup R = .affine A ∧ A.x.val = startX r b ∧ A.y.val % 2 = b.toNat % 2

/-- `r⁻¹ (sR - zG)`, where the hash is `z`. -/
noncomputable def formulaPoint (hash : Octets 32) (r s : Nat) (R : PointGroup) : PointGroup :=
  (r : ZMod order)⁻¹ • ((s : ZMod order) • R - (hash.value : ZMod order) • G)

private theorem isOdd_eq_iff {a : Coordinate} {odd : Bool} :
    a.isOdd = odd ↔ a.val % 2 = if odd then 1 else 0 := by
  rw [Residue.isOdd]
  cases odd
  · simp
  · simp

private theorem startsFrom_toByte_iff {r : Scalar} {id : RecoveryId} {R : PointGroup} :
    StartsFrom r.val id.toByte R ↔ ∃ A, Point.ofGroup R = .affine A ∧ id.Selects r A := by
  have x_eq : startX r.val id.toByte = if id.reduced then r.val + order else r.val := by
    obtain ⟨odd, reduced⟩ := id
    cases odd <;> cases reduced <;> rfl
  have parity : id.toByte.toNat % 2 = if id.odd then 1 else 0 := by
    obtain ⟨odd, reduced⟩ := id
    cases odd <;> cases reduced <;> rfl
  rw [StartsFrom, x_eq, parity]
  constructor
  · rintro ⟨A, point, x_eq, odd⟩
    exact ⟨A, point, Point.onCurve_of_ofGroup point, x_eq, isOdd_eq_iff.mpr odd⟩
  · rintro ⟨A, point, selected⟩
    exact ⟨A, point, selected.x_eq, isOdd_eq_iff.mp selected.parity⟩

private theorem exists_startsFrom_iff {r : Nat} {b : UInt8} :
    (∃ R, StartsFrom r b R) ↔
      startX r b < fieldPrime ∧ IsSquare ((startX r b : ZMod fieldPrime) ^ 3 + 7) := by
  constructor
  · rintro ⟨R, A, point, x_eq, -⟩
    have onCurve := Point.onCurve_of_ofGroup point
    rw [← x_eq]
    exact ⟨A.x.val_lt, Affine.exists_ofX?_iff.mp ⟨A, Affine.ofX?_eq_some_iff.mpr ⟨onCurve, rfl, rfl⟩⟩⟩
  · rintro ⟨x_lt, square⟩
    have lifted : ∃ A, Affine.ofX? ⟨startX r b, x_lt⟩ (decide (b.toNat % 2 = 1)) = some A :=
      Affine.exists_ofX?_iff.mpr square
    obtain ⟨A, found⟩ := lifted
    obtain ⟨onCurve, x_eq, parity⟩ := Affine.ofX?_eq_some_iff.mp found
    obtain ⟨R, point⟩ := Point.onCurve_iff_exists_ofGroup.mp onCurve
    refine ⟨R, A, point, congrArg Residue.val x_eq, ?_⟩
    rw [isOdd_eq_iff.mp parity]
    rcases Nat.mod_two_eq_zero_or_one b.toNat with even | odd
    · simp [even]
    · simp [odd]

section

variable {hash : Octets 32} {σ : Signature} {id : RecoveryId} {R : PointGroup}

private theorem recover?_of_startsFrom (starts : StartsFrom σ.r.val id.toByte R) :
    recover? hash σ id = (Point.ofGroup (formulaPoint hash σ.r.val σ.s.val R)).affine? := by
  obtain ⟨A, point, selected⟩ := startsFrom_toByte_iff.mp starts
  rw [recover?_of_selects point selected, toZMod_hashScalar]
  rfl

private theorem recover?_of_no_start (none : ∀ R, ¬ StartsFrom σ.r.val id.toByte R) :
    recover? hash σ id = .none := by
  rw [Option.eq_none_iff_forall_ne_some]
  intro A recovered
  obtain ⟨Q, -, R, B, point, selected, -⟩ := recover?_eq_some_iff.mp recovered
  exact none R (startsFrom_toByte_iff.mpr ⟨B, point, selected⟩)

end

end Ecdsa

namespace KeyPair

open Ecdsa Signature

/-- What the formula answers for a signature in 64 bytes and an id.  The id is looked at first, then
the elements. -/
inductive PlainRecovery (hash : Octets 32) (raw : Octets 64) (b : UInt8) :
    Except CurveError KeyPair → Prop where
  | refusedId : 3 ≤ b → PlainRecovery hash raw b (.error (.invalidRecoveryId b))
  | outOfRange : b < 3 → ¬ ElementsInRange raw →
      PlainRecovery hash raw b (.error (.invalidSignature .elementOutOfRange))
  | noStart : b < 3 → ElementsInRange raw → (∀ R, ¬ StartsFrom (first raw) b R) →
      PlainRecovery hash raw b (.error .recoveryFailed)
  | identity {R : PointGroup} : b < 3 → ElementsInRange raw → StartsFrom (first raw) b R →
      formulaPoint hash (first raw) (second raw) R = 0 →
      PlainRecovery hash raw b (.error .recoveryFailed)
  | found {R : PointGroup} {A : Affine} : b < 3 → ElementsInRange raw →
      StartsFrom (first raw) b R →
      Point.ofGroup (formulaPoint hash (first raw) (second raw) R) = .affine A →
      PlainRecovery hash raw b (.ok ⟨none, some A⟩)

section

variable {hash : Octets 32} {raw : Octets 64} {b : UInt8} {result : Except CurveError KeyPair}

private theorem exists_recover_eq (small : b < 3) (inRange : ElementsInRange raw) :
    ∃ σ id, (σ.r.val = first raw ∧ σ.s.val = second raw) ∧ b = RecoveryId.toByte id ∧
      recover hash raw b =
        match Ecdsa.recover? hash σ id with
        | none => .error .recoveryFailed
        | some A => .ok ⟨none, some A⟩ := by
  obtain ⟨σ, read⟩ := elementsInRange_iff.mp inRange
  obtain ⟨id, rfl⟩ := RecoveryId.exists_toByte (UInt8.lt_trans small (by decide))
  exact ⟨σ, id, ofRaw?_eq_some_iff.mp read, rfl, recover_of_read small read⟩

private theorem PlainRecovery.recover_eq (plain : PlainRecovery hash raw b result) :
    recover hash raw b = result := by
  cases plain with
  | refusedId large => exact recover_of_refused large
  | outOfRange small out =>
      have unread : ofRaw? raw = none := by
        rw [Option.eq_none_iff_forall_ne_some]
        exact fun σ read => out (elementsInRange_iff.mpr ⟨σ, read⟩)
      exact recover_of_unread small unread
  | noStart small inRange none =>
      obtain ⟨σ, id, ⟨r_eq, s_eq⟩, rfl, answer⟩ := exists_recover_eq small inRange
      rw [← r_eq] at none
      rw [answer, recover?_of_no_start none]
  | identity small inRange starts zero =>
      obtain ⟨σ, id, ⟨r_eq, s_eq⟩, rfl, answer⟩ := exists_recover_eq small inRange
      rw [← r_eq] at starts zero
      rw [answer, recover?_of_startsFrom starts, s_eq, zero]
      rfl
  | found small inRange starts point =>
      obtain ⟨σ, id, ⟨r_eq, s_eq⟩, rfl, answer⟩ := exists_recover_eq small inRange
      rw [← r_eq] at starts point
      rw [answer, recover?_of_startsFrom starts, s_eq, point]
      rfl

private theorem exists_plainRecovery (hash : Octets 32) (raw : Octets 64) (b : UInt8) :
    ∃ result, PlainRecovery hash raw b result := by
  by_cases small : b < 3
  · by_cases inRange : ElementsInRange raw
    · by_cases start : ∃ R, StartsFrom (first raw) b R
      · obtain ⟨R, starts⟩ := start
        by_cases zero : formulaPoint hash (first raw) (second raw) R = 0
        · exact ⟨_, .identity small inRange starts zero⟩
        · obtain ⟨A, point⟩ := Point.exists_ofGroup_eq_affine zero
          exact ⟨_, .found small inRange starts point⟩
      · exact ⟨_, .noStart small inRange (not_exists.mp start)⟩
    · exact ⟨_, .outOfRange small inRange⟩
  · exact ⟨_, .refusedId (UInt8.not_lt.mp small)⟩

/-- Recovery answers what the formula says, whether or not the signature is low.  There is a point to
start from exactly if its `x` is below the field prime and on the curve. -/
theorem recovery_exact (hash : Octets 32) (raw : Octets 64) (b : UInt8) :
    (∀ result, recover hash raw b = result ↔ PlainRecovery hash raw b result) ∧
    ((∃ R, StartsFrom (first raw) b R) ↔ startX (first raw) b < fieldPrime ∧
      IsSquare ((startX (first raw) b : ZMod fieldPrime) ^ 3 + 7)) := by
  refine ⟨fun result => ⟨?_, PlainRecovery.recover_eq⟩, exists_startsFrom_iff⟩
  rintro rfl
  obtain ⟨result, plain⟩ := exists_plainRecovery hash raw b
  rw [plain.recover_eq]
  exact plain

end

/-! ### Twins -/

/-- What an id recovers from a signature, the formula gives for the twin and the opposite id as
well, and recovery answers with it unless the opposite id is three. -/
theorem recover_twin {r s : Nat} (r_pos : 0 < r) (r_lt : r < order) (s_pos : 0 < s)
    (s_lt : s < order) {hash : Octets 32} {b : UInt8} {p : KeyPair}
    (recovered : recover hash (pack r s) b = .ok p) :
    b ≤ 2 ∧
    (∃ R, StartsFrom r (b ^^^ 1) R ∧ p.HasPoint (formulaPoint hash r (order - s) R)) ∧
    recover hash (pack r (order - s)) (b ^^^ 1) =
      if b = 2 then .error (.invalidRecoveryId 3) else .ok p := by
  obtain ⟨small, id, σ, Q, A, rfl, read, point, found, rfl⟩ := recover_eq_ok_iff.mp recovered
  obtain ⟨rfl, rfl⟩ := (ofRaw?_pack_eq_some_iff r_lt s_lt).mp read
  have negated : σ.twin.s.val = order - σ.s.val := Residue.val_neg_of_ne_zero σ.s_ne_zero
  have read_twin : ofRaw? (pack σ.r.val (order - σ.s.val)) = some σ.twin :=
    (ofRaw?_pack_eq_some_iff r_lt (by omega)).mpr ⟨rfl, negated⟩
  have found_twin := found.twin
  rw [← RecoveryId.toByte_opposite]
  refine ⟨lt_three_iff_le_two.mp small, ?_, ?_⟩
  · obtain ⟨R, B, start, selected, rfl⟩ := found_twin
    refine ⟨R, startsFrom_toByte_iff.mpr ⟨B, start, selected⟩, A, rfl, ?_⟩
    rw [← point, ← negated, toZMod_hashScalar]
    rfl
  · split
    · rename_i two
      rw [RecoveryId.toByte_opposite, two]
      exact recover_of_refused (by decide)
    · rename_i other
      have small' : id.opposite.toByte < 3 := by
        obtain ⟨odd, reduced⟩ := id
        revert small other
        cases odd <;> cases reduced <;> decide
      exact recover_eq_ok_iff.mpr
        ⟨small', id.opposite, σ.twin, Q, A, rfl, read_twin, point, found_twin, rfl⟩

private theorem exists_recover_two (b : UInt8) (known : b = 1 ∨ b = 2) :
    ∃ p, recover (Octets.zero 32) (pack 2 1) b = .ok p := by
  apply exists_of_toBool
  rcases known with rfl | rfl
  · decide +kernel
  · decide +kernel

theorem recover_twin_two :
    (∃ p, recover (Octets.zero 32) (pack 2 1) 1 = .ok p ∧
      recover (Octets.zero 32) (pack 2 (order - 1)) 0 = .ok p) ∧
    ∃ p, recover (Octets.zero 32) (pack 2 1) 2 = .ok p ∧
      recover (Octets.zero 32) (pack 2 (order - 1)) 3 = .error (.invalidRecoveryId 3) := by
  obtain ⟨p, recovered⟩ := exists_recover_two 1 (.inl rfl)
  obtain ⟨q, recovered'⟩ := exists_recover_two 2 (.inr rfl)
  obtain ⟨-, -, again⟩ :=
    recover_twin (by decide) (by decide) (by decide) (by decide) recovered
  obtain ⟨-, -, refused⟩ :=
    recover_twin (by decide) (by decide) (by decide) (by decide) recovered'
  exact ⟨⟨p, recovered, again⟩, q, recovered', refused⟩

/-- Not for every id up to three does the opposite one recover the pair from the twin: for the id two
the opposite one is refused, as with the elements two and one. -/
theorem not_recover_twin :
    (¬ ∀ (hash : Octets 32) (r s : Nat) (b : UInt8) (p : KeyPair), 0 < r → r < order → 0 < s →
      s < order → b ≤ 3 → recover hash (pack r s) b = .ok p →
      recover hash (pack r (order - s)) (b ^^^ 1) = .ok p) ∧
    (∃ p, recover (Octets.zero 32) (pack 2 1) 2 = .ok p) ∧
    recover (Octets.zero 32) (pack 2 (order - 1)) (2 ^^^ 1) = .error (.invalidRecoveryId 3) := by
  obtain ⟨p, recovered⟩ := exists_recover_two 2 (.inr rfl)
  have refused : recover (Octets.zero 32) (pack 2 (order - 1)) (2 ^^^ 1) =
      .error (.invalidRecoveryId 3) := recover_of_refused (by decide)
  refine ⟨?_, ⟨p, recovered⟩, refused⟩
  intro claimed
  have again := claimed _ _ _ _ p (by decide) (by decide) (by decide) (by decide) (by decide)
    recovered
  cases refused.symm.trans again

end KeyPair

end KeyTree
