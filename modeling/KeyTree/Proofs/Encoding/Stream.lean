import KeyTree.Encoding.Stream
import KeyTree.Proofs.BigEndian
import KeyTree.Proofs.Update
/-!
Readers that take byte strings off a stream, and writers that put them into a buffer.

A reader takes bytes if it answers them and leaves exactly what follows, and if it runs out of
input on every part of them.  Readers put together take the bytes put together, and from there it
goes by induction to readers that read one after the other (`each_flatMap`, `each_cut`).

Writing byte strings one after the other is writing them as one (`Writer.octets_append`), whatever
room the buffer has.
-/

set_option autoImplicit false
set_option relaxedAutoImplicit false

namespace KeyTree

theorem Bytes.littleEndianValue_littleEndian (n v : Nat) :
    littleEndianValue (littleEndian n v) = v % 256 ^ n :=
  bigEndianValue_bigEndian n v

theorem Bytes.littleEndian_littleEndianValue {n : Nat} {bs : Bytes} (length_eq : bs.length = n) :
    littleEndian n (littleEndianValue bs) = bs := by
  have reversed : bs.reverse.length = n := by rw [List.length_reverse, length_eq]
  have written := bigEndian_bigEndianValue reversed
  rwa [bigEndian, List.reverse_inj] at written

theorem Bytes.littleEndianValue_lt (bs : Bytes) : littleEndianValue bs < 256 ^ bs.length := by
  rw [← List.length_reverse]
  exact bigEndianValue_lt bs.reverse

theorem Bytes.littleEndianValue_singleton (b : UInt8) : littleEndianValue [b] = b.toNat := by
  simp [littleEndianValue, bigEndianValue_cons]

namespace Reader

variable {ε ε' α β κ : Type}

/-- The reader gives an answer on the bytes and leaves what follows them; a part of them is too
short. -/
structure Takes (op : Update Bytes ε α) (short : ε) (bs : Bytes) (answer : Except ε α) : Prop where
  whole : ∀ rest, op.apply (bs ++ rest) = (answer, rest)
  cut : ∀ n < bs.length, (op.apply (bs.take n)).1 = .error short

private theorem apply_octets (n : Nat) (stream : Bytes) :
    (octets n).apply stream =
      match Octets.ofList? n (stream.take n) with
      | some o => (.ok o, stream.drop n)
      | none => (.error .shortInput, []) := rfl

theorem takes_octets {n : Nat} (o : Octets n) :
    Takes (octets n) StreamError.shortInput o.toList (.ok o) where
  whole rest := by
    rw [apply_octets, List.take_left' o.length_eq, Octets.ofList?_toList,
      List.drop_left' o.length_eq]
  cut m shorter := by
    rw [o.length_eq] at shorter
    have missing : Octets.ofList? n ((o.toList.take m).take n) = none := by
      rw [Octets.ofList?_eq_none_iff, List.take_take, List.length_take, o.length_eq]
      omega
    rw [apply_octets, missing]

theorem takes_ofExcept (short : ε) (result : Except ε α) :
    Takes (Update.ofExcept result) short [] result where
  whole _ := rfl
  cut := nofun

section

variable {op : Update Bytes ε α} {next : α → Update Bytes ε β} {short : ε} {bs bs' : Bytes}

theorem Takes.bind {a : α} {answer : Except ε β} (first : Takes op short bs (.ok a))
    (second : Takes (next a) short bs' answer) : Takes (op >>= next) short (bs ++ bs') answer where
  whole rest := by
    rw [List.append_assoc, Update.apply_bind, first.whole]
    exact second.whole rest
  cut n shorter := by
    rw [List.length_append] at shorter
    -- the cut is inside what the first reader takes, or what it leaves is a part of the rest
    by_cases early : n < bs.length
    · rw [List.take_append_of_le_length early.le]
      exact Update.apply_bind_of_error (first.cut n early) next
    · have late : n - bs.length < bs'.length := by omega
      rw [List.take_append, List.take_of_length_le (Nat.not_lt.mp early), Update.apply_bind,
        first.whole]
      exact second.cut _ late

theorem Takes.bind_ofExcept {a : α} (first : Takes op short bs (.ok a))
    (result : α → Except ε β) :
    Takes (op >>= fun a => Update.ofExcept (result a)) short bs (result a) := by
  have joined : Takes (op >>= fun a => Update.ofExcept (result a)) short (bs ++ []) (result a) :=
    first.bind (takes_ofExcept short (result a))
  rwa [List.append_nil] at joined

theorem Takes.map {answer : Except ε α} (takes : Takes op short bs answer) (f : α → β) :
    Takes (op >>= fun a => pure (f a)) short bs (answer.map f) where
  whole rest := by
    rw [Update.apply_bind, takes.whole]
    cases answer with
    | ok a => rfl
    | error e => rfl
  cut n shorter := Update.apply_bind_of_error (takes.cut n shorter) _

theorem Takes.mapError {answer : Except ε α} (takes : Takes op short bs answer) (f : ε → ε') :
    Takes (op.mapError f) (f short) bs (answer.mapError f) where
  whole rest := by
    rw [Update.apply_mapError, takes.whole]
  cut n shorter := by
    rw [Update.apply_mapError, takes.cut n shorter]
    rfl

end

theorem takes_littleEndian (bs : Bytes) :
    Takes (littleEndian bs.length) StreamError.shortInput bs (.ok bs.littleEndianValue) :=
  (takes_octets ⟨bs, rfl⟩).map fun o => Bytes.littleEndianValue o.toList

theorem apply_octets_eq_ok_iff {n : Nat} {stream rest : Bytes} {o : Octets n} :
    (octets n).apply stream = (.ok o, rest) ↔ stream = o.toList ++ rest := by
  constructor
  · intro read
    rw [apply_octets] at read
    split at read
    · rename_i first taken
      cases read
      rw [Octets.ofList?_eq_some_iff.mp taken, List.take_append_drop]
    · cases read
  · rintro rfl
    exact (takes_octets o).whole rest

theorem apply_littleEndian_eq_ok_iff {n v : Nat} {stream rest : Bytes} :
    (littleEndian n).apply stream = (.ok v, rest) ↔
      ∃ bs : Bytes, bs.length = n ∧ bs.littleEndianValue = v ∧ stream = bs ++ rest := by
  constructor
  · intro read
    obtain ⟨o, reached, first, second⟩ := Update.apply_bind_eq_ok_iff.mp read
    cases second
    exact ⟨o.toList, o.length_eq, rfl, apply_octets_eq_ok_iff.mp first⟩
  · rintro ⟨bs, rfl, rfl, rfl⟩
    exact (takes_littleEndian bs).whole rest

/-! ### One reader after the other -/

/-- The answers of readers that read one after the other, and what the last one leaves.  Each goes
on from where the one before it stopped, whether that one failed or not. -/
def each : List (Update Bytes ε α) → Bytes → List (Except ε α) × Bytes
  | [], stream => ([], stream)
  | op :: ops, stream =>
      let (answer, left) := op.apply stream
      let (answers, rest) := each ops left
      (answer :: answers, rest)

private theorem each_cons (op : Update Bytes ε α) (ops : List (Update Bytes ε α)) (stream : Bytes) :
    each (op :: ops) stream =
      ((op.apply stream).1 :: (each ops (op.apply stream).2).1,
        (each ops (op.apply stream).2).2) := rfl

private theorem each_append (ops ops' : List (Update Bytes ε α)) (stream : Bytes) :
    each (ops ++ ops') stream =
      ((each ops stream).1 ++ (each ops' (each ops stream).2).1,
        (each ops' (each ops stream).2).2) := by
  induction ops generalizing stream with
  | nil => rfl
  | cons op ops ih =>
      rw [List.cons_append, each_cons, each_cons, ih]
      rfl

section

variable {reader : κ → Update Bytes ε α} {short : ε} {bytes : κ → Bytes}
  {answer : κ → Except ε α} (takes : ∀ k, Takes (reader k) short (bytes k) (answer k))

include takes

theorem each_flatMap (ks : List κ) (rest : Bytes) :
    each (ks.map reader) (ks.flatMap bytes ++ rest) = (ks.map answer, rest) := by
  induction ks with
  | nil => rfl
  | cons k ks ih =>
      rw [List.map_cons, List.flatMap_cons, List.append_assoc, each_cons, (takes k).whole, ih,
        List.map_cons]

/-- Up to a part of its bytes, the readers before are answered; the last one runs out. -/
theorem each_cut (before : List κ) (k : κ) {n : Nat} (shorter : n < (bytes k).length) :
    (each ((before ++ [k]).map reader) (before.flatMap bytes ++ (bytes k).take n)).1 =
      before.map answer ++ [.error short] := by
  have failed : (each [reader k] ((bytes k).take n)).1 = [.error short] :=
    congrArg (fun a => [a]) ((takes k).cut n shorter)
  rw [List.map_append, List.map_singleton, each_append, each_flatMap takes, failed]

end

end Reader

namespace Writer

private theorem apply_octets (bs : Bytes) (buffer : Buffer) :
    (octets bs).apply buffer =
      match buffer.room with
      | none => (.ok (), ⟨buffer.contents ++ bs, none⟩)
      | some room =>
          if bs.length ≤ room then (.ok (), ⟨buffer.contents ++ bs, some (room - bs.length)⟩)
          else (.error .fullOutput, ⟨buffer.contents ++ bs.take room, some 0⟩) := rfl

/-- Bytes written one after the other are written together, and fill up what is too small for
them in the same way. -/
theorem octets_append (as bs : Bytes) :
    (octets as >>= fun _ => octets bs) = octets (as ++ bs) := by
  apply Update.ext_apply
  rintro ⟨contents, room⟩
  rw [Update.apply_bind, apply_octets, apply_octets]
  cases room with
  | none =>
      rw [← List.append_assoc]
      rfl
  | some room =>
      by_cases first : as.length ≤ room
      · simp only [if_pos first, apply_octets, List.length_append]
        by_cases second : bs.length ≤ room - as.length
        · rw [if_pos second, if_pos (by omega), List.append_assoc, Nat.sub_sub]
        · rw [if_neg second, if_neg (by omega), List.take_append, List.take_of_length_le first,
            List.append_assoc]
      · have both : ¬ (as ++ bs).length ≤ room := by
          rw [List.length_append]
          omega
        simp only [if_neg first, if_neg both]
        rw [List.take_append_of_le_length (by omega)]

end Writer

theorem writeWithin_some (capacity : Nat) (bs : Bytes) :
    writeWithin (some capacity) bs =
      if bs.length ≤ capacity then .ok bs else .error .fullOutput := by
  rw [writeWithin, Writer.into, Writer.apply_octets]
  by_cases fits : bs.length ≤ capacity
  · simp only [if_pos fits, List.nil_append]
  · simp only [if_neg fits]

end KeyTree
