import KeyTree.Number.Decimal
import KeyTree.Number.Literal
import KeyTree.Tree.Record
/-!
Keys and signatures as fields of a data document, where each is a text.

A `Datum` keeps of a field only what a message about it says.
-/

set_option autoImplicit false
set_option relaxedAutoImplicit false

namespace KeyTree

inductive Datum where
  | null
  | boolean (b : Bool)
  | integer (v : Int)
  /-- A number written with a point or an exponent, or too large for 64 bits. -/
  | decimal (x : Double)
  | text (s : String)
  | sequence
  | mapping
deriving DecidableEq

inductive DatumError where
  | notText (found : Datum)
  | hex (fault : Hex.Error)
  | wrongSize (expected actual : Nat)
  | unlikeSize (expected : Nat)
  | curve (fault : CurveError)
  | key (fault : TreeError)
deriving DecidableEq

/-- A decimal in a message is written positionally from 10^-5 up to below 10^16. -/
def Datum.decimalText (x : Double) : String :=
  x.text (-5) 15

/-- The words for a value that was met where another kind was expected. -/
def Datum.kind : Datum → String
  | .null => "null"
  | .boolean b => "boolean `" ++ toString b ++ "`"
  | .integer v => "integer `" ++ toString v ++ "`"
  | .decimal x => "floating point `" ++ decimalText x ++ "`"
  | .text s => "string " ++ Text.quote s
  | .sequence => "sequence"
  | .mapping => "map"

def DatumError.message : DatumError → String
  | .notText found => "invalid type: " ++ found.kind ++ ", expected a string"
  | .hex fault => fault.message
  | .wrongSize expected actual =>
      "Expected " ++ toString expected ++ " bytes, got " ++ toString actual
  | .unlikeSize expected => "Expected " ++ toString expected ++ " bytes"
  | .curve fault => fault.message
  | .key fault => fault.message

namespace Datum

/-- The value of a field that is written as a number; fails if the number is too large. -/
def ofNumber? (n : NumberLiteral) : Option Datum :=
  match n.integer? with
  | some v => some (.integer v)
  | none => n.double?.map .decimal

def asText : Datum → Except DatumError String
  | .text s => .ok s
  | found => .error (.notText found)

def asBytes (d : Datum) : Except DatumError Bytes := do
  (Hex.decode (← d.asText)).mapError .hex

def asPublicKey (d : Datum) : Except DatumError PublicKey := do
  (PublicKey.ofHex (← d.asText)).mapError .curve

/-- An encoded signature as hexadecimal text of any length. -/
def asEncodedSignature (d : Datum) : Except DatumError EncodedSignature := do
  return ⟨← d.asBytes⟩

def asCompactSignature (d : Datum) : Except DatumError CompactSignature := do
  let bs ← d.asBytes
  match Octets.ofList? 65 bs with
  | some o => return ⟨o⟩
  | none => throw (.wrongSize 65 bs.length)

def asChainCode (d : Datum) : Except DatumError ChainCode := do
  match Octets.ofList? 32 (← d.asBytes) with
  | some o => return ⟨o⟩
  | none => throw (.unlikeSize 32)

def asPublicNode (d : Datum) : Except DatumError PublicNode := do
  (PublicNode.decode (← d.asBytes)).mapError .key

end Datum

end KeyTree
