import KeyTree.Engine.Environment
import Mathlib.Data.List.Basic
/-!
The variables that a block of bytes assigns.

Names are compared as bytes.  No name holds the byte of the equals sign, so the first such byte of
an entry ends its name, and an entry is that of a variable exactly if the names are the same.
-/

set_option autoImplicit false
set_option relaxedAutoImplicit false

namespace KeyTree

private theorem Variable.ofBytes_eq_text_iff {bs : Bytes} {s : String} :
    ofBytes bs = .text s ↔ bs = Bytes.ofText s := by
  have written : (Bytes.ofText s).toByteArray = s.toByteArray := String.utf8Encode_toList
  rw [ofBytes]
  constructor
  · intro read
    split at read
    · rename_i s' found
      cases read
      rw [String.fromUTF8?] at found
      split at found
      · cases found
        exact List.toByteArray_inj.mp written.symm
      · cases found
    · cases read
  · rintro rfl
    rw [written, String.fromUTF8?, dif_pos s.isValidUTF8]
    rfl

private theorem ofText_injective {s s' : String} (same : Bytes.ofText s = Bytes.ofText s') :
    s = s' := by
  have read := Variable.ofBytes_eq_text_iff.mpr same
  rw [Variable.ofBytes_eq_text_iff.mpr rfl] at read
  exact Variable.text.inj read

namespace Environment

def equalsSign : UInt8 := 61

/-- An assignment that can stand in a block: its name has no equals sign, and neither the name nor
the value has a zero byte. -/
structure Assignment where
  name : String
  value : Bytes
  name_plain : equalsSign ∉ Bytes.ofText name
  name_nonzero : 0 ∉ Bytes.ofText name
  value_nonzero : 0 ∉ value

def Assignment.entry (a : Assignment) : Bytes :=
  label a.name ++ a.value

def block (assignments : List Assignment) : Bytes :=
  assignments.flatMap fun a => a.entry ++ [0]

private theorem label_eq (name : String) : label name = Bytes.ofText name ++ [equalsSign] := by
  rw [label]
  rfl

private theorem zero_not_mem_entry (a : Assignment) : 0 ∉ a.entry := by
  rw [Assignment.entry, label_eq, List.mem_append, List.mem_append, List.mem_singleton]
  rintro ((name | equals) | value)
  · exact a.name_nonzero name
  · exact absurd equals (by decide)
  · exact a.value_nonzero value

private theorem entries_append {entry : Bytes} (nonzero : 0 ∉ entry) (rest : Bytes) :
    entries (entry ++ 0 :: rest) = entry :: entries rest := by
  induction entry with
  | nil => exact if_pos rfl
  | cons b entry ih =>
      rw [List.cons_append, entries, if_neg (List.ne_of_not_mem_cons nonzero).symm,
        ih (List.not_mem_of_not_mem_cons nonzero)]

private theorem entries_block (assignments : List Assignment) :
    entries (block assignments) = assignments.map Assignment.entry := by
  induction assignments with
  | nil => rfl
  | cons a assignments ih =>
      have apart : block (a :: assignments) = a.entry ++ 0 :: block assignments := by
        rw [block, List.flatMap_cons, List.append_assoc]
        rfl
      rw [apart, entries_append (zero_not_mem_entry a), ih, List.map_cons]

private theorem eq_of_append_equalsSign {as bs as' bs' : Bytes} (plain : equalsSign ∉ as)
    (plain' : equalsSign ∉ as') (same : as ++ equalsSign :: bs = as' ++ equalsSign :: bs') :
    as = as' ∧ bs = bs' := by
  induction as generalizing as' with
  | nil =>
      cases as' with
      | nil => exact ⟨rfl, (List.cons.inj same).2⟩
      | cons b as' => exact absurd (List.cons.inj same).1 (List.ne_of_not_mem_cons plain')
  | cons a as ih =>
      cases as' with
      | nil => exact absurd (List.cons.inj same).1.symm (List.ne_of_not_mem_cons plain)
      | cons b as' =>
          obtain ⟨rfl, rest⟩ := List.cons.inj same
          obtain ⟨rfl, values⟩ := ih (List.not_mem_of_not_mem_cons plain)
            (List.not_mem_of_not_mem_cons plain') rest
          exact ⟨rfl, values⟩

private theorem isPrefixOf?_label_entry {name : String} (plain : equalsSign ∉ Bytes.ofText name)
    (a : Assignment) :
    (label name).isPrefixOf? a.entry = if a.name = name then some a.value else none := by
  apply Option.ext
  intro value
  rw [List.isPrefixOf?_eq_some_iff_append_eq, Assignment.entry, label_eq, label_eq,
    List.append_assoc, List.append_assoc, List.singleton_append, List.singleton_append]
  constructor
  · intro same
    obtain ⟨names, rfl⟩ := eq_of_append_equalsSign plain a.name_plain same
    rw [if_pos (ofText_injective names.symm)]
  · intro found
    split at found
    · rename_i own
      cases found
      rw [own]
    · cases found

/-- A variable is looked up in a block as the value of the first assignment to its name. -/
theorem ofBlock_block (assignments : List Assignment) {name : String}
    (plain : equalsSign ∉ Bytes.ofText name) :
    ofBlock (block assignments) name =
      (assignments.find? fun a => a.name = name).map fun a => Variable.ofBytes a.value := by
  rw [ofBlock, entries_block]
  induction assignments with
  | nil => rfl
  | cons a assignments ih =>
      rw [List.map_cons, List.findSome?_cons, isPrefixOf?_label_entry plain, List.find?_cons]
      by_cases own : a.name = name
      · rw [if_pos own, decide_eq_true own]
        rfl
      · rw [if_neg own, decide_eq_false own]
        exact ih

end Environment

end KeyTree
