import KeyTree.Tree.Path
/-!
Texts that are split at separators: the parts are the texts without a separator that make up the
text when they are put one after the other with separators between them.
-/

set_option autoImplicit false
set_option relaxedAutoImplicit false

namespace KeyTree.Text

variable {separator : Char} {part : List Char}

private theorem split_of_not_mem (absent : separator ∉ part) : split separator part = [part] := by
  induction part with
  | nil => rfl
  | cons c part ih =>
      rw [split, if_neg (List.ne_of_not_mem_cons absent).symm,
        ih (List.not_mem_of_not_mem_cons absent)]

private theorem split_append (absent : separator ∉ part) (rest : List Char) :
    split separator (part ++ separator :: rest) = part :: split separator rest := by
  induction part with
  | nil => exact if_pos rfl
  | cons c part ih =>
      rw [List.cons_append, split, if_neg (List.ne_of_not_mem_cons absent).symm,
        ih (List.not_mem_of_not_mem_cons absent)]

private theorem exists_split_eq_cons (separator : Char) (cs : List Char) :
    ∃ part parts, split separator cs = part :: parts := by
  cases cs with
  | nil => exact ⟨[], [], rfl⟩
  | cons c cs =>
      rw [split]
      split
      · exact ⟨_, _, rfl⟩
      · split <;> exact ⟨_, _, rfl⟩

/-- A text is split into parts exactly if no part holds a separator and the text is the first part
with the others after it, each after a separator. -/
theorem split_eq_cons_iff {cs : List Char} {parts : List (List Char)} :
    split separator cs = part :: parts ↔
      (∀ q ∈ part :: parts, separator ∉ q) ∧ cs = part ++ parts.flatMap (separator :: ·) := by
  constructor
  · intro cut
    induction cs generalizing part parts with
    | nil =>
        cases cut
        exact ⟨List.forall_mem_singleton.mpr List.not_mem_nil, rfl⟩
    | cons c cs ih =>
        obtain ⟨first, others, rest⟩ := exists_split_eq_cons separator cs
        obtain ⟨absent, rfl⟩ := ih rest
        rw [split, rest] at cut
        by_cases same : c = separator
        · rw [if_pos same] at cut
          cases cut
          exact ⟨List.forall_mem_cons.mpr ⟨List.not_mem_nil, absent⟩, by rw [same]; rfl⟩
        · rw [if_neg same] at cut
          cases cut
          obtain ⟨absent_first, absent_others⟩ := List.forall_mem_cons.mp absent
          have absent' : separator ∉ c :: first :=
            List.not_mem_cons_of_ne_of_not_mem (Ne.symm same) absent_first
          exact ⟨List.forall_mem_cons.mpr ⟨absent', absent_others⟩, rfl⟩
  · rintro ⟨absent, rfl⟩
    induction parts generalizing part with
    | nil =>
        rw [List.flatMap_nil, List.append_nil]
        exact split_of_not_mem (List.forall_mem_cons.mp absent).1
    | cons next parts ih =>
        obtain ⟨absent_part, absent_others⟩ := List.forall_mem_cons.mp absent
        rw [List.flatMap_cons, List.cons_append, split_append absent_part, ih absent_others]

end KeyTree.Text
