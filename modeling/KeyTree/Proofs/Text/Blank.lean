import KeyTree.Text.Blank
/-!
White space at the ends of a text: trimming takes it away and nothing else.  Texts without white
space inside are what is left of the texts that pad them, and of no others (`trim_eq_iff`).
-/

set_option autoImplicit false
set_option relaxedAutoImplicit false

namespace KeyTree.Text

/-- There is nothing but white space in the text. -/
def Blank (cs : List Char) : Prop :=
  ∀ c ∈ cs, isBlank c = true

/-- There is no white space in the text. -/
def Solid (cs : List Char) : Prop :=
  ∀ c ∈ cs, isBlank c = false

theorem isBlank_of_visible {c : Char} (after_space : 32 < c.toNat) (ascii : c.toNat < 128) :
    isBlank c = false := by
  have visible : ∀ n < 128, 32 < n → inRanges blankRanges n = false := by decide
  exact visible c.toNat ascii after_space

variable {before cs after core : List Char}

private theorem Blank.reverse (blank : Blank cs) : Blank cs.reverse :=
  fun c member => blank c (List.mem_reverse.mp member)

private theorem Solid.reverse (solid : Solid cs) : Solid cs.reverse :=
  fun c member => solid c (List.mem_reverse.mp member)

private theorem dropWhile_append (blank : Blank before) (solid : Solid cs) :
    (before ++ cs).dropWhile isBlank = cs := by
  rw [List.dropWhile_append_of_pos blank]
  cases cs with
  | nil => rfl
  | cons c cs =>
      have stop := solid c List.mem_cons_self
      exact List.dropWhile_cons_of_neg (Bool.eq_false_iff.mp stop)

/-- The longer text is the shorter one with white space before and after it. -/
def Padded (cs core : List Char) : Prop :=
  ∃ before after, Blank before ∧ Blank after ∧ cs = before ++ (core ++ after)

private theorem exists_eq_append_dropWhile (cs : List Char) :
    ∃ before, Blank before ∧ cs = before ++ cs.dropWhile isBlank :=
  ⟨cs.takeWhile isBlank, List.all_eq_true.mp List.all_takeWhile,
    List.takeWhile_append_dropWhile.symm⟩

theorem padded_trim (cs : List Char) : Padded cs (trim cs) := by
  obtain ⟨before, blank_before, front⟩ := exists_eq_append_dropWhile cs
  obtain ⟨after, blank_after, back⟩ := exists_eq_append_dropWhile (cs.dropWhile isBlank).reverse
  refine ⟨before, after.reverse, blank_before, blank_after.reverse, ?_⟩
  rw [trim, ← List.reverse_append, ← back, List.reverse_reverse]
  exact front

private theorem trim_append (blank_before : Blank before) (solid : Solid cs)
    (blank_after : Blank after) : trim (before ++ (cs ++ after)) = cs := by
  rw [trim]
  cases cs with
  | nil =>
      -- All of the text is white space, and none is left for the other end.
      have all : Blank (before ++ after) := List.forall_mem_append.mpr ⟨blank_before, blank_after⟩
      have none_left : (before ++ after ++ []).dropWhile isBlank = [] := dropWhile_append all nofun
      rw [List.append_nil] at none_left
      rw [List.nil_append, none_left]
      rfl
  | cons c cs =>
      have stop := solid c List.mem_cons_self
      rw [List.dropWhile_append_of_pos blank_before, List.cons_append,
        List.dropWhile_cons_of_neg (Bool.eq_false_iff.mp stop), ← List.cons_append,
        List.reverse_append, dropWhile_append blank_after.reverse solid.reverse,
        List.reverse_reverse]

theorem trim_eq_iff (solid : Solid core) : trim cs = core ↔ Padded cs core := by
  constructor
  · rintro rfl
    exact padded_trim cs
  · rintro ⟨before, after, blank_before, blank_after, rfl⟩
    exact trim_append blank_before solid blank_after

end KeyTree.Text
