import Mathlib.Data.List.DropRight
import Mathlib.Data.List.TakeDrop
import TagCheck.Text.Pieces

namespace TagCheck.Text

/-!
# White space at the ends of a text

Trimming drops the white space in front of the first other character and behind the last one, and
nothing between them.  No character of a word is white space.
-/

section Characters

/-- The code points of white space. -/
def blankCodes : List Nat :=
  [0x20, 0x85, 0xA0, 0x1680, 0x2028, 0x2029, 0x202F, 0x205F, 0x3000] ++ List.range' 0x9 5 ++
    List.range' 0x2000 11

theorem toNat_mem_blankCodes
    {c : Char}
    (blank : isBlank c = true) :
    c.toNat ∈ blankCodes := by
  simp only [isBlank, Bool.or_eq_true, Bool.and_eq_true, beq_iff_eq, decide_eq_true_eq,
    ← Char.toNat_inj, Char.le_def, UInt32.le_iff_toNat_le, Char.toNat_val] at blank
  simp only [blankCodes, List.mem_append, List.mem_cons, List.mem_range'_1, List.not_mem_nil]
  grind

/-- The ranges as a list, whose evaluation takes one step for every range. -/
theorem inRanges_eq_any_toList
    (ranges : Array (Nat × Nat))
    (codePoint : Nat) :
    inRanges ranges codePoint =
      ranges.toList.any fun (first, last) => first ≤ codePoint && codePoint ≤ last := by
  rw [inRanges, Array.any_toList]

/-- White space does not stand inside words. -/
theorem isWordChar_of_isBlank
    {c : Char}
    (blank : isBlank c = true) :
    isWordChar c = false := by
  -- There are few blanks and many letters, so that each blank is looked up among the letters.
  have ofCode : ∀ code ∈ blankCodes, isWordChar (Char.ofNat code) = false := by
    simp only [isWordChar, isLetter, isNumber, inRanges_eq_any_toList]
    decide +kernel
  have noWordChar := ofCode c.toNat (toNat_mem_blankCodes blank)
  rwa [Char.ofNat_toNat] at noWordChar

/-- That no white space is in a text can be tested. -/
theorem unblank_of_any
    {text : List Char}
    (noBlank : text.any isBlank = false) :
    ∀ c ∈ text, isBlank c = false :=
  fun c member => Bool.eq_false_iff.mpr (List.any_eq_false.mp noBlank c member)

end Characters

/-- A text is cut where the first character stands that is not of a class. -/
theorem span_append
    {inClass : Char → Bool}
    {inside rest : List Char}
    (isInside : ∀ c ∈ inside, inClass c = true)
    (ends : ∀ c ∈ rest.head?, inClass c = false) :
    (inside ++ rest).span inClass = (inside, rest) := by
  have stops : rest.takeWhile inClass = [] ∧ rest.dropWhile inClass = rest := by
    cases rest with
    | nil =>
        exact ⟨rfl, rfl⟩
    | cons first others =>
        simp [ends first rfl]
  rw [List.span_eq_takeWhile_dropWhile, List.takeWhile_append_of_pos isInside,
    List.dropWhile_append_of_pos isInside, stops.1, stops.2, List.append_nil]

section Ends

variable {text gap : List Char} {c : Char}

/-- White space in front of a text is dropped up to the first other character. -/
theorem trimStart_append_cons
    (unblank : isBlank c = false)
    (text rest : List Char) :
    trimStart (text ++ c :: rest) = trimStart text ++ c :: rest := by
  unfold trimStart
  induction text with
  | nil =>
      rw [List.nil_append, List.dropWhile_cons_of_neg (by simp [unblank]), List.dropWhile_nil,
        List.nil_append]
  | cons first others inductionHypothesis =>
      rw [List.cons_append, List.dropWhile_cons, List.dropWhile_cons]
      split
      · exact inductionHypothesis
      · rfl

/-- White space behind a text is dropped up to the last other character. -/
theorem trimEnd_append_cons
    (unblank : isBlank c = false)
    (text rest : List Char) :
    trimEnd (text ++ c :: rest) = text ++ c :: trimEnd rest := by
  have fromEnd := trimStart_append_cons unblank rest.reverse text.reverse
  have isReverse : (text ++ c :: rest).reverse = rest.reverse ++ c :: text.reverse := by
    simp
  unfold trimEnd
  rw [isReverse]
  unfold trimStart at fromEnd
  rw [fromEnd]
  simp

theorem trimEnd_trimEnd
    (text : List Char) :
    trimEnd (trimEnd text) = trimEnd text := by
  simp [trimEnd, List.dropWhile_idempotent]

theorem trimStart_trimStart
    (text : List Char) :
    trimStart (trimStart text) = trimStart text :=
  List.dropWhile_idempotent isBlank text

/-- White space in front is dropped whole. -/
theorem trimStart_append_of_blank
    (isGap : ∀ c ∈ gap, isBlank c = true)
    (text : List Char) :
    trimStart (gap ++ text) = trimStart text :=
  List.dropWhile_append_of_pos isGap

/-- A text that begins with another character keeps its beginning. -/
theorem trimStart_eq_self
    (begins : ∀ c ∈ text.head?, isBlank c = false) :
    trimStart text = text := by
  cases text with
  | nil =>
      rfl
  | cons first rest =>
      exact List.dropWhile_cons_of_neg (by simp [begins first rfl])

/-- White space in front of another character is all that is dropped. -/
theorem trimStart_gap_append
    (isGap : ∀ c ∈ gap, isBlank c = true)
    (begins : ∀ c ∈ text.head?, isBlank c = false) :
    trimStart (gap ++ text) = text := by
  rw [trimStart_append_of_blank isGap, trimStart_eq_self begins]

/-- White space is all that trimming can drop. -/
theorem eq_append_trimStart
    (text : List Char) :
    ∃ gap, (∀ c ∈ gap, isBlank c = true) ∧ text = gap ++ trimStart text :=
  ⟨text.takeWhile isBlank, fun _ => List.mem_takeWhile_imp, List.takeWhile_append_dropWhile.symm⟩

/-- What is left begins with another character. -/
theorem isBlank_of_head?_trimStart
    (begins : c ∈ (trimStart text).head?) :
    isBlank c = false := by
  have notBlank := List.head?_dropWhile_not isBlank text
  rw [trimStart, Option.mem_def] at begins
  simpa [begins] using notBlank

/-- The two ends of a text are trimmed independently of each other. -/
theorem trimStart_trimEnd
    (text : List Char) :
    trimStart (trimEnd text) = trimEnd (trimStart text) := by
  obtain ⟨gap, isGap, isText⟩ := eq_append_trimStart text
  cases inside : trimStart text with
  | nil =>
      rw [inside, List.append_nil] at isText
      have noneLeft : trimEnd text = [] := by
        simpa [trimEnd, isText] using isGap
      rw [noneLeft]
      rfl
  | cons first rest =>
      rw [inside] at isText
      have isFirst : first ∈ (trimStart text).head? := by
        simp [inside]
      have unblank := isBlank_of_head?_trimStart isFirst
      have whole := trimEnd_append_cons unblank [] rest
      rw [List.nil_append, List.nil_append] at whole
      rw [isText, trimEnd_append_cons unblank, whole, trimStart_append_of_blank isGap]
      exact trimStart_eq_self fun _ isFirst => Option.mem_some.mp isFirst ▸ unblank

/-- A text that neither begins nor ends with white space is trimmed. -/
theorem trim_eq_of_ends
    (begins : ∀ c, text.head? = some c → isBlank c = false)
    (ends : ∀ c, text.reverse.head? = some c → isBlank c = false) :
    trim text = text := by
  have keepsEnd : trimStart text.reverse = text.reverse := trimStart_eq_self ends
  rw [trim, trimStart_eq_self begins, trimEnd, ← trimStart, keepsEnd, List.reverse_reverse]

/-- A text without white space is trimmed. -/
theorem trim_eq_self
    (notBlank : ∀ c ∈ text, isBlank c = false) :
    trim text = text := by
  refine trim_eq_of_ends (fun c isFirst => notBlank c (List.mem_of_head? isFirst)) fun c isLast => ?_
  exact notBlank c (List.mem_reverse.mp (List.mem_of_head? isLast))

@[simp] theorem trim_trimEnd
    (text : List Char) :
    trim (trimEnd text) = trim text := by
  rw [trim, trimStart_trimEnd, trimEnd_trimEnd, trim]

@[simp] theorem trim_trimStart
    (text : List Char) :
    trim (trimStart text) = trim text := by
  rw [trim, trimStart_trimStart, trim]

theorem trim_append_of_blank
    (isGap : ∀ c ∈ gap, isBlank c = true)
    (text : List Char) :
    trim (gap ++ text) = trim text := by
  rw [trim, trimStart_append_of_blank isGap, trim]

/-- Behind a text without white space at its ends, only what follows is trimmed. -/
theorem trim_append_of_ends
    (notEmpty : text ≠ [])
    (begins : ∀ c ∈ text.head?, isBlank c = false)
    (ends : ∀ c ∈ text.getLast?, isBlank c = false)
    (rest : List Char) :
    trim (text ++ rest) = text ++ trimEnd rest := by
  have beginsWhole : ∀ c ∈ (text ++ rest).head?, isBlank c = false := by
    rwa [List.head?_append_of_ne_nil _ notEmpty]
  obtain ⟨front, last, rfl⟩ : ∃ front last, text = front ++ [last] :=
    ⟨_, _, (List.dropLast_append_getLast notEmpty).symm⟩
  have unblank : isBlank last = false :=
    ends last (by simp)
  rw [trim, trimStart_eq_self beginsWhole, List.append_assoc, List.singleton_append,
    trimEnd_append_cons unblank, ← List.append_cons]

/-- Trimming leaves the beginning of what stands in front of white space. -/
theorem trimEnd_prefix
    (text : List Char) :
    trimEnd text <+: text :=
  List.rdropWhile_prefix isBlank text

end Ends

end TagCheck.Text
