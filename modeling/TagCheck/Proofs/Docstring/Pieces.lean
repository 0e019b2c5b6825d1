import TagCheck.Docstring
import TagCheck.Proofs.DocType.Spelling
import TagCheck.Proofs.Text.Trimming

namespace TagCheck

/-!
# Pieces of a list of types

The brackets of a tag hold a list of types.  It is cut into pieces at the commas outside of all
brackets, with a count of the open brackets.  A part of the list that leaves the count as it is, and
has its commas in brackets, lies inside of one piece.  Such parts are names, question marks, white
space, arrows, and all of them in brackets.
-/

namespace DocTag

open DocType (isClosing)

section Cutting

variable {depth : Nat} {c : Char} {part rest : List Char}

/-- The characters that have a meaning for the cutting of a list. -/
def cuttingMarks : List Char :=
  ['<', '\x7b', '(', '>', '\x7d', ')', '=', ',']

/-- How many brackets are open behind a character. -/
def depthBehind (depth : Nat) (previous : Option Char) (c : Char) : Nat :=
  if isOpeningBracket c then
    depth + 1
  else if isClosing c && previous != some '=' then
    depth - 1
  else
    depth

theorem topLevelPieces_ne_nil
    (depth : Nat)
    (previous : Option Char)
    (text : List Char) :
    topLevelPieces depth previous text ≠ [] := by
  cases text with
  | nil =>
      exact List.cons_ne_nil _ _
  | cons c rest =>
      rw [topLevelPieces]
      split
      · exact List.cons_ne_nil _ _
      · dsimp only
        split <;> exact List.cons_ne_nil _ _

/-- A character that is no comma between two pieces belongs to the piece behind it. -/
theorem topLevelPieces_cons
    (inside : c ≠ ',' ∨ 0 < depth)
    (previous : Option Char)
    (rest : List Char) :
    topLevelPieces depth previous (c :: rest) =
      (topLevelPieces (depthBehind depth previous c) (some c) rest).modifyHead (c :: ·) := by
  have noCut : ¬((c == ',' && decide (depth = 0)) = true) := by
    rw [Bool.and_eq_true, beq_iff_eq, decide_eq_true_eq]
    rintro ⟨isComma, isOutside⟩
    exact inside.elim (absurd isComma) (Nat.pos_iff_ne_zero.mp · isOutside)
  rw [topLevelPieces, if_neg noCut, depthBehind]
  dsimp only
  split
  · next noPieces =>
      exact absurd noPieces (topLevelPieces_ne_nil _ _ _)
  · next piece others pieces =>
      rw [pieces]
      rfl

/-- Only an equals sign makes a difference for what stands behind it. -/
theorem topLevelPieces_of_ne
    (noEquals : c ≠ '=')
    (depth : Nat)
    (text : List Char) :
    topLevelPieces depth (some c) text = topLevelPieces depth none text := by
  cases text with
  | nil =>
      rfl
  | cons next rest =>
      have sameTest : (some c != some '=') = true := by
        simpa using noEquals
      rw [topLevelPieces, topLevelPieces, sameTest]
      rfl

/-- In so many open brackets, a part of a list lies inside of one piece, with all of its brackets. -/
def IsPassedAt (depth : Nat) (part : List Char) : Prop :=
  ∀ rest, topLevelPieces depth none (part ++ rest) =
    (topLevelPieces depth none rest).modifyHead (part ++ ·)

namespace IsPassedAt

theorem nil :
    IsPassedAt depth [] := by
  intro rest
  exact (congrFun List.modifyHead_id _).symm

theorem append
    {other : List Char}
    (isPassed : IsPassedAt depth part)
    (isPassedOther : IsPassedAt depth other) :
    IsPassedAt depth (part ++ other) := by
  intro rest
  rw [List.append_assoc, isPassed, isPassedOther, List.modifyHead_modifyHead]
  simp only [Function.comp_def, List.append_assoc]

/-- A single character that leaves the count as it is. -/
theorem singleton
    (inside : c ≠ ',' ∨ 0 < depth)
    (sameDepth : depthBehind depth none c = depth)
    (noEquals : c ≠ '=') :
    IsPassedAt depth [c] := by
  intro rest
  rw [List.singleton_append, topLevelPieces_cons inside, sameDepth, topLevelPieces_of_ne noEquals]
  rfl

/-- A text of characters without a meaning for the cutting. -/
theorem of_unmarked
    (unmarked : ∀ c ∈ part, c ∉ cuttingMarks) :
    IsPassedAt depth part := by
  induction part with
  | nil =>
      exact nil
  | cons c part inductionHypothesis =>
      obtain ⟨noMark, others⟩ := List.forall_mem_cons.mp unmarked
      simp only [cuttingMarks, List.mem_cons, List.not_mem_nil, or_false, not_or] at noMark
      have sameDepth : depthBehind depth none c = depth := by
        simp [depthBehind, isOpeningBracket, isClosing, noMark]
      have isPassedHead : IsPassedAt depth [c] :=
        singleton (.inl (by simp [noMark])) sameDepth (by simp [noMark])
      exact isPassedHead.append (inductionHypothesis others)

/-- A comma in brackets. -/
theorem comma
    (inside : 0 < depth) :
    IsPassedAt depth [','] :=
  singleton (.inr inside) rfl (by decide)

/-- A bracket, what is passed in it, and the bracket that closes it. -/
theorem enclosed
    {opening closing : Char}
    (opens : isOpeningBracket opening = true)
    (closes : isClosing closing = true)
    (isPassed : IsPassedAt (depth + 1) part) :
    IsPassedAt depth (opening :: (part ++ [closing])) := by
  intro rest
  have isOpening : opening ≠ ',' ∧ opening ≠ '=' ∧ depthBehind depth none opening = depth + 1 := by
    refine ⟨?_, ?_, if_pos opens⟩ <;> rintro rfl <;> cases opens
  have isClosing : closing ≠ '=' ∧ depthBehind (depth + 1) none closing = depth := by
    rcases DocType.eq_of_isClosing closes with rfl | rfl | rfl <;> exact ⟨by decide, rfl⟩
  rw [List.cons_append, topLevelPieces_cons (.inl isOpening.1), isOpening.2.2,
    topLevelPieces_of_ne isOpening.2.1, List.append_assoc, isPassed, List.singleton_append,
    topLevelPieces_cons (.inr depth.succ_pos), isClosing.2, topLevelPieces_of_ne isClosing.1,
    List.modifyHead_modifyHead, List.modifyHead_modifyHead]
  simp only [Function.comp_def, List.cons_append, List.append_assoc, List.nil_append]

/-- The second character of an arrow closes nothing. -/
theorem arrow :
    IsPassedAt depth ['=', '>'] := by
  intro rest
  have sameDepth : depthBehind depth none '=' = depth ∧ depthBehind depth (some '=') '>' = depth :=
    ⟨rfl, rfl⟩
  have noComma : '=' ≠ ',' ∧ '>' ≠ ',' ∧ '>' ≠ '=' := by
    decide
  rw [List.cons_append, topLevelPieces_cons (.inl noComma.1), sameDepth.1, List.singleton_append,
    topLevelPieces_cons (.inl noComma.2.1), sameDepth.2, topLevelPieces_of_ne noComma.2.2,
    List.modifyHead_modifyHead]
  rfl

/-- A text of characters of a class that has no meaning for the cutting. -/
theorem of_class
    {inClass : Char → Bool}
    (excluded : cuttingMarks.any inClass = false)
    (isInside : ∀ c ∈ part, inClass c = true) :
    IsPassedAt depth part :=
  of_unmarked fun c member isMark => List.any_eq_false.mp excluded c isMark (isInside c member)

/-- White space. -/
theorem of_blank
    (isGap : ∀ c ∈ part, Text.isBlank c = true) :
    IsPassedAt depth part :=
  of_class (by decide) isGap

/-- The name of a type. -/
theorem of_areNameChars
    (areNameChars : ∀ c ∈ part, DocType.isNameChar c = true) :
    IsPassedAt depth part := by
  refine of_class ?_ areNameChars
  simp only [cuttingMarks, List.any_cons, DocType.isNameChar, Text.isWordChar, Text.isLetter,
    Text.isNumber, Text.inRanges_eq_any_toList]
  decide +kernel

/-- The question mark of a type, if there is one. -/
theorem renderNullable
    (nullable : Bool) :
    IsPassedAt depth (DocType.renderNullable nullable) := by
  have isMark : ∀ c ∈ DocType.renderNullable nullable, (c == '?') = true := by
    cases nullable <;> simp [DocType.renderNullable]
  exact of_class (by decide) isMark

end IsPassedAt

/-- A part without a comma between types holds at most one type. -/
theorem splitTypes_of_isPassedAt
    (isPassed : IsPassedAt 0 part) :
    splitTypes part = [Text.trim part].filter (!·.isEmpty) := by
  have piece := isPassed []
  rw [List.append_nil] at piece
  simp [splitTypes, piece, topLevelPieces]

/-- A comma between types ends the one before it. -/
theorem splitTypes_append_comma
    (isPassed : IsPassedAt 0 part)
    (rest : List Char) :
    splitTypes (part ++ ',' :: rest) =
      [Text.trim part].filter (!·.isEmpty) ++ splitTypes rest := by
  have piece := isPassed (',' :: rest)
  have atComma : topLevelPieces 0 none (',' :: rest) = [] :: topLevelPieces 0 none rest :=
    rfl
  rw [atComma, List.modifyHead_cons, List.append_nil] at piece
  rw [splitTypes, piece, List.map_cons, ← List.singleton_append, List.filter_append]
  rfl

end Cutting

end DocTag

end TagCheck
