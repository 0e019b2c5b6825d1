import TagCheck.Proofs.Text.Trimming

namespace TagCheck.Text

/-!
# The lines of a joined text

Splitting a text takes the joints of a joined one apart again, so that each line of a text is found
among the lines above and below it, whatever these are.  Trimmed lines do not show how they end.
-/

section Splitting

variable {separator : Char}

theorem splitAt_eq_splitOn
    (separator : Char)
    (text : List Char) :
    splitAt separator text = text.splitOn separator := by
  induction text with
  | nil =>
      rfl
  | cons c rest inductionHypothesis =>
      rw [splitAt, inductionHypothesis, List.splitOn_cons_eq_if_modifyHead]
      cases pieces : rest.splitOn separator with
      | nil =>
          exact absurd pieces (List.splitOn_ne_nil separator rest)
      | cons piece others =>
          rfl

theorem splitAt_of_notMem
    {text : List Char}
    (isPiece : separator ∉ text) :
    splitAt separator text = [text] := by
  rw [splitAt_eq_splitOn, List.splitOn_eq_singleton isPiece]

theorem splitAt_append_cons
    (before behind : List Char) :
    splitAt separator (before ++ separator :: behind) =
      splitAt separator before ++ splitAt separator behind := by
  simp only [splitAt_eq_splitOn, List.splitOn_eq_splitOnP]
  exact List.splitOnP_append_cons before behind (beq_self_eq_true separator)

/-- The pieces of a joined text are the pieces of its parts. -/
theorem splitAt_joinWith
    {parts : List (List Char)}
    (notEmpty : parts ≠ []) :
    splitAt separator (joinWith [separator] parts) = parts.flatMap (splitAt separator) := by
  induction parts with
  | nil =>
      exact absurd rfl notEmpty
  | cons part others inductionHypothesis =>
      cases others with
      | nil =>
          simp [joinWith, List.intercalate]
      | cons next others =>
          have isJoined : joinWith [separator] (part :: next :: others) =
              part ++ separator :: joinWith [separator] (next :: others) := by
            simp [joinWith, List.intercalate_cons_cons]
          rw [isJoined, splitAt_append_cons, inductionHypothesis (List.cons_ne_nil next others)]
          exact List.flatMap_cons.symm

end Splitting

section Lines

/-- The lines that a text has between its line feeds: an empty last one is none. -/
def linesOfPieces (pieces : List (List Char)) : List (List Char) :=
  pieces.dropLast.map dropReturn ++ (pieces.getLast?.filter (!·.isEmpty)).toList

theorem lines_eq_linesOfPieces
    (text : List Char) :
    lines text = linesOfPieces (splitAt '\n' text) :=
  rfl

/-- A carriage return at the end of a line is white space. -/
theorem trim_dropReturn
    (line : List Char) :
    trim (dropReturn line) = trim line := by
  unfold dropReturn
  split
  · next endsSo =>
      obtain ⟨front, rfl⟩ := List.getLast?_eq_some_iff.mp endsSo
      have isDropped : trimEnd (front ++ ['\r']) = trimEnd front := by
        have isBlank : isBlank '\r' = true :=
          rfl
        simp [trimEnd, isBlank]
      rw [List.dropLast_concat, ← trim_trimEnd front, ← isDropped, trim_trimEnd]
  · rfl

/-- A line that is not empty stands between the lines above and below it. -/
theorem map_trim_linesOfPieces
    {line : List Char}
    (notEmpty : line ≠ [])
    (above below : List (List Char)) :
    (linesOfPieces (above ++ line :: below)).map trim =
      above.map trim ++ trim line :: (linesOfPieces below).map trim := by
  have sameLine : ∀ pieces : List (List Char), (pieces.map dropReturn).map trim = pieces.map trim := by
    intro pieces
    rw [List.map_map]
    exact List.map_congr_left fun piece _ => trim_dropReturn piece
  cases below with
  | nil =>
      have isKept : (some line).filter (!·.isEmpty) = some line := by
        simp [notEmpty]
      rw [linesOfPieces, List.dropLast_concat, List.getLast?_concat, isKept, List.map_append,
        sameLine]
      rfl
  | cons next others =>
      have isLast : (above ++ line :: next :: others).getLast? = (next :: others).getLast? := by
        simp [List.getLast?_append, List.getLast?_cons]
      rw [linesOfPieces, isLast, List.dropLast_append_of_ne_nil (List.cons_ne_nil _ _),
        List.dropLast_cons_cons, linesOfPieces]
      simp only [List.map_append, List.map_cons, sameLine, trim_dropReturn, List.append_assoc,
        List.cons_append]

/-- What finds nothing in an empty line finds the same in lines as in pieces. -/
theorem filterMap_linesOfPieces
    {Found : Type}
    {find? : List Char → Option Found}
    (noneInEmpty : find? [] = none)
    (pieces : List (List Char)) :
    ((linesOfPieces pieces).map trim).filterMap find? = (pieces.map trim).filterMap find? := by
  rcases List.eq_nil_or_concat pieces with rfl | ⟨front, last, rfl⟩
  · rfl
  · rw [List.concat_eq_append]
    by_cases isEmpty : last = []
    · have noneInTrimmed : find? (trim []) = none := noneInEmpty
      simp [linesOfPieces, isEmpty, noneInTrimmed, Function.comp_def, trim_dropReturn]
    · rw [map_trim_linesOfPieces isEmpty, List.map_append]
      rfl

end Lines

end TagCheck.Text
