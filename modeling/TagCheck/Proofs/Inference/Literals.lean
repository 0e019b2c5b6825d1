import TagCheck.Proofs.Inference.Groups

namespace TagCheck.Signature

/-!
# String literals in chains

A chain is cut into links from the left, and there a string is passed over from one quotation mark to
the other.  So the links of two chains that differ only in the text between two quotation marks are
the same, but for this text.
-/

/-- The text of a string that a mark ends: the mark itself stands only behind a backslash. -/
def isContent (mark : Char) : List Char → Bool
  | [] => true
  | c :: rest =>
      if c == '\\' then
        match rest with
        | [] => false
        | _ :: rest => isContent mark rest
      else
        c != mark && isContent mark rest

/-- A string between two quotation marks. -/
def quoted (mark : Char) (content : List Char) : List Char :=
  mark :: (content ++ [mark])

/--
How many brackets are open behind a text, and which mark ends the string that is open there; none
where a bracket closes nothing, or a backslash ends the text.
-/
def openBehind? (depth : Nat) (quote : Option Char) : List Char → Option (Nat × Option Char)
  | [] => some (depth, quote)
  | c :: rest =>
      match quote with
      | some mark =>
          if c == '\\' then
            match rest with
            | [] => none
            | _ :: rest => openBehind? depth quote rest
          else
            openBehind? depth (if c == mark then none else quote) rest
      | none =>
          if isQuote c then
            openBehind? depth (some c) rest
          else if isOpening c then
            openBehind? (depth + 1) none rest
          else if isClosing c then
            if depth = 0 then none else openBehind? (depth - 1) none rest
          else
            openBehind? depth none rest

/-- A text ends inside of brackets and outside of strings. -/
def IsInGroup (before : List Char) : Prop :=
  ∃ depth, openBehind? 0 none before = some (depth + 1, none)

theorem isQuote_iff
    {c : Char} :
    isQuote c = true ↔ c = '\'' ∨ c = '"' := by
  simp [isQuote]

/-- A quotation mark is no bracket, no white space and no part of a name or a number. -/
theorem ne_backslash_of_isQuote
    {mark : Char}
    (isMark : isQuote mark = true) :
    mark ≠ '\\' := by
  rcases isQuote_iff.mp isMark with rfl | rfl <;> decide

section Splitting

variable {mark : Char} {content link before after rest : List Char} {depth : Nat}

/-- In a string, a backslash and what it escapes are read into the link. -/
theorem splitLinks_escape
    {escaped : Char} :
    splitLinks depth (some mark) link ('\\' :: escaped :: rest) =
      splitLinks depth (some mark) (escaped :: '\\' :: link) rest := by
  simp [splitLinks]

/-- In a string, all other characters are read into the link, and the mark ends the string. -/
theorem splitLinks_inString
    {c : Char}
    (notEscape : ¬(c == '\\') = true) :
    splitLinks depth (some mark) link (c :: rest) =
      splitLinks depth (if c == mark then none else some mark) (c :: link) rest := by
  rw [splitLinks.eq_def]
  exact if_neg notEscape

section Outside

variable {c : Char}

theorem splitLinks_of_isQuote
    (isMark : isQuote c = true) :
    splitLinks depth none link (c :: rest) = splitLinks depth (some c) (c :: link) rest := by
  rw [splitLinks.eq_def]
  exact if_pos isMark

theorem splitLinks_of_isOpening
    (notQuote : ¬isQuote c = true)
    (opens : isOpening c = true) :
    splitLinks depth none link (c :: rest) = splitLinks (depth + 1) none (c :: link) rest := by
  rw [splitLinks.eq_def]
  exact (if_neg notQuote).trans (if_pos opens)

theorem splitLinks_of_isClosing
    (notQuote : ¬isQuote c = true)
    (notOpening : ¬isOpening c = true)
    (closes : isClosing c = true) :
    splitLinks depth none link (c :: rest) =
      if depth = 0 then none else splitLinks (depth - 1) none (c :: link) rest := by
  rw [splitLinks.eq_def]
  exact (if_neg notQuote).trans ((if_neg notOpening).trans (if_pos closes))

/-- Outside of strings a character that is no mark is read into the link, or ends it as a point. -/
theorem splitLinks_of_not_isClosing
    (notQuote : ¬isQuote c = true)
    (notOpening : ¬isOpening c = true)
    (notClosing : ¬isClosing c = true) :
    splitLinks depth none link (c :: rest) =
      if c == '.' && depth = 0 && !isDecimalPoint link rest then
        (splitLinks 0 none [] rest).map (endLink link :: ·)
      else
        splitLinks depth none (c :: link) rest := by
  rw [splitLinks.eq_def]
  exact (if_neg notQuote).trans ((if_neg notOpening).trans (if_neg notClosing))

end Outside

/-- The text of a string and the mark that ends it are read into the link. -/
theorem splitLinks_content
    (isMark : isQuote mark = true)
    (inString : isContent mark content = true) :
    splitLinks depth (some mark) link (content ++ mark :: rest) =
      splitLinks depth none (mark :: (content.reverse ++ link)) rest := by
  fun_induction isContent mark content generalizing link with
  | case1 =>
      rw [List.nil_append, splitLinks_inString (by simpa using ne_backslash_of_isQuote isMark)]
      simp
  | case2 =>
      cases inString
  | case3 c isEscape escaped others inductionHypothesis =>
      cases eq_of_beq isEscape
      rw [List.cons_append, List.cons_append, splitLinks_escape, inductionHypothesis inString]
      simp
  | case4 c others notEscape inductionHypothesis =>
      rw [Bool.and_eq_true, bne_iff_ne] at inString
      rw [List.cons_append, splitLinks_inString notEscape, if_neg (by simpa using inString.1),
        inductionHypothesis inString.2]
      simp

/-- A string is read into the link. -/
theorem splitLinks_quoted
    (isMark : isQuote mark = true)
    (inString : isContent mark content = true) :
    splitLinks depth none link (quoted mark content ++ rest) =
      splitLinks depth none (mark :: (content.reverse ++ mark :: link)) rest := by
  have isText : quoted mark content ++ rest = mark :: (content ++ mark :: rest) := by
    simp [quoted]
  rw [isText, splitLinks_of_isQuote isMark, splitLinks_content isMark inString]

/-- Whether a point stands inside a number is settled by what stands next to it. -/
theorem isDecimalPoint_append_cons
    (others : List Char) :
    isDecimalPoint link (others ++ mark :: rest) = isDecimalPoint link (others ++ [mark]) := by
  cases others <;> rfl

/--
In front of a quotation mark outside of strings, all links but the last one are finished, whatever
the mark is followed by.
-/
theorem exists_splitLinks_before
    (mark : Char)
    (link : List Char)
    {quote : Option Char}
    {depthBehind : Nat}
    (isOpen : openBehind? depth quote before = some (depthBehind, none)) :
    ∃ links behind, ∀ rest,
      splitLinks depth quote link (before ++ mark :: rest) =
        (splitLinks depthBehind none behind (mark :: rest)).map (links ++ ·) := by
  fun_induction openBehind? depth quote before generalizing link with
  | case1 =>
      cases isOpen
      exact ⟨[], link, fun rest => by simp⟩
  | case2 | case7 =>
      cases isOpen
  | case3 depth c ends isEscape escaped others inductionHypothesis =>
      cases eq_of_beq isEscape
      obtain ⟨links, behind, isBehind⟩ := inductionHypothesis _ isOpen
      refine ⟨links, behind, fun rest => ?_⟩
      rw [List.cons_append, List.cons_append, splitLinks_escape, isBehind]
  | case4 depth c others ends notEscape inductionHypothesis =>
      obtain ⟨links, behind, isBehind⟩ := inductionHypothesis _ isOpen
      refine ⟨links, behind, fun rest => ?_⟩
      rw [List.cons_append, splitLinks_inString notEscape, isBehind]
  | case5 depth c others isQuote inductionHypothesis =>
      obtain ⟨links, behind, isBehind⟩ := inductionHypothesis _ isOpen
      refine ⟨links, behind, fun rest => ?_⟩
      rw [List.cons_append, splitLinks_of_isQuote isQuote, isBehind]
  | case6 depth c others notQuote isOpening inductionHypothesis =>
      obtain ⟨links, behind, isBehind⟩ := inductionHypothesis _ isOpen
      refine ⟨links, behind, fun rest => ?_⟩
      rw [List.cons_append, splitLinks_of_isOpening notQuote isOpening, isBehind]
  | case8 depth c others notQuote notOpening isClosing isInside inductionHypothesis =>
      obtain ⟨links, behind, isBehind⟩ := inductionHypothesis _ isOpen
      refine ⟨links, behind, fun rest => ?_⟩
      rw [List.cons_append, splitLinks_of_isClosing notQuote notOpening isClosing, if_neg isInside,
        isBehind]
  | case9 depth c others notQuote notOpening notClosing inductionHypothesis =>
      have step : ∀ rest, splitLinks depth none link (c :: others ++ mark :: rest) =
          if c == '.' && depth = 0 && !isDecimalPoint link (others ++ [mark]) then
            (splitLinks 0 none [] (others ++ mark :: rest)).map (endLink link :: ·)
          else
            splitLinks depth none (c :: link) (others ++ mark :: rest) := by
        intro rest
        rw [List.cons_append, splitLinks_of_not_isClosing notQuote notOpening notClosing,
          isDecimalPoint_append_cons]
      by_cases endsLink : (c == '.' && depth = 0 && !isDecimalPoint link (others ++ [mark])) = true
      · have isOutside : depth = 0 := by
          simp only [Bool.and_eq_true, decide_eq_true_eq] at endsLink
          exact endsLink.1.2
        subst isOutside
        obtain ⟨links, behind, isBehind⟩ := inductionHypothesis _ isOpen
        refine ⟨endLink link :: links, behind, fun rest => ?_⟩
        rw [step, if_pos endsLink, isBehind, Option.map_map]
        rfl
      · obtain ⟨links, behind, isBehind⟩ := inductionHypothesis _ isOpen
        refine ⟨links, behind, fun rest => ?_⟩
        rw [step, if_neg endsLink, isBehind]

/-- A link that contains a quotation mark ends in no number. -/
theorem isDecimalPoint_of_mem
    (isMark : isQuote mark = true)
    (member : mark ∈ link) :
    isDecimalPoint link rest = false := by
  have noDigit : (mark.isDigit || mark == '_') = false := by
    rcases isQuote_iff.mp isMark with rfl | rfl <;> decide
  have notAll : link.all (fun c => c.isDigit || c == '_') = false := by
    rw [List.all_eq_false]
    exact ⟨mark, member, by simp [noDigit]⟩
  simp [isDecimalPoint, notAll]

/-- A point ends a link with a string without a look at the string. -/
theorem exists_endLink_eq
    (isMark : isQuote mark = true)
    (link behind : List Char) :
    ∃ last, ∀ content, endLink (behind ++ mark :: (content ++ mark :: link)) =
      Text.trim (last ++ mark :: (content ++ mark :: link)).reverse := by
  have notSafe : mark ≠ '&' := by
    rcases isQuote_iff.mp isMark with rfl | rfl <;> decide
  match behind with
  | [] =>
      refine ⟨[], fun content => ?_⟩
      rw [List.nil_append, endLink]
      rintro others ⟨⟩
      exact notSafe rfl
  | c :: others =>
      by_cases isSafe : c = '&'
      · subst isSafe
        exact ⟨others, fun content => rfl⟩
      · refine ⟨c :: others, fun content => ?_⟩
        rw [List.cons_append, endLink]
        rintro more ⟨⟩
        exact isSafe rfl

/--
Behind a string, the link goes on and ends in a way that does not depend on the text of the string.
-/
theorem splitLinks_behind
    (isMark : isQuote mark = true)
    (link : List Char)
    (quote : Option Char)
    (after : List Char)
    (depth : Nat)
    (behind : List Char) :
    (∀ content, splitLinks depth quote (behind ++ mark :: (content ++ mark :: link)) after = none) ∨
      ∃ last links, ∀ content,
        splitLinks depth quote (behind ++ mark :: (content ++ mark :: link)) after =
          some (Text.trim (last ++ mark :: (content ++ mark :: link)).reverse :: links) := by
  fun_induction openBehind? depth quote after generalizing behind with
  | case1 depth quote =>
      by_cases isComplete : (depth = 0 && quote.isNone) = true
      · exact .inr ⟨behind, [], fun content => by rw [splitLinks.eq_def]; exact if_pos isComplete⟩
      · exact .inl fun content => by rw [splitLinks.eq_def]; exact if_neg isComplete
  | case2 depth c ends isEscape =>
      refine .inl fun content => ?_
      rw [splitLinks.eq_def]
      exact if_pos isEscape
  | case3 depth c ends isEscape escaped others inductionHypothesis =>
      cases eq_of_beq isEscape
      simp only [splitLinks_escape]
      exact inductionHypothesis (escaped :: '\\' :: behind)
  | case4 depth c others ends notEscape inductionHypothesis =>
      simp only [splitLinks_inString notEscape]
      exact inductionHypothesis (c :: behind)
  | case5 depth c others isQuote inductionHypothesis =>
      simp only [splitLinks_of_isQuote isQuote]
      exact inductionHypothesis (c :: behind)
  | case6 depth c others notQuote isOpening inductionHypothesis =>
      simp only [splitLinks_of_isOpening notQuote isOpening]
      exact inductionHypothesis (c :: behind)
  | case7 c others notQuote notOpening isClosing =>
      simp only [splitLinks_of_isClosing notQuote notOpening isClosing, if_true]
      exact .inl fun content => trivial
  | case8 depth c others notQuote notOpening isClosing isInside inductionHypothesis =>
      simp only [splitLinks_of_isClosing notQuote notOpening isClosing, if_neg isInside]
      exact inductionHypothesis (c :: behind)
  | case9 depth c others notQuote notOpening notClosing inductionHypothesis =>
      have noNumber : ∀ content,
          isDecimalPoint (behind ++ mark :: (content ++ mark :: link)) others = false := by
        intro content
        exact isDecimalPoint_of_mem isMark
          (List.mem_append_right behind List.mem_cons_self)
      simp only [splitLinks_of_not_isClosing notQuote notOpening notClosing, noNumber]
      by_cases endsLink : (c == '.' && depth = 0) = true
      · obtain ⟨last, isLast⟩ := exists_endLink_eq isMark link behind
        simp only [endsLink, Bool.not_false, Bool.and_true, if_true, isLast]
        cases splitLinks 0 none [] others with
        | none =>
            exact .inl fun content => rfl
        | some links =>
            exact .inr ⟨last, links, fun content => rfl⟩
      · simp only [endsLink, Bool.not_false, Bool.and_true]
        exact inductionHypothesis (c :: behind)

/-- White space around a string stands outside of it. -/
theorem trim_quoted
    (isMark : isQuote mark = true) :
    Text.trim (before ++ (quoted mark content ++ after)) =
      Text.trimStart before ++ (quoted mark content ++ Text.trimEnd after) := by
  have unblank : Text.isBlank mark = false := by
    rcases isQuote_iff.mp isMark with rfl | rfl <;> decide
  have isText : before ++ (quoted mark content ++ after) =
      before ++ mark :: (content ++ mark :: after) := by
    simp [quoted]
  rw [isText, Text.trim, Text.trimStart_append_cons unblank, ← List.cons_append, ← List.append_assoc,
    Text.trimEnd_append_cons unblank]
  simp [quoted]

/--
The links of a chain with a string in it, if it has any: one of them contains the string, and all
the rest does not depend on the text of the string.
-/
theorem exists_links_around
    (isMark : isQuote mark = true)
    (isOpen : openBehind? 0 none before = some (depth, none))
    (after : List Char) :
    (∀ content, isContent mark content = true →
      splitLinks 0 none [] (before ++ (quoted mark content ++ after)) = none) ∨
    ∃ earlier first last later, Text.trimEnd last = last ∧
      ∀ content, isContent mark content = true →
        splitLinks 0 none [] (before ++ (quoted mark content ++ after)) =
          some (earlier ++ (first ++ (quoted mark content ++ last)) :: later) := by
  obtain ⟨earlier, behind, isBehind⟩ := exists_splitLinks_before mark [] isOpen
  have split_eq : ∀ content, isContent mark content = true →
      splitLinks 0 none [] (before ++ (quoted mark content ++ after)) =
        (splitLinks depth none ([] ++ mark :: (content.reverse ++ mark :: behind)) after).map
          (earlier ++ ·) := by
    intro content inString
    have isText : quoted mark content ++ after = mark :: (content ++ mark :: after) := by
      simp [quoted]
    rw [isText, isBehind, ← isText, splitLinks_quoted isMark inString]
    rfl
  rcases splitLinks_behind isMark behind none after depth [] with nothing |
    ⟨last, later, isSplit⟩
  · refine .inl fun content inString => ?_
    rw [split_eq content inString, nothing, Option.map_none]
  · refine .inr ⟨earlier, Text.trimStart behind.reverse, Text.trimEnd last.reverse, later,
      Text.trimEnd_trimEnd _, fun content inString => ?_⟩
    have isText : (last ++ mark :: (content.reverse ++ mark :: behind)).reverse =
        behind.reverse ++ (quoted mark content ++ last.reverse) := by
      simp [quoted]
    rw [split_eq content inString, isSplit, isText, trim_quoted isMark, Option.map_some]

/-- White space in front opens nothing. -/
theorem openBehind?_trimStart
    (before : List Char) :
    openBehind? 0 none (Text.trimStart before) = openBehind? 0 none before := by
  unfold Text.trimStart
  induction before with
  | nil =>
      rfl
  | cons c rest inductionHypothesis =>
      rw [List.dropWhile_cons]
      split
      · next isBlank =>
          have noMark := (notMem_marks_of_isBlank isBlank).2
          simp only [marks, List.mem_cons, List.not_mem_nil, or_false, not_or] at noMark
          have isSkipped : openBehind? 0 none (c :: rest) = openBehind? 0 none rest := by
            rw [openBehind?.eq_def]
            simp [isQuote, isOpening, isClosing, noMark]
          rw [inductionHypothesis, isSkipped]
      · rfl

end Splitting

end TagCheck.Signature
