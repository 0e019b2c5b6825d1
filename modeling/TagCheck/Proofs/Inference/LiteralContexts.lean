import TagCheck.Proofs.Inference.LiteralContents

namespace TagCheck.Signature

/-!
# Chains that tell the texts of strings apart

A string that stands between two other strings in an argument list, of which one opens brackets that
the other closes, shows at what place the search for a name comes out of it.  So two texts can replace
each other in the strings of all chains exactly when the search comes out of both at the same place.
-/

section Strings

variable {mark : Char} {content rest : List Char} {depth : Nat}

/-- A text with neither the mark nor a backslash can stand in a string. -/
theorem isContent_of_forall_mem
    (plain : ∀ c ∈ content, c ≠ '\\' ∧ c ≠ mark) :
    isContent mark content = true := by
  fun_induction isContent mark content with
  | case1 =>
      rfl
  | case2 c isEscape | case3 c isEscape =>
      exact absurd (eq_of_beq isEscape) (plain c List.mem_cons_self).1
  | case4 c rest notEscape inductionHypothesis =>
      obtain ⟨⟨-, notMark⟩, others⟩ := List.forall_mem_cons.mp plain
      rw [inductionHypothesis others, Bool.and_true, bne_iff_ne]
      exact notMark

/-- A string opens nothing. -/
theorem openBehind?_quoted
    (isMark : isQuote mark = true)
    (inString : isContent mark content = true) :
    openBehind? depth none (quoted mark content ++ rest) = openBehind? depth none rest := by
  have behindMark : openBehind? depth (some mark) (content ++ mark :: rest) =
      openBehind? depth none rest := by
    fun_induction isContent mark content with
    | case1 =>
        rw [List.nil_append, openBehind?.eq_def]
        simp [ne_backslash_of_isQuote isMark]
    | case2 =>
        cases inString
    | case3 c isEscape escaped others inductionHypothesis =>
        rw [← inductionHypothesis inString, List.cons_append, List.cons_append,
          openBehind?.eq_def]
        exact if_pos isEscape
    | case4 c others notEscape inductionHypothesis =>
        rw [Bool.and_eq_true, bne_iff_ne] at inString
        have stillInside : (if c == mark then none else some mark) = some mark :=
          if_neg (by simpa using inString.1)
        rw [← inductionHypothesis inString.2, List.cons_append, openBehind?.eq_def]
        refine (if_neg notEscape).trans ?_
        rw [stillInside]
  rw [← behindMark, openBehind?.eq_def]
  simp [quoted, isMark]

end Strings

/-! ## What stands in front of the groups -/

section Suffixes

variable {opening closing : Char} {depth : Nat} {text before reversed name : List Char}

theorem suffix_of_beforeGroup?
    (found : beforeGroup? opening closing depth text = some before) :
    before <:+ text := by
  fun_induction beforeGroup? opening closing depth text with
  | case1 =>
      cases found
  | case2 _ c rest _ inductionHypothesis | case4 _ c rest _ _ _ inductionHypothesis
  | case5 _ c rest _ _ inductionHypothesis =>
      exact (inductionHypothesis found).trans (List.suffix_cons c rest)
  | case3 =>
      cases found
      exact List.suffix_cons _ _

/-- The name of a link begins the link. -/
theorem suffix_of_stripGroups?
    {limit indexes : Nat}
    (found : stripGroups? limit reversed = some (name, indexes)) :
    name <:+ reversed := by
  fun_induction stripGroups? limit reversed generalizing indexes with
  | case1 | case2 | case4 =>
      cases found
  | case3 | case5 =>
      cases found
      exact List.suffix_rfl
  | case6 limit c rest opening isOpening before notEmpty isBefore inductionHypothesis =>
      obtain ⟨⟨name, inner⟩, isFound, same⟩ := Option.map_eq_some_iff.mp found
      cases same
      exact (inductionHypothesis isFound).trans
        ((List.dropWhile_suffix _).trans (suffix_of_beforeGroup? isBefore))

end Suffixes

/-! ## Strings between strings with brackets -/

/-- An argument list up to a string that opens brackets. -/
def front (head : List Char) (bracket : Bracket) (around : Nat) : List Char :=
  head ++ '(' :: quoted '"' (')' :: List.replicate (around + 1) bracket.opening)

/-- An argument list from a string on that closes brackets. -/
def back (bracket : Bracket) (around : Nat) : List Char :=
  quoted '"' (List.replicate (around + 1) bracket.closing ++ ['(']) ++ [')']

/-- Heads in front of these argument lists: a word and an array. -/
def IsHead (head : List Char) : Prop :=
  head = ['x'] ∨ head = ['[', ']']

section Contexts

variable {head : List Char} {bracket inner : Bracket} {around within indexes : Nat}
  {stripping : Stripping}

theorem Stripping.passOver_closings
    (count : Nat) :
    (⟨.inside bracket around, indexes⟩ : Stripping).passOver
        (List.replicate count bracket.closing) =
      ⟨.inside bracket (around + count), indexes⟩ := by
  induction count with
  | zero =>
      rfl
  | succ count inductionHypothesis =>
      rw [List.replicate_succ, passOver_cons, inductionHypothesis]
      exact if_pos rfl

/-- In front of the string that closes brackets, the search is inside of groups. -/
theorem Stripping.passOver_back :
    (⟨.between, 0⟩ : Stripping).passOver (back bracket around) = ⟨.inside bracket around, 0⟩ := by
  have isBack : back bracket around = ['"'] ++ (List.replicate around bracket.closing ++
      (bracket.closing :: ['(', '"', ')'])) := by
    simp [back, quoted, List.replicate_succ']
  have begins : (⟨.between, 0⟩ : Stripping).passOver (bracket.closing :: ['(', '"', ')']) =
      ⟨.inside bracket 0, 0⟩ := by
    cases bracket <;> decide
  rw [isBack, passOver_append, passOver_append, begins, passOver_closings, Nat.zero_add,
    passOver_cons, passOver_nil, step_mark rfl]

theorem beforeGroup?_openings
    (count : Nat)
    (rest : List Char) :
    beforeGroup? bracket.opening bracket.closing (count + (around + 1))
        (List.replicate count bracket.opening ++ rest) =
      beforeGroup? bracket.opening bracket.closing (around + 1) rest := by
  induction count with
  | zero =>
      simp
  | succ count inductionHypothesis =>
      have isDepth : count + 1 + (around + 1) = count + around + 2 := by omega
      rw [List.replicate_succ, List.cons_append, isDepth, beforeGroup?_opening,
        ← inductionHypothesis]
      rfl

/-- Brackets of another kind are passed over. -/
theorem beforeGroup?_otherOpenings
    {depth : Nat}
    (notSame : inner ≠ bracket)
    (count : Nat)
    (rest : List Char) :
    beforeGroup? inner.opening inner.closing depth (List.replicate count bracket.opening ++ rest) =
      beforeGroup? inner.opening inner.closing depth rest := by
  obtain ⟨-, notClosing, notOpening⟩ := Bracket.ne_of_ne (Ne.symm notSame)
  induction count with
  | zero =>
      rfl
  | succ count inductionHypothesis =>
      rw [List.replicate_succ, List.cons_append, beforeGroup?_of_ne notClosing notOpening,
        inductionHypothesis]

theorem reverse_front :
    (front head bracket around).reverse = '"' :: (List.replicate (around + 1) bracket.opening ++
      ')' :: '"' :: '(' :: head.reverse) := by
  simp [front, quoted]

/-- A quotation mark is passed over in search of the beginning of a group. -/
theorem beforeGroup?_quote
    {depth : Nat}
    {rest : List Char} :
    beforeGroup? bracket.opening bracket.closing depth ('"' :: rest) =
      beforeGroup? bracket.opening bracket.closing depth rest := by
  cases bracket <;> exact beforeGroup?_of_ne (by decide) (by decide)

/-- A search that is inside of as many groups as the string opens finds the head. -/
theorem Stripping.resume?_front
    (isHead : IsHead head)
    (isInside : stripping.place = .inside bracket around) :
    stripping.resume? (front head bracket around).reverse (front head bracket around).reverse =
      some (head.reverse, (if bracket = .square then 1 else 0) + stripping.indexes) := by
  have found : beforeGroup? bracket.opening bracket.closing (around + 1)
      (front head bracket around).reverse = some (')' :: '"' :: '(' :: head.reverse) := by
    have isDepth : around + 1 = around + (0 + 1) := rfl
    rw [reverse_front, beforeGroup?_quote, List.replicate_succ', List.append_assoc, isDepth,
      beforeGroup?_openings]
    cases bracket <;> rfl
  have isStripped : strip? (Text.trimStart (')' :: '"' :: '(' :: head.reverse)) =
      some (head.reverse, 0) := by
    rcases isHead with rfl | rfl <;> decide
  rw [resume?, isInside]
  dsimp only
  rw [found]
  dsimp only
  rw [isStripped, Option.map_some]

/-- A search that is inside of other groups, or of more, finds no beginning of them. -/
theorem Stripping.resume?_front_eq_none
    (isHead : IsHead head)
    (isInside : stripping.place = .inside inner within)
    (isOther : inner ≠ bracket ∨ around < within) :
    stripping.resume? (front head bracket around).reverse (front head bracket around).reverse =
      none := by
  have closed : ∀ more, beforeGroup? inner.opening inner.closing (more + 1)
      (')' :: '"' :: '(' :: head.reverse) = none := by
    intro more
    rcases isHead with rfl | rfl <;> cases inner <;>
      simp [beforeGroup?, Bracket.opening, Bracket.closing]
  have notFound : beforeGroup? inner.opening inner.closing (within + 1)
      (front head bracket around).reverse = none := by
    rw [reverse_front, beforeGroup?_quote]
    by_cases same : inner = bracket
    · subst same
      obtain ⟨more, rfl⟩ := Nat.exists_eq_add_of_lt (isOther.resolve_left (· rfl))
      have isDepth : around + more + 1 + 1 = around + 1 + (more + 1) := by omega
      rw [isDepth, beforeGroup?_openings, closed]
    · rw [beforeGroup?_otherOpenings same, closed]
  rw [resume?, isInside]
  dsimp only
  rw [notFound]

theorem isContent_openings :
    isContent '"' (')' :: List.replicate (around + 1) bracket.opening) = true := by
  refine isContent_of_forall_mem fun c member => ?_
  rcases List.mem_cons.mp member with rfl | isOpening
  · decide
  · rw [List.eq_of_mem_replicate isOpening]
    cases bracket <;> decide

theorem isContent_closings :
    isContent '"' (List.replicate (around + 1) bracket.closing ++ ['(']) = true := by
  refine isContent_of_forall_mem fun c member => ?_
  rcases List.mem_append.mp member with isClosing | isOpening
  · rw [List.eq_of_mem_replicate isClosing]
    cases bracket <;> decide
  · rw [List.mem_singleton.mp isOpening]
    decide

end Contexts

/--
An argument list with a place for a string, between a string that opens brackets and one that closes
some.
-/
structure Probe where
  head : List Char
  isHead : IsHead head
  opened : Bracket
  within : Nat
  closed : Bracket
  around : Nat

namespace Probe

variable (probe : Probe) (mark : Char) (content : List Char)

def before : List Char :=
  front probe.head probe.opened probe.within

def after : List Char :=
  back probe.closed probe.around

/-- The argument list with a string in its place. -/
def text : List Char :=
  probe.before ++ (quoted mark content ++ probe.after)

/-- Where the search for the name comes out of the string. -/
def exit : Stripping :=
  (⟨.inside probe.closed probe.around, 0⟩ : Stripping).passOver (quoted mark content)

theorem exists_reverse_text :
    ∃ rest, (probe.text mark content).reverse = ')' :: rest := by
  simp [text, after, back]

theorem exists_text :
    ∃ first rest, probe.text mark content = first :: rest ∧ (first = 'x' ∨ first = '[') := by
  rcases probe.isHead with isHead | isHead <;> simp [text, before, front, isHead]

theorem trim_text :
    Text.trim (probe.text mark content) = probe.text mark content := by
  obtain ⟨behind, isReverse⟩ := probe.exists_reverse_text mark content
  obtain ⟨first, rest, isText, isFirst⟩ := probe.exists_text mark content
  refine Text.trim_eq_of_ends (fun c begins => ?_) (fun c ends => ?_)
  · rw [isText] at begins
    cases begins
    rcases isFirst with rfl | rfl <;> decide
  · rw [isReverse] at ends
    cases ends
    decide

theorem isInGroup_before :
    IsInGroup probe.before := by
  refine ⟨0, ?_⟩
  have isBefore : probe.before =
      probe.head ++ '(' :: (quoted '"' (')' :: List.replicate (probe.within + 1)
        probe.opened.opening) ++ []) := by
    simp [before, front]
  have ofHead : ∀ rest, openBehind? 0 none (probe.head ++ '(' :: rest) =
      openBehind? 1 none rest := by
    intro rest
    rcases probe.isHead with isHead | isHead <;> rw [isHead] <;>
      simp [openBehind?, isQuote, isOpening, isClosing]
  rw [isBefore, ofHead, openBehind?_quoted rfl isContent_openings, openBehind?.eq_def]

section Strings

variable {mark content} (isMark : isQuote mark = true) (inString : isContent mark content = true)
include isMark inString

/-- The argument list is one link with what stands in front of it. -/
theorem splitLinks_text :
    splitLinks 0 none [] (probe.text mark content) = some [probe.text mark content] := by
  have isText : probe.text mark content = probe.head ++ '(' ::
      (quoted '"' (')' :: List.replicate (probe.within + 1) probe.opened.opening) ++
        (quoted mark content ++
          (quoted '"' (List.replicate (probe.around + 1) probe.closed.closing ++ ['(']) ++
            [')']))) := by
    simp [text, before, front, after, back]
  have ofHead : ∀ rest, splitLinks 0 none [] (probe.head ++ '(' :: rest) =
      splitLinks 1 none ('(' :: probe.head.reverse) rest := by
    intro rest
    rcases probe.isHead with isHead | isHead <;> rw [isHead] <;>
      simp [splitLinks, isQuote, isOpening, isClosing]
  have ofEnd : ∀ link, splitLinks 1 none link [')'] = some [Text.trim (')' :: link).reverse] := by
    intro link
    simp [splitLinks, isQuote, isOpening, isClosing]
  have trimmed := probe.trim_text mark content
  rw [isText] at trimmed ⊢
  rw [ofHead, splitLinks_quoted rfl isContent_openings, splitLinks_quoted isMark inString,
    splitLinks_quoted rfl isContent_closings, ofEnd]
  refine congrArg (some [·]) (Eq.trans (congrArg Text.trim ?_) trimmed)
  simp [quoted]

theorem readChars?_text :
    readChars? (probe.text mark content) =
      (strip? (probe.text mark content).reverse).bind fun (name, indexes) =>
        (headSegment? name.reverse).map (· :: List.replicate indexes .index) := by
  obtain ⟨first, rest, isText, -⟩ := probe.exists_text mark content
  have notEmpty : Text.trim (probe.text mark content) ≠ [] := by
    rw [probe.trim_text, isText]
    exact List.cons_ne_nil first rest
  have oneLink : readLinks? [probe.text mark content] =
      linkSegments? headSegment? (probe.text mark content) := by
    rw [isText]
    simp [readLinks?]
  rw [readChars?_eq notEmpty, probe.trim_text mark content, probe.splitLinks_text isMark inString,
    Option.bind_some, oneLink, linkSegments?_eq]

/-- The argument list stands behind no number and no global variable. -/
theorem keepsNoString_text :
    KeepsNoString (probe.text mark content) := by
  intro first rest isName isNumber
  rw [headName?, probe.trim_text, probe.splitLinks_text isMark inString, Option.bind_some,
    List.head?_cons, Option.bind_some] at isName
  obtain ⟨⟨name, indexes⟩, isSplit, isFirst⟩ := Option.map_eq_some_iff.mp isName
  obtain ⟨⟨reversed, count⟩, isStripped, same⟩ := Option.map_eq_some_iff.mp isSplit
  cases same
  have isPrefix := List.reverse_prefix.mpr (suffix_of_stripGroups? isStripped)
  replace isFirst : reversed.reverse = first :: rest := isFirst
  rw [List.reverse_reverse, isFirst] at isPrefix
  obtain ⟨begins, others, isText, isBegin⟩ := probe.exists_text mark content
  rw [isText, List.cons_prefix_cons] at isPrefix
  have plain : ¬(first.isDigit = true ∨ first = '$') := by
    rw [isPrefix.1]
    rcases isBegin with rfl | rfl <;> decide
  exact absurd isNumber plain

end Strings

/-- The outcome of the search depends on the place at which it comes out of the string. -/
theorem alike_strip? :
    Alike probe.before.reverse (strip? (probe.text mark content).reverse)
      ((probe.exit mark content).resume? probe.before.reverse probe.before.reverse) := by
  have trimmed : Text.trimStart (probe.text mark content).reverse =
      (probe.text mark content).reverse := by
    obtain ⟨behind, isReverse⟩ := probe.exists_reverse_text mark content
    rw [isReverse]
    rfl
  have isText : (probe.text mark content).reverse =
      (quoted mark content ++ probe.after).reverse ++ probe.before.reverse := by
    rw [text, List.reverse_append]
  have notEmpty : probe.before.reverse ≠ [] := by
    simp [before, front]
  rw [strip?_eq_resume? trimmed, exit, ← Stripping.passOver_back, ← Stripping.passOver_append,
    isText]
  exact Stripping.alike_resume?_passOver notEmpty _ _

/-- A string is left inside of a group or in the name. -/
theorem exit_place
    {mark : Char}
    (content : List Char)
    (isMark : isQuote mark = true) :
    (probe.exit mark content).place = .name ∨
      ∃ inner within, (probe.exit mark content).place = .inside inner within := by
  rw [exit, quoted, Stripping.passOver_cons, Stripping.step_mark isMark]
  split
  · next inner within isInside => exact .inr ⟨inner, within, isInside⟩
  · exact .inl rfl
  · exact .inl rfl

section Outcomes

variable {probe mark content}

theorem strip?_of_inside
    (isInside : (probe.exit mark content).place = .inside probe.opened probe.within) :
    strip? (probe.text mark content).reverse =
      some (probe.head.reverse,
        (if probe.opened = .square then 1 else 0) + (probe.exit mark content).indexes) := by
  have outcome := probe.alike_strip? mark content
  rw [before, Stripping.resume?_front probe.isHead isInside] at outcome
  rcases outcome with same | ⟨kept, other, indexes, isFound, isHead⟩
  · exact same
  · have tooLong := congrArg List.length (Prod.mk.inj (Option.some.inj isHead)).1
    simp only [front, List.length_append, List.length_reverse, List.length_cons] at tooLong
    omega

theorem strip?_of_name
    (isName : (probe.exit mark content).place = .name) :
    ∃ kept, strip? (probe.text mark content).reverse =
      some (kept ++ probe.before.reverse, (probe.exit mark content).indexes) := by
  have outcome := probe.alike_strip? mark content
  rw [Stripping.resume?, isName] at outcome
  rcases outcome with same | ⟨kept, other, indexes, isFound, isOutcome⟩
  · exact ⟨[], same⟩
  · rw [(Prod.mk.inj (Option.some.inj isOutcome)).2]
    exact ⟨kept, isFound⟩

theorem strip?_of_otherInside
    {inner : Bracket}
    {within : Nat}
    (isInside : (probe.exit mark content).place = .inside inner within)
    (isOther : inner ≠ probe.opened ∨ probe.within < within) :
    strip? (probe.text mark content).reverse = none := by
  have outcome := probe.alike_strip? mark content
  rw [before, Stripping.resume?_front_eq_none probe.isHead isInside isOther] at outcome
  rcases outcome with same | ⟨kept, other, indexes, isFound, isNone⟩
  · exact same
  · cases isNone

end Outcomes

theorem isDoubleQuote :
    isQuote '"' = true :=
  rfl

/-- An argument list behind a word. -/
def ofWord (opened : Bracket) (within : Nat) (closed : Bracket) (around : Nat) : Probe :=
  ⟨['x'], .inl rfl, opened, within, closed, around⟩

/-- An argument list behind an array. -/
def ofArray (closed : Bracket) (around : Nat) : Probe :=
  ⟨['[', ']'], .inr rfl, .round, 0, closed, around⟩

section Readings

variable {mark content} {opened closed : Bracket} {within around : Nat}
  (isMark : isQuote mark = true) (inString : isContent mark content = true)
include isMark inString

/-- Behind a word, the string is read as an argument if the search comes out of it as expected. -/
theorem readChars?_ofWord
    (isInside : ((ofWord opened within closed around).exit mark content).place =
      .inside opened within) :
    readChars? ((ofWord opened within closed around).text mark content) =
      some (.word "x" :: List.replicate ((if opened = .square then 1 else 0) +
        ((ofWord opened within closed around).exit mark content).indexes) .index) := by
  have isWord : headSegment? (ofWord opened within closed around).head.reverse.reverse =
      some (.word "x") := by
    change headSegment? ['x'] = some (.word "x")
    decide
  rw [readChars?_text _ isMark inString, strip?_of_inside isInside, Option.bind_some]
  dsimp only
  rw [isWord, Option.map_some]
  rfl

theorem readChars?_ofWord_of_name
    (isName : ((ofWord opened within closed around).exit mark content).place = .name) :
    readChars? ((ofWord opened within closed around).text mark content) = none := by
  obtain ⟨kept, isStripped⟩ := strip?_of_name isName
  have isKept : (kept ++ (ofWord opened within closed around).before.reverse).reverse =
      'x' :: ('(' :: (quoted '"' (')' :: List.replicate (within + 1) opened.opening) ++
        kept.reverse)) := by
    simp [before, front, ofWord]
  have noWord : headSegment? (kept ++ (ofWord opened within closed around).before.reverse).reverse =
      none := by
    rw [isKept, headSegment?_of_mem isDoubleQuote (by simp [quoted]) (by decide) (by decide)]
    simp [List.isPrefixOf, literalClass?]
  rw [readChars?_text _ isMark inString, isStripped, Option.bind_some]
  dsimp only
  rw [noWord, Option.map_none]

theorem readChars?_ofWord_of_otherInside
    {inner : Bracket}
    {more : Nat}
    (isInside : ((ofWord opened within closed around).exit mark content).place =
      .inside inner more)
    (isOther : inner ≠ opened ∨ within < more) :
    readChars? ((ofWord opened within closed around).text mark content) = none := by
  rw [readChars?_text _ isMark inString, strip?_of_otherInside isInside isOther, Option.bind_none]

/-- Behind an array, a string that ends the search is read as a part of the array. -/
theorem readChars?_ofArray
    (isName : ((ofArray closed around).exit mark content).place = .name) :
    readChars? ((ofArray closed around).text mark content) =
      some (.literal "Array" ::
        List.replicate ((ofArray closed around).exit mark content).indexes .index) := by
  obtain ⟨kept, isStripped⟩ := strip?_of_name isName
  have isKept : (kept ++ (ofArray closed around).before.reverse).reverse =
      '[' :: (']' :: '(' :: (quoted '"' (')' :: List.replicate 1 Bracket.round.opening) ++
        kept.reverse)) := by
    simp [before, front, ofArray]
  have isArray : headSegment? (kept ++ (ofArray closed around).before.reverse).reverse =
      some (.literal "Array") := by
    rw [isKept, headSegment?_of_mem isDoubleQuote (by simp [quoted]) (by decide) (by decide)]
    simp [List.isPrefixOf, literalClass?]
  rw [readChars?_text _ isMark inString, isStripped, Option.bind_some]
  dsimp only
  rw [isArray, Option.map_some]

end Readings

section Distinguishing

variable {mark} {first second : List Char} {closed : Bracket} {around : Nat}
  (isMark : isQuote mark = true) (firstIn : isContent mark first = true)
  (secondIn : isContent mark second = true)
include isMark firstIn secondIn

/--
A search that comes out of one string inside of a group comes out of the other one at the same place,
unless this is inside of fewer groups.
-/
theorem exit_eq_of_inside
    (same : ∀ probe : Probe,
      readChars? (probe.text mark first) = readChars? (probe.text mark second))
    {inner : Bracket}
    {within : Nat}
    (isInside : ((ofArray closed around).exit mark first).place = .inside inner within)
    (notLess : ∀ more, ((ofArray closed around).exit mark second).place = .inside inner more →
      within ≤ more) :
    (ofArray closed around).exit mark first = (ofArray closed around).exit mark second := by
  have sameHere := same (ofWord inner within closed around)
  rw [readChars?_ofWord isMark firstIn isInside] at sameHere
  rcases (ofArray closed around).exit_place second isMark with isName | ⟨other, more, isOther⟩
  · rw [readChars?_ofWord_of_name isMark secondIn isName] at sameHere
    cases sameHere
  · by_cases samePlace : other = inner ∧ more = within
    · obtain ⟨rfl, rfl⟩ := samePlace
      rw [readChars?_ofWord isMark secondIn isOther] at sameHere
      have sameLength := congrArg List.length (List.cons.inj (Option.some.inj sameHere)).2
      rw [List.length_replicate, List.length_replicate] at sameLength
      exact Stripping.ext (isInside.trans isOther.symm) (Nat.add_left_cancel sameLength)
    · have differs : other ≠ inner ∨ within < more := by
        by_cases sameKind : other = inner
        · subst sameKind
          exact .inr (Nat.lt_of_le_of_ne (notLess more isOther)
            fun isSame => samePlace ⟨rfl, isSame.symm⟩)
        · exact .inl sameKind
      rw [readChars?_ofWord_of_otherInside isMark secondIn isOther differs] at sameHere
      cases sameHere

/-- If two strings are read alike everywhere, a search comes out of both at the same place. -/
theorem exit_eq
    (same : ∀ probe : Probe,
      readChars? (probe.text mark first) = readChars? (probe.text mark second)) :
    (ofArray closed around).exit mark first = (ofArray closed around).exit mark second := by
  have converse : ∀ probe : Probe,
      readChars? (probe.text mark second) = readChars? (probe.text mark first) :=
    fun probe => (same probe).symm
  rcases (ofArray closed around).exit_place first isMark with
    firstName | ⟨inner, within, firstInside⟩
  · rcases (ofArray closed around).exit_place second isMark with
      secondName | ⟨other, more, secondInside⟩
    · have sameHere := same (ofArray closed around)
      rw [readChars?_ofArray isMark firstIn firstName,
        readChars?_ofArray isMark secondIn secondName] at sameHere
      have sameLength := congrArg List.length (List.cons.inj (Option.some.inj sameHere)).2
      rw [List.length_replicate, List.length_replicate] at sameLength
      exact Stripping.ext (firstName.trans secondName.symm) sameLength
    · refine (exit_eq_of_inside isMark secondIn firstIn converse secondInside ?_).symm
      intro within isInside
      rw [firstName] at isInside
      cases isInside
  · by_cases less : ∃ more, ((ofArray closed around).exit mark second).place = .inside inner more ∧
        more < within
    · obtain ⟨more, secondInside, less⟩ := less
      refine (exit_eq_of_inside isMark secondIn firstIn converse secondInside ?_).symm
      intro others isInside
      rw [firstInside] at isInside
      cases isInside
      exact Nat.le_of_lt less
    · refine exit_eq_of_inside isMark firstIn secondIn same firstInside fun more isInside => ?_
      exact Nat.le_of_not_lt fun isLess => less ⟨more, isInside, isLess⟩

end Distinguishing

end Probe

/-! ## Texts that can replace each other -/

/-- Inside of a group, a text whose brackets are properly nested is passed over. -/
theorem Stripping.passOver_nested
    {inside : List Char}
    (isNested : IsNested inside)
    (bracket : Bracket)
    (around indexes : Nat) :
    (⟨.inside bracket around, indexes⟩ : Stripping).passOver inside =
      ⟨.inside bracket around, indexes⟩ := by
  induction isNested generalizing around with
  | nothing =>
      rfl
  | @character c rest noMark _ inductionHypothesis =>
      obtain ⟨notClosing, notOpening⟩ := bracket.ne_of_notMem_marks noMark
      rw [passOver_cons, inductionHypothesis]
      exact (if_neg notClosing).trans (if_neg notOpening)
  | group other _ _ ofInside ofRest =>
      rw [passOver_cons, passOver_append, passOver_cons, ofRest]
      -- Only brackets of the group's own kind are counted, first up and then down again.
      by_cases same : other = bracket
      · subst same
        have enters : (⟨.inside other around, indexes⟩ : Stripping).step other.closing =
            ⟨.inside other (around + 1), indexes⟩ := if_pos rfl
        have otherMark : other.opening ≠ other.closing := by
          cases other <;> decide
        rw [enters, ofInside]
        exact (if_neg otherMark).trans (if_pos rfl)
      · obtain ⟨⟨closings, closing⟩, opening, openings⟩ := Bracket.ne_of_ne same
        have passes : (⟨.inside bracket around, indexes⟩ : Stripping).step other.closing =
            ⟨.inside bracket around, indexes⟩ :=
          (if_neg closings).trans (if_neg closing)
        rw [passes, ofInside]
        exact (if_neg opening).trans (if_neg openings)

/-- Texts with properly nested brackets can replace each other in strings. -/
theorem PassAlike.of_isNested
    {mark : Char}
    {first second : List Char}
    (isMark : isQuote mark = true)
    (firstNested : IsNested first)
    (secondNested : IsNested second) :
    PassAlike mark first second := by
  have passes : ∀ content, IsNested content → ∀ bracket around,
      (⟨.inside bracket around, 0⟩ : Stripping).passOver (quoted mark content) =
        ⟨.inside bracket around, 0⟩ := by
    intro content isNested bracket around
    have stays : (⟨.inside bracket around, 0⟩ : Stripping).step mark =
        ⟨.inside bracket around, 0⟩ := Stripping.step_mark isMark _
    rw [quoted, Stripping.passOver_cons, Stripping.passOver_append, Stripping.passOver_cons,
      Stripping.passOver_nil, stays, Stripping.passOver_nested isNested, stays]
  intro bracket around
  rw [passes first firstNested, passes second secondNested]

/--
Two texts can replace each other in a string in the arguments of every chain, unless a number or a
global variable at its head keeps the string, exactly if a search from the end that is inside of a
group goes on alike behind both.
-/
theorem read?_quoted_eq_iff
    {mark : Char}
    {first second : List Char}
    (isMark : isQuote mark = true)
    (firstIn : isContent mark first = true)
    (secondIn : isContent mark second = true) :
    (∀ before after, IsInGroup before →
        KeepsNoString (before ++ (quoted mark first ++ after)) →
          read? (String.ofList (before ++ (quoted mark first ++ after))) =
            read? (String.ofList (before ++ (quoted mark second ++ after)))) ↔
      PassAlike mark first second := by
  constructor
  · intro same bracket around
    have everywhere : ∀ probe : Probe,
        readChars? (probe.text mark first) = readChars? (probe.text mark second) := by
      intro probe
      have here := same probe.before probe.after probe.isInGroup_before
        (probe.keepsNoString_text isMark firstIn)
      rwa [read?, read?, String.toList_ofList, String.toList_ofList] at here
    exact Probe.exit_eq isMark firstIn secondIn everywhere
  · rintro alike before after ⟨depth, isOpen⟩ keepsNone
    rw [read?, read?, String.toList_ofList, String.toList_ofList]
    exact alike.readChars?_eq isMark firstIn secondIn isOpen keepsNone

/-- Nested brackets in a string are of no account: `foo("[0]").bar` is read like `foo("a").bar`. -/
theorem read?_quoted_nested :
    isQuote '"' = true ∧ isContent '"' ['a'] = true ∧ isContent '"' ['[', '0', ']'] = true ∧
      IsInGroup "foo(".toList ∧
      KeepsNoString ("foo(".toList ++ (quoted '"' ['a'] ++ ").bar".toList)) ∧
      read? (String.ofList ("foo(".toList ++ (quoted '"' ['a'] ++ ").bar".toList))) =
        read? (String.ofList ("foo(".toList ++ (quoted '"' ['[', '0', ']'] ++ ").bar".toList))) := by
  have inGroup : IsInGroup "foo(".toList := ⟨0, by decide +kernel⟩
  have keepsNone : KeepsNoString ("foo(".toList ++ (quoted '"' ['a'] ++ ").bar".toList)) := by
    intro first rest isName isNumber
    have isFoo : headName? ("foo(".toList ++ (quoted '"' ['a'] ++ ").bar".toList)) =
        some "foo".toList := by
      decide +kernel
    rw [isFoo] at isName
    cases isName
    exact absurd isNumber (by decide +kernel)
  have alike : PassAlike '"' ['a'] ['[', '0', ']'] :=
    .of_isNested rfl (.character (by decide) .nothing)
      (.group .square (.character (by decide) .nothing) .nothing)
  have inString : isContent '"' ['a'] = true ∧ isContent '"' ['[', '0', ']'] = true := by
    decide
  exact ⟨rfl, inString.1, inString.2, inGroup, keepsNone,
    (read?_quoted_eq_iff rfl inString.1 inString.2).mpr alike _ _ inGroup keepsNone⟩

/--
A bracket in a string is taken for one of the argument list: `foo("a").bar` is a chain, and
`foo(")").bar` is none.
-/
theorem read?_quoted_ne :
    ¬∀ (mark : Char) (first second before after : List Char), isQuote mark = true →
      (∀ c ∈ first ++ second, isQuote c = false ∧ c ≠ '\\' ∧ c ≠ '\n') → IsInGroup before →
        read? (String.ofList (before ++ (quoted mark first ++ after))) =
          read? (String.ofList (before ++ (quoted mark second ++ after))) := by
  intro always
  have inGroup : IsInGroup "foo(".toList := ⟨0, by decide +kernel⟩
  have same := always '"' ['a'] [')'] "foo(".toList ").bar".toList rfl (by simp [isQuote]) inGroup
  rw [read?, read?, String.toList_ofList, String.toList_ofList] at same
  revert same
  decide +kernel

end TagCheck.Signature
