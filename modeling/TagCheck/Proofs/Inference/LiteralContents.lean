import TagCheck.Proofs.Inference.Stripping
import TagCheck.Proofs.Outline.Path

namespace TagCheck.Signature

/-!
# The texts of strings in arguments

Arguments are skipped, so one would expect the text of a string in them to be of no account.  It is,
where a chain is cut into links; where the name of a link is looked for, the brackets in strings are
counted like all others.  Two texts that do the same to this search can replace each other: what a
name keeps of a string, if anything, is no part of what the name is read as.
-/

section Names

variable {mark : Char} (isMark : isQuote mark = true)
include isMark

/-- A name contains no quotation mark. -/
theorem isName_of_mem
    {text : List Char}
    (member : mark ∈ text) :
    isName text = false := by
  have noPart : Text.isWordChar mark = false ∧ isNameSuffix mark = false := by
    rcases isQuote_iff.mp isMark with rfl | rfl <;> decide
  have inBody : mark ∈ text.reverse.dropWhile isNameSuffix := by
    have inText : mark ∈ text.reverse.takeWhile isNameSuffix ++
        text.reverse.dropWhile isNameSuffix := by
      rw [List.takeWhile_append_dropWhile]
      exact List.mem_reverse.mpr member
    rcases List.mem_append.mp inText with inSuffix | inBody
    · have isSuffix := List.mem_takeWhile_imp inSuffix
      rw [noPart.2] at isSuffix
      cases isSuffix
    · exact inBody
  have notAll : (text.reverse.dropWhile isNameSuffix).reverse.all Text.isWordChar = false :=
    List.all_eq_false.mpr ⟨mark, List.mem_reverse.mpr inBody, by simp [noPart.1]⟩
  simp [isName, notAll]

theorem callSegment?_of_mem
    {name : List Char}
    (member : mark ∈ name) :
    callSegment? name = none := by
  rw [callSegment?, isName_of_mem isMark member]
  rfl

/-- Splitting a path loses no quotation mark. -/
theorem exists_mem_partsOfChars
    {path : List Char}
    (member : mark ∈ path) :
    ∃ part ∈ ConstantPath.partsOfChars (Text.dropColonPairs path), mark ∈ part := by
  have notColon : mark ≠ ':' := by
    rcases isQuote_iff.mp isMark with rfl | rfl <;> decide
  have kept := ConstantPath.mem_dropColonPairs notColon member
  rw [← ConstantPath.joinedChars_partsOfChars (Text.dropColonPairs path)] at kept
  exact (ConstantPath.mem_joinedChars kept).resolve_left notColon

/-- A constant path contains no quotation mark. -/
theorem all_isConstantName_of_mem
    {head : List Char}
    (member : mark ∈ head) :
    (ConstantPath.partsOfChars (Text.dropColonPairs head)).all isConstantName = false := by
  obtain ⟨part, isPart, inPart⟩ := exists_mem_partsOfChars isMark member
  refine List.all_eq_false.mpr ⟨part, isPart, ?_⟩
  simp [isConstantName, isName_of_mem isMark inPart]

theorem isKeyword_of_mem
    {head : List Char}
    (member : mark ∈ head) :
    isKeyword head = false := by
  rw [Bool.eq_false_iff]
  intro keyword
  simp only [isKeyword, List.contains_eq_mem, List.mem_cons, List.not_mem_nil, or_false,
    decide_eq_true_eq, ← String.toList_inj, String.toList_ofList] at keyword
  rcases isQuote_iff.mp isMark with rfl | rfl <;> rcases keyword with rfl | rfl | rfl | rfl <;>
    revert member <;> decide

omit isMark in
theorem literalClass?_of_not_isDigit
    {head : List Char}
    {first : Char}
    (notDigit : first.isDigit = false) :
    literalClass? head first = literalClass? [] first := by
  unfold literalClass?
  split <;> simp [notDigit]

/--
A head that contains a quotation mark is a global variable or a literal, by its first character; of
a number it matters whether it contains a point.
-/
theorem headSegment?_of_mem
    {first : Char}
    {rest : List Char}
    (member : mark ∈ first :: rest)
    (notDigit : first.isDigit = false)
    (notGlobal : first ≠ '$') :
    headSegment? (first :: rest) =
      if first = '@' || first.isUpper || "::".toList.isPrefixOf (first :: rest) then
        none
      else
        (literalClass? [] first).map .literal := by
  have notKeyword := isKeyword_of_mem isMark member
  have notAt : mark ≠ '@' := by
    rcases isQuote_iff.mp isMark with rfl | rfl <;> decide
  by_cases isAt : first = '@'
  · subst isAt
    have inRest : mark ∈ rest := (List.mem_cons.mp member).resolve_left notAt
    rw [if_pos (by simp)]
    refine headSegment?_of_marked notKeyword ?_
    have noName : ∀ name : List Char, mark ∈ name → isName name = false :=
      fun _ inName => isName_of_mem isMark inName
    unfold markedVariable?
    split
    · next name isText =>
        cases isText
        simp [noName name ((List.mem_cons.mp inRest).resolve_left notAt)]
    · next isText =>
        cases isText
        simp [noName rest inRest]
    · next isText =>
        cases isText
    · next notInstance _ =>
        exact absurd rfl (notInstance rest)
  · have unmarked : markedVariable? (first :: rest) = none :=
      markedVariable?_eq_none (by simpa using isAt) (by simpa using notGlobal)
    by_cases isConstant : (first.isUpper || "::".toList.isPrefixOf (first :: rest)) = true
    · rw [if_pos (by rwa [decide_eq_false isAt, Bool.false_or]),
        headSegment?_of_constant notKeyword unmarked (by simpa using isConstant),
        all_isConstantName_of_mem isMark member]
      rfl
    · have notConstant := Bool.eq_false_iff.mpr isConstant
      have sameClass : literalClass? (first :: rest) first = literalClass? [] first :=
        literalClass?_of_not_isDigit notDigit
      rw [if_neg (by rwa [decide_eq_false isAt, Bool.false_or]), ← sameClass]
      cases isLiteral : literalClass? (first :: rest) first with
      | none =>
          rw [headSegment?_of_word notKeyword rfl unmarked notConstant isLiteral,
            isName_of_mem isMark member]
          rfl
      | some className =>
          exact headSegment?_of_literal notKeyword rfl unmarked notConstant isLiteral

/--
A head that contains a quotation mark is read by what stands in front of the mark, unless it is a
number or a global variable.
-/
theorem headSegment?_append_mark
    {front : List Char}
    (unnumbered : ∀ c, front.head? = some c → c.isDigit = false ∧ c ≠ '$')
    (first second : List Char) :
    headSegment? (front ++ mark :: first) = headSegment? (front ++ mark :: second) := by
  have notColon : ':' ≠ mark := by
    rcases isQuote_iff.mp isMark with rfl | rfl <;> decide
  have samePrefix : ∀ behind, "::".toList.isPrefixOf (front ++ mark :: behind) =
      "::".toList.isPrefixOf (front ++ [mark]) := by
    intro behind
    match front with
    | [] | [_] | _ :: _ :: _ => simp [List.isPrefixOf, notColon]
  cases front with
  | nil =>
      have plain : mark.isDigit = false ∧ mark ≠ '$' := by
        rcases isQuote_iff.mp isMark with rfl | rfl <;> decide
      simp only [List.nil_append] at samePrefix ⊢
      rw [headSegment?_of_mem isMark List.mem_cons_self plain.1 plain.2,
        headSegment?_of_mem isMark List.mem_cons_self plain.1 plain.2, samePrefix first,
        samePrefix second]
  | cons c rest =>
      obtain ⟨notDigit, notGlobal⟩ := unnumbered c rfl
      have isPart : ∀ behind, mark ∈ c :: (rest ++ mark :: behind) := by
        simp
      simp only [List.cons_append] at samePrefix ⊢
      rw [headSegment?_of_mem isMark (isPart first) notDigit notGlobal,
        headSegment?_of_mem isMark (isPart second) notDigit notGlobal, samePrefix first,
        samePrefix second]

end Names

/-- The segments of a link, by the search for its name. -/
theorem linkSegments?_eq
    (nameSegment? : List Char → Option Segment)
    (link : List Char) :
    linkSegments? nameSegment? link = (strip? link.reverse).bind fun (name, indexes) =>
      (nameSegment? name.reverse).map (· :: List.replicate indexes .index) := by
  simp only [linkSegments?, splitGroups?, strip?, List.length_reverse, Option.bind_eq_bind,
    Option.bind_map, Option.pure_def]
  congr 1
  funext outcome
  simp only [Function.comp_apply]
  cases nameSegment? outcome.1.reverse <;> rfl

/-- The segments of links: the first is the head of the chain. -/
def readLinks? (links : List (List Char)) : Option (List Segment) :=
  if links.any (·.isEmpty) then
    none
  else
    match links with
    | [] => none
    | head :: calls => do
        let first ← linkSegments? headSegment? head
        let others ← calls.mapM (linkSegments? callSegment?)
        return first ++ others.flatten

theorem readChars?_eq
    {text : List Char}
    (notEmpty : Text.trim text ≠ []) :
    readChars? text = (splitLinks 0 none [] (Text.trim text)).bind readLinks? := by
  unfold readChars?
  split
  · next isEmpty =>
      exact absurd isEmpty notEmpty
  · cases splitLinks 0 none [] (Text.trim text) <;> rfl

/-- One link can stand for another in a chain if it is read like the other. -/
theorem readLinks?_congr
    {earlier later : List (List Char)}
    {link other : List Char}
    (sameEmpty : link.isEmpty = other.isEmpty)
    (asHead : earlier = [] → linkSegments? headSegment? link = linkSegments? headSegment? other)
    (asCall : linkSegments? callSegment? link = linkSegments? callSegment? other) :
    readLinks? (earlier ++ link :: later) = readLinks? (earlier ++ other :: later) := by
  unfold readLinks?
  simp only [List.any_append, List.any_cons, sameEmpty]
  cases earlier with
  | nil =>
      simp only [List.nil_append, asHead rfl]
  | cons head calls =>
      simp only [List.cons_append, List.mapM_append, List.mapM_cons, asCall]

/-- The name that a chain begins with, without the groups behind it. -/
def headName? (text : List Char) : Option (List Char) :=
  ((splitLinks 0 none [] (Text.trim text)).bind List.head?).bind fun link =>
    (splitGroups? link).map Prod.fst

/--
A number or a global variable at the head of a chain has no quotation mark in it.  Of such a head all
of the text counts.
-/
def KeepsNoString (text : List Char) : Prop :=
  ∀ first rest, headName? text = some (first :: rest) → first.isDigit = true ∨ first = '$' →
    ∀ c ∈ rest, isQuote c = false

section Strings

variable {mark : Char} {first second before last after : List Char} {depth : Nat}
  (isMark : isQuote mark = true) (alike : PassAlike mark first second)
include isMark alike

/--
A link is read alike with both texts of a string in it if its name is, as far as the name keeps the
string.
-/
theorem PassAlike.linkSegments?_eq
    {nameSegment? : List Char → Option Segment}
    (sameSegment : ∀ kept indexes other,
      splitGroups? (before ++ (quoted mark first ++ last)) = some (before ++ mark :: kept, indexes) →
        nameSegment? (before ++ mark :: kept) = nameSegment? (before ++ mark :: other))
    (trimmed : Text.trimEnd last = last) :
    linkSegments? nameSegment? (before ++ (quoted mark first ++ last)) =
      linkSegments? nameSegment? (before ++ (quoted mark second ++ last)) := by
  rw [Signature.linkSegments?_eq, Signature.linkSegments?_eq]
  rcases alike.alike_strip? isMark before trimmed with same |
    ⟨kept, other, indexes, isFirst, isSecond⟩
  · rw [same]
  · have isName : ∀ rest : List Char,
        (rest ++ mark :: before.reverse).reverse = before ++ mark :: rest.reverse := by
      simp
    have isSplit : splitGroups? (before ++ (quoted mark first ++ last)) =
        some (before ++ mark :: kept.reverse, indexes) := by
      rw [splitGroups?, ← List.length_reverse, ← strip?, isFirst, Option.map_some]
      dsimp only
      rw [isName]
    rw [isFirst, isSecond, Option.bind_some, Option.bind_some]
    dsimp only
    rw [isName, isName, sameSegment _ _ other.reverse isSplit]

/-- In the links behind the head, both texts of a string are read alike. -/
theorem PassAlike.linkSegments?_callSegment?
    (trimmed : Text.trimEnd last = last) :
    linkSegments? callSegment? (before ++ (quoted mark first ++ last)) =
      linkSegments? callSegment? (before ++ (quoted mark second ++ last)) := by
  refine alike.linkSegments?_eq isMark (fun kept _ other _ => ?_) trimmed
  rw [callSegment?_of_mem isMark (List.mem_append_right before List.mem_cons_self),
    callSegment?_of_mem isMark (List.mem_append_right before List.mem_cons_self)]

/--
A chain is read alike with both texts of a string in it, unless it begins with a number or a global
variable that keeps the string.
-/
theorem PassAlike.readChars?_eq
    (firstIn : isContent mark first = true)
    (secondIn : isContent mark second = true)
    (isOpen : openBehind? 0 none before = some (depth, none))
    (keepsNone : KeepsNoString (before ++ (quoted mark first ++ after))) :
    readChars? (before ++ (quoted mark first ++ after)) =
      readChars? (before ++ (quoted mark second ++ after)) := by
  have notEmpty : ∀ content, Text.trim (before ++ (quoted mark content ++ after)) ≠ [] := by
    intro content
    rw [trim_quoted isMark]
    simp [quoted]
  rw [Signature.readChars?_eq (notEmpty first), Signature.readChars?_eq (notEmpty second)]
  unfold KeepsNoString headName? at keepsNone
  rw [trim_quoted isMark] at keepsNone ⊢
  rw [trim_quoted isMark]
  rw [← openBehind?_trimStart] at isOpen
  rcases exists_links_around isMark isOpen (Text.trimEnd after) with nothing |
    ⟨earlier, front, last, later, trimmed, links⟩
  · rw [nothing first firstIn, nothing second secondIn]
  · rw [links first firstIn] at keepsNone ⊢
    rw [links second secondIn, Option.bind_some, Option.bind_some]
    have sameEmpty : (front ++ (quoted mark first ++ last)).isEmpty =
        (front ++ (quoted mark second ++ last)).isEmpty := by
      cases front <;> rfl
    refine readLinks?_congr sameEmpty (fun isHead => ?_)
      (alike.linkSegments?_callSegment? isMark trimmed)
    subst isHead
    refine alike.linkSegments?_eq isMark (fun kept indexes other isName => ?_) trimmed
    refine headSegment?_append_mark isMark (fun c begins => ?_) kept other
    obtain ⟨rest, rfl⟩ := List.head?_eq_some_iff.mp begins
    have isHeadName : (((some ([] ++ (c :: rest ++ (quoted mark first ++ last)) :: later)).bind
        List.head?).bind fun link => (splitGroups? link).map Prod.fst) =
          some (c :: (rest ++ mark :: kept)) := by
      simpa using congrArg (Option.map Prod.fst) isName
    have inRest : mark ∈ rest ++ mark :: kept := List.mem_append_right rest List.mem_cons_self
    have notNumber : ¬(c.isDigit = true ∨ c = '$') := by
      intro isNumber
      have notMark := keepsNone c _ isHeadName isNumber mark inRest
      rw [isMark] at notMark
      cases notMark
    simpa [not_or] using notNumber

end Strings

end TagCheck.Signature
