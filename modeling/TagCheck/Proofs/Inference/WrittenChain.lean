import TagCheck.Proofs.Inference.Groups
import TagCheck.Proofs.Outline.Path

namespace TagCheck

/-!
# Chains of calls as they are written

A chain begins with `self`, a literal, a word, a path of constants or a variable, and goes on with
calls behind points, some of them safe.  Behind every name may stand groups: arguments, blocks and
index accesses, with anything nested in them but quotation marks.  Every such text is read as the
segments of the chain.
-/

namespace Text

/-- What begins a word is no digit. -/
theorem isDigit_of_isLetter
    {c : Char}
    (letter : isLetter c = true) :
    c.isDigit = false := by
  have noLetter : ∀ code ∈ List.range' 48 10, isLetter (Char.ofNat code) = false := by
    decide
  rw [Bool.eq_false_iff]
  intro isDigit
  obtain ⟨least, greatest⟩ := Char.isDigit_iff_toNat.mp isDigit
  have notLetter := noLetter c.toNat (List.mem_range'_1.mpr ⟨least, Nat.lt_succ_of_le greatest⟩)
  rw [Char.ofNat_toNat, letter] at notLetter
  cases notLetter

end Text

namespace Signature

/-- Letters, numbers and underscores, with no number in front. -/
structure Identifier where
  first : Char
  rest : List Char
  begins : (Text.isLetter first || first == '_') = true
  goesOn : rest.all Text.isWordChar = true

/-- The name of a constant begins with a capital letter. -/
structure ConstantName extends Identifier where
  isCapital : first.isUpper = true

/-- The name of a method: an identifier with one of the marks behind it, or with none. -/
structure MethodName extends Identifier where
  mark : List Char
  isMark : mark ∈ [[], ['?'], ['!'], ['=']]

def Identifier.chars (name : Identifier) : List Char :=
  name.first :: name.rest

def MethodName.chars (name : MethodName) : List Char :=
  name.toIdentifier.chars ++ name.mark

/-- The names of constants, from the outermost inwards, with double colons between them. -/
def relativePath
    (outermost : ConstantName)
    (inner : List ConstantName) :
    List Char :=
  ConstantPath.joinedChars (outermost.chars :: inner.map (·.chars))

/-- What stands in front of the first point of a chain, without its groups. -/
inductive WrittenHead where
  | selfReference
  | nil
  | truth (value : Bool)
  | word (name : MethodName) (notKeyword : isKeyword name.chars = false)
      (notCapital : name.first.isUpper = false)
  | constant (isAbsolute : Bool) (outermost : ConstantName) (inner : List ConstantName)
  | instanceVariable (name : Identifier)
  | classVariable (name : Identifier)
  | globalVariable (name : Identifier)

/-- A call behind a point, with its groups. -/
structure WrittenCall where
  isSafe : Bool
  name : MethodName
  groups : List Group

/-- A chain of calls in which groups may stand behind every name. -/
structure WrittenChain where
  head : WrittenHead
  groups : List Group
  calls : List WrittenCall

namespace WrittenHead

def chars : WrittenHead → List Char
  | selfReference => "self".toList
  | nil => "nil".toList
  | truth value => (if value then "true" else "false").toList
  | word name _ _ => name.chars
  | constant isAbsolute outermost inner =>
      (if isAbsolute then "::" else "").toList ++ relativePath outermost inner
  | instanceVariable name => '@' :: name.chars
  | classVariable name => '@' :: '@' :: name.chars
  | globalVariable name => '$' :: name.chars

/-- The segment that a head is read as. -/
def segment (head : WrittenHead) : Segment :=
  match head with
  | selfReference => .selfReference
  | nil => .literal "NilClass"
  | truth _ => .literal "Boolean"
  | word .. => .word (String.ofList head.chars)
  | constant .. => .constant (String.ofList head.chars)
  | instanceVariable _ => .instanceVariable (String.ofList head.chars)
  | classVariable _ => .classVariable (String.ofList head.chars)
  | globalVariable _ => .globalVariable (String.ofList head.chars)

end WrittenHead

namespace WrittenCall

/-- What stands behind the point of a call. -/
def link (call : WrittenCall) : List Char :=
  linkChars call.name.chars call.groups

/-- The point of a call, with the mark of a safe one before it. -/
def point (call : WrittenCall) : List Char :=
  if call.isSafe then ['&', '.'] else ['.']

def chars (call : WrittenCall) : List Char :=
  call.point ++ call.link

/-- The segments that a call is read as. -/
def segments (call : WrittenCall) : List Segment :=
  .word (String.ofList call.name.chars) :: indexes call.groups

end WrittenCall

namespace WrittenChain

/-- What stands in front of the first point of a chain. -/
def link (chain : WrittenChain) : List Char :=
  linkChars chain.head.chars chain.groups

/-- A chain as it stands in code. -/
def text (chain : WrittenChain) : String :=
  String.ofList (chain.link ++ chain.calls.flatMap WrittenCall.chars)

/-- The segments of a chain. -/
def segments (chain : WrittenChain) : List Segment :=
  chain.head.segment :: indexes chain.groups ++ chain.calls.flatMap WrittenCall.segments

end WrittenChain

section Names

variable {c : Char} (isWordChar : Text.isWordChar c = true)
include isWordChar

theorem notMem_of_isWordChar : c ∉ ['.', '&', '@', '$', ':', '?', '!', '='] ++ marks := by
  intro isMark
  have noneIsWordChar : (['.', '&', '@', '$', ':', '?', '!', '='] ++ marks).all
      (fun mark => !Text.isWordChar mark) = true := by
    decide +kernel
  have notWordChar := List.all_eq_true.mp noneIsWordChar c isMark
  rw [isWordChar] at notWordChar
  cases notWordChar

theorem isLinkChar_of_isWordChar : isLinkChar c = true := by
  have noMark := notMem_of_isWordChar isWordChar
  have unblank : Text.isBlank c = false := by
    refine Bool.eq_false_iff.mpr fun isBlank => ?_
    rw [Text.isWordChar_of_isBlank isBlank] at isWordChar
    cases isWordChar
  simp only [marks, List.mem_append, List.mem_cons, List.not_mem_nil, or_false, not_or] at noMark
  simp [isLinkChar_iff, isQuote, isOpening, isClosing, noMark, unblank]

theorem isNameSuffix_of_isWordChar : isNameSuffix c = false := by
  have noMark := notMem_of_isWordChar isWordChar
  simp only [List.mem_append, List.mem_cons, not_or] at noMark
  simp [isNameSuffix, noMark]

end Names

namespace Identifier

variable (name : Identifier)

theorem isWordChar_of_mem :
    ∀ c ∈ name.chars, Text.isWordChar c = true := by
  intro c member
  rcases List.mem_cons.mp member with rfl | member
  · rcases Bool.or_eq_true_iff.mp name.begins with isLetter | isUnderscore
    · rw [Text.isWordChar, isLetter, Bool.true_or, Bool.true_or]
    · rw [Text.isWordChar, isUnderscore, Bool.or_true]
  · exact List.all_eq_true.mp name.goesOn c member

theorem isWordChar_first : Text.isWordChar name.first = true :=
  name.isWordChar_of_mem name.first List.mem_cons_self

theorem isDigit_first : name.first.isDigit = false := by
  rcases Bool.or_eq_true_iff.mp name.begins with isLetter | isUnderscore
  · exact Text.isDigit_of_isLetter isLetter
  · rw [beq_iff_eq.mp isUnderscore]
    rfl

theorem isLink : IsLink name.chars where
  notEmpty := List.cons_ne_nil _ _
  areLinkChars := List.all_eq_true.mpr fun c member =>
    isLinkChar_of_isWordChar (name.isWordChar_of_mem c member)

/-- An identifier is a name, and stays one with a mark behind it. -/
theorem isName_append
    {mark : List Char}
    (isMark : mark ∈ [[], ['?'], ['!'], ['=']]) :
    isName (name.chars ++ mark) = true := by
  obtain ⟨isSuffix, isShort⟩ : mark.reverse.all isNameSuffix = true ∧ mark.length ≤ 1 := by
    revert mark
    decide
  have stays : name.chars.reverse.dropWhile isNameSuffix = name.chars.reverse := by
    rw [List.dropWhile_eq_self_iff]
    intro notEmpty
    rw [isNameSuffix_of_isWordChar
      (name.isWordChar_of_mem _ (List.mem_reverse.mp (List.getElem_mem notEmpty)))]
    exact Bool.false_ne_true
  have isBody : ((name.chars ++ mark).reverse.dropWhile isNameSuffix).reverse = name.chars := by
    rw [List.reverse_append, List.dropWhile_append_of_pos (List.all_eq_true.mp isSuffix), stays,
      List.reverse_reverse]
  have areWordChars : name.chars.all Text.isWordChar = true :=
    List.all_eq_true.mpr name.isWordChar_of_mem
  simp only [isName, isBody, List.length_append, areWordChars, Bool.and_true, Bool.and_eq_true,
    decide_eq_true_eq]
  exact ⟨by omega, name.begins⟩

theorem isName_chars : isName name.chars = true := by
  simpa using name.isName_append List.mem_cons_self

/-- An identifier without a capital letter in front begins as words do. -/
theorem beginsWord_first
    (notCapital : name.first.isUpper = false) :
    ChainHead.beginsWord name.first = true := by
  have noMark := notMem_of_isWordChar name.isWordChar_first
  simp only [List.mem_append, List.mem_cons, not_or] at noMark
  simp [ChainHead.beginsWord, notCapital, name.isDigit_first, noMark]

end Identifier

namespace ConstantName

variable (name : ConstantName)

theorem isConstantName_chars : isConstantName name.chars = true := by
  rw [isConstantName, name.isName_chars, Bool.and_true]
  exact name.isCapital

theorem colon_notMem : ':' ∉ name.chars :=
  fun member => notMem_of_isWordChar (name.isWordChar_of_mem ':' member) (by decide)

end ConstantName

namespace MethodName

variable (name : MethodName)

theorem isName_chars : isName name.chars = true :=
  name.isName_append name.isMark

theorem isCallName : IsCallName name.chars where
  notEmpty := List.cons_ne_nil _ _
  areLinkChars := by
    have areLinkChars : name.mark.all isLinkChar = true := by
      have ofMarks : ∀ mark ∈ [[], ['?'], ['!'], ['=']], mark.all isLinkChar = true := by
        decide
      exact ofMarks name.mark name.isMark
    rw [chars, List.all_append, name.isLink.areLinkChars, areLinkChars]
    rfl
  notNumber := name.isDigit_first

theorem callSegment?_chars :
    callSegment? name.chars = some (.word (String.ofList name.chars)) := by
  rw [callSegment?, if_pos name.isName_chars]

end MethodName

section Paths

variable (outermost : ConstantName) (inner : List ConstantName)

theorem exists_relativePath :
    ∃ rest, relativePath outermost inner = outermost.first :: rest := by
  rw [relativePath, Identifier.chars, ConstantPath.joinedChars_cons]
  exact ⟨_, rfl⟩

theorem isLink_relativePath : IsLink (relativePath outermost inner) where
  notEmpty := by
    obtain ⟨rest, isText⟩ := exists_relativePath outermost inner
    exact isText ▸ List.cons_ne_nil _ _
  areLinkChars := by
    induction inner generalizing outermost with
    | nil =>
        rw [relativePath, List.map_nil, ConstantPath.joinedChars_singleton]
        exact outermost.isLink.areLinkChars
    | cons name inner inductionHypothesis =>
        have areLinkChars := inductionHypothesis name
        rw [relativePath] at areLinkChars
        rw [relativePath, List.map_cons, ConstantPath.joinedChars_cons_cons, List.all_append,
          outermost.isLink.areLinkChars, List.all_cons, List.all_cons, areLinkChars]
        decide

/-- The double colons in front of an absolute path are dropped, and no others. -/
theorem dropColonPairs_relativePath
    (isAbsolute : Bool) :
    Text.dropColonPairs ((if isAbsolute then "::" else "").toList ++ relativePath outermost inner) =
      relativePath outermost inner := by
  have keeps : Text.dropColonPairs (relativePath outermost inner) =
      relativePath outermost inner := by
    obtain ⟨rest, isText⟩ := exists_relativePath outermost inner
    rw [isText]
    refine Text.dropColonPairs.eq_2 _ fun others isColons => ?_
    have isColon := (List.cons.inj isColons).1
    exact absurd (isColon ▸ outermost.isCapital) (by decide)
  cases isAbsolute with
  | false =>
      exact keeps
  | true =>
      exact keeps

theorem all_isConstantName_relativePath :
    (ConstantPath.partsOfChars (relativePath outermost inner)).all isConstantName = true := by
  have noColon : ∀ name ∈ outermost.chars :: inner.map (·.chars), ':' ∉ name := by
    rw [← List.map_cons (f := fun name : ConstantName => name.chars)]
    intro chars member
    obtain ⟨name, -, rfl⟩ := List.mem_map.mp member
    exact name.colon_notMem
  rw [relativePath, ConstantPath.partsOfChars_joinedChars_of_noColon noColon,
    ← List.map_cons (f := fun name : ConstantName => name.chars), List.all_map, List.all_eq_true]
  exact fun name _ => name.isConstantName_chars

end Paths

namespace WrittenHead

theorem isLink
    (head : WrittenHead) :
    IsLink head.chars := by
  have marked : ∀ (front : List Char) (name : Identifier), front.all isLinkChar = true →
      IsLink (front ++ name.chars) := by
    intro front name areLinkChars
    refine ⟨by simp [Identifier.chars], ?_⟩
    rw [List.all_append, areLinkChars, name.isLink.areLinkChars]
    rfl
  cases head with
  | selfReference =>
      exact ⟨by decide, by decide⟩
  | nil =>
      exact ⟨by decide, by decide⟩
  | truth value =>
      cases value <;> exact ⟨by decide, by decide⟩
  | word name =>
      exact name.isCallName.toIsLink
  | constant isAbsolute outermost inner =>
      have isLink := isLink_relativePath outermost inner
      refine ⟨List.append_ne_nil_of_right_ne_nil _ isLink.notEmpty, ?_⟩
      rw [chars, List.all_append, isLink.areLinkChars, Bool.and_true]
      cases isAbsolute <;> decide
  | instanceVariable name =>
      exact marked ['@'] name (by decide)
  | classVariable name =>
      exact marked ['@', '@'] name (by decide)
  | globalVariable name =>
      exact marked ['$'] name (by decide)

theorem begins_constant
    (isAbsolute : Bool)
    (outermost : ConstantName)
    (inner : List ConstantName) :
    ((constant isAbsolute outermost inner).chars.head?.map Char.isUpper).getD false = true ∨
      "::".toList.isPrefixOf (constant isAbsolute outermost inner).chars = true := by
  cases isAbsolute with
  | false =>
      obtain ⟨rest, isText⟩ := exists_relativePath outermost inner
      refine .inl ?_
      simp [chars, isText, outermost.isCapital]
  | true =>
      exact .inr rfl

/-- What begins a chain without groups is read as its segment if its names are known. -/
theorem headSegment?_of_plain
    {head : ChainHead}
    {chars : List Char}
    (isText : head.text = String.ofList chars)
    (plain : head.IsPlain)
    (isReadable : head.isReadable = true) :
    headSegment? chars = some head.segment := by
  have isRead := ChainHead.headSegment?_text plain
  rwa [isText, String.toList_ofList, if_pos isReadable] at isRead

theorem headSegment?_chars
    (head : WrittenHead) :
    headSegment? head.chars = some head.segment := by
  cases head with
  | selfReference =>
      decide
  | nil =>
      decide
  | truth value =>
      cases value <;> decide
  | word name notKeyword notCapital =>
      have isText : (ChainHead.word (String.ofList name.chars)).text = String.ofList name.chars :=
        rfl
      have plain : (ChainHead.word (String.ofList name.chars)).IsPlain := by
        rw [ChainHead.IsPlain, String.toList_ofList]
        exact ⟨name.isCallName.toIsLink, notKeyword, name.beginsWord_first notCapital⟩
      exact headSegment?_of_plain isText plain (by simp [ChainHead.isReadable, name.isName_chars])
  | constant isAbsolute outermost inner =>
      obtain ⟨path, isText⟩ : ∃ path, (ChainHead.constant path).text =
          String.ofList (constant isAbsolute outermost inner).chars := ⟨_, rfl⟩
      have isPath : path.toList = (constant isAbsolute outermost inner).chars := by
        rw [← String.toList_ofList (l := (constant isAbsolute outermost inner).chars), ← isText]
        rfl
      have plain : (ChainHead.constant path).IsPlain := by
        rw [ChainHead.IsPlain, isPath]
        exact ⟨isLink _, begins_constant isAbsolute outermost inner⟩
      have isKnown : (ChainHead.constant path).isReadable = true := by
        rw [ChainHead.isReadable, isPath, chars, dropColonPairs_relativePath,
          all_isConstantName_relativePath]
      rw [headSegment?_of_plain isText plain isKnown, ChainHead.segment, isText]
      rfl
  | instanceVariable name =>
      have isText : (ChainHead.instanceVariable (String.ofList name.chars)).text =
          String.ofList ('@' :: name.chars) := by
        simp [ChainHead.text]
      have notAt : name.first ≠ '@' := by
        intro isAt
        exact notMem_of_isWordChar name.isWordChar_first (by simp [isAt])
      have plain : (ChainHead.instanceVariable (String.ofList name.chars)).IsPlain := by
        rw [ChainHead.IsPlain, String.toList_ofList]
        exact ⟨name.isLink, by simpa [Identifier.chars] using notAt⟩
      rw [chars, headSegment?_of_plain isText plain
        (by simp [ChainHead.isReadable, name.isName_chars]), ChainHead.segment, isText]
      rfl
  | classVariable name =>
      have isText : (ChainHead.classVariable (String.ofList name.chars)).text =
          String.ofList ('@' :: '@' :: name.chars) := by
        simp [ChainHead.text, ← String.toList_inj]
      rw [chars, headSegment?_of_plain isText (by simpa [ChainHead.IsPlain] using name.isLink)
        (by simp [ChainHead.isReadable, name.isName_chars]), ChainHead.segment, isText]
      rfl
  | globalVariable name =>
      have isText : (ChainHead.globalVariable (String.ofList name.chars)).text =
          String.ofList ('$' :: name.chars) := by
        simp [ChainHead.text]
      rw [chars, headSegment?_of_plain isText (by simpa [ChainHead.IsPlain] using name.isLink) rfl,
        ChainHead.segment, isText]
      rfl

end WrittenHead

section Calls

variable {name : List Char} {groups : List Group} (isLink : IsLink name)
include isLink

/-- A call ends the link before its point. -/
theorem splitLinks_call
    (call : WrittenCall)
    (rest : List Char) :
    splitLinks 0 none (linkChars name groups).reverse (call.chars ++ rest) =
      (splitLinks 0 none [] (call.link ++ rest)).map (linkChars name groups :: ·) := by
  have notDecimal : ((call.link ++ rest).head?.map Char.isDigit).getD false = false :=
    call.name.isDigit_first
  cases isSafe : call.isSafe with
  | false =>
      have isText : call.chars ++ rest = '.' :: (call.link ++ rest) := by
        simp [WrittenCall.chars, WrittenCall.point, isSafe]
      rw [isText, splitLinks_point notDecimal, endLink_reverse_linkChars isLink]
  | true =>
      have isText : call.chars ++ rest = '&' :: '.' :: (call.link ++ rest) := by
        simp [WrittenCall.chars, WrittenCall.point, isSafe]
      -- The mark of a safe call is read into the link, and dropped when the point ends it.
      rw [isText, splitLinks_of_notMem_marks (by decide) (by decide), splitLinks_point notDecimal,
        endLink, List.reverse_reverse, trim_linkChars isLink]

/-- The links of a chain are found again. -/
theorem splitLinks_calls
    (calls : List WrittenCall) :
    splitLinks 0 none [] (linkChars name groups ++ calls.flatMap WrittenCall.chars) =
      some (linkChars name groups :: calls.map WrittenCall.link) := by
  -- What has been read when the next point comes is the whole link before it, first the head with
  -- its groups and then call after call.
  rw [splitLinks_linkChars isLink, List.append_nil]
  induction calls generalizing name groups with
  | nil =>
      rw [List.flatMap_nil, splitLinks, List.reverse_reverse, trim_linkChars isLink]
      rfl
  | cons call calls inductionHypothesis =>
      have isCall := call.name.isCallName.toIsLink
      rw [List.flatMap_cons, splitLinks_call isLink, WrittenCall.link, splitLinks_linkChars isCall,
        List.append_nil, inductionHypothesis isCall]
      rfl

/-- A chain neither begins nor ends with white space. -/
theorem trim_calls
    (calls : List WrittenCall) :
    Text.trim (linkChars name groups ++ calls.flatMap WrittenCall.chars) =
      linkChars name groups ++ calls.flatMap WrittenCall.chars := by
  cases calls using List.reverseRecOn with
  | nil =>
      rw [List.flatMap_nil, List.append_nil, trim_linkChars isLink]
  | append_singleton calls call =>
      have isText : linkChars name groups ++ (calls ++ [call]).flatMap WrittenCall.chars =
          linkChars name groups ++ (calls.flatMap WrittenCall.chars ++ call.point) ++
            linkChars call.name.chars call.groups := by
        simp [WrittenCall.chars, WrittenCall.link]
      rw [isText]
      refine trim_append_linkChars call.name.isCallName.toIsLink fun c isFirst => ?_
      rw [List.append_assoc] at isFirst
      exact isBlank_of_head?_linkChars isLink _ isFirst

end Calls

theorem mapM_linkSegments?_calls
    (calls : List WrittenCall) :
    (calls.map WrittenCall.link).mapM (linkSegments? callSegment?) =
      some (calls.map WrittenCall.segments) := by
  induction calls with
  | nil =>
      rfl
  | cons call calls inductionHypothesis =>
      rw [List.map_cons, List.mapM_cons, inductionHypothesis, WrittenCall.link,
        linkSegments?_linkChars call.name.isCallName.toIsLink, call.name.callSegment?_chars]
      rfl

/-- The text of a chain is read as its segments. -/
theorem WrittenChain.read?_eq_some_segments
    (chain : WrittenChain) :
    Signature.read? chain.text = some chain.segments := by
  have isHead := chain.head.isLink
  have notEmpty : linkChars chain.head.chars chain.groups ++
      chain.calls.flatMap WrittenCall.chars ≠ [] := by
    simp [linkChars, isHead.notEmpty]
  have noneEmpty : (linkChars chain.head.chars chain.groups ::
      chain.calls.map WrittenCall.link).any (·.isEmpty) = false := by
    rw [List.any_cons, isEmpty_linkChars isHead, List.any_map, Bool.false_or, List.any_eq_false]
    intro call _
    simp [WrittenCall.link, isEmpty_linkChars call.name.isCallName.toIsLink]
  rw [Signature.read?, WrittenChain.text, String.toList_ofList, readChars?, WrittenChain.link,
    trim_calls isHead]
  split
  · next isEmpty =>
      exact absurd isEmpty notEmpty
  · rw [splitLinks_calls isHead]
    simp only [noneEmpty, Bool.false_eq_true, if_false, linkSegments?_linkChars isHead,
      chain.head.headSegment?_chars, mapM_linkSegments?_calls]
    rw [WrittenChain.segments, List.flatMap_def]
    rfl

namespace NestedGroups

/-- The arguments `(1, bar(2))`. -/
def arguments : Group where
  gap := []
  bracket := .round
  inside := ['1', ',', ' ', 'b', 'a', 'r', '(', '2', ')']
  isGap := List.forall_mem_nil _
  isNested := by
    have inner : IsNested ['(', '2', ')'] := .group .round (.character (by decide) .nothing) .nothing
    iterate 6 apply IsNested.character (by decide)
    exact inner

/-- The block ` { |x| x.y }`. -/
def block : Group where
  gap := [' ']
  bracket := .curly
  inside := ['|', 'x', '|', ' ', 'x', '.', 'y']
  isGap := List.forall_mem_singleton.mpr rfl
  isNested := by
    iterate 7 apply IsNested.character (by decide)
    exact .nothing

/-- The index access `[0]`. -/
def access : Group where
  gap := []
  bracket := .square
  inside := ['0']
  isGap := List.forall_mem_nil _
  isNested := .character (by decide) .nothing

def wordFoo : MethodName :=
  ⟨⟨'f', ['o', 'o'], by decide, by decide⟩, [], by decide⟩

def wordQux : MethodName :=
  ⟨⟨'q', ['u', 'x'], by decide, by decide⟩, ['?'], by decide⟩

/-- A chain with groups behind each of its names. -/
def chain : WrittenChain where
  head := .word wordFoo (by decide) (by decide)
  groups := [arguments]
  calls := [⟨true, wordQux, [access, block]⟩]

/-- Only the index access among the groups leaves a segment. -/
theorem read?_chain :
    Signature.read? "foo(1, bar(2))&.qux?[0] \x7b|x| x.y\x7d" =
      some [.word "foo", .word "qux?", .index] := by
  have isText : chain.text = "foo(1, bar(2))&.qux?[0] \x7b|x| x.y\x7d" := by
    decide +kernel
  have areSegments : chain.segments = [.word "foo", .word "qux?", .index] := by
    decide +kernel
  rw [← isText, ← areSegments]
  exact chain.read?_eq_some_segments

end NestedGroups

end Signature

end TagCheck
