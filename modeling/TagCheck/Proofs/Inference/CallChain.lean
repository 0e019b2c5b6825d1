import Mathlib.Data.List.TakeWhile
import TagCheck.Inference.Signature
import TagCheck.Proofs.Text.Trimming

namespace TagCheck

/-!
# Chains of calls and their text

A chain of calls without arguments begins with `self`, a path of constants, a variable or a word.
Its text is read back as its segments as long as the names in it are made of letters, digits and
underscores; with any other name in it the text is no signature.
-/

/-- What a chain of calls begins with.  The names of variables stand without their marks. -/
inductive ChainHead where
  | selfReference
  | constant (path : String)
  | instanceVariable (name : String)
  | classVariable (name : String)
  | globalVariable (name : String)
  | word (name : String)
  deriving Repr, DecidableEq

/-- A chain of calls without arguments. -/
structure CallChain where
  head : ChainHead
  /-- The methods that are called one after the other. -/
  names : List String
  deriving Repr, DecidableEq

namespace ChainHead

def text : ChainHead → String
  | .selfReference => "self"
  | .constant path => path
  | .instanceVariable name => "@" ++ name
  | .classVariable name => "@@" ++ name
  | .globalVariable name => "$" ++ name
  | .word name => name

/-- The segment that a head is read as. -/
def segment (head : ChainHead) : Segment :=
  match head with
  | .selfReference => .selfReference
  | .constant _ => .constant head.text
  | .instanceVariable _ => .instanceVariable head.text
  | .classVariable _ => .classVariable head.text
  | .globalVariable _ => .globalVariable head.text
  | .word _ => .word head.text

/-- The names in a head are among those that signatures know. -/
def isReadable : ChainHead → Bool
  | .selfReference | .globalVariable _ => true
  | .constant path =>
      (ConstantPath.partsOfChars (Text.dropColonPairs path.toList)).all Signature.isConstantName
  | .instanceVariable name | .classVariable name | .word name => Signature.isName name.toList

end ChainHead

namespace CallChain

/-- A chain as it stands in code. -/
def text (chain : CallChain) : String :=
  ".".intercalate (chain.head.text :: chain.names)

/-- The segments of a chain. -/
def segments (chain : CallChain) : List Segment :=
  chain.head.segment :: chain.names.map .word

/-- All names in a chain are among those that signatures know. -/
def isReadable (chain : CallChain) : Bool :=
  chain.head.isReadable && chain.names.all fun name => Signature.isName name.toList

end CallChain

namespace Signature

/-- Characters inside a link: all but those that end it, that open a group, and white space. -/
def isLinkChar (c : Char) : Bool :=
  !(isQuote c || isOpening c || isClosing c || c == '.' || c == '&' || Text.isBlank c)

/-- A text that is one link of a chain, and nothing else. -/
structure IsLink (text : List Char) : Prop where
  notEmpty : text ≠ []
  areLinkChars : text.all isLinkChar = true

theorem isLinkChar_iff
    {c : Char} :
    isLinkChar c = true ↔
      isQuote c = false ∧ isOpening c = false ∧ isClosing c = false ∧ c ≠ '.' ∧ c ≠ '&' ∧
        Text.isBlank c = false := by
  simp [isLinkChar, and_assoc]

section Characters

variable {c : Char} (inLink : isLinkChar c = true)
include inLink

theorem isBlank_of_isLinkChar : Text.isBlank c = false := by
  obtain ⟨-, -, -, -, -, notBlank⟩ := isLinkChar_iff.mp inLink
  exact notBlank

theorem openingOf?_of_isLinkChar : openingOf? c = none := by
  obtain ⟨-, -, notClosing, -⟩ := isLinkChar_iff.mp inLink
  unfold openingOf?
  split <;> first | rfl | cases notClosing

/-- A character of a link is read into the link. -/
theorem splitLinks_cons
    (link rest : List Char) :
    splitLinks 0 none link (c :: rest) = splitLinks 0 none (c :: link) rest := by
  obtain ⟨notQuote, notOpening, notClosing, notPoint, -⟩ := isLinkChar_iff.mp inLink
  rw [splitLinks]
  simp [notQuote, notOpening, notClosing, notPoint]

end Characters

namespace IsLink

variable {text : List Char}

theorem isLinkChar
    (isLink : IsLink text) :
    ∀ c ∈ text, isLinkChar c = true :=
  List.all_eq_true.mp isLink.areLinkChars

theorem trim_eq
    (isLink : IsLink text) :
    Text.trim text = text :=
  Text.trim_eq_self fun c member => isBlank_of_isLinkChar (isLink.isLinkChar c member)

/-- A link that a point ends stays as it is. -/
theorem endLink_reverse
    (isLink : IsLink text) :
    endLink text.reverse = text := by
  unfold endLink
  split
  · next link isReverse =>
      have member : '&' ∈ text := by
        rw [← List.mem_reverse, isReverse]
        exact List.mem_cons_self
      exact absurd (isLink.isLinkChar '&' member) (by decide)
  · rw [List.reverse_reverse, isLink.trim_eq]

theorem exists_reverse
    (isLink : IsLink text) :
    ∃ last others, text.reverse = last :: others ∧ Signature.isLinkChar last = true := by
  have notEmpty : text.reverse ≠ [] := mt List.reverse_eq_nil_iff.mp isLink.notEmpty
  obtain ⟨last, others, isReverse⟩ := List.exists_cons_of_ne_nil notEmpty
  have member : last ∈ text := by
    rw [← List.mem_reverse, isReverse]
    exact List.mem_cons_self
  exact ⟨last, others, isReverse, isLink.isLinkChar last member⟩

/-- A link has no groups behind its name. -/
theorem splitGroups?_eq
    (isLink : IsLink text) :
    splitGroups? text = some (text, 0) := by
  obtain ⟨last, others, isReverse, isLinkChar⟩ := isLink.exists_reverse
  have length : text.length = others.length + 1 := by
    rw [← List.length_reverse, isReverse, List.length_cons]
  rw [splitGroups?, length, isReverse, stripGroups?, openingOf?_of_isLinkChar isLinkChar]
  simp [← isReverse]

theorem linkSegments?_eq
    (isLink : IsLink text)
    (nameSegment? : List Char → Option Segment) :
    linkSegments? nameSegment? text = (nameSegment? text).map ([·]) := by
  simp only [linkSegments?, isLink.splitGroups?_eq, Option.bind_eq_bind, Option.bind_some]
  cases nameSegment? text <;> rfl

end IsLink

/-- A text is read into the current link as far as it has only characters of links. -/
theorem splitLinks_append
    {text : List Char}
    (isLinkChar : ∀ c ∈ text, isLinkChar c = true)
    (link rest : List Char) :
    splitLinks 0 none link (text ++ rest) = splitLinks 0 none (text.reverse ++ link) rest := by
  induction text generalizing link with
  | nil =>
      rfl
  | cons c text inductionHypothesis =>
      rw [List.cons_append, splitLinks_cons (isLinkChar c List.mem_cons_self),
        inductionHypothesis fun other member => isLinkChar other (List.mem_cons_of_mem _ member),
        List.reverse_cons, List.append_assoc]
      rfl

/-- A point that no digit follows ends a link. -/
theorem splitLinks_point
    {rest : List Char}
    (notDecimal : (rest.head?.map Char.isDigit).getD false = false)
    (link : List Char) :
    splitLinks 0 none link ('.' :: rest) =
      (splitLinks 0 none [] rest).map (endLink link :: ·) := by
  rw [splitLinks]
  simp [isQuote, isOpening, isClosing, isDecimalPoint, notDecimal]

/-- The name of a method that is called: a link that does not begin with a digit. -/
structure IsCallName (text : List Char) : Prop extends IsLink text where
  notNumber : (text.head?.map Char.isDigit).getD false = false

section Links

variable {head : List Char} {names : List (List Char)}

theorem head?_joinWith
    (notEmpty : head ≠ []) :
    (Text.joinWith ['.'] (head :: names)).head? = head.head? := by
  obtain ⟨first, others, rfl⟩ := List.exists_cons_of_ne_nil notEmpty
  cases names <;> simp [Text.joinWith, List.intercalate]

variable (isHead : IsLink head) (areNames : ∀ name ∈ names, IsCallName name)
include isHead areNames

/-- The links between points are found again. -/
theorem splitLinks_joinWith :
    splitLinks 0 none [] (Text.joinWith ['.'] (head :: names)) = some (head :: names) := by
  induction names generalizing head with
  | nil =>
      have isText : Text.joinWith ['.'] [head] = head ++ [] := by
        simp [Text.joinWith, List.intercalate]
      rw [isText, splitLinks_append isHead.isLinkChar, splitLinks]
      simp [isHead.trim_eq]
  | cons name rest inductionHypothesis =>
      have isName := areNames name List.mem_cons_self
      have isText : Text.joinWith ['.'] (head :: name :: rest) =
          head ++ '.' :: Text.joinWith ['.'] (name :: rest) := by
        simp [Text.joinWith, List.intercalate_cons_cons]
      have notDecimal :
          ((Text.joinWith ['.'] (name :: rest)).head?.map Char.isDigit).getD false = false := by
        rw [head?_joinWith isName.notEmpty]
        exact isName.notNumber
      have restLinks := inductionHypothesis isName.toIsLink fun other member =>
        areNames other (List.mem_cons_of_mem _ member)
      rw [isText, splitLinks_append isHead.isLinkChar, splitLinks_point notDecimal, restLinks,
        List.append_nil, isHead.endLink_reverse]
      rfl

theorem trim_joinWith :
    Text.trim (Text.joinWith ['.'] (head :: names)) = Text.joinWith ['.'] (head :: names) := by
  refine Text.trim_eq_self fun c member => ?_
  induction names generalizing head with
  | nil =>
      simp only [Text.joinWith, List.intercalate_singleton] at member
      exact isBlank_of_isLinkChar (isHead.isLinkChar c member)
  | cons name rest inductionHypothesis =>
      simp only [Text.joinWith, List.intercalate_cons_cons, List.mem_append,
        List.mem_singleton] at member
      rcases member with (inHead | rfl) | inRest
      · exact isBlank_of_isLinkChar (isHead.isLinkChar c inHead)
      · rfl
      · exact inductionHypothesis (areNames name List.mem_cons_self).toIsLink
          (fun other isOther => areNames other (List.mem_cons_of_mem _ isOther)) inRest

end Links

/-- Names without groups are read one by one, and all of them if they are known. -/
theorem mapM_linkSegments?
    {names : List (List Char)}
    (areNames : ∀ name ∈ names, IsCallName name) :
    names.mapM (linkSegments? callSegment?) =
      if names.all isName then some (names.map fun name => [.word (String.ofList name)])
      else none := by
  induction names with
  | nil =>
      rfl
  | cons name rest inductionHypothesis =>
      rw [List.mapM_cons, (areNames name List.mem_cons_self).linkSegments?_eq,
        inductionHypothesis fun other member => areNames other (List.mem_cons_of_mem _ member),
        callSegment?]
      by_cases isKnown : isName name = true <;> by_cases areKnown : rest.all isName = true <;>
        simp [isKnown, areKnown]

/-- A chain of links is read as the segments of its links. -/
theorem readChars?_joinWith
    {head : List Char}
    {names : List (List Char)}
    (isHead : IsLink head)
    (areNames : ∀ name ∈ names, IsCallName name) :
    readChars? (Text.joinWith ['.'] (head :: names)) =
      if names.all isName then
        (headSegment? head).map (· :: names.map fun name => .word (String.ofList name))
      else none := by
  have notEmpty : Text.joinWith ['.'] (head :: names) ≠ [] := by
    intro isEmpty
    have sameHead : (Text.joinWith ['.'] (head :: names)).head? = head.head? :=
      head?_joinWith isHead.notEmpty
    rw [isEmpty] at sameHead
    exact isHead.notEmpty (List.head?_eq_none_iff.mp sameHead.symm)
  have noneEmpty : (head :: names).any (·.isEmpty) = false := by
    rw [List.any_eq_false]
    intro link member
    rcases List.mem_cons.mp member with rfl | isName
    · simpa using isHead.notEmpty
    · simpa using (areNames link isName).notEmpty
  unfold readChars?
  rw [trim_joinWith isHead areNames]
  split
  · next isEmpty =>
      exact absurd isEmpty notEmpty
  · rw [splitLinks_joinWith isHead areNames]
    simp only [noneEmpty, Bool.false_eq_true, if_false, isHead.linkSegments?_eq,
      mapM_linkSegments? areNames]
    cases headSegment? head <;> by_cases areKnown : names.all isName = true <;>
      simp [areKnown, ← List.flatMap_def, ← List.map_eq_flatMap]

/-- A text that begins with none of the marks of variables is none. -/
theorem markedVariable?_eq_none
    {text : List Char}
    (notInstance : text.head? ≠ some '@')
    (notGlobal : text.head? ≠ some '$') :
    markedVariable? text = none := by
  unfold markedVariable?
  split
  · exact absurd rfl notInstance
  · exact absurd rfl notInstance
  · exact absurd rfl notGlobal
  · rfl

/-- Words that are read as `self` or as literals. -/
def isKeyword (text : List Char) : Bool :=
  ["self", "nil", "true", "false"].contains (String.ofList text)

section Heads

variable {head : List Char} (notKeyword : isKeyword head = false)
include notKeyword

theorem ne_of_not_keyword :
    String.ofList head ≠ "self" ∧ String.ofList head ≠ "nil" ∧ String.ofList head ≠ "true" ∧
      String.ofList head ≠ "false" := by
  simpa [isKeyword] using notKeyword

theorem headSegment?_of_marked
    {segment : Option Segment}
    (marked : markedVariable? head = some segment) :
    headSegment? head = segment := by
  obtain ⟨notSelf, notNil, notTrue, notFalse⟩ := ne_of_not_keyword notKeyword
  unfold headSegment?
  split
  case h_5 =>
    rw [marked]
  all_goals contradiction

theorem headSegment?_of_constant
    (unmarked : markedVariable? head = none)
    (isConstant : (head.head?.map Char.isUpper).getD false = true ∨
      "::".toList.isPrefixOf head = true) :
    headSegment? head =
      if (ConstantPath.partsOfChars (Text.dropColonPairs head)).all isConstantName then
        some (.constant (String.ofList head))
      else none := by
  obtain ⟨notSelf, notNil, notTrue, notFalse⟩ := ne_of_not_keyword notKeyword
  unfold headSegment?
  split
  case h_5 =>
    rw [unmarked]
    cases head with
    | nil =>
        simp at isConstant
    | cons first rest =>
        have begins : (first.isUpper || "::".toList.isPrefixOf (first :: rest)) = true := by
          simpa using isConstant
        simp only [begins, if_true]
  all_goals contradiction

theorem headSegment?_of_word
    {first : Char}
    {rest : List Char}
    (isText : head = first :: rest)
    (unmarked : markedVariable? head = none)
    (notConstant : (first.isUpper || "::".toList.isPrefixOf head) = false)
    (notLiteral : literalClass? head first = none) :
    headSegment? head = if isName head then some (.word (String.ofList head)) else none := by
  obtain ⟨notSelf, notNil, notTrue, notFalse⟩ := ne_of_not_keyword notKeyword
  unfold headSegment?
  split
  case h_5 =>
    subst isText
    simp only [unmarked, notConstant, notLiteral, Bool.false_eq_true, if_false]
  all_goals contradiction

theorem headSegment?_of_literal
    {first : Char}
    {rest : List Char}
    {className : String}
    (isText : head = first :: rest)
    (unmarked : markedVariable? head = none)
    (notConstant : (first.isUpper || "::".toList.isPrefixOf head) = false)
    (isLiteral : literalClass? head first = some className) :
    headSegment? head = some (.literal className) := by
  obtain ⟨notSelf, notNil, notTrue, notFalse⟩ := ne_of_not_keyword notKeyword
  unfold headSegment?
  split
  case h_5 =>
    subst isText
    simp only [unmarked, notConstant, isLiteral, Bool.false_eq_true, if_false]
  all_goals contradiction

end Heads

end Signature

namespace ChainHead

open Signature

/-- Characters that begin a word: no capital letter, no digit and no mark. -/
def beginsWord (c : Char) : Bool :=
  !(c.isUpper || c.isDigit || c == '@' || c == '$' || c == ':')

/-- A head as the grammar builds it: its name is one link, and begins as names of its kind do. -/
def IsPlain : ChainHead → Prop
  | .selfReference => True
  | .constant path =>
      IsLink path.toList ∧
        ((path.toList.head?.map Char.isUpper).getD false = true ∨
          "::".toList.isPrefixOf path.toList = true)
  | .instanceVariable name => IsLink name.toList ∧ name.toList.head? ≠ some '@'
  | .classVariable name | .globalVariable name => IsLink name.toList
  | .word name =>
      IsLink name.toList ∧ isKeyword name.toList = false ∧
        (name.toList.head?.map beginsWord).getD false = true

/-- The text of a head is one link. -/
theorem IsPlain.isLink_text
    {head : ChainHead}
    (plain : head.IsPlain) :
    IsLink head.text.toList := by
  cases head with
  | selfReference =>
      exact ⟨by decide, by decide⟩
  | constant path =>
      exact plain.1
  | instanceVariable name =>
      exact ⟨by simp [text], by simpa [text] using ⟨rfl, plain.1.isLinkChar⟩⟩
  | classVariable name =>
      exact ⟨by simp [text], by simpa [text] using ⟨rfl, plain.isLinkChar⟩⟩
  | globalVariable name =>
      exact ⟨by simp [text], by simpa [text] using ⟨rfl, plain.isLinkChar⟩⟩
  | word name =>
      exact plain.1

/-- What begins like a constant begins with no mark of a variable. -/
theorem head?_ne_of_begins_constant
    {text : List Char}
    (begins : (text.head?.map Char.isUpper).getD false = true ∨
      "::".toList.isPrefixOf text = true)
    {mark : Char}
    (notUpper : mark.isUpper = false)
    (notColon : mark ≠ ':') :
    text.head? ≠ some mark := by
  intro isMark
  cases text with
  | nil =>
      cases isMark
  | cons first rest =>
      cases isMark
      rcases begins with isUpper | isPrefix
      · simp [notUpper] at isUpper
      · simp [List.isPrefixOf, Ne.symm notColon] at isPrefix

theorem headSegment?_constant
    {path : String}
    (plain : (constant path).IsPlain) :
    headSegment? path.toList =
      if (constant path).isReadable then some (.constant path) else none := by
  obtain ⟨-, begins⟩ := plain
  have notKeyword : isKeyword path.toList = false := by
    rw [Bool.eq_false_iff]
    intro keyword
    simp only [isKeyword, String.ofList_toList, List.contains_eq_mem, List.mem_cons,
      List.not_mem_nil, or_false, decide_eq_true_eq] at keyword
    rcases keyword with rfl | rfl | rfl | rfl <;> revert begins <;> decide
  have unmarked : markedVariable? path.toList = none :=
    markedVariable?_eq_none (head?_ne_of_begins_constant begins (by decide) (by decide))
      (head?_ne_of_begins_constant begins (by decide) (by decide))
  rw [headSegment?_of_constant notKeyword unmarked begins, String.ofList_toList]
  rfl

theorem headSegment?_word
    {name : String}
    (plain : (word name).IsPlain) :
    headSegment? name.toList = if (word name).isReadable then some (.word name) else none := by
  obtain ⟨isLink, notKeyword, begins⟩ := plain
  obtain ⟨first, rest, isText⟩ := List.exists_cons_of_ne_nil isLink.notEmpty
  have isLinkChar := isLink.isLinkChar first (isText ▸ List.mem_cons_self)
  simp only [isText, beginsWord, List.head?_cons, Option.map_some, Option.getD_some,
    Bool.not_eq_true', Bool.or_eq_false_iff, beq_eq_false_iff_ne] at begins
  obtain ⟨⟨⟨⟨notUpper, notDigit⟩, notAt⟩, notDollar⟩, notColon⟩ := begins
  have unmarked : markedVariable? name.toList = none := by
    rw [isText]
    exact markedVariable?_eq_none (by simpa using notAt) (by simpa using notDollar)
  have notConstant : (first.isUpper || "::".toList.isPrefixOf name.toList) = false := by
    rw [isText]
    simp [notUpper, List.isPrefixOf, Ne.symm notColon]
  have notLiteral : literalClass? name.toList first = none := by
    obtain ⟨notQuote, notOpening, -⟩ := isLinkChar_iff.mp isLinkChar
    unfold literalClass?
    split <;> simp_all [isQuote, isOpening]
  rw [headSegment?_of_word notKeyword isText unmarked notConstant notLiteral,
    String.ofList_toList]
  rfl

/-- What the mark of a variable begins is read as its marks say. -/
theorem headSegment?_marked
    {text : List Char}
    {segment : Option Segment}
    (begins : text.head? = some '@' ∨ text.head? = some '$')
    (marked : markedVariable? text = some segment) :
    headSegment? text = segment := by
  refine headSegment?_of_marked ?_ marked
  cases text with
  | nil =>
      simp at begins
  | cons mark name =>
      rcases begins with isMark | isMark <;> cases isMark <;>
        simp [isKeyword, ← String.toList_inj]

/-- A head is read as its segment if its names are known. -/
theorem headSegment?_text
    {head : ChainHead}
    (plain : head.IsPlain) :
    headSegment? head.text.toList = if head.isReadable then some head.segment else none := by
  cases head with
  | selfReference =>
      decide
  | constant path =>
      exact headSegment?_constant plain
  | instanceVariable name =>
      have isText : (instanceVariable name).text.toList = '@' :: name.toList := by
        simp [text]
      have marked : markedVariable? ('@' :: name.toList) =
          some (if isName name.toList then
            some (.instanceVariable (String.ofList ('@' :: name.toList))) else none) := by
        unfold markedVariable?
        split <;> simp_all [IsPlain]
      rw [isText, headSegment?_marked (.inl rfl) marked, ← isText, String.ofList_toList]
      rfl
  | classVariable name =>
      have isText : (classVariable name).text.toList = '@' :: '@' :: name.toList := by
        simp [text]
      rw [isText, headSegment?_marked (.inl rfl) rfl, ← isText, String.ofList_toList]
      rfl
  | globalVariable name =>
      have isText : (globalVariable name).text.toList = '$' :: name.toList := by
        simp [text]
      have notEmpty : name.toList.isEmpty = false := by
        simpa using plain.notEmpty
      rw [isText, headSegment?_marked (.inr rfl) rfl, notEmpty, ← isText, String.ofList_toList]
      rfl
  | word name =>
      exact headSegment?_word plain

end ChainHead

namespace CallChain

/-- A chain as the grammar builds it. -/
structure IsPlain (chain : CallChain) : Prop where
  head : chain.head.IsPlain
  names : ∀ name ∈ chain.names, Signature.IsCallName name.toList

/-- The text of a chain is read as its segments, unless a name is none that signatures know. -/
theorem read?_text
    {chain : CallChain}
    (plain : chain.IsPlain) :
    Signature.read? chain.text = if chain.isReadable then some chain.segments else none := by
  have isText : chain.text.toList =
      Text.joinWith ['.'] (chain.head.text.toList :: chain.names.map String.toList) := by
    rw [text, String.toList_intercalate]
    rfl
  have areNames : ∀ name ∈ chain.names.map String.toList, Signature.IsCallName name := by
    intro name member
    obtain ⟨called, isCalled, rfl⟩ := List.mem_map.mp member
    exact plain.names called isCalled
  rw [Signature.read?, isText, Signature.readChars?_joinWith plain.head.isLink_text areNames,
    ChainHead.headSegment?_text plain.head, isReadable, segments]
  by_cases isKnown : chain.head.isReadable = true <;>
    by_cases areKnown : (chain.names.all fun name => Signature.isName name.toList) = true <;>
    simp_all [Function.comp_def]

end CallChain

end TagCheck
