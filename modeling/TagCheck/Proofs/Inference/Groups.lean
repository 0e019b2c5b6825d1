import Mathlib.Data.List.Induction
import TagCheck.Proofs.Inference.CallChain

namespace TagCheck

/-!
# Groups in brackets

Arguments, blocks and index accesses stand in brackets behind a name, and inside the brackets may
stand any text whose own brackets are properly nested.  A chain is cut into links from the left, where
all brackets are counted together; the groups of a link are stripped from the right, where only
brackets of one kind are counted.  Both counts come out of a nested text as they went in.
-/

namespace Signature

/-- The kinds of brackets. -/
inductive Bracket where
  | round
  | square
  | curly
  deriving Repr, DecidableEq

namespace Bracket

def opening : Bracket → Char
  | round => '('
  | square => '['
  | curly => '\x7b'

def closing : Bracket → Char
  | round => ')'
  | square => ']'
  | curly => '\x7d'

/-- Brackets of two kinds are different characters. -/
theorem ne_of_ne
    {bracket other : Bracket}
    (otherKind : other ≠ bracket) :
    (other.closing ≠ bracket.closing ∧ other.closing ≠ bracket.opening) ∧
      other.opening ≠ bracket.closing ∧ other.opening ≠ bracket.opening := by
  revert otherKind
  cases other <;> cases bracket <;> decide

end Bracket

/-- Quotation marks and brackets. -/
def marks : List Char :=
  ['\'', '"', '(', ')', '[', ']', '\x7b', '\x7d']

/-- What is no mark is no bracket. -/
theorem Bracket.ne_of_notMem_marks
    {c : Char}
    (noMark : c ∉ marks)
    (bracket : Bracket) :
    c ≠ bracket.closing ∧ c ≠ bracket.opening := by
  constructor <;> rintro rfl <;> cases bracket <;> exact noMark (by decide)

/-- White space is no point and no mark. -/
theorem notMem_marks_of_isBlank
    {c : Char}
    (isBlank : Text.isBlank c = true) :
    c ≠ '.' ∧ c ∉ marks := by
  have unblank : ('.' :: marks).all (fun mark => !Text.isBlank mark) = true := by
    decide
  rw [← not_or, ← List.mem_cons]
  intro isMark
  have notBlank := List.all_eq_true.mp unblank c isMark
  rw [isBlank] at notBlank
  cases notBlank

/-- A text without quotation marks whose brackets are properly nested. -/
inductive IsNested : List Char → Prop
  | nothing : IsNested []
  | character {c : Char} {rest : List Char} (noMark : c ∉ marks) (isNested : IsNested rest) :
      IsNested (c :: rest)
  | group (bracket : Bracket) {inside rest : List Char} (isInside : IsNested inside)
      (isNested : IsNested rest) :
      IsNested (bracket.opening :: (inside ++ bracket.closing :: rest))

/-- An argument list, a block or an index access, and the white space before it. -/
structure Group where
  gap : List Char
  bracket : Bracket
  inside : List Char
  isGap : ∀ c ∈ gap, Text.isBlank c = true
  isNested : IsNested inside

namespace Group

def chars (group : Group) : List Char :=
  group.gap ++ group.bracket.opening :: (group.inside ++ [group.bracket.closing])

/-- The group is an index access. -/
def isIndex (group : Group) : Bool :=
  group.bracket = .square

end Group

section Splitting

variable {inside : List Char} {depth : Nat} {link rest : List Char}

/-- A character that is no mark is read into the link, unless it is a point between links. -/
theorem splitLinks_of_notMem_marks
    {c : Char}
    (noMark : c ∉ marks)
    (inLink : c = '.' → depth ≠ 0) :
    splitLinks depth none link (c :: rest) = splitLinks depth none (c :: link) rest := by
  simp only [marks, List.mem_cons, List.not_mem_nil, or_false, not_or] at noMark
  rw [splitLinks]
  by_cases isPoint : c = '.'
  · simp [isQuote, isOpening, isClosing, noMark, inLink isPoint]
  · simp [isQuote, isOpening, isClosing, noMark, isPoint]

/-- White space is read into the link. -/
theorem splitLinks_gap
    {gap : List Char}
    (isGap : ∀ c ∈ gap, Text.isBlank c = true) :
    splitLinks 0 none link (gap ++ rest) = splitLinks 0 none (gap.reverse ++ link) rest := by
  induction gap generalizing link with
  | nil =>
      rfl
  | cons c gap inductionHypothesis =>
      obtain ⟨isBlank, others⟩ := List.forall_mem_cons.mp isGap
      obtain ⟨notPoint, noMark⟩ := notMem_marks_of_isBlank isBlank
      have inLink : c = '.' → 0 ≠ 0 := fun isPoint => absurd isPoint notPoint
      rw [List.cons_append, splitLinks_of_notMem_marks noMark inLink, inductionHypothesis others]
      simp

theorem splitLinks_opening
    (bracket : Bracket) :
    splitLinks depth none link (bracket.opening :: rest) =
      splitLinks (depth + 1) none (bracket.opening :: link) rest := by
  cases bracket <;> rw [splitLinks] <;> simp [isQuote, isOpening, Bracket.opening]

theorem splitLinks_closing
    (bracket : Bracket) :
    splitLinks (depth + 1) none link (bracket.closing :: rest) =
      splitLinks depth none (bracket.closing :: link) rest := by
  cases bracket <;> rw [splitLinks] <;> simp [isQuote, isOpening, isClosing, Bracket.closing]

/-- Inside of brackets a nested text is read into the link. -/
theorem splitLinks_nested
    (isNested : IsNested inside) :
    splitLinks (depth + 1) none link (inside ++ rest) =
      splitLinks (depth + 1) none (inside.reverse ++ link) rest := by
  induction isNested generalizing depth link rest with
  | nothing =>
      rfl
  | character noMark _ inductionHypothesis =>
      rw [List.cons_append, splitLinks_of_notMem_marks noMark fun _ => Nat.succ_ne_zero depth,
        inductionHypothesis]
      simp
  | group bracket _ _ ofInside ofRest =>
      rw [List.cons_append, splitLinks_opening, List.append_assoc, ofInside, List.cons_append,
        splitLinks_closing, ofRest]
      simp

end Splitting

section Stripping

variable {bracket : Bracket} {inside rest : List Char} {depth : Nat}

theorem beforeGroup?_of_ne
    {opening closing c : Char}
    (notClosing : c ≠ closing)
    (notOpening : c ≠ opening) :
    beforeGroup? opening closing depth (c :: rest) = beforeGroup? opening closing depth rest := by
  simp [beforeGroup?, notClosing, notOpening]

theorem beforeGroup?_closing :
    beforeGroup? bracket.opening bracket.closing depth (bracket.closing :: rest) =
      beforeGroup? bracket.opening bracket.closing (depth + 1) rest := by
  simp [beforeGroup?]

theorem beforeGroup?_opening :
    beforeGroup? bracket.opening bracket.closing (depth + 2) (bracket.opening :: rest) =
      beforeGroup? bracket.opening bracket.closing (depth + 1) rest := by
  cases bracket <;> simp [beforeGroup?, Bracket.opening, Bracket.closing]

/-- Inside of a group a nested text is passed over. -/
theorem beforeGroup?_nested
    (isNested : IsNested inside) :
    beforeGroup? bracket.opening bracket.closing (depth + 1) (inside.reverse ++ rest) =
      beforeGroup? bracket.opening bracket.closing (depth + 1) rest := by
  induction isNested generalizing depth rest with
  | nothing =>
      rfl
  | @character c text noMark _ inductionHypothesis =>
      obtain ⟨notClosing, notOpening⟩ := bracket.ne_of_notMem_marks noMark
      rw [List.reverse_cons, List.append_assoc, inductionHypothesis, List.singleton_append,
        beforeGroup?_of_ne notClosing notOpening]
  | @group other inner text _ _ ofInside ofRest =>
      have isText : (other.opening :: (inner ++ other.closing :: text)).reverse ++ rest =
          text.reverse ++ other.closing :: (inner.reverse ++ other.opening :: rest) := by
        simp
      rw [isText, ofRest]
      -- Brackets of the group's own kind are counted down as they were counted up; those of another
      -- kind are passed over like any character.
      by_cases same : other = bracket
      · subst same
        rw [beforeGroup?_closing, ofInside, beforeGroup?_opening]
      · obtain ⟨⟨closings, closing⟩, opening, openings⟩ := Bracket.ne_of_ne same
        rw [beforeGroup?_of_ne closings closing, ofInside, beforeGroup?_of_ne opening openings]

/-- The group at the end of a text is found from its closing bracket. -/
theorem beforeGroup?_group
    (isNested : IsNested inside) :
    beforeGroup? bracket.opening bracket.closing 0
        (bracket.closing :: (inside.reverse ++ bracket.opening :: rest)) = some rest := by
  rw [beforeGroup?_closing, beforeGroup?_nested isNested]
  cases bracket <;> simp [beforeGroup?, Bracket.opening, Bracket.closing]

end Stripping

/-- A name with the groups behind it. -/
def linkChars (name : List Char) (groups : List Group) : List Char :=
  name ++ groups.flatMap Group.chars

/-- One segment for every index access among groups. -/
def indexes (groups : List Group) : List Segment :=
  (groups.filter Group.isIndex).map fun _ => .index

section Links

variable {name : List Char} {groups : List Group}

/-- From the right, a link begins with its last group. -/
theorem reverse_linkChars_concat
    (group : Group) :
    (linkChars name (groups ++ [group])).reverse =
      group.bracket.closing :: (group.inside.reverse ++
        group.bracket.opening :: (group.gap.reverse ++ (linkChars name groups).reverse)) := by
  simp [linkChars, Group.chars]

/-- A character in front of a group is no part of the group. -/
theorem trimStart_reverse_gap
    (group : Group)
    {last : Char}
    {others : List Char}
    (unblank : Text.isBlank last = false) :
    Text.trimStart (group.gap.reverse ++ last :: others) = last :: others := by
  rw [Text.trimStart, List.dropWhile_append_of_pos, List.dropWhile_cons_of_neg (by simp [unblank])]
  intro c member
  exact group.isGap c (List.mem_reverse.mp member)

/-- A link with its groups is read as one link. -/
theorem splitLinks_linkChars
    (isLink : IsLink name)
    (link rest : List Char) :
    splitLinks 0 none link (linkChars name groups ++ rest) =
      splitLinks 0 none ((linkChars name groups).reverse ++ link) rest := by
  induction groups using List.reverseRecOn generalizing rest with
  | nil =>
      simpa [linkChars] using splitLinks_append isLink.isLinkChar link rest
  | append_singleton groups group inductionHypothesis =>
      have isText : linkChars name (groups ++ [group]) ++ rest =
          linkChars name groups ++ (group.gap ++ group.bracket.opening ::
            (group.inside ++ group.bracket.closing :: rest)) := by
        simp [linkChars, Group.chars]
      rw [isText, inductionHypothesis, splitLinks_gap group.isGap, splitLinks_opening,
        splitLinks_nested group.isNested, splitLinks_closing, reverse_linkChars_concat]
      simp

variable (isLink : IsLink name)
include isLink

theorem isEmpty_linkChars :
    (linkChars name groups).isEmpty = false := by
  simp [linkChars, isLink.notEmpty]

/-- A link ends with a bracket or with the last character of its name. -/
theorem exists_reverse_linkChars
    (groups : List Group) :
    ∃ last others, (linkChars name groups).reverse = last :: others ∧
      Text.isBlank last = false ∧ last ≠ '&' := by
  cases groups using List.reverseRecOn with
  | nil =>
      obtain ⟨last, others, isReverse, isLinkChar⟩ := isLink.exists_reverse
      obtain ⟨-, -, -, -, notSafe, unblank⟩ := isLinkChar_iff.mp isLinkChar
      exact ⟨last, others, by simpa [linkChars] using isReverse, unblank, notSafe⟩
  | append_singleton groups group =>
      refine ⟨_, _, reverse_linkChars_concat group, ?_⟩
      cases group.bracket <;> decide

/-- A text that begins with a link does not begin with white space. -/
theorem isBlank_of_head?_linkChars
    {c : Char}
    (rest : List Char)
    (isFirst : (linkChars name groups ++ rest).head? = some c) :
    Text.isBlank c = false := by
  obtain ⟨first, others, rfl⟩ := List.exists_cons_of_ne_nil isLink.notEmpty
  cases isFirst
  exact isBlank_of_isLinkChar (isLink.isLinkChar c List.mem_cons_self)

/-- A text that ends with a link is trimmed, unless it begins with white space. -/
theorem trim_append_linkChars
    {before : List Char}
    (begins : ∀ c, (before ++ linkChars name groups).head? = some c → Text.isBlank c = false) :
    Text.trim (before ++ linkChars name groups) = before ++ linkChars name groups := by
  refine Text.trim_eq_of_ends begins ?_
  obtain ⟨last, others, isReverse, unblank, -⟩ := exists_reverse_linkChars isLink groups
  intro c isLast
  rw [List.reverse_append, isReverse] at isLast
  cases isLast
  exact unblank

theorem trim_linkChars :
    Text.trim (linkChars name groups) = linkChars name groups := by
  have begins : ∀ c, ([] ++ linkChars name groups).head? = some c → Text.isBlank c = false := by
    intro c isFirst
    rw [List.nil_append, ← List.append_nil (linkChars name groups)] at isFirst
    exact isBlank_of_head?_linkChars isLink [] isFirst
  exact trim_append_linkChars isLink begins

/-- A link with its groups stays as it is when a point ends it. -/
theorem endLink_reverse_linkChars :
    endLink (linkChars name groups).reverse = linkChars name groups := by
  obtain ⟨last, others, isReverse, -, notSafe⟩ :=
    exists_reverse_linkChars isLink groups
  unfold endLink
  split
  · next link isSafe =>
      rw [isReverse] at isSafe
      cases isSafe
      exact absurd rfl notSafe
  · rw [List.reverse_reverse, trim_linkChars isLink]

/-- The groups behind a name are stripped, and the index accesses among them are counted. -/
theorem stripGroups?_linkChars
    {limit : Nat}
    (enough : groups.length < limit) :
    stripGroups? limit (linkChars name groups).reverse =
      some (name.reverse, groups.countP Group.isIndex) := by
  -- The group that stands last is stripped first.
  induction groups using List.reverseRecOn generalizing limit with
  | nil =>
      obtain ⟨last, others, isReverse, isLinkChar⟩ := isLink.exists_reverse
      obtain ⟨fewer, rfl⟩ := Nat.exists_eq_succ_of_ne_zero (Nat.ne_of_gt enough)
      rw [linkChars, List.flatMap_nil, List.append_nil, isReverse, stripGroups?,
        openingOf?_of_isLinkChar isLinkChar]
      rfl
  | append_singleton groups group inductionHypothesis =>
      rw [List.length_append, List.length_singleton] at enough
      obtain ⟨fewer, rfl⟩ := Nat.exists_eq_succ_of_ne_zero (Nat.ne_zero_of_lt enough)
      obtain ⟨last, others, isReverse, unblank, -⟩ :=
        exists_reverse_linkChars isLink groups
      have isOpening : openingOf? group.bracket.closing = some group.bracket.opening := by
        cases group.bracket <;> rfl
      have before := inductionHypothesis (Nat.lt_of_succ_lt_succ enough)
      rw [isReverse] at before
      have isPart : group.gap.reverse ++ last :: others ≠ [] := by
        simp
      obtain ⟨c, part, isText⟩ := List.exists_cons_of_ne_nil isPart
      rw [reverse_linkChars_concat, isReverse, stripGroups?, isOpening]
      simp only [beforeGroup?_group group.isNested, isText]
      rw [← isText, trimStart_reverse_gap group unblank, before, List.countP_append]
      cases kind : group.bracket <;> simp [Group.isIndex, kind, Bracket.opening]

/-- A link is read as its name, followed by its index accesses. -/
theorem linkSegments?_linkChars
    (nameSegment? : List Char → Option Segment) :
    linkSegments? nameSegment? (linkChars name groups) =
      (nameSegment? name).map (· :: indexes groups) := by
  have enough : groups.length < (linkChars name groups).length := by
    have ofGroups : groups.length ≤ (groups.flatMap Group.chars).length := by
      induction groups with
      | nil =>
          exact Nat.le_refl 0
      | cons group rest inductionHypothesis =>
          simp only [List.flatMap_cons, List.length_append, List.length_cons, Group.chars]
          omega
    have ofName : 0 < name.length := List.length_pos_iff.mpr isLink.notEmpty
    rw [linkChars, List.length_append]
    omega
  have areIndexes : indexes groups = List.replicate (groups.countP Group.isIndex) .index := by
    rw [indexes, List.map_const', List.countP_eq_length_filter]
  simp only [linkSegments?, splitGroups?, stripGroups?_linkChars isLink enough, areIndexes,
    Option.map_some, List.reverse_reverse, Option.bind_eq_bind, Option.bind_some]
  cases nameSegment? name <;> rfl

end Links

end Signature

end TagCheck
