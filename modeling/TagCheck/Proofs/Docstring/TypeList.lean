import Mathlib.Data.List.Infix
import TagCheck.Proofs.Docstring.Pieces

namespace TagCheck

/-!
# Lists of types, cut and read

A list of types is cut into pieces at the commas outside of all brackets, with a count of the open
brackets, and each piece is read on its own.  The reader of types descends into the brackets instead.
Where it accepts the whole list, and no duck type is in it, both find the same commas, and so the
pieces are read as the alternatives of the list.
-/

namespace DocType

open DocTag (IsPassedAt isOpeningBracket)

section Names

variable {text name behind rest : List Char}

/-- A text whose last character is no white space. -/
def EndsUnblank (text : List Char) : Prop :=
  ∃ c ∈ text.getLast?, Text.isBlank c = false

theorem EndsUnblank.ne_nil
    (ends : EndsUnblank text) :
    text ≠ [] := by
  rintro rfl
  obtain ⟨c, isLast, -⟩ := ends
  cases isLast

theorem EndsUnblank.append
    (ends : EndsUnblank rest)
    (text : List Char) :
    EndsUnblank (text ++ rest) := by
  have sameLast := List.getLast?_append_of_ne_nil text ends.ne_nil
  rwa [EndsUnblank, sameLast]

/-- A question mark is no white space. -/
theorem EndsUnblank.append_renderNullable
    (ends : EndsUnblank text)
    (nullable : Bool) :
    EndsUnblank (text ++ renderNullable nullable) := by
  cases nullable with
  | true =>
      exact EndsUnblank.append ⟨'?', rfl, by decide⟩ text
  | false =>
      rwa [renderNullable, if_neg Bool.false_ne_true, List.append_nil]

theorem isBlank_of_isNameChar
    {c : Char}
    (isInName : isNameChar c = true) :
    Text.isBlank c = false := by
  rw [Bool.eq_false_iff]
  intro blank
  rw [isNameChar, Text.isWordChar_of_isBlank blank, Bool.false_or, beq_iff_eq] at isInName
  cases isInName
  cases blank

/-- The same name is read in front of anything that ends it. -/
theorem IsWholeName.readName_append
    (isName : IsWholeName name behind)
    (ends : ∀ c ∈ rest.head?, c ∈ behind.head?) :
    readName (name ++ rest) = .ok (name, rest) :=
  readName_append_of_areNameChars isName.notEmpty isName.areNameChars
    fun c begins => isName.ends c (ends c begins)

theorem IsWholeName.endsUnblank
    (isName : IsWholeName name behind) :
    EndsUnblank name := by
  have isLast := List.getLast?_eq_some_getLast isName.notEmpty
  exact ⟨_, isLast, isBlank_of_isNameChar (isName.areNameChars _ (List.mem_of_getLast? isLast))⟩

/-- The question mark of a type is read off its spelling. -/
theorem renderNullable_append_readNullable
    (text : List Char) :
    renderNullable (readNullable text).1 ++ (readNullable text).2 = text := by
  unfold readNullable
  split <;> rfl

/-- It is read in the same way in front of what may stand behind it. -/
theorem readNullable_append_of_head?
    (follows : ∀ c ∈ rest.head?, c ∈ (readNullable text).2.head?) :
    readNullable (renderNullable (readNullable text).1 ++ rest) = ((readNullable text).1, rest) := by
  unfold readNullable at follows ⊢
  split at follows
  · rfl
  · next noMark =>
      change readNullable rest = (false, rest)
      unfold readNullable
      split
      · obtain ⟨behind, isText⟩ := List.head?_eq_some_iff.mp (follows '?' rfl)
        exact absurd isText (noMark behind)
      · rfl

theorem head?_renderNullable_append
    (follows : ∀ c ∈ rest.head?, c ∈ (readNullable text).2.head?) :
    ∀ c ∈ (renderNullable (readNullable text).1 ++ rest).head?, c ∈ text.head? := by
  intro c begins
  rw [← renderNullable_append_readNullable text]
  cases isMarked : (readNullable text).1 with
  | true =>
      rwa [isMarked] at begins
  | false =>
      rw [isMarked] at begins
      exact follows c begins

end Names

section Constructs

variable {construct : Construct} {close : Option Char} {text used part behind rest after : List Char}
  {unions parameters : List DocUnion}

/-- An equals sign is followed at once by the other half of an arrow. -/
def HasArrows (text : List Char) : Prop :=
  ∀ behind, '=' :: behind <:+ text → behind.head? = some '>'

theorem HasArrows.of_suffix
    (hasArrows : HasArrows text)
    (isSuffix : behind <:+ text) :
    HasArrows behind :=
  fun after begins => hasArrows after (begins.trans isSuffix)

theorem hasArrows_iff :
    HasArrows text ↔
      ∀ tail ∈ text.tails, tail.head? = some '=' → tail.tail.head? = some '>' := by
  constructor
  · intro hasArrows tail isTail isEquals
    obtain ⟨behind, rfl⟩ := List.head?_eq_some_iff.mp isEquals
    exact hasArrows behind ((List.mem_tails _ _).mp isTail)
  · intro hasArrows behind isSuffix
    exact hasArrows _ ((List.mem_tails _ _).mpr isSuffix) rfl

instance : DecidablePred HasArrows :=
  fun _ => decidable_of_iff _ hasArrows_iff.symm

/-- What may stand behind a construct in place of what does; alternatives may also end the text. -/
def MayFollow (construct : Construct) (behind rest : List Char) : Prop :=
  rest.head? = behind.head? ∨ construct = .alternative ∧ rest = []

/-- A construct takes up a text, in front of something that stands behind it. -/
structure TakesUp (construct : Construct) (used : List Char) (unions : List DocUnion)
    (behind : List Char) : Prop where
  reads : ∀ rest, MayFollow construct behind rest → Reads construct (used ++ rest) unions rest
  isPassed : ∀ depth, construct = .alternative ∨ 0 < depth → IsPassedAt depth used
  endsUnblank : construct = .alternative → EndsUnblank used

/-- The part of a text that a construct takes up lies in front of what stands behind it. -/
def IsTakenUp (construct : Construct) (text : List Char) (unions : List DocUnion)
    (behind : List Char) : Prop :=
  ∃ used, text = used ++ behind ∧ TakesUp construct used unions behind

theorem MayFollow.mem_head?
    (follows : MayFollow construct behind rest) :
    ∀ c ∈ rest.head?, c ∈ behind.head? := by
  rcases follows with sameHead | ⟨-, rfl⟩
  · exact fun c begins => sameHead ▸ begins
  · exact nofun

theorem MayFollow.head?_eq
    (follows : MayFollow (.list close) behind rest) :
    rest.head? = behind.head? :=
  follows.elim id nofun

/-- The name `undefined` is an alternative. -/
theorem isTakenUp_undefined
    (isName : readName text = .ok (undefinedName, behind)) :
    IsTakenUp .alternative text [[]] behind := by
  have isWhole := isWholeName_of_readName isName (by decide)
  refine ⟨undefinedName, (append_of_readName isName).symm, ?_, ?_, fun _ => isWhole.endsUnblank⟩
  · exact fun rest follows => .undefined (isWhole.readName_append follows.mem_head?)
  · exact fun depth _ => .of_areNameChars isWhole.areNameChars

theorem ReadsName.append_of_head?
    {name : List Char}
    (isName : ReadsName text name behind)
    (ends : ∀ c ∈ rest.head?, c ∈ behind.head?) :
    ReadsName (name ++ rest) name rest :=
  ⟨isName.isWholeName.readName_append ends, isName.isDefined, isName.noDuck⟩

/-- What stands behind the bracket at the end of a name does not matter for the name. -/
theorem ReadsName.append_cons
    {name : List Char}
    {opening : Char}
    (isName : ReadsName text name (opening :: behind))
    (rest : List Char) :
    ReadsName (name ++ opening :: rest) name (opening :: rest) :=
  isName.append_of_head? fun _ begins => begins

/-- A name without parameters, with its question mark. -/
theorem isTakenUp_bare
    {name : List Char}
    (isName : ReadsName text name behind)
    (noBracket : ∀ c ∈ behind.head?, isOpening c = false) :
    IsTakenUp .alternative text
      [[{ named (String.ofList name) with nullable := (readNullable behind).1 }]]
      (readNullable behind).2 := by
  refine ⟨name ++ renderNullable (readNullable behind).1, ?_, fun rest follows => ?_, ?_, ?_⟩
  · rw [List.append_assoc, renderNullable_append_readNullable, append_of_readName isName.isName]
  · have ends := head?_renderNullable_append follows.mem_head?
    have reads := Reads.bare (isName.append_of_head? ends) fun c begins => noBracket c (ends c begins)
    rwa [readNullable_append_of_head? follows.mem_head?, ← List.append_assoc] at reads
  · exact fun depth _ =>
      (IsPassedAt.of_areNameChars isName.isWholeName.areNameChars).append (.renderNullable _)
  · exact fun _ => isName.isWholeName.endsUnblank.append_renderNullable _

/-- A list takes up a text, up to a delimiter that ends it. -/
structure TakesUpTo (closing : Char) (part : List Char) (parameters : List DocUnion) : Prop where
  reads : ∀ rest, ∃ behind, Reads (.list (some closing)) (part ++ closing :: rest) parameters behind ∧
    readDelimiter closing behind = .ok rest
  isPassed : ∀ depth, 0 < depth → IsPassedAt depth part

theorem exists_takesUpTo
    {closing : Char}
    (unblank : Text.isBlank closing = false)
    (inside : IsTakenUp (.list (some closing)) text parameters behind)
    (closed : readDelimiter closing behind = .ok after) :
    ∃ part, text = part ++ closing :: after ∧ TakesUpTo closing part parameters := by
  obtain ⟨used, rfl, takesUp⟩ := inside
  obtain ⟨gap, isGap, isBehind⟩ := Text.eq_append_trimStart behind
  rw [readDelimiter_eq_ok_iff.mp closed] at isBehind
  subst isBehind
  refine ⟨used ++ gap, (List.append_assoc _ _ _).symm, fun rest => ?_, fun depth inside => ?_⟩
  · have sameHead : (gap ++ closing :: rest).head? = (gap ++ closing :: after).head? := by
      simp only [List.head?_append, List.head?_cons]
    have reads := takesUp.reads (gap ++ closing :: rest) (.inl sameHead)
    refine ⟨gap ++ closing :: rest, by rwa [List.append_assoc], ?_⟩
    exact readDelimiter_eq_ok_iff.mpr
      (Text.trimStart_gap_append isGap fun c begins => Option.some_inj.mp begins ▸ unblank)
  · exact (takesUp.isPassed depth (.inr inside)).append (.of_blank isGap)

/-- A name with its parameters in brackets, and its question mark. -/
theorem isTakenUp_ordered
    {name inner : List Char}
    {opening closing : Char}
    (isName : ReadsName text name (opening :: inner))
    (encloses : EnclosesOrdered opening closing)
    (inside : IsTakenUp (.list (some closing)) inner parameters behind)
    (closed : readDelimiter closing behind = .ok after) :
    IsTakenUp .alternative text
      [[{ withOrdered (String.ofList name) parameters with nullable := (readNullable after).1 }]]
      (readNullable after).2 := by
  have brackets : isOpeningBracket opening = true ∧ isClosing closing = true ∧
      Text.isBlank closing = false := by
    cases encloses <;> decide
  obtain ⟨opens, closes, unblank⟩ := brackets
  obtain ⟨part, rfl, takesUp⟩ := exists_takesUpTo unblank inside closed
  refine ⟨name ++ (opening :: (part ++ [closing]) ++ renderNullable (readNullable after).1), ?_,
    fun rest follows => ?_, fun depth _ => ?_, fun _ => ?_⟩
  · rw [← append_of_readName isName.isName]
    simp [renderNullable_append_readNullable]
  · obtain ⟨middle, reads, closed⟩ := takesUp.reads (renderNullable (readNullable after).1 ++ rest)
    have reads := Reads.ordered (isName.append_cons _) encloses reads closed
    rw [readNullable_append_of_head? follows.mem_head?] at reads
    simpa using reads
  · have inBrackets := IsPassedAt.enclosed opens closes (takesUp.isPassed _ depth.succ_pos)
    exact (IsPassedAt.of_areNameChars isName.isWholeName.areNameChars).append
      (inBrackets.append (.renderNullable _))
  · have endsBracket : EndsUnblank (opening :: (part ++ [closing])) :=
      EndsUnblank.append ⟨closing, rfl, unblank⟩ (opening :: part)
    exact (endsBracket.append_renderNullable _).append name

/-- Where equals signs begin arrows, nothing stands inside the arrow between keys and values. -/
theorem readDelimiter_of_hasArrows
    {dash : List Char}
    (hasArrows : HasArrows ('=' :: dash))
    (hasArrow : readDelimiter '>' dash = .ok rest) :
    dash = '>' :: rest := by
  obtain ⟨others, rfl⟩ := List.head?_eq_some_iff.mp (hasArrows dash List.suffix_rfl)
  exact readDelimiter_eq_ok_iff.mp hasArrow

/-- A name with its keys and values in braces, and its question mark. -/
theorem isTakenUp_keyed
    {name inner dash arrow second : List Char}
    {keys values : List DocUnion}
    (hasArrows : HasArrows text)
    (isName : ReadsName text name ('\x7b' :: inner))
    (insideKeys : IsTakenUp (.list (some '=')) inner keys behind)
    (hasDash : readDelimiter '=' behind = .ok dash)
    (hasArrow : readDelimiter '>' dash = .ok arrow)
    (insideValues : IsTakenUp (.list (some '\x7d')) arrow values second)
    (closed : readDelimiter '\x7d' second = .ok after) :
    IsTakenUp .alternative text
      [[{ withKeyed (String.ofList name) keys values with nullable := (readNullable after).1 }]]
      (readNullable after).2 := by
  obtain ⟨keyPart, rfl, takesUpKeys⟩ := exists_takesUpTo (by decide) insideKeys hasDash
  have atArrow : '=' :: dash <:+ text :=
    (List.suffix_append _ _).trans ((List.suffix_cons _ _).trans isName.isSuffix)
  cases readDelimiter_of_hasArrows (hasArrows.of_suffix atArrow) hasArrow
  obtain ⟨valuePart, rfl, takesUpValues⟩ := exists_takesUpTo (by decide) insideValues closed
  refine ⟨name ++ ('\x7b' :: (keyPart ++ (['=', '>'] ++ valuePart) ++ ['\x7d']) ++
    renderNullable (readNullable after).1), ?_, fun rest follows => ?_, fun depth _ => ?_,
    fun _ => ?_⟩
  · rw [← append_of_readName isName.isName]
    simp [renderNullable_append_readNullable]
  · obtain ⟨valuesEnd, readsValues, closed⟩ :=
      takesUpValues.reads (renderNullable (readNullable after).1 ++ rest)
    obtain ⟨keysEnd, readsKeys, hasDash⟩ := takesUpKeys.reads
      ('>' :: (valuePart ++ '\x7d' :: (renderNullable (readNullable after).1 ++ rest)))
    have reads := Reads.keyed (isName.append_cons _) readsKeys hasDash rfl readsValues closed
    rw [readNullable_append_of_head? follows.mem_head?] at reads
    simpa using reads
  · have inBraces := (takesUpKeys.isPassed _ depth.succ_pos).append
      (IsPassedAt.arrow.append (takesUpValues.isPassed _ depth.succ_pos))
    exact (IsPassedAt.of_areNameChars isName.isWholeName.areNameChars).append
      ((inBraces.enclosed rfl rfl).append (.renderNullable _))
  · have endsBrace : EndsUnblank ('\x7b' :: (keyPart ++ (['=', '>'] ++ valuePart) ++ ['\x7d'])) :=
      EndsUnblank.append ⟨'\x7d', rfl, by decide⟩ ('\x7b' :: (keyPart ++ (['=', '>'] ++ valuePart)))
    exact (endsBrace.append_renderNullable _).append name

/-- No alternative, where a list ends at once. -/
theorem isTakenUp_nothing
    (ends : (Text.trimStart text).head? = close) :
    IsTakenUp (.list close) text [] (Text.trimStart text) := by
  obtain ⟨gap, isGap, isText⟩ := Text.eq_append_trimStart text
  refine ⟨gap, isText, fun rest follows => ?_, fun depth _ => .of_blank isGap, nofun⟩
  have unblank : ∀ c ∈ rest.head?, Text.isBlank c = false :=
    fun c begins => Text.isBlank_of_head?_trimStart (follows.mem_head? c begins)
  have trimmed := Text.trimStart_gap_append isGap unblank
  have reads := Reads.nothing (trimmed.symm ▸ follows.head?_eq.trans ends)
  rwa [trimmed] at reads

/-- The first alternative of a list, behind white space. -/
structure BeginsList (close : Option Char) (gap used : List Char) (union : DocUnion)
    (behind : List Char) : Prop where
  isGap : ∀ c ∈ gap, Text.isBlank c = true
  takesUp : TakesUp .alternative used [union] behind
  unblank : ∀ c ∈ used.head?, Text.isBlank c = false
  goesOn : used.head? ≠ close

section First

variable {gap : List Char} {union : DocUnion}

theorem exists_beginsList
    (goesOn : (Text.trimStart text).head? ≠ close)
    (first : IsTakenUp .alternative (Text.trimStart text) [union] behind) :
    ∃ gap used, text = gap ++ (used ++ behind) ∧ BeginsList close gap used union behind := by
  obtain ⟨gap, isGap, isText⟩ := Text.eq_append_trimStart text
  obtain ⟨used, isUsed, takesUp⟩ := first
  have sameHead : (Text.trimStart text).head? = used.head? := by
    rw [isUsed, List.head?_append_of_ne_nil _ (takesUp.endsUnblank rfl).ne_nil]
  refine ⟨gap, used, isUsed ▸ isText, isGap, takesUp, fun c begins => ?_, sameHead ▸ goesOn⟩
  exact Text.isBlank_of_head?_trimStart (sameHead ▸ begins)

theorem BeginsList.ne_nil
    (begins : BeginsList close gap used union behind) :
    used ≠ [] :=
  (begins.takesUp.endsUnblank rfl).ne_nil

theorem BeginsList.trimStart
    (begins : BeginsList close gap used union behind)
    (rest : List Char) :
    Text.trimStart (gap ++ (used ++ rest)) = used ++ rest := by
  apply Text.trimStart_gap_append begins.isGap
  rw [List.head?_append_of_ne_nil _ begins.ne_nil]
  exact begins.unblank

theorem BeginsList.goesOn_append
    (begins : BeginsList close gap used union behind)
    (rest : List Char) :
    (Text.trimStart (gap ++ (used ++ rest))).head? ≠ close := by
  rw [begins.trimStart, List.head?_append_of_ne_nil _ begins.ne_nil]
  exact begins.goesOn

/-- The first alternative is read, whatever may follow it. -/
theorem BeginsList.reads
    (begins : BeginsList close gap used union behind)
    (follows : MayFollow .alternative behind rest) :
    Reads .alternative (Text.trimStart (gap ++ (used ++ rest))) [union] rest :=
  (begins.trimStart rest).symm ▸ begins.takesUp.reads rest follows

/-- The first alternative, its white space and the white space behind it lie in one piece. -/
theorem BeginsList.isPassedAt
    (begins : BeginsList close gap used union behind)
    {gapBehind : List Char}
    (isGap : ∀ c ∈ gapBehind, Text.isBlank c = true)
    (depth : Nat) :
    IsPassedAt depth (gap ++ (used ++ gapBehind)) :=
  (IsPassedAt.of_blank begins.isGap).append
    ((begins.takesUp.isPassed depth (.inl rfl)).append (.of_blank isGap))

/-- The last alternative of a list. -/
theorem isTakenUp_last
    (goesOn : (Text.trimStart text).head? ≠ close)
    (first : IsTakenUp .alternative (Text.trimStart text) [union] behind)
    (noComma : (Text.trimStart behind).head? ≠ some ',') :
    IsTakenUp (.list close) text [union] (Text.trimStart behind) := by
  obtain ⟨gap, used, isText, begins⟩ := exists_beginsList goesOn first
  obtain ⟨gapBehind, isGap, isBehind⟩ := Text.eq_append_trimStart behind
  refine ⟨gap ++ (used ++ gapBehind), ?_, fun rest follows => ?_,
    fun depth _ => begins.isPassedAt isGap depth, nofun⟩
  · rw [isText, List.append_assoc, List.append_assoc, ← isBehind]
  · have unblank : ∀ c ∈ rest.head?, Text.isBlank c = false :=
      fun c isFirst => Text.isBlank_of_head?_trimStart (follows.mem_head? c isFirst)
    have trimmed := Text.trimStart_gap_append isGap unblank
    have followsFirst : MayFollow .alternative behind (gapBehind ++ rest) := by
      left
      rw [isBehind, List.head?_append, List.head?_append, follows.head?_eq]
    have noCommaBefore : (Text.trimStart (gapBehind ++ rest)).head? ≠ some ',' := by
      rwa [trimmed, follows.head?_eq]
    have reads := Reads.last (begins.goesOn_append _) (begins.reads followsFirst) noCommaBefore
    rwa [trimmed, ← List.append_assoc, ← List.append_assoc, List.append_assoc gap] at reads

/-- An alternative of a list, the comma behind it and the rest of the list. -/
theorem isTakenUp_further
    (goesOn : (Text.trimStart text).head? ≠ close)
    (first : IsTakenUp .alternative (Text.trimStart text) [union] behind)
    (comma : Text.trimStart behind = ',' :: rest)
    (others : IsTakenUp (.list close) rest unions after) :
    IsTakenUp (.list close) text (union :: unions) after := by
  obtain ⟨gap, used, rfl, begins⟩ := exists_beginsList goesOn first
  obtain ⟨gapBehind, isGap, isBehind⟩ := Text.eq_append_trimStart behind
  obtain ⟨othersUsed, rfl, takesUpOthers⟩ := others
  rw [comma] at isBehind
  subst isBehind
  refine ⟨gap ++ (used ++ gapBehind) ++ ([','] ++ othersUsed), ?_, fun rest follows => ?_,
    fun depth inside => ?_, nofun⟩
  · simp
  · have followsFirst : MayFollow .alternative (gapBehind ++ ',' :: (othersUsed ++ after))
        (gapBehind ++ ',' :: (othersUsed ++ rest)) := by
      left
      rw [List.head?_append, List.head?_append, List.head?_cons, List.head?_cons]
    have commaBefore : Text.trimStart (gapBehind ++ ',' :: (othersUsed ++ rest)) =
        ',' :: (othersUsed ++ rest) := by
      rw [Text.trimStart_append_of_blank isGap]
      rfl
    have reads := Reads.further (begins.goesOn_append _) (begins.reads followsFirst) commaBefore
      (takesUpOthers.reads rest follows)
    simpa using reads
  · have isInside : 0 < depth := inside.elim nofun id
    exact (begins.isPassedAt isGap depth).append
      ((IsPassedAt.comma isInside).append (takesUpOthers.isPassed depth inside))

end First

/-- What is read off a text without duck types and with whole arrows is a part of the text. -/
theorem Reads.isTakenUp
    (reads : Reads construct text unions behind)
    (noSign : '#' ∉ text)
    (hasArrows : HasArrows text) :
    IsTakenUp construct text unions behind := by
  induction reads with
  | undefined isName =>
      exact isTakenUp_undefined isName
  | duck isName =>
      exact absurd (append_of_readName isName ▸ List.mem_cons_self) noSign
  | bare isName noBracket =>
      exact isTakenUp_bare isName noBracket
  | ordered isName encloses inside closed insideHypothesis =>
      have isInner := (List.suffix_cons _ _).trans isName.isSuffix
      exact isTakenUp_ordered isName encloses
        (insideHypothesis (notMem_of_suffix noSign isInner) (hasArrows.of_suffix isInner)) closed
  | keyed isName insideKeys hasDash hasArrow insideValues closed keysHypothesis valuesHypothesis =>
      have isInner := (List.suffix_cons _ _).trans isName.isSuffix
      have isArrow := (suffix_of_readDelimiter hasArrow).trans
        ((suffix_of_readDelimiter hasDash).trans (insideKeys.isSuffix.trans isInner))
      exact isTakenUp_keyed hasArrows isName
        (keysHypothesis (notMem_of_suffix noSign isInner) (hasArrows.of_suffix isInner)) hasDash
        hasArrow
        (valuesHypothesis (notMem_of_suffix noSign isArrow) (hasArrows.of_suffix isArrow)) closed
  | nothing ends =>
      exact isTakenUp_nothing ends
  | @last _ text _ _ goesOn first noComma firstHypothesis =>
      have isFirst := trimStart_suffix text
      exact isTakenUp_last goesOn
        (firstHypothesis (notMem_of_suffix noSign isFirst) (hasArrows.of_suffix isFirst)) noComma
  | @further _ text _ _ _ _ _ goesOn first comma others firstHypothesis othersHypothesis =>
      have isFirst := trimStart_suffix text
      have areOthers := (suffix_of_trimStart comma).trans (first.isSuffix.trans isFirst)
      exact isTakenUp_further goesOn
        (firstHypothesis (notMem_of_suffix noSign isFirst) (hasArrows.of_suffix isFirst)) comma
        (othersHypothesis (notMem_of_suffix noSign areOthers) (hasArrows.of_suffix areOthers))

/-- An alternative is at most one type. -/
theorem Reads.join_singleton
    {union : DocUnion}
    (reads : Reads .alternative text [union] behind) :
    DocUnion.join [union] = union := by
  cases reads <;> rfl

/-- The piece around the only or the first alternative is trimmed to the alternative. -/
theorem BeginsList.trimmed
    {gap gapBehind : List Char}
    {union : DocUnion}
    (begins : BeginsList close gap used union behind)
    (isGap : ∀ c ∈ gapBehind, Text.isBlank c = true) :
    [Text.trim (gap ++ (used ++ gapBehind))].filter (!·.isEmpty) = [used] := by
  obtain ⟨last, isLast, unblank⟩ := begins.takesUp.endsUnblank rfl
  have ends : ∀ c ∈ used.getLast?, Text.isBlank c = false :=
    fun c isOther => Option.mem_unique isLast isOther ▸ unblank
  have noneLeft : Text.trimEnd gapBehind = [] :=
    List.rdropWhile_eq_nil_iff.mpr isGap
  rw [Text.trim_append_of_blank begins.isGap,
    Text.trim_append_of_ends begins.ne_nil begins.unblank ends, noneLeft, List.append_nil]
  simp [begins.ne_nil]

/-- The first alternative of a whole list is read on its own. -/
theorem BeginsList.readChars
    {gap : List Char}
    {union : DocUnion}
    (begins : BeginsList none gap used union behind) :
    DocUnion.readChars used = .ok union := by
  have first := begins.takesUp.reads [] (.inr ⟨rfl, rfl⟩)
  have sameText : Text.trimStart used = used :=
    Text.trimStart_eq_self begins.unblank
  rw [List.append_nil, ← sameText] at first
  have reads : Reads (.list none) used [union] [] :=
    .last (sameText.symm ▸ begins.goesOn) first nofun
  exact DocUnion.readChars_eq_ok_iff.mpr ⟨[union], [], reads, rfl, first.join_singleton⟩

/-- The pieces of a whole list are read as its alternatives. -/
theorem Reads.readChars_splitTypes
    (reads : Reads (.list none) text unions behind)
    (isEnd : Text.trimStart behind = [])
    (noSign : '#' ∉ text)
    (hasArrows : HasArrows text) :
    List.Forall₂ (fun piece union => DocUnion.readChars piece = .ok union)
      (DocTag.splitTypes text) unions := by
  generalize isList : Construct.list none = construct at reads
  induction reads with
  | undefined | duck | bare | ordered | keyed =>
      cases isList
  | @nothing _ text ends =>
      cases isList
      obtain ⟨gap, isGap, isText⟩ := Text.eq_append_trimStart text
      rw [List.head?_eq_none_iff.mp ends, List.append_nil] at isText
      subst isText
      have noPiece : Text.trim text = [] := by
        rw [Text.trim, List.head?_eq_none_iff.mp ends]
        rfl
      rw [DocTag.splitTypes_of_isPassedAt (.of_blank isGap), noPiece]
      exact .nil
  | @last _ text behind _ goesOn first noComma firstHypothesis =>
      cases isList
      have isFirst := trimStart_suffix text
      obtain ⟨gap, used, rfl, begins⟩ := exists_beginsList goesOn
        (first.isTakenUp (notMem_of_suffix noSign isFirst) (hasArrows.of_suffix isFirst))
      have isGap : ∀ c ∈ behind, Text.isBlank c = true := by
        rw [Text.trimStart_trimStart] at isEnd
        exact List.dropWhile_eq_nil_iff.mp isEnd
      rw [DocTag.splitTypes_of_isPassedAt (begins.isPassedAt isGap 0), begins.trimmed isGap]
      exact .cons begins.readChars .nil
  | @further _ text behind rest _ _ _ goesOn first comma others firstHypothesis othersHypothesis =>
      cases isList
      have isFirst := trimStart_suffix text
      have areOthers := (suffix_of_trimStart comma).trans (first.isSuffix.trans isFirst)
      have readsOthers := othersHypothesis isEnd (notMem_of_suffix noSign areOthers)
        (hasArrows.of_suffix areOthers) rfl
      obtain ⟨gap, used, rfl, begins⟩ := exists_beginsList goesOn
        (first.isTakenUp (notMem_of_suffix noSign isFirst) (hasArrows.of_suffix isFirst))
      obtain ⟨gapBehind, isGap, isBehind⟩ := Text.eq_append_trimStart behind
      rw [comma] at isBehind
      have isList : gap ++ (used ++ behind) = gap ++ (used ++ gapBehind) ++ ',' :: rest := by
        simp [isBehind]
      rw [isList, DocTag.splitTypes_append_comma (begins.isPassedAt isGap 0), begins.trimmed isGap]
      exact .cons begins.readChars readsOthers

end Constructs

end DocType

namespace DocUnion

open DocType (HasArrows)

theorem map_read_of_readChars
    {pieces : List (List Char)}
    {unions : List DocUnion}
    (areRead : List.Forall₂ (fun piece union => readChars piece = .ok union) pieces unions) :
    (pieces.map String.ofList).map read = unions := by
  induction areRead with
  | nil =>
      rfl
  | @cons piece union _ _ isRead _ inductionHypothesis =>
      have isFirst : read (String.ofList piece) = union := by
        have accepted : tryRead (String.ofList piece) = .ok union := by
          rwa [tryRead_eq_ok_iff, String.toList_ofList]
        rw [read, accepted]
      rw [List.map_cons, List.map_cons, isFirst, inductionHypothesis]

/--
A list of types that is read as a whole, without duck types and with whole arrows, is the union of
the pieces that it is cut into.
-/
theorem readAll_splitTypes
    {list : String}
    (noSign : '#' ∉ list.toList)
    (hasArrows : HasArrows list.toList)
    {union : DocUnion}
    (isRead : tryRead list = .ok union) :
    readAll ((DocTag.splitTypes list.toList).map String.ofList) = union := by
  obtain ⟨unions, behind, reads, isEnd, rfl⟩ :=
    readChars_eq_ok_iff.mp (tryRead_eq_ok_iff.mp isRead)
  rw [readAll, map_read_of_readChars (reads.readChars_splitTypes isEnd noSign hasArrows)]

end DocUnion

namespace NestedList

/-!
A list with nested commas, an arrow, the undefined type, a repeated alternative, question marks, an
empty piece at the end and white space.
-/

def list : String :=
  " Hash\x7b A , B => Array(C, D?)\x7d? ,undefined, E,\tE , Foo<>? , "

def union : DocUnion :=
  [{ DocType.withKeyed "Hash" [[.named "A"], [.named "B"]]
        [[.withOrdered "Array" [[.named "C"], [{ DocType.named "D" with nullable := true }]]]] with
      nullable := true },
    .named "E", { DocType.named "Foo" with nullable := true }]

theorem readAll_splitTypes_list :
    '#' ∉ list.toList ∧ DocType.HasArrows list.toList ∧ DocUnion.tryRead list = .ok union ∧
      DocUnion.readAll ((DocTag.splitTypes list.toList).map String.ofList) = union := by
  have noSign : '#' ∉ list.toList := by
    decide +kernel
  have hasArrows : DocType.HasArrows list.toList := by
    decide +kernel
  have isRead : DocUnion.tryRead list = .ok union := by
    decide +kernel
  exact ⟨noSign, hasArrows, isRead, DocUnion.readAll_splitTypes noSign hasArrows isRead⟩

end NestedList

end TagCheck
