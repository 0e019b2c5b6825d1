import TagCheck.Proofs.DocType.Spelling

namespace TagCheck.DocType

/-!
# Duck types in every place

A duck type names a method, and the names of methods may hold the characters that close parameter
lists.  Where a duck type stands decides what ends it: white space, a comma, or a closing bracket
behind at least two bytes of its member.
-/

section MethodNames

/-- The operators that can be defined as methods. -/
def operatorNames : List String :=
  ["|", "^", "&", "<=>", "==", "===", "=~", ">", ">=", "<", "<=", "<<", ">>", "+", "-", "*", "/",
    "%", "**", "~", "+@", "-@", "[]", "[]=", "\x60", "!", "!=", "!~"]

/-- The operator whose bracket ends it too early. -/
def comparison : List Char :=
  ['<', '=', '>']

/-- Characters that begin an identifier: letters, the underscore and all beyond ASCII. -/
def beginsIdentifier (c : Char) : Bool :=
  c.isAlpha || c == '_' || 128 ≤ c.toNat

/-- The name of a method: an operator, or an identifier with one of the marks behind it. -/
inductive IsMethodName : List Char → Prop
  | operator {name : String} (isOperator : name ∈ operatorNames) : IsMethodName name.toList
  | identifier {first : Char} {rest mark : List Char} (begins : beginsIdentifier first = true)
      (goesOn : ∀ c ∈ rest, (beginsIdentifier c || c.isDigit) = true)
      (isMark : mark ∈ [[], ['?'], ['!'], ['=']]) :
      IsMethodName (first :: (rest ++ mark))

variable {size : Nat} {member : List Char}

theorem IsMethodName.notEmpty
    (isName : IsMethodName member) :
    member ≠ [] := by
  cases isName with
  | operator isOperator =>
      have noEmptyOperator : ∀ name ∈ operatorNames, name.toList ≠ [] := by
        decide
      exact noEmptyOperator _ isOperator
  | identifier =>
      exact List.cons_ne_nil _ _

/-- A member has no white space in it. -/
theorem unblank_of_isMemberFrom
    (isMember : isMemberFrom size member = true) :
    ∀ c ∈ member, Text.isBlank c = false := by
  induction member generalizing size with
  | nil =>
      nofun
  | cons first rest inductionHypothesis =>
      simp only [isMemberFrom, endsMember, Bool.and_eq_true, Bool.not_eq_true',
        Bool.or_eq_false_iff] at isMember
      intro c isIn
      rcases List.mem_cons.mp isIn with rfl | isIn
      · exact isMember.1.1.1
      · exact inductionHypothesis isMember.2 c isIn

/-- Characters that end no member, of whatever size, make one up. -/
theorem isMemberFrom_of_forall
    (noEnd : ∀ c ∈ member, endsMember 3 c = false) :
    isMemberFrom size member = true := by
  induction member generalizing size with
  | nil =>
      rfl
  | cons first rest inductionHypothesis =>
      have others : isMemberFrom (size + first.utf8Size) rest = true :=
        inductionHypothesis fun c isIn => noEnd c (List.mem_cons_of_mem _ isIn)
      have noEndHere := noEnd first List.mem_cons_self
      simp only [endsMember, Bool.or_eq_false_iff, Bool.and_eq_false_iff, decide_eq_false_iff_not]
        at noEndHere
      simp_all [isMemberFrom, endsMember]

theorem isMemberFrom_append_singleton
    {c : Char}
    (isMember : isMemberFrom size member = true)
    (goesOn : endsMember (size + byteSize member) c = false) :
    isMemberFrom size (member ++ [c]) = true := by
  induction member generalizing size with
  | nil =>
      simpa [isMemberFrom, byteSize] using goesOn
  | cons first rest inductionHypothesis =>
      simp only [isMemberFrom, Bool.and_eq_true] at isMember
      have others := inductionHypothesis isMember.2 (by simpa [byteSize, Nat.add_assoc] using goesOn)
      simp [isMemberFrom, isMember.1, others]

/-- A character of an identifier or of its mark is no comma and no bracket. -/
theorem endsMember_of_isIdentifierChar
    {c : Char}
    (isChar : (beginsIdentifier c || c.isDigit) = true ∨ c ∈ ['?', '!', '='])
    (unblank : Text.isBlank c = false) :
    endsMember 3 c = false := by
  have noDelimiter : c ∉ [',', '>', '\x7d', ')'] := by
    intro isDelimiter
    simp only [List.mem_cons, List.not_mem_nil, or_false] at isDelimiter
    rcases isDelimiter with rfl | rfl | rfl | rfl <;> exact absurd isChar (by decide)
  simp_all [endsMember, isClosing]

/-- The reader takes the name of a method whole, unless it has white space or is the comparison. -/
theorem IsMethodName.isMemberFrom_iff
    (isName : IsMethodName member) :
    isMemberFrom 1 member = true ↔
      (∀ c ∈ member, Text.isBlank c = false) ∧ member ≠ comparison := by
  constructor
  · intro isMember
    refine ⟨unblank_of_isMemberFrom isMember, ?_⟩
    rintro rfl
    revert isMember
    decide
  · rintro ⟨unblank, noComparison⟩
    cases isName with
    | operator isOperator =>
        have isMember : ∀ name ∈ operatorNames, name.toList ≠ comparison →
            isMemberFrom 1 name.toList = true := by
          decide
        exact isMember _ isOperator noComparison
    | identifier begins goesOn isMark =>
        apply isMemberFrom_of_forall
        intro c isIn
        refine endsMember_of_isIdentifierChar ?_ (unblank c isIn)
        rcases List.mem_cons.mp isIn with rfl | isIn
        · exact .inl (by rw [begins, Bool.true_or])
        · rcases List.mem_append.mp isIn with inRest | inMark
          · exact .inl (goesOn c inRest)
          · right
            simp only [List.mem_cons, List.not_mem_nil, or_false] at isMark
            rcases isMark with rfl | rfl | rfl | rfl <;> simp_all

end MethodNames

/-- What stands around parameters in a row. -/
inductive Holder where
  /-- Nothing stands around them: they are the alternatives of a union. -/
  | union
  /-- A name and a pair of brackets. -/
  | ordered (name : List Char) (opening closing : Char)
  /-- A name and braces, with keys and an arrow in front of the parameters. -/
  | keyed (name : List Char) (keys : List Spelling)

namespace Holder

/-- The bracket behind the parameters. -/
def closing? : Holder → Option Char
  | union => none
  | ordered _ _ closing => some closing
  | keyed _ _ => some '\x7d'

/-- What stands in front of the parameters. -/
def front : Holder → List Char
  | union => []
  | ordered name opening _ => name ++ [opening]
  | keyed name keys => name ++ '\x7b' :: (spellAll [' '] keys ++ arrow)

/-- The whole text, with the spelling of the parameters inside. -/
def around (holder : Holder) (inside : List Char) : List Char :=
  holder.front ++ (inside ++ holder.closing?.toList)

/-- What the whole text stands for. -/
def holding (parameters : List DocUnion) : Holder → DocUnion
  | union => DocUnion.join parameters
  | ordered name _ _ => [withOrdered (String.ofList name) parameters]
  | keyed name keys => [withKeyed (String.ofList name) (keys.map Spelling.union) parameters]

end Holder

/-- A holder that can be read. -/
inductive IsHolder : Holder → Prop
  | union : IsHolder .union
  | ordered {name : List Char} {opening closing : Char} (isName : IsTypeName name)
      (encloses : EnclosesOrdered opening closing) : IsHolder (.ordered name opening closing)
  | keyed {name : List Char} {keys : List Spelling} (isName : IsTypeName name)
      (readable : ∀ key ∈ keys, IsReadable key) : IsHolder (.keyed name keys)

section Holding

variable {holder : Holder} {gap inside : List Char} {spellings : List Spelling}

theorem isBehind_nil :
    IsBehind [] where
  noNameChar := nofun
  noBracket := nofun
  noMark := nofun

/-- A text that begins with a name begins without white space, and does not end a union. -/
theorem IsTypeName.goesOn
    {name : List Char}
    (isName : IsTypeName name)
    (rest : List Char) :
    Text.trimStart (name ++ rest) = name ++ rest ∧
      (Text.trimStart (name ++ rest)).head? ≠ none := by
  obtain ⟨c, others, rfl⟩ := List.exists_cons_of_ne_nil isName.notEmpty
  have unblank := isName.beginsUnblank c rfl
  simp [Text.trimStart, unblank]

/-- A whole text that is one alternative is read as this alternative. -/
theorem readChars_of_reads_alternative
    {name rest : List Char}
    (isName : IsTypeName name)
    {type : DocType}
    (reads : Reads .alternative (name ++ rest) [[type]] []) :
    DocUnion.readChars (name ++ rest) = .ok [type] := by
  obtain ⟨trimmed, goesOn⟩ := isName.goesOn rest
  rw [← trimmed] at reads
  exact DocUnion.readChars_eq_ok_iff.mpr ⟨_, [], .last goesOn reads nofun, rfl, rfl⟩

/-- Readable parameters are read off the whole text. -/
theorem IsHolder.readChars_around
    (isHolder : IsHolder holder)
    (isGap : ∀ c ∈ gap, Text.isBlank c = true)
    (readable : ∀ spelling ∈ spellings, IsReadable spelling)
    (closable : holder.closing? ≠ none → isClosable (spellings.map Spelling.union) = true) :
    DocUnion.readChars (holder.around (spellAll gap spellings)) =
      .ok (holder.holding (spellings.map Spelling.union)) := by
  cases isHolder with
  | union =>
      have isRead := DocUnion.readChars_spellAll isGap readable
      simpa [Holder.around, Holder.front, Holder.closing?, Holder.holding] using isRead
  | @ordered name opening closing isName encloses =>
      have isClosed := closable (Option.some_ne_none closing)
      have reads := reads_ordered isName encloses isGap readable isClosed false isBehind_nil
      have isRead := readChars_of_reads_alternative isName reads
      simpa [Holder.around, Holder.front, Holder.closing?, Holder.holding, withOrdered, withKeyed,
        renderNullable] using isRead
  | @keyed name keys isName readableKeys =>
      have isClosed := closable (Option.some_ne_none '\x7d')
      have reads :=
        reads_keyed isName readableKeys isGap readable isClosed false isBehind_nil
      have isRead := readChars_of_reads_alternative isName reads
      simpa [Holder.around, Holder.front, Holder.closing?, Holder.holding, withOrdered, withKeyed,
        renderNullable] using isRead

/-- The first alternative of a text that begins with a name is one of the alternatives read. -/
theorem exists_reads_first
    {name rest : List Char}
    (isName : IsTypeName name)
    {type : DocType}
    (isRead : DocUnion.readChars (name ++ rest) = .ok [type]) :
    ∃ union behind, Reads .alternative (name ++ rest) [union] behind ∧
      ∀ other ∈ union, other = type := by
  obtain ⟨trimmed, goesOn⟩ := isName.goesOn rest
  obtain ⟨unions, behind, reads, -, isJoin⟩ := DocUnion.readChars_eq_ok_iff.mp isRead
  have onlyType : ∀ union ∈ unions, ∀ other ∈ union, other = type := by
    intro union isUnion other isOther
    have isIn : other ∈ DocUnion.join unions :=
      DocUnion.mem_ofList.mpr (List.mem_flatten.mpr ⟨union, isUnion, isOther⟩)
    rw [isJoin] at isIn
    exact List.mem_singleton.mp isIn
  cases reads with
  | nothing ends =>
      exact absurd ends goesOn
  | last goesOn first noComma =>
      rw [trimmed] at first
      exact ⟨_, _, first, onlyType _ List.mem_cons_self⟩
  | further goesOn first comma others =>
      rw [trimmed] at first
      exact ⟨_, _, first, onlyType _ List.mem_cons_self⟩

/-- What is read behind a name that a bracket follows is read between the bracket and its end. -/
theorem exists_reads_ordered
    {name inner : List Char}
    (isName : IsTypeName name)
    {opening closing : Char}
    (encloses : EnclosesOrdered opening closing)
    {union : DocUnion}
    {behind : List Char}
    (reads : Reads .alternative (name ++ opening :: inner) [union] behind) :
    ∃ parameters after last nullable, Reads (.list (some closing)) inner parameters after ∧
      readDelimiter closing after = .ok last ∧
      union = [⟨String.ofList name, parameters, [], [], nullable⟩] := by
  have noNameChar : isNameChar opening = false ∧ isOpening opening = true ∧ opening ≠ '\x7b' := by
    cases encloses <;> decide
  have readsName := isName.readsName (opening :: inner) (by rintro c ⟨⟩; exact noNameChar.1)
  cases reads with
  | undefined isUndefined =>
      cases readsName.isName.symm.trans isUndefined
      exact absurd rfl readsName.isDefined
  | duck isDuck =>
      cases readsName.isName.symm.trans isDuck
      exact absurd rfl readsName.noDuck
  | bare isBare noBracket =>
      cases readsName.isName.symm.trans isBare.isName
      have isBracket := noBracket opening rfl
      rw [noNameChar.2.1] at isBracket
      cases isBracket
  | ordered isOrdered enclosesAgain inside closed =>
      cases readsName.isName.symm.trans isOrdered.isName
      cases encloses <;> cases enclosesAgain <;> exact ⟨_, _, _, _, inside, closed, rfl⟩
  | keyed isKeyed =>
      cases readsName.isName.symm.trans isKeyed.isName
      exact absurd rfl noNameChar.2.2

/-- What is read behind a name and an opening brace begins with keys. -/
theorem exists_reads_keyed
    {name inner : List Char}
    (isName : IsTypeName name)
    {union : DocUnion}
    {behind : List Char}
    (reads : Reads .alternative (name ++ '\x7b' :: inner) [union] behind) :
    ∃ keys values afterKeys dash second last afterValues nullable,
      Reads (.list (some '=')) inner keys afterKeys ∧
      readDelimiter '=' afterKeys = .ok dash ∧ readDelimiter '>' dash = .ok second ∧
      Reads (.list (some '\x7d')) second values afterValues ∧
      readDelimiter '\x7d' afterValues = .ok last ∧
      union = [⟨String.ofList name, [], keys, values, nullable⟩] := by
  have readsName := isName.readsName ('\x7b' :: inner) (by rintro c ⟨⟩; decide)
  cases reads with
  | undefined isUndefined =>
      cases readsName.isName.symm.trans isUndefined
      exact absurd rfl readsName.isDefined
  | duck isDuck =>
      cases readsName.isName.symm.trans isDuck
      exact absurd rfl readsName.noDuck
  | bare isBare noBracket =>
      cases readsName.isName.symm.trans isBare.isName
      cases noBracket '\x7b' rfl
  | ordered isOrdered encloses =>
      cases readsName.isName.symm.trans isOrdered.isName
      cases encloses
  | keyed isKeyed insideKeys hasDash hasArrow insideValues closed =>
      cases readsName.isName.symm.trans isKeyed.isName
      exact ⟨_, _, _, _, _, _, _, _, insideKeys, hasDash, hasArrow, insideValues, closed, rfl⟩

/-- What is read off the whole text is read inside, up to the bracket of the holder. -/
theorem IsHolder.exists_reads_inside
    (isHolder : IsHolder holder)
    {expected : List DocUnion}
    (isRead : DocUnion.readChars (holder.around inside) = .ok (holder.holding expected)) :
    ∃ parameters behind,
      Reads (.list holder.closing?) (inside ++ holder.closing?.toList) parameters behind ∧
      (∀ closing ∈ holder.closing?, ∃ last, readDelimiter closing behind = .ok last) ∧
      DocUnion.join parameters = DocUnion.join expected := by
  cases isHolder with
  | union =>
      simp only [Holder.around, Holder.front, List.nil_append] at isRead
      obtain ⟨parameters, behind, reads, -, isJoin⟩ := DocUnion.readChars_eq_ok_iff.mp isRead
      exact ⟨parameters, behind, reads, nofun, isJoin⟩
  | @ordered name opening closing isName encloses =>
      simp only [Holder.around, Holder.front, List.append_assoc, List.singleton_append] at isRead
      obtain ⟨union, behind, reads, onlyType⟩ := exists_reads_first isName isRead
      obtain ⟨parameters, after, last, nullable, inside, closed, rfl⟩ :=
        exists_reads_ordered isName encloses reads
      have sameType := onlyType _ List.mem_cons_self
      simp only [withOrdered, DocType.mk.injEq] at sameType
      refine ⟨parameters, after, inside, ?_, by rw [sameType.2.1]⟩
      rintro _ ⟨⟩
      exact ⟨last, closed⟩
  | @keyed name keys isName readableKeys =>
      simp only [Holder.around, Holder.front, List.append_assoc, List.cons_append] at isRead
      obtain ⟨union, behind, reads, onlyType⟩ := exists_reads_first isName isRead
      obtain ⟨keysRead, values, afterKeys, dash, second, last, afterValues, nullable, insideKeys,
        hasDash, hasArrow, insideValues, closed, rfl⟩ := exists_reads_keyed isName reads
      have sameType := onlyType _ List.mem_cons_self
      simp only [withKeyed, DocType.mk.injEq] at sameType
      -- The arrow is found where the keys end, and the blank behind it does not matter.
      obtain ⟨-, rfl⟩ := insideKeys.unique (reads_keys readableKeys _)
      cases hasDash
      cases hasArrow
      refine ⟨values, afterValues, (reads_blanks_iff isBlank_of_mem_blank).mp insideValues, ?_,
        by rw [sameType.2.2.2.1]⟩
      rintro _ ⟨⟩
      exact ⟨last, closed⟩

end Holding

section Ducks

variable {holder : Holder} {gap member : List Char} {before after : List Spelling}

/-- The spelling of a duck type. -/
def duckSpelling (member : List Char) : Spelling where
  text := '#' :: member
  union := [duck member]

theorem duckMember?_duck :
    (duck member).duckMember? = some (String.ofList member) := by
  simp [duckMember?, duck, named]

theorem isMemberFrom_of_readName
    {text behind : List Char}
    (isName : readName text = .ok ('#' :: member, behind)) :
    isMemberFrom 1 member = true := by
  rcases eq_cons_or_of_readName isName with ⟨found, rest, -, isMember, -, same⟩ | ⟨noDuck, -, -⟩
  · cases same
    have isFound := isMemberFrom_readMember 1 rest
    rwa [isMember] at isFound
  · rw [← append_of_readName isName] at noDuck
    exact absurd rfl noDuck

/-- The members of all duck types that are read hold no character that ends them. -/
theorem Reads.isMemberFrom_of_duck
    {construct : Construct}
    {text behind : List Char}
    {unions : List DocUnion}
    (reads : Reads construct text unions behind)
    {union : DocUnion}
    (isUnion : union ∈ unions)
    (isDuck : DocType.duck member ∈ union) :
    isMemberFrom 1 member = true := by
  -- Only a duck type has a name that begins with a number sign.
  have isSign : ∀ (type : DocType), DocType.duck member = type →
      type.name.toList = '#' :: member := by
    rintro type rfl
    exact String.toList_ofList
  have noSign : ∀ {name : List Char}, name.head? ≠ some '#' →
      ¬(String.ofList name).toList = '#' :: member := by
    intro name noDuck same
    rw [String.toList_ofList] at same
    exact noDuck (by rw [same]; rfl)
  induction reads with
  | undefined isName =>
      cases List.mem_singleton.mp isUnion
      cases isDuck
  | duck isName =>
      cases List.mem_singleton.mp isUnion
      have same := isSign _ (List.mem_singleton.mp isDuck)
      cases String.toList_ofList.symm.trans same
      exact isMemberFrom_of_readName isName
  | bare isName | ordered isName | keyed isName =>
      cases List.mem_singleton.mp isUnion
      exact absurd (isSign _ (List.mem_singleton.mp isDuck)) (noSign isName.noDuck)
  | nothing ends =>
      cases isUnion
  | last goesOn first noComma firstHypothesis =>
      exact firstHypothesis isUnion
  | further goesOn first comma others firstHypothesis othersHypothesis =>
      rcases List.mem_cons.mp isUnion with rfl | isOther
      · exact firstHypothesis List.mem_cons_self
      · exact othersHypothesis isOther

/-- A text behind the last spelling of a row is a text behind the row. -/
theorem spellAll_append_singleton
    (last : Spelling)
    {longer : Spelling}
    {more : List Char}
    (isLonger : longer.text = last.text ++ more) :
    spellAll gap (before ++ [longer]) = spellAll gap (before ++ [last]) ++ more := by
  induction before with
  | nil =>
      simpa using isLonger
  | cons first others inductionHypothesis =>
      cases others with
      | nil =>
          simp [spellAll_cons_cons, isLonger]
      | cons second others =>
          simp only [List.cons_append] at inductionHypothesis ⊢
          simp [spellAll_cons_cons, inductionHypothesis]

/-- The bracket behind the parameters is a closing one. -/
theorem IsHolder.isClosing_of_closing
    (isHolder : IsHolder holder)
    {closing : Char}
    (isClosed : holder.closing? = some closing) :
    isClosing closing = true := by
  cases isHolder with
  | union =>
      cases isClosed
  | ordered isName encloses =>
      cases isClosed
      cases encloses <;> rfl
  | keyed isName readable =>
      cases isClosed
      rfl

/--
A closing bracket directly behind a last member of one byte becomes a part of the member, and nothing
is left that closes the list.
-/
theorem not_reads_of_short
    (isHolder : IsHolder holder)
    {closing : Char}
    (isClosed : holder.closing? = some closing)
    (isGap : ∀ c ∈ gap, Text.isBlank c = true)
    (readable : ∀ spelling ∈ before, IsReadable spelling)
    (isMember : isMemberFrom 1 member = true)
    (isShort : byteSize member ≤ 1)
    {parameters : List DocUnion}
    {behind last : List Char}
    (reads : Reads (.list (some closing)) (spellAll gap (before ++ [duckSpelling member]) ++ [closing])
      parameters behind) :
    readDelimiter closing behind ≠ .ok last := by
  have closes := isHolder.isClosing_of_closing isClosed
  have goesOn : endsMember (1 + byteSize member) closing = false := by
    have noLong : ¬2 < 1 + byteSize member := by
      omega
    rcases eq_of_isClosing closes with rfl | rfl | rfl <;> simp [endsMember, noLong] <;> rfl
  have isLonger := isMemberFrom_append_singleton isMember goesOn
  have longerReadable : ∀ spelling ∈ before ++ [duckSpelling (member ++ [closing])],
      IsReadable spelling := by
    intro spelling isIn
    rcases List.mem_append.mp isIn with isBefore | isLast
    · exact readable spelling isBefore
    · cases List.mem_singleton.mp isLast
      exact isReadable_duck (by simp) isLonger
  have swallowed : Reads (.list (some closing))
      (spellAll gap (before ++ [duckSpelling (member ++ [closing])]) ++ [])
      ((before ++ [duckSpelling (member ++ [closing])]).map Spelling.union) [] := by
    apply reads_spellAll (isListEnd_of_isClosing closes) isGap longerReadable
    · rintro spelling - c ⟨⟩
    · exact (Option.some_ne_none ',').symm
    · simp
  rw [List.append_nil, spellAll_append_singleton (duckSpelling member) rfl] at swallowed
  obtain ⟨-, rfl⟩ := reads.unique swallowed
  intro isClosedBehind
  cases isClosedBehind

/-- A duck type that may stand last leaves the row closable, with whatever stands behind it. -/
theorem isClosable_with_duck
    (isLong : after = [] → 1 < byteSize member)
    (closable : isClosable (after.map Spelling.union) = true) :
    isClosable ((before ++ duckSpelling member :: after).map Spelling.union) = true := by
  cases after with
  | nil =>
      simp [isClosable, isClosable.isClosingBehind, duckSpelling, duckMember?_duck, isLong rfl]
  | cons first others =>
      have sameLast :
          ((before ++ duckSpelling member :: first :: others).map Spelling.union).getLast? =
            ((first :: others).map Spelling.union).getLast? := by
        simp [List.getLast?_cons]
      rwa [isClosable, sameLast]

end Ducks

end TagCheck.DocType

namespace TagCheck.DocUnion

open DocType

/--
A duck type that names a method is read in its place, with anything readable around it, exactly if the
name has no white space, is not the comparison, and is longer than one byte where a bracket follows.
-/
theorem tryRead_around_duck_iff
    {member : List Char}
    (isName : IsMethodName member)
    {holder : Holder}
    (isHolder : IsHolder holder)
    {gap : List Char}
    (isGap : ∀ c ∈ gap, Text.isBlank c = true)
    {before after : List Spelling}
    (readable : ∀ spelling ∈ before ++ after, IsReadable spelling)
    (closable : holder.closing? ≠ none → isClosable (after.map Spelling.union) = true) :
    (duck member).duckMember? = some (String.ofList member) ∧
      (tryRead (String.ofList (holder.around
            (spellAll gap (before ++ duckSpelling member :: after)))) =
          .ok (holder.holding (before.map Spelling.union ++ [duck member] ::
            after.map Spelling.union)) ↔
        (∀ c ∈ member, Text.isBlank c = false) ∧ member ≠ comparison ∧
          (holder.closing? ≠ none → after = [] → 1 < byteSize member)) := by
  refine ⟨duckMember?_duck, ?_⟩
  rw [tryRead_eq_ok_iff, String.toList_ofList, ← and_assoc, ← isName.isMemberFrom_iff]
  have sameUnions : (before ++ duckSpelling member :: after).map Spelling.union =
      before.map Spelling.union ++ [duck member] :: after.map Spelling.union := by
    simp [duckSpelling]
  rw [← sameUnions]
  constructor
  · intro isRead
    obtain ⟨parameters, behind, reads, closed, sameJoin⟩ := isHolder.exists_reads_inside isRead
    have isMember : isMemberFrom 1 member = true := by
      have isIn : duck member ∈ join parameters := by
        rw [sameJoin, sameUnions]
        exact mem_ofList.mpr (by simp)
      obtain ⟨union, isUnion, isDuck⟩ := List.mem_flatten.mp (mem_ofList.mp isIn)
      exact reads.isMemberFrom_of_duck isUnion isDuck
    refine ⟨isMember, fun isClosed isLast => ?_⟩
    obtain ⟨closing, isClosing⟩ := Option.ne_none_iff_exists'.mp isClosed
    obtain ⟨last, isClosedBehind⟩ := closed closing isClosing
    by_contra isShort
    cases isLast
    rw [isClosing] at reads
    exact not_reads_of_short isHolder isClosing isGap (by simpa using readable) isMember
      (Nat.le_of_not_lt isShort) reads isClosedBehind
  · rintro ⟨isMember, isLong⟩
    apply isHolder.readChars_around isGap
    · intro spelling isIn
      simp only [List.mem_append, List.mem_cons] at isIn readable
      rcases isIn with isBefore | rfl | isAfter
      · exact readable spelling (.inl isBefore)
      · exact isReadable_duck isName.notEmpty isMember
      · exact readable spelling (.inr isAfter)
    · exact fun isClosed => isClosable_with_duck (isLong isClosed) (closable isClosed)

end TagCheck.DocUnion

namespace TagCheck.DuckTag

open DocType

/-! An index assignment as the last value of a hash, and two names that are not read whole. -/

def member : List Char :=
  ['[', ']', '=']

def holder : Holder :=
  .keyed ['H', 'a', 's', 'h'] [canonical [named "Symbol"]]

def before : List Spelling :=
  [canonical [named "Integer"]]

def text : String :=
  "Hash\x7bSymbol => Integer,#[]=\x7d"

theorem isReadable_named
    {name : List Char}
    (isName : IsTypeName name) :
    ∀ spelling ∈ [canonical [named (String.ofList name)]], IsReadable spelling := by
  intro spelling isIn
  cases List.mem_singleton.mp isIn
  exact isReadable_of_isSpelled (.ordered isName nofun nofun rfl)

theorem isHolder :
    IsHolder holder := by
  apply IsHolder.keyed
  · decide
  · apply @isReadable_named ['S', 'y', 'm', 'b', 'o', 'l']
    decide

theorem isReadable_before :
    ∀ spelling ∈ before ++ [], IsReadable spelling := by
  apply @isReadable_named ['I', 'n', 't', 'e', 'g', 'e', 'r']
  decide

theorem tryRead_hash_of_duck :
    IsMethodName member ∧ (duck member).duckMember? = some "[]=" ∧
      DocUnion.tryRead text =
        .ok [withKeyed "Hash" [[named "Symbol"]] [[named "Integer"], [named "#[]="]]] := by
  have isName : IsMethodName member :=
    .operator (show "[]=" ∈ operatorNames by decide)
  have isGap : ∀ c ∈ ([] : List Char), Text.isBlank c = true :=
    nofun
  have isText : String.ofList (holder.around (spellAll [] (before ++ [duckSpelling member]))) =
      text := by
    decide +kernel
  obtain ⟨isMember, isRead⟩ :=
    DocUnion.tryRead_around_duck_iff isName isHolder isGap isReadable_before fun _ => rfl
  rw [isText] at isRead
  obtain ⟨unblank, noComparison⟩ := isName.isMemberFrom_iff.mp (by decide)
  exact ⟨isName, isMember, isRead.mpr ⟨unblank, noComparison, fun _ _ => by decide⟩⟩

theorem tryRead_duck_error :
    IsMethodName ['<', '=', '>'] ∧ IsMethodName ['f'] ∧
      DocUnion.tryRead "#<=>" = .error ⟨"#<=>", .unexpected '>'⟩ ∧
      DocUnion.tryRead "Array<#f>" = .error ⟨"Array<#f>", .missingDelimiter '>' none⟩ := by
  refine ⟨.operator (show "<=>" ∈ operatorNames by decide), ?_, ?_, ?_⟩
  · exact @IsMethodName.identifier 'f' [] [] (by decide) nofun (by decide)
  · decide +kernel
  · decide +kernel

end TagCheck.DuckTag
