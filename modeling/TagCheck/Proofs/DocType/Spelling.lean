import Mathlib.Data.List.TakeWhile
import TagCheck.DocType.Printer
import TagCheck.Proofs.DocType.Reading
import TagCheck.Proofs.DocType.Union
import TagCheck.Proofs.Text.Trimming

namespace TagCheck.DocType

/-!
# Reading the canonical spelling

A type that is read off a text has names that can be read, and parameters of one alternative each.
Its canonical spelling is read as the same type, whatever stands behind it, as long as the reader
cannot take that for a part of the type.
-/

/-- The number of bytes that a text takes. -/
def byteSize : List Char → Nat
  | [] => 0
  | c :: rest => c.utf8Size + byteSize rest

section Members

/-- A character that ends the member of a duck type of which so many bytes are read. -/
def endsMember (size : Nat) (c : Char) : Bool :=
  Text.isBlank c || c == ',' || (2 < size && isClosing c)

/-- No character of a member ends it. -/
def isMemberFrom (size : Nat) : List Char → Bool
  | [] => true
  | c :: rest => !endsMember size c && isMemberFrom (size + c.utf8Size) rest

theorem readMember_cons
    (size : Nat)
    (c : Char)
    (rest : List Char) :
    readMember size (c :: rest) =
      if endsMember size c then
        ([], c :: rest)
      else
        (c :: (readMember (size + c.utf8Size) rest).1, (readMember (size + c.utf8Size) rest).2) :=
  rfl

theorem isMemberFrom_readMember
    (size : Nat)
    (text : List Char) :
    isMemberFrom size (readMember size text).1 = true := by
  induction text generalizing size with
  | nil =>
      rfl
  | cons c rest inductionHypothesis =>
      by_cases ends : endsMember size c = true
      · simp [readMember_cons, ends, isMemberFrom]
      · simp [readMember_cons, ends, isMemberFrom, inductionHypothesis]

/-- A member is read up to a character that ends it. -/
theorem readMember_append_of_ends
    {size : Nat}
    {member rest : List Char}
    (isMember : isMemberFrom size member = true)
    (ends : ∀ c ∈ rest.head?, endsMember (size + byteSize member) c = true) :
    readMember size (member ++ rest) = (member, rest) := by
  induction member generalizing size with
  | nil =>
      cases rest with
      | nil =>
          rfl
      | cons c rest =>
          have endsHere : endsMember size c = true := by
            simpa [byteSize] using ends
          simp [readMember_cons, endsHere]
  | cons c member inductionHypothesis =>
      simp only [isMemberFrom, Bool.and_eq_true, Bool.not_eq_true'] at isMember
      have others : readMember (size + c.utf8Size) (member ++ rest) = (member, rest) := by
        apply inductionHypothesis isMember.2
        simpa [byteSize, Nat.add_assoc] using ends
      simp [readMember_cons, isMember.1, others]

end Members

/-- Characters behind the spelling of a union that the reader does not take for a part of it. -/
def endsSpelling (union : DocUnion) (c : Char) : Bool :=
  match union.head?.bind duckMember? with
  | some member => endsMember (1 + byteSize member.toList) c
  | none => !isNameChar c && !isOpening c && c != '?'

/-- A closing bracket may stand behind the last parameter: it is no duck type of one byte. -/
def isClosable (parameters : List DocUnion) : Bool :=
  parameters.getLast?.all fun union => isClosingBehind union
where
  /-- A closing bracket may stand behind a parameter. -/
  isClosingBehind (union : DocUnion) : Bool :=
    match union.head?.bind duckMember? with
    | some member => 1 < byteSize member.toList
    | none => true

/-- A name that the reader takes whole, and not for the undefined type. -/
structure IsTypeName (name : List Char) : Prop where
  notEmpty : name ≠ []
  areNameChars : ∀ c ∈ name, isNameChar c = true
  beginsUnblank : ∀ c ∈ name.head?, Text.isBlank c = false
  isDefined : name ≠ undefinedName

theorem isTypeName_iff
    {name : List Char} :
    IsTypeName name ↔
      name ≠ [] ∧ name.all isNameChar = true ∧
        name.head?.all (fun c => !Text.isBlank c) = true ∧ name ≠ undefinedName := by
  have unblank_iff : (name.head?.all fun c => !Text.isBlank c) = true ↔
      ∀ c ∈ name.head?, Text.isBlank c = false := by
    simp [Option.all_eq_true]
  constructor
  · rintro ⟨notEmpty, areNameChars, beginsUnblank, isDefined⟩
    exact ⟨notEmpty, List.all_eq_true.mpr areNameChars, unblank_iff.mpr beginsUnblank, isDefined⟩
  · rintro ⟨notEmpty, areNameChars, beginsUnblank, isDefined⟩
    exact ⟨notEmpty, List.all_eq_true.mp areNameChars, unblank_iff.mp beginsUnblank, isDefined⟩

instance : DecidablePred IsTypeName :=
  fun _ => decidable_of_iff _ isTypeName_iff.symm

/-- A type with a canonical spelling that can be read. -/
inductive IsSpelled : DocType → Prop
  | duck {member : List Char} (notEmpty : member ≠ []) (isMember : isMemberFrom 1 member = true) :
      IsSpelled (duck member)
  | ordered {name : List Char} {parameters : List DocUnion} {nullable : Bool}
      (isName : IsTypeName name) (single : ∀ union ∈ parameters, union.length ≤ 1)
      (spelled : ∀ union ∈ parameters, ∀ type ∈ union, IsSpelled type)
      (closable : isClosable parameters = true) :
      IsSpelled ⟨String.ofList name, parameters, [], [], nullable⟩
  | keyed {name : List Char} {keys values : List DocUnion} {nullable : Bool}
      (isName : IsTypeName name) (singleKeys : ∀ union ∈ keys, union.length ≤ 1)
      (spelledKeys : ∀ union ∈ keys, ∀ type ∈ union, IsSpelled type)
      (singleValues : ∀ union ∈ values, union.length ≤ 1)
      (spelledValues : ∀ union ∈ values, ∀ type ∈ union, IsSpelled type)
      (closable : isClosable values = true) :
      IsSpelled ⟨String.ofList name, [], keys, values, nullable⟩

section Names

variable {name rest : List Char}

theorem noDuck_of_areNameChars
    (areNameChars : ∀ c ∈ name, isNameChar c = true) :
    name.head? ≠ some '#' := by
  intro isDuck
  obtain ⟨member, rfl⟩ := List.head?_eq_some_iff.mp isDuck
  exact absurd (areNameChars '#' List.mem_cons_self) (by decide)

/-- Characters of names are read up to one that is none. -/
theorem readName_append_of_areNameChars
    (notEmpty : name ≠ [])
    (areNameChars : ∀ c ∈ name, isNameChar c = true)
    (ends : ∀ c ∈ rest.head?, isNameChar c = false) :
    readName (name ++ rest) = .ok (name, rest) := by
  have spanned : (name ++ rest).span isNameChar = (name, rest) :=
    Text.span_append areNameChars ends
  have noDuck := noDuck_of_areNameChars areNameChars
  cases name with
  | nil =>
      exact absurd rfl notEmpty
  | cons c name =>
      unfold readName
      split
      · next begins =>
          simp_all
      · rw [spanned]

theorem readName_duck
    {member : List Char}
    (notEmpty : member ≠ [])
    (isMember : isMemberFrom 1 member = true)
    (ends : ∀ c ∈ rest.head?, endsMember (1 + byteSize member) c = true) :
    readName ('#' :: member ++ rest) = .ok ('#' :: member, rest) := by
  have found := readMember_append_of_ends isMember ends
  cases member with
  | nil =>
      exact absurd rfl notEmpty
  | cons c member =>
      simp only [readName, List.cons_append] at found ⊢
      simp only [found]

theorem IsTypeName.readsName
    (isName : IsTypeName name)
    (rest : List Char)
    (ends : ∀ c ∈ rest.head?, isNameChar c = false) :
    ReadsName (name ++ rest) name rest where
  isName := readName_append_of_areNameChars isName.notEmpty isName.areNameChars ends
  isDefined := isName.isDefined
  noDuck := noDuck_of_areNameChars isName.areNameChars

end Names

section Boundaries

variable {union : DocUnion}

/-- What ends every member, and belongs to no other type, ends every spelling. -/
theorem endsSpelling_of_endsMember
    {c : Char}
    (endsAll : ∀ size, endsMember size c = true)
    (isBehind : (!isNameChar c && !isOpening c && c != '?') = true) :
    endsSpelling union c = true := by
  unfold endsSpelling
  split
  · exact endsAll _
  · exact isBehind

theorem endsSpelling_comma :
    endsSpelling union ',' = true :=
  endsSpelling_of_endsMember (fun _ => rfl) rfl

theorem endsSpelling_blank :
    endsSpelling union ' ' = true :=
  endsSpelling_of_endsMember (fun _ => rfl) rfl

theorem eq_of_isClosing
    {c : Char}
    (closes : isClosing c = true) :
    c = '>' ∨ c = '\x7d' ∨ c = ')' := by
  simpa [isClosing, or_assoc] using closes

/-- A closing bracket ends the spelling of a parameter that may stand last. -/
theorem endsSpelling_of_isClosing
    (closable : isClosable.isClosingBehind union = true)
    {c : Char}
    (closes : isClosing c = true) :
    endsSpelling union c = true := by
  unfold endsSpelling
  unfold isClosable.isClosingBehind at closable
  split
  · next member isDuck =>
      simp only [isDuck, decide_eq_true_eq] at closable
      have isLong : 2 < 1 + byteSize member.toList := by
        omega
      simp [endsMember, isLong, closes]
  · rcases eq_of_isClosing closes with rfl | rfl | rfl <;> rfl

theorem duckMember?_of_isTypeName
    {name : List Char}
    (isName : IsTypeName name)
    (ordered keys values : List DocUnion)
    (nullable : Bool) :
    duckMember? ⟨String.ofList name, ordered, keys, values, nullable⟩ = none := by
  have noDuck := noDuck_of_areNameChars isName.areNameChars
  unfold duckMember?
  split
  · next member begins =>
      simp [String.toList_ofList.symm.trans begins] at noDuck
  · rfl

theorem endsSpelling_of_isTypeName
    {name : List Char}
    (isName : IsTypeName name)
    {ordered keys values : List DocUnion}
    {nullable : Bool}
    {c : Char} :
    endsSpelling [⟨String.ofList name, ordered, keys, values, nullable⟩] c = true ↔
      isNameChar c = false ∧ isOpening c = false ∧ c ≠ '?' := by
  simp [endsSpelling, duckMember?_of_isTypeName isName, and_assoc]

end Boundaries

/-- A text, and the union that it stands for. -/
structure Spelling where
  text : List Char
  union : DocUnion

/-- The canonical spelling of a union. -/
def canonical (union : DocUnion) : Spelling where
  text := renderUnion union
  union := union

/-- The text is read as the union, wherever a character stands behind it that ends it. -/
structure IsReadable (spelling : Spelling) : Prop where
  begins : ∃ c text, spelling.text = c :: text ∧ Text.isBlank c = false ∧
    (isNameChar c = true ∨ c = '#')
  reads : ∀ rest, (∀ c ∈ rest.head?, endsSpelling spelling.union c = true) →
    Reads .alternative (spelling.text ++ rest) [spelling.union] rest

/-- Spellings in a row, with a comma and the same white space between them. -/
def spellAll (gap : List Char) (spellings : List Spelling) : List Char :=
  List.intercalate (',' :: gap) (spellings.map Spelling.text)

section Lists

variable {close : Option Char} {gap text rest : List Char}

/-- White space in front of a list does not matter. -/
theorem Reads.of_trimStart
    {text' : List Char}
    (sameStart : Text.trimStart text = Text.trimStart text')
    {unions : List DocUnion}
    {behind : List Char}
    (reads : Reads (.list close) text unions behind) :
    Reads (.list close) text' unions behind := by
  cases reads with
  | nothing ends =>
      rw [sameStart] at ends ⊢
      exact .nothing ends
  | last goesOn first noComma =>
      rw [sameStart] at goesOn first
      exact .last goesOn first noComma
  | further goesOn first comma others =>
      rw [sameStart] at goesOn first
      exact .further goesOn first comma others

theorem reads_blanks_iff
    (isGap : ∀ c ∈ gap, Text.isBlank c = true)
    {unions : List DocUnion}
    {behind : List Char} :
    Reads (.list close) (gap ++ text) unions behind ↔ Reads (.list close) text unions behind := by
  have sameStart : Text.trimStart (gap ++ text) = Text.trimStart text :=
    Text.trimStart_append_of_blank isGap text
  exact ⟨.of_trimStart sameStart, .of_trimStart sameStart.symm⟩

/-- The blank behind the commas of a canonical spelling is white space. -/
theorem isBlank_of_mem_blank :
    ∀ c ∈ [' '], Text.isBlank c = true :=
  List.forall_mem_singleton.mpr rfl

/-- A list may end before a character that begins no alternative. -/
def IsListEnd (close : Option Char) : Prop :=
  ∀ c ∈ close, isNameChar c = false ∧ c ≠ '#'

theorem isListEnd_of_isClosing
    {c : Char}
    (closes : isClosing c = true) :
    IsListEnd (some c) := by
  rintro c ⟨⟩
  rcases eq_of_isClosing closes with rfl | rfl | rfl <;> decide

/-- Where a spelling begins, a list goes on. -/
theorem IsReadable.goesOn
    (isEnd : IsListEnd close)
    {spelling : Spelling}
    (readable : IsReadable spelling)
    (rest : List Char) :
    Text.trimStart (spelling.text ++ rest) = spelling.text ++ rest ∧
      (spelling.text ++ rest).head? ≠ close := by
  obtain ⟨c, text, isText, unblank, isStart⟩ := readable.begins
  rw [isText]
  constructor
  · simp [Text.trimStart, unblank]
  · intro closes
    obtain ⟨noNameChar, noDuck⟩ := isEnd c closes.symm
    rcases isStart with isNameChar | isDuck
    · rw [noNameChar] at isNameChar
      cases isNameChar
    · exact noDuck isDuck

theorem spellAll_cons_cons
    (first second : Spelling)
    (others : List Spelling) :
    spellAll gap (first :: second :: others) =
      first.text ++ ',' :: (gap ++ spellAll gap (second :: others)) := by
  simp [spellAll, List.intercalate]

@[simp] theorem spellAll_singleton
    (spelling : Spelling) :
    spellAll gap [spelling] = spelling.text := by
  simp [spellAll, List.intercalate]

/-- The canonical spelling of a parameter list is a row of canonical spellings. -/
theorem renderParameters_eq_spellAll
    (parameters : List DocUnion) :
    renderParameters parameters = spellAll [' '] (parameters.map canonical) := by
  induction parameters with
  | nil =>
      rfl
  | cons first others inductionHypothesis =>
      cases others with
      | nil =>
          simp [renderParameters, renderFurtherParameters, canonical]
      | cons second others =>
          simp only [List.map_cons] at inductionHypothesis ⊢
          rw [spellAll_cons_cons, ← inductionHypothesis]
          simp [renderParameters, renderFurtherParameters, canonical]

/-- Readable spellings in a row are read as their unions, if what stands behind ends the last one. -/
theorem reads_spellAll
    (isEnd : IsListEnd close)
    (isGap : ∀ c ∈ gap, Text.isBlank c = true)
    {spellings : List Spelling}
    (readable : ∀ spelling ∈ spellings, IsReadable spelling)
    (ends : ∀ spelling ∈ spellings.getLast?, ∀ c ∈ rest.head?,
      endsSpelling spelling.union c = true)
    (noComma : (Text.trimStart rest).head? ≠ some ',')
    (closes : spellings = [] → (Text.trimStart rest).head? = close) :
    Reads (.list close) (spellAll gap spellings ++ rest) (spellings.map Spelling.union)
      (Text.trimStart rest) := by
  induction spellings with
  | nil =>
      exact .nothing (closes rfl)
  | cons first others inductionHypothesis =>
      have firstReadable := readable first List.mem_cons_self
      cases others with
      | nil =>
          obtain ⟨trimmed, goesOn⟩ := firstReadable.goesOn isEnd rest
          have readsFirst := firstReadable.reads rest (ends first rfl)
          rw [spellAll_singleton]
          rw [← trimmed] at goesOn readsFirst
          exact .last goesOn readsFirst noComma
      | cons second others =>
          have readsOthers :=
            inductionHypothesis (fun spelling member => readable spelling (.tail _ member)) ends nofun
          rw [spellAll_cons_cons, List.append_assoc, List.cons_append, List.append_assoc]
          have readsFirst :=
            firstReadable.reads (',' :: (gap ++ (spellAll gap (second :: others) ++ rest)))
              (by rintro c ⟨⟩; exact endsSpelling_comma)
          obtain ⟨trimmed, goesOn⟩ := firstReadable.goesOn isEnd
            (',' :: (gap ++ (spellAll gap (second :: others) ++ rest)))
          rw [← trimmed] at goesOn readsFirst
          exact .further goesOn readsFirst rfl ((reads_blanks_iff isGap).mpr readsOthers)

end Lists

section Alternatives

variable {name rest : List Char}

/-- The spelling of a question mark, if there is one. -/
def renderNullable (nullable : Bool) : List Char :=
  if nullable then ['?'] else []

/-- What stands behind a type and its question mark ends its name, its parameters and the mark. -/
structure IsBehind (rest : List Char) : Prop where
  noNameChar : ∀ c ∈ rest.head?, isNameChar c = false
  noBracket : ∀ c ∈ rest.head?, isOpening c = false
  noMark : rest.head? ≠ some '?'

theorem IsBehind.of_endsSpelling
    (isName : IsTypeName name)
    {ordered keys values : List DocUnion}
    {nullable : Bool}
    (ends : ∀ c ∈ rest.head?,
      endsSpelling [⟨String.ofList name, ordered, keys, values, nullable⟩] c = true) :
    IsBehind rest where
  noNameChar c begins := ((endsSpelling_of_isTypeName isName).mp (ends c begins)).1
  noBracket c begins := ((endsSpelling_of_isTypeName isName).mp (ends c begins)).2.1
  noMark begins := ((endsSpelling_of_isTypeName isName).mp (ends '?' begins)).2.2 rfl

theorem readNullable_append
    (nullable : Bool)
    (behind : IsBehind rest) :
    readNullable (renderNullable nullable ++ rest) = (nullable, rest) := by
  cases nullable with
  | true =>
      rfl
  | false =>
      unfold readNullable
      split
      · next begins =>
          exact absurd (congrArg List.head? begins) behind.noMark
      · rfl

theorem reads_bare
    (isName : IsTypeName name)
    (nullable : Bool)
    (behind : IsBehind rest) :
    Reads .alternative (name ++ (renderNullable nullable ++ rest))
      [[⟨String.ofList name, [], [], [], nullable⟩]] rest := by
  have readsName : ReadsName (name ++ (renderNullable nullable ++ rest)) name
      (renderNullable nullable ++ rest) := by
    refine isName.readsName _ ?_
    cases nullable with
    | true =>
        rintro c ⟨⟩
        decide
    | false =>
        exact behind.noNameChar
  have noBracket : ∀ c ∈ (renderNullable nullable ++ rest).head?, isOpening c = false := by
    cases nullable with
    | true =>
        rintro c ⟨⟩
        decide
    | false =>
        exact behind.noBracket
  have reads := Reads.bare readsName noBracket
  rw [readNullable_append nullable behind] at reads
  exact reads

end Alternatives

section Brackets

variable {name gap rest : List Char} {spellings : List Spelling}

/-- Spellings in a row are read up to the bracket that closes them. -/
theorem reads_spellAll_closing
    (isGap : ∀ c ∈ gap, Text.isBlank c = true)
    (readable : ∀ spelling ∈ spellings, IsReadable spelling)
    (closable : isClosable (spellings.map Spelling.union) = true)
    {closing : Char}
    (closes : isClosing closing = true)
    (rest : List Char) :
    Reads (.list (some closing)) (spellAll gap spellings ++ closing :: rest)
      (spellings.map Spelling.union) (closing :: rest) := by
  have trimmed : Text.trimStart (closing :: rest) = closing :: rest := by
    rcases eq_of_isClosing closes with rfl | rfl | rfl <;> rfl
  have noComma : (Text.trimStart (closing :: rest)).head? ≠ some ',' := by
    rcases eq_of_isClosing closes with rfl | rfl | rfl <;> simp [trimmed]
  have ends : ∀ spelling ∈ spellings.getLast?, ∀ c ∈ (closing :: rest).head?,
      endsSpelling spelling.union c = true := by
    rintro spelling isLast c ⟨⟩
    apply endsSpelling_of_isClosing _ closes
    apply (Option.all_eq_true _ _).mp closable spelling.union
    rw [List.getLast?_map, isLast]
    rfl
  have reads := reads_spellAll (isListEnd_of_isClosing closes) isGap readable ends noComma
    fun _ => by simp [trimmed]
  rwa [trimmed] at reads

/-- Positional parameters, of which there may be none, are read in either pair of brackets. -/
theorem reads_ordered
    (isName : IsTypeName name)
    {opening closing : Char}
    (encloses : EnclosesOrdered opening closing)
    (isGap : ∀ c ∈ gap, Text.isBlank c = true)
    (readable : ∀ spelling ∈ spellings, IsReadable spelling)
    (closable : isClosable (spellings.map Spelling.union) = true)
    (nullable : Bool)
    (behind : IsBehind rest) :
    Reads .alternative
      (name ++ opening :: (spellAll gap spellings ++
        closing :: (renderNullable nullable ++ rest)))
      [[⟨String.ofList name, spellings.map Spelling.union, [], [], nullable⟩]] rest := by
  have noNameChar : isNameChar opening = false ∧ isClosing closing = true := by
    cases encloses <;> decide
  have readsName := isName.readsName (opening :: (spellAll gap spellings ++
    closing :: (renderNullable nullable ++ rest))) (by rintro c ⟨⟩; exact noNameChar.1)
  have inside := reads_spellAll_closing isGap readable closable noNameChar.2
    (renderNullable nullable ++ rest)
  have closed : readDelimiter closing (closing :: (renderNullable nullable ++ rest)) =
      .ok (renderNullable nullable ++ rest) := by
    cases encloses <;> rfl
  have reads := Reads.ordered readsName encloses inside closed
  rw [readNullable_append nullable behind] at reads
  exact reads

/-- What stands between the keys and the values. -/
def arrow : List Char :=
  [' ', '=', '>', ' ']

/-- Keys are read up to the arrow. -/
theorem reads_keys
    {keys : List Spelling}
    (readable : ∀ spelling ∈ keys, IsReadable spelling)
    (rest : List Char) :
    Reads (.list (some '=')) (spellAll [' '] keys ++ (arrow ++ rest)) (keys.map Spelling.union)
      ('=' :: '>' :: ' ' :: rest) := by
  have isEnd : IsListEnd (some '=') := by
    rintro c ⟨⟩
    decide
  have noComma : (Text.trimStart (arrow ++ rest)).head? ≠ some ',' := by
    simp [arrow, Text.trimStart, Text.isBlank]
  exact reads_spellAll isEnd isBlank_of_mem_blank readable
    (by rintro union - c ⟨⟩; exact endsSpelling_blank) noComma fun _ => rfl

/-- Keys and values, of which there may be none, are read in their braces. -/
theorem reads_keyed
    (isName : IsTypeName name)
    {keys : List Spelling}
    (readableKeys : ∀ spelling ∈ keys, IsReadable spelling)
    (isGap : ∀ c ∈ gap, Text.isBlank c = true)
    (readable : ∀ spelling ∈ spellings, IsReadable spelling)
    (closable : isClosable (spellings.map Spelling.union) = true)
    (nullable : Bool)
    (behind : IsBehind rest) :
    Reads .alternative
      (name ++ '\x7b' :: (spellAll [' '] keys ++
        (arrow ++ (spellAll gap spellings ++ '\x7d' :: (renderNullable nullable ++ rest)))))
      [[⟨String.ofList name, [], keys.map Spelling.union, spellings.map Spelling.union, nullable⟩]]
      rest := by
  have readsName := isName.readsName ('\x7b' :: (spellAll [' '] keys ++
        (arrow ++ (spellAll gap spellings ++ '\x7d' :: (renderNullable nullable ++ rest)))))
    (by rintro c ⟨⟩; decide)
  have insideKeys := reads_keys readableKeys
    (spellAll gap spellings ++ '\x7d' :: (renderNullable nullable ++ rest))
  have isBrace : isClosing '\x7d' = true := rfl
  have insideValues := (reads_blanks_iff isBlank_of_mem_blank).mpr
    (reads_spellAll_closing isGap readable closable isBrace (renderNullable nullable ++ rest))
  have reads := Reads.keyed readsName insideKeys rfl rfl insideValues rfl
  rw [readNullable_append nullable behind] at reads
  exact reads

end Brackets

section Canonical

/-- At most one alternative is readable as a parameter, if it is readable by itself. -/
theorem isReadable_of_spelled
    {union : DocUnion}
    (single : union.length ≤ 1)
    (spelled : ∀ type ∈ union, IsReadable (canonical [type])) :
    IsReadable (canonical union) := by
  match union with
  | [] =>
      refine ⟨⟨'u', _, rfl, by decide, .inl (by decide)⟩, fun rest ends => ?_⟩
      apply Reads.undefined
      apply readName_append_of_areNameChars
      · exact List.cons_ne_nil _ _
      · exact List.all_eq_true.mp rfl
      · intro c begins
        have endsHere : endsSpelling [] c = true := ends c begins
        simp only [endsSpelling, List.head?_nil, Option.bind_none, Bool.and_eq_true,
          Bool.not_eq_true'] at endsHere
        exact endsHere.1.1
  | [type] =>
      exact spelled type List.mem_cons_self
  | _ :: _ :: _ =>
      simp at single

theorem isReadable_of_forall_spelled
    {parameters : List DocUnion}
    (single : ∀ union ∈ parameters, union.length ≤ 1)
    (spelled : ∀ union ∈ parameters, ∀ type ∈ union, IsReadable (canonical [type])) :
    ∀ spelling ∈ parameters.map canonical, IsReadable spelling := by
  intro spelling member
  obtain ⟨union, isParameter, rfl⟩ := List.mem_map.mp member
  exact isReadable_of_spelled (single union isParameter) (spelled union isParameter)

@[simp] theorem map_union_canonical
    (parameters : List DocUnion) :
    (parameters.map canonical).map Spelling.union = parameters := by
  simp [canonical, Function.comp_def]

@[simp] theorem renderUnion_singleton
    (type : DocType) :
    renderUnion [type] = render type := by
  simp [renderUnion, renderFurtherTypes]

theorem isReadable_of_isTypeName
    {name : List Char}
    (spelling : List Char)
    (isName : IsTypeName name)
    {ordered keys values : List DocUnion}
    {nullable : Bool}
    (isSpelling :
      render ⟨String.ofList name, ordered, keys, values, nullable⟩ =
        name ++ (spelling ++ renderNullable nullable))
    (reads : ∀ rest, IsBehind rest →
      Reads .alternative (name ++ (spelling ++ (renderNullable nullable ++ rest)))
        [[⟨String.ofList name, ordered, keys, values, nullable⟩]] rest) :
    IsReadable (canonical [⟨String.ofList name, ordered, keys, values, nullable⟩]) := by
  have isText := (renderUnion_singleton _).trans isSpelling
  refine ⟨?_, fun rest ends => ?_⟩
  · obtain ⟨c, others, isCons⟩ := List.exists_cons_of_ne_nil isName.notEmpty
    refine ⟨c, others ++ (spelling ++ renderNullable nullable), ?_, ?_, .inl ?_⟩
    · rw [canonical, isText, isCons, List.cons_append]
    · exact isName.beginsUnblank c (by rw [isCons]; rfl)
    · exact isName.areNameChars c (by rw [isCons]; exact List.mem_cons_self)
  · rw [canonical, isText]
    simpa using reads rest (.of_endsSpelling isName ends)

/-- The spelling of a duck type is readable. -/
theorem isReadable_duck
    {member : List Char}
    (notEmpty : member ≠ [])
    (isMember : isMemberFrom 1 member = true) :
    IsReadable ⟨'#' :: member, [duck member]⟩ := by
  refine ⟨⟨'#', member, rfl, by decide, .inr rfl⟩, fun rest ends => ?_⟩
  have endsHere : ∀ c ∈ rest.head?, endsMember (1 + byteSize member) c = true := by
    simpa [endsSpelling, duckMember?, duck, named] using ends
  exact .duck (readName_duck notEmpty isMember endsHere)

theorem isReadable_of_isSpelled
    {type : DocType}
    (spelled : IsSpelled type) :
    IsReadable (canonical [type]) := by
  induction spelled with
  | @duck member notEmpty isMember =>
      have isSpelling : canonical [duck member] = ⟨'#' :: member, [duck member]⟩ := by
        simp [canonical, render, duck, named]
      rw [isSpelling]
      exact isReadable_duck notEmpty isMember
  | @ordered name parameters nullable isName single spelled closable spelledHypothesis =>
      have readable := isReadable_of_forall_spelled single spelledHypothesis
      by_cases isBare : parameters = []
      · cases isBare
        apply isReadable_of_isTypeName [] isName
        · simp [render, renderNullable]
        · exact fun rest behind => reads_bare isName nullable behind
      · apply isReadable_of_isTypeName
          ('<' :: (spellAll [' '] (parameters.map canonical) ++ ['>'])) isName
        · simp [render, renderNullable, isBare, renderParameters_eq_spellAll]
        · intro rest behind
          rw [← map_union_canonical parameters] at closable
          have reads := reads_ordered isName .angle isBlank_of_mem_blank readable closable nullable behind
          rw [map_union_canonical] at reads
          simpa using reads
  | @keyed name keys values nullable isName singleKeys spelledKeys singleValues spelledValues closable
      keysHypothesis valuesHypothesis =>
      have readableKeys := isReadable_of_forall_spelled singleKeys keysHypothesis
      have readableValues := isReadable_of_forall_spelled singleValues valuesHypothesis
      by_cases isBare : keys = [] ∧ values = []
      · obtain ⟨rfl, rfl⟩ := isBare
        apply isReadable_of_isTypeName [] isName
        · simp [render, renderNullable]
        · exact fun rest behind => reads_bare isName nullable behind
      · apply isReadable_of_isTypeName
          ('\x7b' :: (spellAll [' '] (keys.map canonical) ++
            (arrow ++ (spellAll [' '] (values.map canonical) ++ ['\x7d'])))) isName
        · have isKeyed : (!keys.isEmpty || !values.isEmpty) = true := by
            simp only [Bool.or_eq_true, Bool.not_eq_true', List.isEmpty_eq_false_iff]
            exact not_and_or.mp isBare
          simp [render, renderNullable, isKeyed, renderParameters_eq_spellAll, arrow]
        · intro rest behind
          rw [← map_union_canonical values] at closable
          have reads :=
            reads_keyed isName readableKeys isBlank_of_mem_blank readableValues closable nullable
              behind
          rw [map_union_canonical, map_union_canonical] at reads
          simpa using reads

end Canonical

/-- A parameter that can be spelled and is no duck type. -/
structure IsPlainParameter (union : DocUnion) : Prop where
  single : union.length ≤ 1
  spelled : ∀ type ∈ union, IsSpelled type
  noDuck : ∀ type ∈ union, type.duckMember? = none

theorem isClosable_of_plain
    {parameters : List DocUnion}
    (plain : ∀ union ∈ parameters, IsPlainParameter union) :
    isClosable parameters = true := by
  refine (Option.all_eq_true _ _).mpr fun union isLast => ?_
  have noDuck := (plain union (List.mem_of_getLast? isLast)).noDuck
  cases union with
  | nil =>
      rfl
  | cons type others =>
      simp [isClosable.isClosingBehind, noDuck type List.mem_cons_self]

section WholeNames

variable {text name behind : List Char}

/-- A name that is no duck type stands here, up to the first character of another kind. -/
structure IsWholeName (name behind : List Char) : Prop where
  notEmpty : name ≠ []
  areNameChars : ∀ c ∈ name, isNameChar c = true
  ends : ∀ c ∈ behind.head?, isNameChar c = false

theorem isWholeName_of_readName
    (isName : readName text = .ok (name, behind))
    (noDuck : name.head? ≠ some '#') :
    IsWholeName name behind := by
  rcases eq_cons_or_of_readName isName with ⟨member, -, -, -, -, rfl⟩ | ⟨-, notEmpty, spanned⟩
  · exact absurd rfl noDuck
  · rw [List.span_eq_takeWhile_dropWhile, Prod.mk.injEq] at spanned
    obtain ⟨rfl, rfl⟩ := spanned
    refine ⟨notEmpty, fun c => List.mem_takeWhile_imp, fun c begins => ?_⟩
    have notInside := List.head?_dropWhile_not isNameChar text
    rwa [Option.mem_def.mp begins] at notInside

theorem ReadsName.isWholeName
    (isName : ReadsName text name behind) :
    IsWholeName name behind :=
  isWholeName_of_readName isName.isName isName.noDuck

theorem ReadsName.isTypeName
    (isName : ReadsName text name behind)
    (unblank : ∀ c ∈ text.head?, Text.isBlank c = false) :
    IsTypeName name := by
  have isWhole := isName.isWholeName
  refine ⟨isWhole.notEmpty, isWhole.areNameChars, fun c begins => ?_, isName.isDefined⟩
  apply unblank
  rw [← append_of_readName isName.isName, List.head?_append, begins]
  rfl

end WholeNames

theorem isPlainParameter_of_isSpelled
    {type : DocType}
    (spelled : IsSpelled type)
    (noDuck : type.duckMember? = none) :
    ∀ union ∈ [[type]], IsPlainParameter union := by
  intro union member
  cases List.mem_singleton.mp member
  refine ⟨Nat.le_refl 1, fun other isType => ?_, fun other isType => ?_⟩
  · cases List.mem_singleton.mp isType
    exact spelled
  · cases List.mem_singleton.mp isType
    exact noDuck

theorem notMem_of_suffix
    {c : Char}
    {text behind : List Char}
    (notMem : c ∉ text)
    (isSuffix : behind <:+ text) :
    c ∉ behind :=
  fun member => notMem (isSuffix.subset member)

/-- Parameters that are read off a text without a number sign are plain. -/
theorem Reads.isPlainParameter
    {construct : Construct}
    {text behind : List Char}
    {unions : List DocUnion}
    (reads : Reads construct text unions behind)
    (noSign : '#' ∉ text)
    (unblank : construct = .alternative → ∀ c ∈ text.head?, Text.isBlank c = false) :
    ∀ union ∈ unions, IsPlainParameter union := by
  induction reads with
  | undefined isName =>
      rintro union member
      cases List.mem_singleton.mp member
      exact ⟨Nat.zero_le 1, nofun, nofun⟩
  | duck isName =>
      exact absurd (append_of_readName isName ▸ List.mem_cons_self) noSign
  | bare isName noBracket =>
      have isTypeName := isName.isTypeName (unblank rfl)
      exact isPlainParameter_of_isSpelled (.ordered isTypeName nofun nofun rfl)
        (duckMember?_of_isTypeName isTypeName [] [] [] _)
  | ordered isName encloses inside closed insideHypothesis =>
      have isTypeName := isName.isTypeName (unblank rfl)
      have insideSigns := notMem_of_suffix noSign ((List.suffix_cons _ _).trans isName.isSuffix)
      have plain := insideHypothesis insideSigns nofun
      exact isPlainParameter_of_isSpelled
        (.ordered isTypeName (fun union member => (plain union member).single)
          (fun union member => (plain union member).spelled) (isClosable_of_plain plain))
        (duckMember?_of_isTypeName isTypeName _ [] [] _)
  | keyed isName insideKeys hasDash hasArrow insideValues closed keysHypothesis valuesHypothesis =>
      have isTypeName := isName.isTypeName (unblank rfl)
      have keySigns := notMem_of_suffix noSign ((List.suffix_cons _ _).trans isName.isSuffix)
      have valueSigns := notMem_of_suffix keySigns
        ((suffix_of_readDelimiter hasArrow).trans
          ((suffix_of_readDelimiter hasDash).trans insideKeys.isSuffix))
      have plainKeys := keysHypothesis keySigns nofun
      have plainValues := valuesHypothesis valueSigns nofun
      exact isPlainParameter_of_isSpelled
        (.keyed isTypeName (fun union member => (plainKeys union member).single)
          (fun union member => (plainKeys union member).spelled)
          (fun union member => (plainValues union member).single)
          (fun union member => (plainValues union member).spelled)
          (isClosable_of_plain plainValues))
        (duckMember?_of_isTypeName isTypeName [] _ _ _)
  | nothing ends =>
      nofun
  | last goesOn first noComma firstHypothesis =>
      have firstSigns := notMem_of_suffix noSign (trimStart_suffix _)
      exact firstHypothesis firstSigns fun _ _ => Text.isBlank_of_head?_trimStart
  | further goesOn first comma others firstHypothesis othersHypothesis =>
      have firstSigns := notMem_of_suffix noSign (trimStart_suffix _)
      have otherSigns := notMem_of_suffix firstSigns
        ((suffix_of_trimStart comma).trans first.isSuffix)
      intro union member
      rcases List.mem_cons.mp member with rfl | isOther
      · exact firstHypothesis firstSigns (fun _ _ => Text.isBlank_of_head?_trimStart) _
          List.mem_cons_self
      · exact othersHypothesis otherSigns nofun union isOther

end TagCheck.DocType

namespace TagCheck.DocUnion

open DocType

/-- A parameter list of alternatives without parameters around them is spelled like their union. -/
theorem renderFurtherParameters_singletons
    (types : List DocType) :
    renderFurtherParameters (types.map fun type => [type]) = renderFurtherTypes types := by
  induction types with
  | nil =>
      rfl
  | cons type others inductionHypothesis =>
      simp only [List.map_cons, renderFurtherParameters, renderFurtherTypes, renderUnion_singleton,
        inductionHypothesis]

theorem renderUnion_eq_renderParameters
    {union : DocUnion}
    (notEmpty : union ≠ []) :
    renderUnion union = renderParameters (union.map fun type => [type]) := by
  cases union with
  | nil =>
      exact absurd rfl notEmpty
  | cons type others =>
      simp only [List.map_cons, renderUnion, renderParameters, renderFurtherTypes, List.append_nil,
        renderFurtherParameters_singletons]

/-- Parameters of one alternative each join to their alternatives. -/
theorem join_singletons
    {union : DocUnion}
    (nodup : union.Nodup) :
    join (union.map fun type => [type]) = union := by
  have flattened : (union.map fun type => [type]).flatten = union := by
    induction union <;> simp_all
  rw [join, flattened, ofList_of_nodup nodup]

/-- Readable spellings in a row are read as the union of all that they stand for. -/
theorem readChars_spellAll
    {gap : List Char}
    (isGap : ∀ c ∈ gap, Text.isBlank c = true)
    {spellings : List Spelling}
    (readable : ∀ spelling ∈ spellings, IsReadable spelling) :
    readChars (spellAll gap spellings) = .ok (join (spellings.map Spelling.union)) := by
  have isEnd : IsListEnd none := nofun
  have reads : Reads (.list none) (spellAll gap spellings ++ []) (spellings.map Spelling.union) [] :=
    reads_spellAll isEnd isGap readable nofun nofun fun _ => rfl
  rw [List.append_nil] at reads
  exact readChars_eq_ok_iff.mpr ⟨_, [], reads, rfl, rfl⟩

/-- A union without repetition whose alternatives can be spelled is read off its spelling. -/
theorem readChars_renderUnion
    {union : DocUnion}
    (nodup : union.Nodup)
    (spelled : ∀ type ∈ union, IsSpelled type) :
    readChars (renderUnion union) = .ok union := by
  by_cases isUndefined : union = []
  · have readable : ∀ spelling ∈ [canonical []], IsReadable spelling := by
      intro spelling member
      cases List.mem_singleton.mp member
      exact isReadable_of_spelled (Nat.zero_le 1) nofun
    cases isUndefined
    exact @readChars_spellAll [] nofun _ readable
  · have readable : ∀ spelling ∈ (union.map fun type => [type]).map canonical,
        IsReadable spelling := by
      apply isReadable_of_forall_spelled
      · simp
      · simpa using fun type member => isReadable_of_isSpelled (spelled type member)
    rw [renderUnion_eq_renderParameters isUndefined, renderParameters_eq_spellAll,
      readChars_spellAll isBlank_of_mem_blank readable, map_union_canonical, join_singletons nodup]

theorem tryRead_eq_ok_iff
    {text : String}
    {union : DocUnion} :
    tryRead text = .ok union ↔ readChars text.toList = .ok union := by
  unfold tryRead
  cases readChars text.toList <;> simp [Except.mapError]

/--
A union that is read off a tag without duck types is read off its own canonical tag again.
-/
theorem tryRead_tag_of_tryRead
    {text : String}
    (noSign : '#' ∉ text.toList)
    {union : DocUnion}
    (isRead : tryRead text = .ok union) :
    tryRead union.tag = .ok union := by
  obtain ⟨parameters, behind, reads, -, rfl⟩ :=
    readChars_eq_ok_iff.mp (tryRead_eq_ok_iff.mp isRead)
  have plain := reads.isPlainParameter noSign nofun
  have spelled : ∀ type ∈ join parameters, IsSpelled type := by
    intro type member
    obtain ⟨parameter, isParameter, isAlternative⟩ := List.mem_flatten.mp (mem_ofList.mp member)
    exact (plain parameter isParameter).spelled type isAlternative
  rw [tryRead_eq_ok_iff, tag, String.toList_ofList]
  exact readChars_renderUnion nodup_ofList spelled

end TagCheck.DocUnion

namespace TagCheck.NestedTag

/-!
A tag with nested, empty and undefined parameters, both kinds of brackets, question marks, white
space, trailing commas and a repeated alternative.
-/

def text : String :=
  " Hash\x7b Symbol , undefined=>Array(String? ,Integer , ) , Foo<> \x7d? , nil,\tnil, "

def strings : DocType :=
  .withOrdered "Array" [[{ DocType.named "String" with nullable := true }], [.named "Integer"]]

def union : DocUnion :=
  [{ DocType.withKeyed "Hash" [[.named "Symbol"], []] [[strings], [.named "Foo"]] with
      nullable := true },
    .named "nil"]

theorem tryRead_tag_of_text :
    '#' ∉ text.toList ∧ DocUnion.tryRead text = .ok union ∧
      union.tag = "Hash\x7bSymbol, undefined => Array<String?, Integer>, Foo\x7d?, nil" ∧
      DocUnion.tryRead union.tag = .ok union := by
  have noSign : '#' ∉ text.toList := by
    decide +kernel
  have isRead : DocUnion.tryRead text = .ok union := by
    decide +kernel
  exact ⟨noSign, isRead, by decide +kernel, DocUnion.tryRead_tag_of_tryRead noSign isRead⟩

end TagCheck.NestedTag
