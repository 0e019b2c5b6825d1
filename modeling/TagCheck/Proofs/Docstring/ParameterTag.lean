import Mathlib.Data.List.Infix
import TagCheck.Docstring
import TagCheck.Proofs.Text.Lines

namespace TagCheck

/-!
# Tags about parameters

A tag about a parameter names it in front of the types or behind them.  Both spellings are read as the
same tag, with any white space between the parts, and whatever stands on the other lines of the
comment.
-/

namespace Text

/-- White space between two words of a line. -/
structure IsGap (gap : List Char) : Prop where
  notEmpty : gap ≠ []
  areBlank : ∀ c ∈ gap, isBlank c = true
  oneLine : '\n' ∉ gap

/-- A text that ends, or goes on with white space. -/
def EndsWord (text : List Char) : Prop :=
  ∀ c ∈ text.head?, isBlank c = true

section Words

variable {word gap rest : List Char}

theorem IsGap.endsWord_append
    (isGap : IsGap gap)
    (rest : List Char) :
    EndsWord (gap ++ rest) := by
  intro c isFirst
  rw [List.head?_append_of_ne_nil _ isGap.notEmpty] at isFirst
  exact isGap.areBlank c (List.mem_of_head? isFirst)

/-- What is left of a text that ends a word ends it too. -/
theorem EndsWord.trimEnd
    (ends : EndsWord rest) :
    EndsWord (trimEnd rest) := by
  intro c isFirst
  obtain ⟨behind, isText⟩ := trimEnd_prefix rest
  apply ends
  rw [← isText, Option.mem_def, List.head?_append, Option.mem_def.mp isFirst, Option.some_or]

/-- A word goes up to the white space behind it. -/
theorem splitWord_append
    (isWord : ∀ c ∈ word, isBlank c = false)
    (notEmpty : word ≠ [])
    (ends : EndsWord rest) :
    splitWord (word ++ rest) = (word, rest) := by
  have begins : ∀ c ∈ (word ++ rest).head?, isBlank c = false := by
    intro c isFirst
    rw [List.head?_append_of_ne_nil _ notEmpty] at isFirst
    exact isWord c (List.mem_of_head? isFirst)
  have inWord : ∀ c ∈ word, (!isBlank c) = true := by
    simpa using isWord
  have stops : ∀ c ∈ rest.head?, (!isBlank c) = false := by
    simpa [EndsWord] using ends
  rw [splitWord, trimStart_eq_self begins]
  exact span_append inWord stops

end Words

end Text

namespace DocTag

section Brackets

/--
A text closes so many square brackets that are open in front of it, all that it opens itself, and none
that is not open.
-/
structure Closes (depth : Nat) (text : List Char) : Prop where
  noneOpen : text.count ']' = depth + text.count '['
  noneTooMany : ∀ part, part <+: text → part.count ']' ≤ depth + part.count '['

theorem closes_iff
    {depth : Nat}
    {text : List Char} :
    Closes depth text ↔
      text.count ']' = depth + text.count '[' ∧
        ∀ part ∈ text.inits, part.count ']' ≤ depth + part.count '[' := by
  simp only [List.mem_inits]
  exact ⟨fun ⟨noneOpen, noneTooMany⟩ => ⟨noneOpen, noneTooMany⟩,
    fun ⟨noneOpen, noneTooMany⟩ => ⟨noneOpen, noneTooMany⟩⟩

instance (depth : Nat) (text : List Char) : Decidable (Closes depth text) :=
  decidable_of_iff _ closes_iff.symm

/-- Behind one character so many brackets are open. -/
def openBehind (depth : Nat) (c : Char) : Nat :=
  if c = '[' then depth + 1 else if c = ']' then depth - 1 else depth

theorem Closes.tail
    {depth : Nat}
    {c : Char}
    {text : List Char}
    (closes : Closes depth (c :: text)) :
    (c = ']' → 0 < depth) ∧ Closes (openBehind depth c) text := by
  obtain ⟨noneOpen, noneTooMany⟩ := closes
  have parts : ∀ part, part <+: text → (c :: part).count ']' ≤ depth + (c :: part).count '[' := by
    intro part isPart
    exact noneTooMany _ ((List.prefix_cons_inj c).mpr isPart)
  have isOpen := parts [] List.nil_prefix
  by_cases opens : c = '['
  · subst opens
    simp only [List.count_cons, beq_iff_eq, Char.reduceEq, ↓reduceIte] at noneOpen parts
    refine ⟨nofun, ?_, fun part isPart => ?_⟩
    · simp only [openBehind, ↓reduceIte]
      omega
    · have ofPart := parts part isPart
      simp only [openBehind, ↓reduceIte]
      omega
  · by_cases closes : c = ']'
    · subst closes
      simp only [List.count_cons, List.count_nil, beq_iff_eq, Char.reduceEq, ↓reduceIte]
        at noneOpen parts isOpen
      refine ⟨fun _ => by omega, ?_, fun part isPart => ?_⟩
      · simp only [openBehind, Char.reduceEq, ↓reduceIte]
        omega
      · have ofPart := parts part isPart
        simp only [openBehind, Char.reduceEq, ↓reduceIte]
        omega
    · simp only [List.count_cons, beq_iff_eq, opens, closes, ↓reduceIte, Nat.add_zero]
        at noneOpen parts
      simp only [openBehind, opens, closes, ↓reduceIte, false_implies, true_and]
      exact ⟨noneOpen, parts⟩

/-- A text that closes all brackets but one is passed over to the bracket that closes this one. -/
theorem splitAtClosing_append
    {depth : Nat}
    {text : List Char}
    (closes : Closes depth text)
    (rest : List Char) :
    splitAtClosing (depth + 1) (text ++ ']' :: rest) = some (text, rest) := by
  induction text generalizing depth with
  | nil =>
      have isOutside : depth = 0 := by
        simpa using closes.noneOpen.symm
      simp [splitAtClosing, isOutside]
  | cons c text inductionHypothesis =>
      obtain ⟨isOpen, closesRest⟩ := closes.tail
      have inside := inductionHypothesis closesRest
      rw [List.cons_append, splitAtClosing]
      unfold openBehind at inside
      by_cases isClosing : c = ']'
      · have sameDepth : depth - 1 + 1 = depth := Nat.sub_add_cancel (isOpen isClosing)
        have notLast : ¬depth = 0 := by
          have := isOpen isClosing
          omega
        simp_all
      · by_cases isOpening : c = '[' <;> simp_all

/-- What stands between two brackets is found, if its own brackets are closed. -/
theorem bracketed?_append
    {inside : List Char}
    (balanced : Closes 0 inside)
    (rest : List Char) :
    bracketed? ('[' :: (inside ++ ']' :: rest)) = some (inside, rest) :=
  splitAtClosing_append balanced rest

end Brackets

end DocTag

/-- The name of a parameter: a word that no list of types can be taken for. -/
structure IsParameterName (name : List Char) : Prop where
  notEmpty : name ≠ []
  isWord : ∀ c ∈ name, Text.isBlank c = false
  noBracket : name.head? ≠ some '['

/-- The names of the tags about parameters. -/
def parameterKinds : List String :=
  ["param", "yieldparam", "option"]

/-- The parts of a tag about a parameter. -/
structure ParameterTag where
  kind : String
  name : List Char
  /-- The list of types, without its brackets. -/
  types : List Char
  description : List Char
  isKind : kind ∈ parameterKinds
  isName : IsParameterName name
  balanced : DocTag.Closes 0 types
  oneLine : '\n' ∉ types ++ description

namespace ParameterTag

open Text (IsGap EndsWord)

/-- The list of types in its brackets. -/
def bracketed (tag : ParameterTag) : List Char :=
  '[' :: (tag.types ++ [']'])

/-- The line says all parts of the tag, with white space between them. -/
inductive IsLine (tag : ParameterTag) : List Char → Prop
  | nameFirst {first second third : List Char} (isFirst : IsGap first) (isSecond : IsGap second)
      (isThird : IsGap third) :
      IsLine tag ('@' :: (tag.kind.toList ++ (first ++ (tag.name ++ (second ++ (tag.bracketed ++
        (third ++ tag.description)))))))
  | typesFirst {first second third : List Char} (isFirst : IsGap first) (isSecond : IsGap second)
      (isThird : IsGap third) :
      IsLine tag ('@' :: (tag.kind.toList ++ (first ++ (tag.bracketed ++ (second ++ (tag.name ++
        (third ++ tag.description)))))))

/-- What the tag says. -/
def docTag (tag : ParameterTag) : DocTag where
  name := tag.kind
  param := some (String.ofList tag.name)
  types := (DocTag.splitTypes tag.types).map String.ofList
  text := String.ofList (Text.trim tag.description)

section Reading

variable {tag : ParameterTag} {gap rest : List Char}

theorem takesParam_kind
    (tag : ParameterTag) :
    DocTag.takesParam tag.kind.toList = true := by
  have ofKind : ∀ kind ∈ parameterKinds, DocTag.takesParam kind.toList = true := by
    decide
  exact ofKind tag.kind tag.isKind

/-- The name of the tag is a word. -/
theorem isWord_kind
    (tag : ParameterTag) :
    tag.kind.toList ≠ [] ∧ ∀ c ∈ tag.kind.toList, Text.isBlank c = false := by
  have ofKind : ∀ kind ∈ parameterKinds,
      kind.toList ≠ [] ∧ kind.toList.any Text.isBlank = false := by
    decide
  obtain ⟨notEmpty, noBlank⟩ := ofKind tag.kind tag.isKind
  exact ⟨notEmpty, Text.unblank_of_any noBlank⟩

theorem bracketed?_bracketed
    (tag : ParameterTag)
    (rest : List Char) :
    DocTag.bracketed? (tag.bracketed ++ rest) = some (tag.types, rest) := by
  rw [bracketed, List.cons_append, List.append_assoc, List.singleton_append]
  exact DocTag.bracketed?_append tag.balanced rest

theorem trimStart_bracketed
    (isGap : IsGap gap) :
    Text.trimStart (gap ++ (tag.bracketed ++ rest)) = tag.bracketed ++ rest := by
  rw [Text.trimStart_append_of_blank isGap.areBlank]
  rfl

theorem head?_name
    (tag : ParameterTag)
    (rest : List Char) :
    (tag.name ++ rest).head? = tag.name.head? :=
  List.head?_append_of_ne_nil _ tag.isName.notEmpty

theorem trimStart_name
    (isGap : IsGap gap) :
    Text.trimStart (gap ++ (tag.name ++ rest)) = tag.name ++ rest := by
  refine Text.trimStart_gap_append isGap.areBlank fun c isHead => ?_
  rw [head?_name] at isHead
  exact tag.isName.isWord c (List.mem_of_head? isHead)

/-- The name of the parameter is read, and the white space behind it dropped. -/
theorem readParam_name
    (ends : EndsWord rest) :
    DocTag.readParam (tag.name ++ rest) = (some tag.name, Text.trimStart rest) := by
  unfold DocTag.readParam
  rw [Text.splitWord_append tag.isName.isWord tag.isName.notEmpty ends]
  split
  · next isEmpty =>
      rw [Prod.mk.injEq] at isEmpty
      exact absurd isEmpty.1 tag.isName.notEmpty
  · next isRead =>
      cases isRead
      rfl

/-- The tag is read from its parts, the name first. -/
theorem read_nameFirst
    {first second : List Char}
    (isFirst : IsGap first)
    (isSecond : IsGap second)
    (rest : List Char) :
    DocTag.read (tag.kind.toList ++ (first ++ (tag.name ++ (second ++ (tag.bracketed ++ rest))))) =
      { tag.docTag with text := String.ofList (Text.trim rest) } := by
  obtain ⟨notEmpty, isWord⟩ := tag.isWord_kind
  have kindFound := Text.splitWord_append isWord notEmpty
    (isFirst.endsWord_append (tag.name ++ (second ++ (tag.bracketed ++ rest))))
  have noBracket : (tag.name ++ (second ++ (tag.bracketed ++ rest))).head? ≠ some '[' := by
    rw [head?_name]
    exact tag.isName.noBracket
  have nameFound := @readParam_name tag _ (isSecond.endsWord_append (tag.bracketed ++ rest))
  simp only [DocTag.read, kindFound, trimStart_name isFirst, takesParam_kind,
    bne_iff_ne.mpr noBracket, nameFound, trimStart_bracketed isSecond, bracketed?_bracketed,
    Bool.and_true, Bool.and_false, ↓reduceIte, Option.isNone_some, Bool.false_eq_true,
    Option.map_some, String.ofList_toList, Text.trim_trimStart]
  rfl

/-- The tag is read from its parts, the types first. -/
theorem read_typesFirst
    {first second : List Char}
    (isFirst : IsGap first)
    (isSecond : IsGap second)
    (ends : EndsWord rest) :
    DocTag.read (tag.kind.toList ++ (first ++ (tag.bracketed ++ (second ++ (tag.name ++ rest))))) =
      { tag.docTag with text := String.ofList (Text.trim rest) } := by
  obtain ⟨notEmpty, isWord⟩ := tag.isWord_kind
  have kindFound := Text.splitWord_append isWord notEmpty
    (isFirst.endsWord_append (tag.bracketed ++ (second ++ (tag.name ++ rest))))
  have isBracket : (tag.bracketed ++ (second ++ (tag.name ++ rest))).head? = some '[' :=
    rfl
  simp only [DocTag.read, kindFound, trimStart_bracketed isFirst, takesParam_kind, isBracket,
    bracketed?_bracketed, trimStart_name isSecond, readParam_name ends, bne_self_eq_false,
    Bool.and_true, Bool.and_false, ↓reduceIte, Option.isNone_none, Bool.false_eq_true,
    Option.map_some, String.ofList_toList, Text.trim_trimStart]
  rfl

end Reading

section Lines

variable {tag : ParameterTag} {line : List Char}

/-- Trimming a tag line drops white space behind its last part only. -/
theorem trim_line
    {last : List Char}
    (notEmpty : last ≠ [])
    (ends : ∀ c ∈ last.getLast?, Text.isBlank c = false)
    (front rest : List Char) :
    Text.trim ('@' :: (front ++ (last ++ rest))) = '@' :: (front ++ (last ++ Text.trimEnd rest)) := by
  have begins : ∀ c ∈ ('@' :: (front ++ last)).head?, Text.isBlank c = false := by
    rintro c ⟨⟩
    rfl
  have endsWhole : ∀ c ∈ ('@' :: (front ++ last)).getLast?, Text.isBlank c = false := by
    rwa [← List.cons_append, List.getLast?_append_of_ne_nil _ notEmpty]
  have trimmed := Text.trim_append_of_ends (List.cons_ne_nil _ _) begins endsWhole rest
  simpa only [List.cons_append, List.append_assoc] using trimmed

/-- What is left of the description is the description, trimmed. -/
theorem trim_description
    {gap : List Char}
    (isGap : IsGap gap)
    (tag : ParameterTag) :
    Text.trim (Text.trimEnd (gap ++ tag.description)) = Text.trim tag.description := by
  rw [Text.trim_trimEnd, Text.trim_append_of_blank isGap.areBlank]

/-- A line with all parts of the tag is read as the tag. -/
theorem IsLine.tagLine?_trim
    (isLine : tag.IsLine line) :
    Docstring.tagLine? (Text.trim line) = some tag.docTag := by
  cases isLine with
  | @nameFirst first second third isFirst isSecond isThird =>
      have notEmpty : tag.bracketed ≠ [] :=
        List.cons_ne_nil _ _
      have ends : ∀ c ∈ tag.bracketed.getLast?, Text.isBlank c = false := by
        intro c isLast
        rw [bracketed, ← List.cons_append, List.getLast?_concat] at isLast
        cases isLast
        rfl
      have trimmed := trim_line notEmpty ends (tag.kind.toList ++ (first ++ (tag.name ++ second)))
        (third ++ tag.description)
      simp only [List.append_assoc] at trimmed
      rw [trimmed, Docstring.tagLine?, read_nameFirst isFirst isSecond, trim_description isThird]
      rfl
  | @typesFirst first second third isFirst isSecond isThird =>
      have ends : ∀ c ∈ tag.name.getLast?, Text.isBlank c = false :=
        fun c isLast => tag.isName.isWord c (List.mem_of_getLast? isLast)
      have trimmed := trim_line tag.isName.notEmpty ends
        (tag.kind.toList ++ (first ++ (tag.bracketed ++ second))) (third ++ tag.description)
      simp only [List.append_assoc] at trimmed
      rw [trimmed, Docstring.tagLine?,
        read_typesFirst isFirst isSecond (isThird.endsWord_append tag.description).trimEnd,
        trim_description isThird]
      rfl

/-- A line with all parts of the tag is one line. -/
theorem IsLine.oneLine
    (isLine : tag.IsLine line) :
    '\n' ∉ line ∧ line ≠ [] := by
  have inWord : ∀ word : List Char, (∀ c ∈ word, Text.isBlank c = false) → '\n' ∉ word := by
    intro word isWord isIn
    exact absurd (isWord '\n' isIn) (by decide)
  have inKind := inWord tag.kind.toList tag.isWord_kind.2
  have inName := inWord tag.name tag.isName.isWord
  have inTypes := tag.oneLine
  cases isLine with
  | nameFirst isFirst isSecond isThird | typesFirst isFirst isSecond isThird =>
      have inGaps := And.intro isFirst.oneLine (And.intro isSecond.oneLine isThird.oneLine)
      simp_all [bracketed]

end Lines

end ParameterTag

namespace Docstring

/-- A comment as a text, from its lines. -/
def textOfLines (lines : List (List Char)) : String :=
  String.ofList (Text.joinWith ['\n'] lines)

/-- The tags of a comment are those of its lines. -/
theorem tags_read_textOfLines
    (lines : List (List Char)) :
    (read (textOfLines lines)).tags =
      ((lines.flatMap (Text.splitAt '\n')).map Text.trim).filterMap tagLine? := by
  rw [textOfLines, read, String.toList_ofList, Text.lines_eq_linesOfPieces]
  by_cases isEmpty : lines = []
  · subst isEmpty
    rfl
  · rw [Text.splitAt_joinWith isEmpty]
    exact Text.filterMap_linesOfPieces rfl _

/-- A line of a comment is found between the lines above and below it. -/
theorem map_trim_lines_textOfLines
    {line : List Char}
    (oneLine : '\n' ∉ line)
    (notEmpty : line ≠ [])
    (above below : List (List Char)) :
    (Text.lines (textOfLines (above ++ line :: below)).toList).map Text.trim =
      (above.flatMap (Text.splitAt '\n')).map Text.trim ++ Text.trim line ::
        (Text.linesOfPieces (below.flatMap (Text.splitAt '\n'))).map Text.trim := by
  rw [textOfLines, String.toList_ofList, Text.lines_eq_linesOfPieces,
    Text.splitAt_joinWith (by simp), List.flatMap_append, List.flatMap_cons,
    Text.splitAt_of_notMem oneLine, List.singleton_append, Text.map_trim_linesOfPieces notEmpty]

/--
A tag about a parameter is read alike from both of its spellings, in every place of a comment: its name,
its parameter, its types and its text are the parts of the line.
-/
theorem read_parameterTag
    {tag : ParameterTag}
    {line other : List Char}
    (isLine : tag.IsLine line)
    (isOther : tag.IsLine other)
    (above below : List (List Char)) :
    read (textOfLines (above ++ line :: below)) = read (textOfLines (above ++ other :: below)) ∧
      (read (textOfLines (above ++ line :: below))).tags =
        (read (textOfLines above)).tags ++ tag.docTag :: (read (textOfLines below)).tags := by
  constructor
  · have lines := map_trim_lines_textOfLines isLine.oneLine.1 isLine.oneLine.2 above below
    have others := map_trim_lines_textOfLines isOther.oneLine.1 isOther.oneLine.2 above below
    -- Both lines are tags, and so neither is running text.
    simp only [read, lines, others, List.filter_append, List.filter_cons, List.filterMap_append,
      List.filterMap_cons, isLine.tagLine?_trim, isOther.tagLine?_trim, Option.isNone_some,
      Bool.false_eq_true, ↓reduceIte]
  · simp only [tags_read_textOfLines, List.flatMap_append, List.flatMap_cons,
      Text.splitAt_of_notMem isLine.oneLine.1, List.map_append, List.map_cons,
      List.filterMap_append, List.filterMap_cons, isLine.tagLine?_trim, List.singleton_append]

end Docstring

namespace DuckParameter

/-! A parameter that answers to indexing, with a description that looks like a list of types. -/

def tag : ParameterTag where
  kind := "param"
  name := "row".toList
  types := "#[], Hash".toList
  description := "[see] col ".toList
  isKind := by decide
  isName := ⟨by decide, Text.unblank_of_any (by decide), by decide⟩
  balanced := by decide
  oneLine := by decide

theorem isGap_blank :
    Text.IsGap [' '] :=
  ⟨by decide, List.all_eq_true.mp rfl, by decide⟩

theorem isGap_tab :
    Text.IsGap ['\t', ' '] :=
  ⟨by decide, List.all_eq_true.mp rfl, by decide⟩

theorem read_row :
    tag.IsLine "@param row [#[], Hash] [see] col ".toList ∧
      tag.IsLine "@param\t [#[], Hash] row [see] col ".toList ∧
      Docstring.read "Rows.\n@param row [#[], Hash] [see] col \n@return [Row]" =
        Docstring.read "Rows.\n@param\t [#[], Hash] row [see] col \n@return [Row]" ∧
      tag.docTag = ⟨"param", some "row", ["#[]", "Hash"], "[see] col"⟩ := by
  have nameFirst : tag.IsLine "@param row [#[], Hash] [see] col ".toList :=
    .nameFirst isGap_blank isGap_blank isGap_blank
  have typesFirst : tag.IsLine "@param\t [#[], Hash] row [see] col ".toList :=
    .typesFirst isGap_tab isGap_blank isGap_blank
  have same := Docstring.read_parameterTag nameFirst typesFirst ["Rows.".toList]
    ["@return [Row]".toList]
  exact ⟨nameFirst, typesFirst, same.1, by decide +kernel⟩

end DuckParameter

end TagCheck
