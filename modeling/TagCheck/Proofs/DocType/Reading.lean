import Mathlib.Data.List.TakeDrop
import TagCheck.DocType.Reader

namespace TagCheck.DocType

/-!
# What is read off a text

The reader descends with a limit that the length of the text gives.  `Reads` leaves the limit out: it
has one rule for each form of a type and of a list.  The reader accepts a text exactly by these
rules, and every reading leaves a shorter text behind.
-/

/-- A successful computation consists of two successful ones. -/
theorem exists_of_bind_eq_ok
    {first : Except ε α}
    {second : α → Except ε β}
    {result : β}
    (succeeds : (first >>= second) = .ok result) :
    ∃ value, first = .ok value ∧ second value = .ok result := by
  cases first with
  | error fault =>
      cases succeeds
  | ok value =>
      exact ⟨value, rfl, succeeds⟩

section Pieces

theorem readMember_append
    (size : Nat)
    (text : List Char) :
    (readMember size text).1 ++ (readMember size text).2 = text := by
  induction text generalizing size with
  | nil =>
      rfl
  | cons c rest inductionHypothesis =>
      rw [readMember]
      split
      · rfl
      · exact congrArg (c :: ·) (inductionHypothesis (size + c.utf8Size))

variable {text name behind : List Char}

/-- A name begins with a number sign, or consists of the characters of names. -/
theorem eq_cons_or_of_readName
    (isName : readName text = .ok (name, behind)) :
    (∃ member rest, member ≠ [] ∧ readMember 1 rest = (member, behind) ∧
      text = '#' :: rest ∧ name = '#' :: member) ∨
      text.head? ≠ some '#' ∧ name ≠ [] ∧ text.span isNameChar = (name, behind) := by
  unfold readName at isName
  split at isName
  · next rest =>
      left
      split at isName
      · cases isName
      · next member after notEmpty found =>
          cases isName
          refine ⟨member, rest, ?_, found, rfl, rfl⟩
          rintro rfl
          exact notEmpty rfl
  · next noDuck =>
      right
      split at isName
      · cases isName
      · next found after notEmpty spanned =>
          cases isName
          refine ⟨?_, ?_, spanned⟩
          · intro isDuck
            obtain ⟨rest, rfl⟩ := List.head?_eq_some_iff.mp isDuck
            exact noDuck rest rfl
          · rintro rfl
            exact notEmpty rfl

/-- A name and what stands behind it are the whole text. -/
theorem append_of_readName
    (isName : readName text = .ok (name, behind)) :
    name ++ behind = text := by
  rcases eq_cons_or_of_readName isName with
    ⟨member, rest, -, found, rfl, rfl⟩ | ⟨-, -, spanned⟩
  · have parts := readMember_append 1 rest
    simp_all
  · rw [List.span_eq_takeWhile_dropWhile, Prod.mk.injEq] at spanned
    obtain ⟨rfl, rfl⟩ := spanned
    exact List.takeWhile_append_dropWhile

theorem ne_nil_of_readName
    (isName : readName text = .ok (name, behind)) :
    name ≠ [] := by
  rcases eq_cons_or_of_readName isName with ⟨member, rest, -, -, -, rfl⟩ | ⟨-, notEmpty, -⟩
  · exact List.cons_ne_nil '#' member
  · exact notEmpty

/-- Behind a name the text is shorter. -/
theorem length_lt_of_readName
    (isName : readName text = .ok (name, behind)) :
    behind.length < text.length := by
  have notEmpty := List.length_pos_iff.mpr (ne_nil_of_readName isName)
  rw [← append_of_readName isName, List.length_append]
  omega

/-- A delimiter is read exactly where it comes next, white space left out. -/
theorem readDelimiter_eq_ok_iff
    {expected : Char} :
    readDelimiter expected text = .ok behind ↔ Text.trimStart text = expected :: behind := by
  unfold readDelimiter
  cases Text.trimStart text with
  | nil =>
      simp
  | cons found rest =>
      by_cases same : found = expected <;> simp [same]

theorem trimStart_suffix
    (text : List Char) :
    Text.trimStart text <:+ text :=
  List.dropWhile_suffix Text.isBlank

theorem suffix_of_trimStart
    {c : Char}
    (begins : Text.trimStart text = c :: behind) :
    behind <:+ text := by
  have isSuffix := trimStart_suffix text
  rw [begins] at isSuffix
  exact (List.suffix_cons c behind).trans isSuffix

theorem suffix_of_readDelimiter
    {expected : Char}
    (isRead : readDelimiter expected text = .ok behind) :
    behind <:+ text :=
  suffix_of_trimStart (readDelimiter_eq_ok_iff.mp isRead)

theorem readNullable_suffix
    (text : List Char) :
    (readNullable text).2 <:+ text := by
  unfold readNullable
  split
  · exact List.suffix_cons _ _
  · exact List.suffix_refl _

end Pieces

/-- The brackets around positional parameters. -/
inductive EnclosesOrdered : Char → Char → Prop
  | angle : EnclosesOrdered '<' '>'
  | round : EnclosesOrdered '(' ')'

/-- Characters that begin a parameter list. -/
def isOpening (c : Char) : Bool :=
  c == '<' || c == '(' || c == '\x7b'

/-- A duck type by its member. -/
def duck (member : List Char) : DocType :=
  named (String.ofList ('#' :: member))

/-- The text of the name that stands for the undefined type. -/
def undefinedName : List Char :=
  ['u', 'n', 'd', 'e', 'f', 'i', 'n', 'e', 'd']

/-- The name of a type with an alternative of its own, other than a duck type, stands here. -/
structure ReadsName (text name behind : List Char) : Prop where
  isName : readName text = .ok (name, behind)
  isDefined : name ≠ undefinedName
  noDuck : name.head? ≠ some '#'

theorem ReadsName.isSuffix
    {text name behind : List Char}
    (isName : ReadsName text name behind) :
    behind <:+ text :=
  ⟨name, append_of_readName isName.isName⟩

/-- What is read: one alternative, or a list up to a closing character. -/
inductive Construct where
  | alternative
  | list (close : Option Char)

/--
A construct is read off a text, with the unions that it stands for and the text behind it.  An
alternative stands for one union.
-/
inductive Reads : Construct → List Char → List DocUnion → List Char → Prop
  | undefined {text behind : List Char} (isName : readName text = .ok (undefinedName, behind)) :
      Reads .alternative text [[]] behind
  | duck {text member behind : List Char} (isName : readName text = .ok ('#' :: member, behind)) :
      Reads .alternative text [[duck member]] behind
  | bare {text name behind : List Char} (isName : ReadsName text name behind)
      (noBracket : ∀ c ∈ behind.head?, isOpening c = false) :
      Reads .alternative text
        [[{ named (String.ofList name) with nullable := (readNullable behind).1 }]]
        (readNullable behind).2
  | ordered {text name inner behind after : List Char} {opening closing : Char}
      {parameters : List DocUnion} (isName : ReadsName text name (opening :: inner))
      (encloses : EnclosesOrdered opening closing)
      (inside : Reads (.list (some closing)) inner parameters behind)
      (closed : readDelimiter closing behind = .ok after) :
      Reads .alternative text
        [[{ withOrdered (String.ofList name) parameters with
            nullable := (readNullable after).1 }]]
        (readNullable after).2
  | keyed {text name inner behind dash arrow second after : List Char}
      {keys values : List DocUnion} (isName : ReadsName text name ('\x7b' :: inner))
      (insideKeys : Reads (.list (some '=')) inner keys behind)
      (hasDash : readDelimiter '=' behind = .ok dash)
      (hasArrow : readDelimiter '>' dash = .ok arrow)
      (insideValues : Reads (.list (some '\x7d')) arrow values second)
      (closed : readDelimiter '\x7d' second = .ok after) :
      Reads .alternative text
        [[{ withKeyed (String.ofList name) keys values with
            nullable := (readNullable after).1 }]]
        (readNullable after).2
  | nothing {close : Option Char} {text : List Char}
      (ends : (Text.trimStart text).head? = close) :
      Reads (.list close) text [] (Text.trimStart text)
  | last {close : Option Char} {text behind : List Char} {union : DocUnion}
      (goesOn : (Text.trimStart text).head? ≠ close)
      (first : Reads .alternative (Text.trimStart text) [union] behind)
      (noComma : (Text.trimStart behind).head? ≠ some ',') :
      Reads (.list close) text [union] (Text.trimStart behind)
  | further {close : Option Char} {text behind rest after : List Char} {union : DocUnion}
      {unions : List DocUnion} (goesOn : (Text.trimStart text).head? ≠ close)
      (first : Reads .alternative (Text.trimStart text) [union] behind)
      (comma : Text.trimStart behind = ',' :: rest)
      (others : Reads (.list close) rest unions after) :
      Reads (.list close) text (union :: unions) after

section Accepted

variable {fuel : Nat} {text name inner behind : List Char}

theorem ofList_eq_undefined_iff :
    String.ofList name = "undefined" ↔ name = undefinedName := by
  have sameText : "undefined" = String.ofList undefinedName :=
    rfl
  rw [sameText, String.ofList_inj]

theorem isDuck_named_iff :
    (named (String.ofList name)).isDuck = true ↔ name.head? = some '#' := by
  simp [DocType.isDuck, named]

/-- An accepted alternative follows the rules, if what is accepted inside it does. -/
theorem reads_of_readAlternative_succ
    (readsList : ∀ close text unions behind, readList close fuel text = .ok (unions, behind) →
      Reads (.list close) text unions behind)
    {union : DocUnion}
    (isRead : readAlternative (fuel + 1) text = .ok (union, behind)) :
    Reads .alternative text [union] behind := by
  simp only [readAlternative] at isRead
  obtain ⟨⟨name, after⟩, isName, isRead⟩ := exists_of_bind_eq_ok isRead
  simp only [ofList_eq_undefined_iff, isDuck_named_iff] at isRead
  by_cases isUndefined : name = undefinedName
  · rw [if_pos isUndefined] at isRead
    cases isRead
    cases isUndefined
    exact .undefined isName
  by_cases isDuck : name.head? = some '#'
  · rw [if_neg isUndefined, if_pos isDuck] at isRead
    cases isRead
    obtain ⟨member, rfl⟩ := List.head?_eq_some_iff.mp isDuck
    exact .duck isName
  have readsName : ReadsName text name after := ⟨isName, isUndefined, isDuck⟩
  rw [if_neg isUndefined, if_neg isDuck] at isRead
  split at isRead
  · next inner =>
      obtain ⟨⟨parameters, rest⟩, inside, isRead⟩ := exists_of_bind_eq_ok isRead
      obtain ⟨rest, closed, isRead⟩ := exists_of_bind_eq_ok isRead
      cases isRead
      exact .ordered readsName .angle (readsList _ _ _ _ inside) closed
  · next inner =>
      obtain ⟨⟨parameters, rest⟩, inside, isRead⟩ := exists_of_bind_eq_ok isRead
      obtain ⟨rest, closed, isRead⟩ := exists_of_bind_eq_ok isRead
      cases isRead
      exact .ordered readsName .round (readsList _ _ _ _ inside) closed
  · next inner =>
      obtain ⟨⟨keys, rest⟩, insideKeys, isRead⟩ := exists_of_bind_eq_ok isRead
      obtain ⟨dash, hasDash, isRead⟩ := exists_of_bind_eq_ok isRead
      obtain ⟨arrow, hasArrow, isRead⟩ := exists_of_bind_eq_ok isRead
      obtain ⟨⟨values, rest⟩, insideValues, isRead⟩ := exists_of_bind_eq_ok isRead
      obtain ⟨rest, closed, isRead⟩ := exists_of_bind_eq_ok isRead
      cases isRead
      exact .keyed readsName (readsList _ _ _ _ insideKeys) hasDash hasArrow
        (readsList _ _ _ _ insideValues) closed
  · next noAngle noRound noBrace =>
      cases isRead
      refine .bare readsName fun c begins => ?_
      obtain ⟨rest, rfl⟩ := List.head?_eq_some_iff.mp begins
      have isNoBracket : c ≠ '<' ∧ c ≠ '(' ∧ c ≠ '\x7b' := by
        refine ⟨?_, ?_, ?_⟩ <;> rintro rfl
        · exact noAngle rest rfl
        · exact noRound rest rfl
        · exact noBrace rest rfl
      simp [isOpening, isNoBracket]

/-- An accepted list follows the rules, if the alternatives and the rest of the list do. -/
theorem reads_of_readList_succ
    (readsAlternative : ∀ text union behind, readAlternative fuel text = .ok (union, behind) →
      Reads .alternative text [union] behind)
    (readsList : ∀ close text unions behind, readList close fuel text = .ok (unions, behind) →
      Reads (.list close) text unions behind)
    {close : Option Char}
    {unions : List DocUnion}
    (isRead : readList close (fuel + 1) text = .ok (unions, behind)) :
    Reads (.list close) text unions behind := by
  simp only [readList] at isRead
  cases trimmed : Text.trimStart text with
  | nil =>
      simp only [trimmed] at isRead
      by_cases isOpen : close = none
      · rw [if_pos isOpen] at isRead
        cases isRead
        have ends : (Text.trimStart text).head? = close := by
          simp [trimmed, isOpen]
        exact trimmed ▸ .nothing ends
      · rw [if_neg isOpen] at isRead
        cases isRead
  | cons c rest =>
      simp only [trimmed] at isRead
      have begins : (Text.trimStart text).head? = some c := by
        simp [trimmed]
      by_cases closes : some c = close
      · rw [if_pos closes] at isRead
        cases isRead
        exact trimmed ▸ .nothing (begins.trans closes)
      · rw [if_neg closes, ← trimmed] at isRead
        rw [← begins] at closes
        obtain ⟨⟨first, after⟩, isFirst, isRead⟩ := exists_of_bind_eq_ok isRead
        have readsFirst := readsAlternative _ _ _ isFirst
        dsimp only at isRead
        split at isRead
        · next others comma =>
            obtain ⟨⟨more, last⟩, areOthers, isRead⟩ := exists_of_bind_eq_ok isRead
            cases isRead
            exact .further closes readsFirst comma (readsList _ _ _ _ areOthers)
        · next noComma =>
            cases isRead
            refine .last closes readsFirst fun comma => ?_
            obtain ⟨rest, begins⟩ := List.head?_eq_some_iff.mp comma
            exact noComma rest begins

/-- What the reader accepts follows the rules. -/
theorem reads_of_read
    (fuel : Nat) :
    (∀ text union behind, readAlternative fuel text = .ok (union, behind) →
      Reads .alternative text [union] behind) ∧
      ∀ close text unions behind, readList close fuel text = .ok (unions, behind) →
        Reads (.list close) text unions behind := by
  induction fuel with
  | zero =>
      exact ⟨nofun, nofun⟩
  | succ fuel inductionHypothesis =>
      obtain ⟨readsAlternative, readsList⟩ := inductionHypothesis
      exact
        ⟨fun _ _ _ => reads_of_readAlternative_succ readsList,
          fun _ _ _ _ => reads_of_readList_succ readsAlternative readsList⟩

end Accepted

namespace Reads

variable {construct : Construct} {text behind : List Char} {unions : List DocUnion}

/-- What stands behind a construct is the end of the text. -/
theorem isSuffix
    (reads : Reads construct text unions behind) :
    behind <:+ text := by
  induction reads with
  | undefined isName | duck isName =>
      exact ⟨_, append_of_readName isName⟩
  | bare isName =>
      exact (readNullable_suffix _).trans isName.isSuffix
  | ordered isName encloses inside closed insideHypothesis =>
      have afterBracket := (suffix_of_readDelimiter closed).trans insideHypothesis
      exact (readNullable_suffix _).trans
        (afterBracket.trans ((List.suffix_cons _ _).trans isName.isSuffix))
  | keyed isName insideKeys hasDash hasArrow insideValues closed keysHypothesis valuesHypothesis =>
      have afterKeys := keysHypothesis.trans ((List.suffix_cons _ _).trans isName.isSuffix)
      have afterArrow :=
        (suffix_of_readDelimiter hasArrow).trans ((suffix_of_readDelimiter hasDash).trans afterKeys)
      have afterBracket := (suffix_of_readDelimiter closed).trans valuesHypothesis
      exact (readNullable_suffix _).trans (afterBracket.trans afterArrow)
  | nothing ends =>
      exact trimStart_suffix _
  | last goesOn first noComma firstHypothesis =>
      exact (trimStart_suffix _).trans (firstHypothesis.trans (trimStart_suffix _))
  | further goesOn first comma others firstHypothesis othersHypothesis =>
      have afterFirst := firstHypothesis.trans (trimStart_suffix _)
      exact othersHypothesis.trans ((suffix_of_trimStart comma).trans afterFirst)

end Reads

section Accepting

variable {fuel : Nat} {text name inner behind after : List Char}

theorem readAlternative_of_undefined
    (isName : readName text = .ok (undefinedName, behind)) :
    readAlternative (fuel + 1) text = .ok ([], behind) := by
  simp only [readAlternative, isName, ofList_eq_undefined_iff, bind, Except.bind, ↓reduceIte]
  rfl

theorem readAlternative_of_duck
    {member : List Char}
    (isName : readName text = .ok ('#' :: member, behind)) :
    readAlternative (fuel + 1) text = .ok ([duck member], behind) := by
  have isDefined : '#' :: member ≠ undefinedName := by
    simp [undefinedName]
  simp only [readAlternative, isName, ofList_eq_undefined_iff, isDuck_named_iff, bind, Except.bind,
    if_neg isDefined, List.head?_cons, ↓reduceIte]
  rfl

theorem readAlternative_of_bare
    (isName : ReadsName text name behind)
    (noBracket : ∀ c ∈ behind.head?, isOpening c = false) :
    readAlternative (fuel + 1) text =
      .ok ([{ named (String.ofList name) with nullable := (readNullable behind).1 }],
        (readNullable behind).2) := by
  simp only [readAlternative, isName.isName, ofList_eq_undefined_iff, isDuck_named_iff, bind,
    Except.bind, if_neg isName.isDefined, if_neg isName.noDuck]
  split
  · simp [isOpening] at noBracket
  · simp [isOpening] at noBracket
  · simp [isOpening] at noBracket
  · rfl

theorem readAlternative_of_ordered
    {opening closing : Char}
    {parameters : List DocUnion}
    (isName : ReadsName text name (opening :: inner))
    (encloses : EnclosesOrdered opening closing)
    (inside : readList (some closing) fuel inner = .ok (parameters, behind))
    (closed : readDelimiter closing behind = .ok after) :
    readAlternative (fuel + 1) text =
      .ok ([{ withOrdered (String.ofList name) parameters with nullable := (readNullable after).1 }],
        (readNullable after).2) := by
  cases encloses <;>
    simp only [readAlternative, isName.isName, ofList_eq_undefined_iff, isDuck_named_iff, bind,
      Except.bind, if_neg isName.isDefined, if_neg isName.noDuck, inside, closed] <;>
    rfl

theorem readAlternative_of_keyed
    {dash arrow second : List Char}
    {keys values : List DocUnion}
    (isName : ReadsName text name ('\x7b' :: inner))
    (insideKeys : readList (some '=') fuel inner = .ok (keys, behind))
    (hasDash : readDelimiter '=' behind = .ok dash)
    (hasArrow : readDelimiter '>' dash = .ok arrow)
    (insideValues : readList (some '\x7d') fuel arrow = .ok (values, second))
    (closed : readDelimiter '\x7d' second = .ok after) :
    readAlternative (fuel + 1) text =
      .ok ([{ withKeyed (String.ofList name) keys values with nullable := (readNullable after).1 }],
        (readNullable after).2) := by
  simp only [readAlternative, isName.isName, ofList_eq_undefined_iff, isDuck_named_iff, bind,
    Except.bind, if_neg isName.isDefined, if_neg isName.noDuck, insideKeys, hasDash, hasArrow,
    insideValues, closed]
  rfl

theorem readList_of_nothing
    {close : Option Char}
    (ends : (Text.trimStart text).head? = close) :
    readList close (fuel + 1) text = .ok ([], Text.trimStart text) := by
  simp only [readList]
  cases trimmed : Text.trimStart text with
  | nil =>
      simp_all
  | cons c rest =>
      simp_all

theorem readList_of_first
    {close : Option Char}
    {union : DocUnion}
    (goesOn : (Text.trimStart text).head? ≠ close)
    (isFirst : readAlternative fuel (Text.trimStart text) = .ok (union, behind)) :
    readList close (fuel + 1) text =
      match Text.trimStart behind with
      | ',' :: rest => do
          let (unions, after) ← readList close fuel rest
          return (union :: unions, after)
      | rest => .ok ([union], rest) := by
  simp only [readList]
  cases trimmed : Text.trimStart text with
  | nil =>
      rw [trimmed] at isFirst
      cases fuel <;> cases isFirst
  | cons c rest =>
      rw [trimmed] at isFirst goesOn
      simp only [isFirst, bind, Except.bind, if_neg (show ¬some c = close from goesOn)]
      rfl

/-- The reader accepts a construct under a limit. -/
def Accepts (limit : Nat) : Construct → List Char → List DocUnion → List Char → Prop
  | .alternative, text, unions, behind =>
      ∃ union, unions = [union] ∧ readAlternative limit text = .ok (union, behind)
  | .list close, text, unions, behind => readList close limit text = .ok (unions, behind)

/-- A limit that suffices for a construct. -/
def Construct.leastLimit (text : List Char) : Construct → Nat
  | .alternative => text.length
  | .list _ => text.length + 1

/-- A name is read within every limit that suffices, and leaves enough of it. -/
theorem exists_limit_of_readName
    (isName : readName text = .ok (name, behind))
    {limit : Nat}
    (isEnough : text.length ≤ limit) :
    ∃ fewer, limit = fewer + 1 ∧ behind.length ≤ fewer := by
  have shorter := length_lt_of_readName isName
  exact ⟨limit - 1, by omega, by omega⟩

theorem exists_limit_of_list
    {limit : Nat}
    (isEnough : text.length + 1 ≤ limit) :
    ∃ fewer, limit = fewer + 1 ∧ text.length ≤ fewer :=
  ⟨limit - 1, by omega, by omega⟩

/-- Behind the comma that ends an alternative the text is shorter. -/
theorem length_lt_of_comma
    {union : DocUnion}
    {rest : List Char}
    (first : Reads .alternative (Text.trimStart text) [union] behind)
    (comma : Text.trimStart behind = ',' :: rest) :
    rest.length < text.length := by
  have trimmed := (trimStart_suffix behind).length_le
  have shorter := (first.isSuffix.trans (trimStart_suffix text)).length_le
  rw [comma, List.length_cons] at trimmed
  omega

/-- What follows the rules is accepted, if the limit is not below the length of the text. -/
theorem Reads.accepts
    {construct : Construct}
    {unions : List DocUnion}
    (reads : Reads construct text unions behind)
    {limit : Nat}
    (isEnough : construct.leastLimit text ≤ limit) :
    Accepts limit construct text unions behind := by
  induction reads generalizing limit with
  | undefined isName =>
      obtain ⟨limit, rfl, -⟩ := exists_limit_of_readName isName isEnough
      exact ⟨_, rfl, readAlternative_of_undefined isName⟩
  | duck isName =>
      obtain ⟨limit, rfl, -⟩ := exists_limit_of_readName isName isEnough
      exact ⟨_, rfl, readAlternative_of_duck isName⟩
  | bare isName noBracket =>
      obtain ⟨limit, rfl, -⟩ := exists_limit_of_readName isName.isName isEnough
      exact ⟨_, rfl, readAlternative_of_bare isName noBracket⟩
  | ordered isName encloses inside closed insideHypothesis =>
      obtain ⟨limit, rfl, isLeft⟩ := exists_limit_of_readName isName.isName isEnough
      exact ⟨_, rfl, readAlternative_of_ordered isName encloses (insideHypothesis isLeft) closed⟩
  | @keyed _ _ inner _ _ arrow _ _ _ _ isName insideKeys hasDash hasArrow insideValues closed
      keysHypothesis valuesHypothesis =>
      obtain ⟨limit, rfl, isLeft⟩ := exists_limit_of_readName isName.isName isEnough
      have shorter : arrow.length ≤ inner.length :=
        ((suffix_of_readDelimiter hasArrow).trans
          ((suffix_of_readDelimiter hasDash).trans insideKeys.isSuffix)).length_le
      have isLeftForValues : arrow.length + 1 ≤ limit :=
        Nat.le_trans (Nat.succ_le_succ shorter) isLeft
      exact ⟨_, rfl, readAlternative_of_keyed isName (keysHypothesis isLeft) hasDash hasArrow
        (valuesHypothesis isLeftForValues) closed⟩
  | nothing ends =>
      obtain ⟨limit, rfl, -⟩ := exists_limit_of_list isEnough
      exact readList_of_nothing ends
  | last goesOn first noComma firstHypothesis =>
      obtain ⟨limit, rfl, isLeft⟩ := exists_limit_of_list isEnough
      obtain ⟨_, ⟨⟩, isFirst⟩ :=
        firstHypothesis (Nat.le_trans (trimStart_suffix _).length_le isLeft)
      refine (readList_of_first goesOn isFirst).trans ?_
      split
      · next comma =>
          simp [comma] at noComma
      · rfl
  | further goesOn first comma others firstHypothesis othersHypothesis =>
      obtain ⟨limit, rfl, isLeft⟩ := exists_limit_of_list isEnough
      obtain ⟨_, ⟨⟩, isFirst⟩ :=
        firstHypothesis (Nat.le_trans (trimStart_suffix _).length_le isLeft)
      have isRest : readList _ limit _ = .ok _ :=
        othersHypothesis (Nat.le_trans (length_lt_of_comma first comma) isLeft)
      refine (readList_of_first goesOn isFirst).trans ?_
      simp only [comma, isRest, bind, Except.bind]
      rfl

/-- What is read off a text, and what stands behind it, is determined. -/
theorem Reads.unique
    {construct : Construct}
    {unions others : List DocUnion}
    (reads : Reads construct text unions behind)
    (again : Reads construct text others after) :
    unions = others ∧ behind = after := by
  have accepted := reads.accepts (Nat.le_refl _)
  have acceptedAgain := again.accepts (Nat.le_refl _)
  cases construct with
  | alternative =>
      obtain ⟨union, rfl, isRead⟩ := accepted
      obtain ⟨other, rfl, isReadAgain⟩ := acceptedAgain
      cases isRead.symm.trans isReadAgain
      exact ⟨rfl, rfl⟩
  | list close =>
      have same := accepted.symm.trans acceptedAgain
      cases same
      exact ⟨rfl, rfl⟩

end Accepting

end TagCheck.DocType

namespace TagCheck.DocUnion

/-- A text is read as a union exactly if a list is read off it, and only white space is left. -/
theorem readChars_eq_ok_iff
    {text : List Char}
    {union : DocUnion} :
    readChars text = .ok union ↔
      ∃ unions behind, DocType.Reads (.list none) text unions behind ∧
        Text.trimStart behind = [] ∧ join unions = union := by
  unfold readChars
  constructor
  · intro isRead
    obtain ⟨⟨unions, behind⟩, isList, isRead⟩ := DocType.exists_of_bind_eq_ok isRead
    cases isBlank : Text.trimStart behind with
    | nil =>
        simp only [isBlank] at isRead
        cases isRead
        exact ⟨unions, behind, (DocType.reads_of_read _).2 _ _ _ _ isList, isBlank, rfl⟩
    | cons c rest =>
        simp only [isBlank] at isRead
        cases isRead
  · rintro ⟨unions, behind, reads, isBlank, rfl⟩
    have isEnough : DocType.Construct.leastLimit text (.list none) ≤ 2 * text.length + 2 := by
      simp only [DocType.Construct.leastLimit]
      omega
    have isList : DocType.readList _ _ _ = .ok _ :=
      reads.accepts isEnough
    simp only [isList, bind, Except.bind, isBlank]
    rfl

end TagCheck.DocUnion
