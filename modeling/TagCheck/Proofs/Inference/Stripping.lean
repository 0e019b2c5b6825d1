import TagCheck.Proofs.Inference.Literals

namespace TagCheck.Signature

/-!
# The groups of a link, from its end

The name of a link is found from the end of the link, and there brackets are counted without regard to
strings.  Read in this direction, a link is passed over by an automaton: it is inside of a group that
is still open, or between two groups, or in the name.  What an automaton does at the end of a part
decides about everything in front of that part.
-/

/-- Where the search for the name of a link stands. -/
inductive Place where
  /-- In a group of brackets of one kind, with further such groups around it. -/
  | inside (bracket : Bracket) (around : Nat)
  | between
  | name
  deriving Repr, DecidableEq

/-- The kind of brackets that a character closes. -/
def Bracket.closedBy? : Char → Option Bracket
  | ')' => some round
  | ']' => some square
  | '\x7d' => some curly
  | _ => none

theorem Bracket.eq_closing
    {c : Char}
    {bracket : Bracket}
    (closed : closedBy? c = some bracket) :
    c = bracket.closing := by
  unfold closedBy? at closed
  split at closed <;> cases closed <;> rfl

theorem openingOf?_eq_none
    {c : Char}
    (notClosing : Bracket.closedBy? c = none) :
    openingOf? c = none := by
  unfold Bracket.closedBy? at notClosing
  split at notClosing
  any_goals cases notClosing
  next notRound notSquare notCurly =>
    unfold openingOf?
    split
    · exact absurd rfl notRound
    · exact absurd rfl notSquare
    · exact absurd rfl notCurly
    · rfl

/-- A place in the search, and how many index accesses were found behind it. -/
@[ext]
structure Stripping where
  place : Place
  indexes : Nat
  deriving Repr, DecidableEq

namespace Stripping

/-- The search passes over one character. -/
def step (stripping : Stripping) (c : Char) : Stripping :=
  match stripping.place with
  | .inside bracket around =>
      if c = bracket.closing then
        ⟨.inside bracket (around + 1), stripping.indexes⟩
      else if c = bracket.opening then
        match around with
        | 0 => ⟨.between, if bracket = .square then stripping.indexes + 1 else stripping.indexes⟩
        | around + 1 => ⟨.inside bracket around, stripping.indexes⟩
      else
        stripping
  | .between =>
      if Text.isBlank c then
        stripping
      else
        match Bracket.closedBy? c with
        | some bracket => ⟨.inside bracket 0, stripping.indexes⟩
        | none => ⟨.name, stripping.indexes⟩
  | .name => stripping

/-- The search passes over a text, read from its end. -/
def passOver (stripping : Stripping) (text : List Char) : Stripping :=
  text.reverse.foldl step stripping

end Stripping

/-- The search for the name with as many steps as there are characters. -/
def strip? (reversed : List Char) : Option (List Char × Nat) :=
  stripGroups? reversed.length reversed

section Limits

variable {opening closing c : Char} {depth limit : Nat} {text before : List Char}

/-- What stands before a group is shorter than the text. -/
theorem length_lt_of_beforeGroup?
    (found : beforeGroup? opening closing depth text = some before) :
    before.length < text.length := by
  induction text generalizing depth with
  | nil =>
      cases found
  | cons c rest inductionHypothesis =>
      unfold beforeGroup? at found
      split at found
      · exact Nat.lt_succ_of_lt (inductionHypothesis found)
      · split at found
        · split at found
          · cases found
            exact Nat.lt_succ_self _
          · exact Nat.lt_succ_of_lt (inductionHypothesis found)
        · exact Nat.lt_succ_of_lt (inductionHypothesis found)

theorem length_trimStart_le :
    (Text.trimStart text).length ≤ text.length :=
  List.length_dropWhile_le _ _

/-- As long as there are as many steps as characters, their number does not matter. -/
theorem stripGroups?_eq_of_length_le
    {other : Nat}
    (enough : text.length ≤ limit)
    (enoughOther : text.length ≤ other) :
    stripGroups? limit text = stripGroups? other text := by
  induction limit generalizing text other with
  | zero =>
      cases List.length_eq_zero_iff.mp (Nat.le_zero.mp enough)
      cases other <;> rfl
  | succ limit inductionHypothesis =>
      match text, other with
      | [], 0 | [], _ + 1 => rfl
      | _ :: _, 0 => cases enoughOther
      | c :: rest, other + 1 =>
          unfold stripGroups?
          split
          · rfl
          · next opening _ =>
              split
              · rfl
              · rfl
              · next before _ found =>
                  have shorter := length_lt_of_beforeGroup? found
                  have trimmed := @length_trimStart_le before
                  simp only [List.length_cons] at enough enoughOther shorter
                  rw [inductionHypothesis (by omega) (show _ ≤ other by omega)]

theorem strip?_of_openingOf?_eq_none
    {rest : List Char}
    (noGroup : openingOf? c = none) :
    strip? (c :: rest) = some (c :: rest, 0) := by
  rw [strip?, List.length_cons, stripGroups?, noGroup]

/-- A group at the end of a link is stripped, unless it begins the link. -/
theorem strip?_closing
    (bracket : Bracket)
    (rest : List Char) :
    strip? (bracket.closing :: rest) =
      match beforeGroup? bracket.opening bracket.closing 1 rest with
      | none => none
      | some [] => some (bracket.closing :: rest, 0)
      | some before =>
          (strip? (Text.trimStart before)).map fun (name, indexes) =>
            (name, if bracket = .square then indexes + 1 else indexes) := by
  have isOpening : openingOf? bracket.closing = some bracket.opening := by
    cases bracket <;> rfl
  have isSquare : (bracket.opening == '[') = decide (bracket = .square) := by
    cases bracket <;> rfl
  rw [strip?, List.length_cons, stripGroups?, isOpening]
  dsimp only
  rw [beforeGroup?_closing, isSquare]
  split
  · next found => rw [found]
  · next found => rw [found]
  · next before notEmpty found =>
      have shorter := length_lt_of_beforeGroup? found
      have trimmed := @length_trimStart_le before
      have sameSteps : stripGroups? (rest.length) (Text.trimStart before) =
          strip? (Text.trimStart before) :=
        stripGroups?_eq_of_length_le (by omega) (Nat.le_refl _)
      rw [found, sameSteps]
      cases before with
      | nil => exact absurd rfl notEmpty
      | cons first others => simp only [decide_eq_true_eq]

end Limits

/--
Two outcomes of the search agree, up to what they keep of a name behind its beginning.  Texts are
reversed here, so that the beginning of a name is the tail of the text.
-/
def Alike (tail : List Char) (first second : Option (List Char × Nat)) : Prop :=
  first = second ∨
    ∃ kept other indexes, first = some (kept ++ tail, indexes) ∧
      second = some (other ++ tail, indexes)

namespace Alike

variable {tail : List Char} {first second third : Option (List Char × Nat)}

theorem refl : Alike tail first first :=
  .inl rfl

theorem symm
    (alike : Alike tail first second) :
    Alike tail second first := by
  rcases alike with rfl | ⟨kept, other, indexes, isFirst, isSecond⟩
  · exact .inl rfl
  · exact .inr ⟨other, kept, indexes, isSecond, isFirst⟩

theorem trans
    (alike : Alike tail first second)
    (further : Alike tail second third) :
    Alike tail first third := by
  rcases alike with rfl | ⟨kept, other, indexes, isFirst, isSecond⟩
  · exact further
  · rcases further with rfl | ⟨same, more, others, isSame, isThird⟩
    · exact .inr ⟨kept, other, indexes, isFirst, isSecond⟩
    · rw [isSecond] at isSame
      cases (Prod.mk.inj (Option.some.inj isSame)).2
      exact .inr ⟨kept, more, indexes, isFirst, isThird⟩

end Alike

namespace Stripping

/-- The outcome of the search from a place on; a name that is not known yet is given by its tail. -/
def resume? (tail : List Char) (stripping : Stripping) (rest : List Char) :
    Option (List Char × Nat) :=
  match stripping.place with
  | .inside bracket around =>
      match beforeGroup? bracket.opening bracket.closing (around + 1) rest with
      | none => none
      | some [] => some (tail, stripping.indexes)
      | some before =>
          (strip? (Text.trimStart before)).map fun (name, indexes) =>
            (name, (if bracket = .square then indexes + 1 else indexes) + stripping.indexes)
  | .between =>
      (strip? (Text.trimStart rest)).map fun (name, indexes) => (name, indexes + stripping.indexes)
  | .name => some (rest, stripping.indexes)

/-- One character further, the outcome is the same. -/
theorem alike_resume?_step
    {tail : List Char}
    (notEmpty : tail ≠ [])
    (stripping : Stripping)
    (c : Char)
    (rest : List Char) :
    Alike tail (stripping.resume? tail (c :: (rest ++ tail)))
      ((stripping.step c).resume? tail (rest ++ tail)) := by
  obtain ⟨place, indexes⟩ := stripping
  cases place with
  | name =>
      exact .inr ⟨c :: rest, rest, indexes, rfl, rfl⟩
  | between =>
      by_cases isBlank : Text.isBlank c = true
      · have stays : step ⟨.between, indexes⟩ c = ⟨.between, indexes⟩ := if_pos isBlank
        rw [stays, resume?, resume?, Text.trimStart, List.dropWhile_cons_of_pos isBlank]
        exact .refl
      · have trimmed : Text.trimStart (c :: (rest ++ tail)) = c :: (rest ++ tail) :=
          List.dropWhile_cons_of_neg isBlank
        rw [resume?, trimmed]
        cases closed : Bracket.closedBy? c with
        | none =>
            have ends : step ⟨.between, indexes⟩ c = ⟨.name, indexes⟩ := by
              simp [step, isBlank, closed]
            rw [ends, strip?_of_openingOf?_eq_none (openingOf?_eq_none closed)]
            exact .inr ⟨c :: rest, rest, indexes, by simp, rfl⟩
        | some bracket =>
            have enters : step ⟨.between, indexes⟩ c = ⟨.inside bracket 0, indexes⟩ := by
              simp [step, isBlank, closed]
            cases Bracket.eq_closing closed
            rw [enters, strip?_closing, resume?]
            dsimp only
            rw [Nat.zero_add]
            cases beforeGroup? bracket.opening bracket.closing 1 (rest ++ tail) with
            | none =>
                exact .refl
            | some before =>
                cases before with
                | nil =>
                    exact .inr ⟨bracket.closing :: rest, [], indexes, by simp, rfl⟩
                | cons first others =>
                    simp only [Option.map_map]
                    exact .refl
  | inside bracket around =>
      by_cases closes : c = bracket.closing
      · have deeper : step ⟨.inside bracket around, indexes⟩ c =
            ⟨.inside bracket (around + 1), indexes⟩ := if_pos closes
        rw [deeper, resume?, resume?, closes]
        dsimp only
        rw [beforeGroup?_closing]
        exact .refl
      · by_cases opens : c = bracket.opening
        · subst opens
          cases around with
          | zero =>
              have leaves : step ⟨.inside bracket 0, indexes⟩ bracket.opening =
                  ⟨.between, if bracket = .square then indexes + 1 else indexes⟩ :=
                (if_neg closes).trans (if_pos rfl)
              have found : beforeGroup? bracket.opening bracket.closing (0 + 1)
                  (bracket.opening :: (rest ++ tail)) = some (rest ++ tail) := by
                simp [beforeGroup?, closes]
              obtain ⟨first, others, isText⟩ :=
                List.exists_cons_of_ne_nil (List.append_ne_nil_of_right_ne_nil rest notEmpty)
              rw [leaves, resume?, resume?]
              dsimp only
              rw [found, isText]
              refine .inl (congrArg (Option.map · _) (funext fun outcome => ?_))
              split <;> simp only [Nat.add_assoc, Nat.add_comm 1]
          | succ around =>
              have leaves : step ⟨.inside bracket (around + 1), indexes⟩ bracket.opening =
                  ⟨.inside bracket around, indexes⟩ :=
                (if_neg closes).trans (if_pos rfl)
              rw [leaves, resume?, resume?]
              dsimp only
              rw [beforeGroup?_opening]
              exact .refl
        · have stays : step ⟨.inside bracket around, indexes⟩ c =
              ⟨.inside bracket around, indexes⟩ := (if_neg closes).trans (if_neg opens)
          rw [stays, resume?, resume?]
          dsimp only
          rw [beforeGroup?_of_ne closes opens]
          exact .refl

/-- Passing over the rest of a link does not change the outcome. -/
theorem alike_resume?_passOver
    {tail : List Char}
    (notEmpty : tail ≠ [])
    (stripping : Stripping)
    (text : List Char) :
    Alike tail (stripping.resume? tail (text.reverse ++ tail))
      ((stripping.passOver text).resume? tail tail) := by
  unfold passOver
  induction text.reverse generalizing stripping with
  | nil =>
      exact .refl
  | cons c rest inductionHypothesis =>
      exact (alike_resume?_step notEmpty stripping c rest).trans (inductionHypothesis _)

theorem passOver_nil
    (stripping : Stripping) :
    stripping.passOver [] = stripping :=
  rfl

theorem passOver_append
    (stripping : Stripping)
    (first second : List Char) :
    stripping.passOver (first ++ second) = (stripping.passOver second).passOver first := by
  rw [passOver, passOver, passOver, List.reverse_append, List.foldl_append]

theorem passOver_cons
    (stripping : Stripping)
    (c : Char)
    (text : List Char) :
    stripping.passOver (c :: text) = (stripping.passOver text).step c := by
  rw [passOver, passOver, List.reverse_cons, List.foldl_append, List.foldl_cons, List.foldl_nil]

/-- In the name, nothing is looked for any more. -/
theorem passOver_name
    (indexes : Nat)
    (text : List Char) :
    (⟨.name, indexes⟩ : Stripping).passOver text = ⟨.name, indexes⟩ := by
  induction text with
  | nil =>
      rfl
  | cons c rest inductionHypothesis =>
      rw [passOver_cons, inductionHypothesis]
      rfl

/-- The same place, with more index accesses found before. -/
def add (stripping : Stripping) (more : Nat) : Stripping :=
  ⟨stripping.place, stripping.indexes + more⟩

theorem step_add
    (stripping : Stripping)
    (more : Nat)
    (c : Char) :
    (stripping.add more).step c = (stripping.step c).add more := by
  obtain ⟨place, indexes⟩ := stripping
  cases place with
  | name =>
      rfl
  | between =>
      unfold step add
      dsimp only
      split
      · rfl
      · split <;> rfl
  | inside bracket around =>
      unfold step add
      dsimp only
      split
      · rfl
      · split
        · cases around with
          | zero =>
              dsimp only
              split
              · rw [Nat.add_right_comm]
              · rfl
          | succ around =>
              rfl
        · rfl

theorem passOver_add
    (stripping : Stripping)
    (more : Nat)
    (text : List Char) :
    (stripping.add more).passOver text = (stripping.passOver text).add more := by
  unfold passOver
  induction text.reverse generalizing stripping with
  | nil =>
      rfl
  | cons c rest inductionHypothesis =>
      rw [List.foldl_cons, List.foldl_cons, step_add, inductionHypothesis]

section Marks

variable {mark : Char} (isMark : isQuote mark = true)
include isMark

/-- A quotation mark is passed over inside of groups, and belongs to the name outside of them. -/
theorem step_mark
    (stripping : Stripping) :
    stripping.step mark =
      match stripping.place with
      | .inside _ _ => stripping
      | .between | .name => ⟨.name, stripping.indexes⟩ := by
  obtain ⟨place, indexes⟩ := stripping
  rcases isQuote_iff.mp isMark with rfl | rfl <;>
    rcases place with ⟨_ | _ | _, around⟩ | _ | _ <;> rfl

/-- In front of a quotation mark it does not matter whether the name has begun. -/
theorem resume?_mark
    (stripping : Stripping)
    (rest : List Char) :
    stripping.resume? (mark :: rest) (mark :: rest) =
      (stripping.step mark).resume? (mark :: rest) (mark :: rest) := by
  obtain ⟨place, indexes⟩ := stripping
  rw [step_mark isMark]
  cases place with
  | inside bracket around =>
      rfl
  | name =>
      rfl
  | between =>
      have unblank : Text.isBlank mark = false := by
        rcases isQuote_iff.mp isMark with rfl | rfl <;> decide
      have noGroup : openingOf? mark = none := by
        rcases isQuote_iff.mp isMark with rfl | rfl <;> rfl
      have trimmed : Text.trimStart (mark :: rest) = mark :: rest :=
        Text.trimStart_append_cons unblank [] rest
      simp [resume?, trimmed, strip?_of_openingOf?_eq_none noGroup]

end Marks

end Stripping

/--
Two texts of a string do the same to a search that passes over the string inside of a group, however
many groups stand around it.
-/
def PassAlike (mark : Char) (first second : List Char) : Prop :=
  ∀ bracket around,
    (⟨.inside bracket around, 0⟩ : Stripping).passOver (quoted mark first) =
      (⟨.inside bracket around, 0⟩ : Stripping).passOver (quoted mark second)

/-- The name of a link and its index accesses, with a search that begins between groups. -/
theorem strip?_eq_resume?
    {tail reversed : List Char}
    (trimmed : Text.trimStart reversed = reversed) :
    strip? reversed = (⟨.between, 0⟩ : Stripping).resume? tail reversed := by
  simp [Stripping.resume?, trimmed]

section Strings

variable {mark : Char} {first second before last : List Char} (isMark : isQuote mark = true)
include isMark

/-- In front of a string, a search is at the same place for both texts of the string. -/
theorem PassAlike.step_passOver
    (alike : PassAlike mark first second)
    (stripping : Stripping) :
    ((stripping.step mark).passOver first).step mark =
      ((stripping.step mark).passOver second).step mark := by
  obtain ⟨place, indexes⟩ := stripping
  rw [Stripping.step_mark isMark ⟨place, indexes⟩]
  cases place with
  | between | name =>
      simp only [Stripping.passOver_name]
  | inside bracket around =>
      have inGroup : ∀ content,
          ((⟨.inside bracket around, indexes⟩ : Stripping).passOver content).step mark =
            ((⟨.inside bracket around, 0⟩ : Stripping).passOver (quoted mark content)).add
              indexes := by
        intro content
        have isAdded : (⟨.inside bracket around, indexes⟩ : Stripping) =
            (⟨.inside bracket around, 0⟩ : Stripping).add indexes := by
          rw [Stripping.add, Nat.zero_add]
        rw [isAdded, Stripping.passOver_add, Stripping.step_add, quoted, Stripping.passOver_cons,
          Stripping.passOver_append, Stripping.passOver_cons, Stripping.passOver_nil,
          Stripping.step_mark isMark ⟨.inside bracket around, 0⟩]
      dsimp only
      rw [inGroup, inGroup, alike bracket around]

/-- Links that differ in the text of a string have names alike if the texts pass alike. -/
theorem PassAlike.alike_strip?
    (alike : PassAlike mark first second)
    (before : List Char)
    (trimmed : Text.trimEnd last = last) :
    Alike (mark :: before.reverse)
      (strip? (before ++ (quoted mark first ++ last)).reverse)
      (strip? (before ++ (quoted mark second ++ last)).reverse) := by
  have unblank : Text.isBlank mark = false := by
    rcases isQuote_iff.mp isMark with rfl | rfl <;> decide
  have trimmedLast : Text.trimStart last.reverse = last.reverse := by
    rw [← List.reverse_eq_iff]
    exact trimmed
  have outcome : ∀ content,
      Alike (mark :: before.reverse)
        (strip? (before ++ (quoted mark content ++ last)).reverse)
        (((((⟨.between, 0⟩ : Stripping).passOver last).step mark).passOver content).step
          mark |>.resume? (mark :: before.reverse) (mark :: before.reverse)) := by
    intro content
    have isText : (before ++ (quoted mark content ++ last)).reverse =
        (content ++ mark :: last).reverse ++ mark :: before.reverse := by
      simp [quoted]
    have begins : (content ++ mark :: last).reverse ++ mark :: before.reverse =
        last.reverse ++ mark :: (content.reverse ++ mark :: before.reverse) := by
      simp
    have trimmedText : Text.trimStart (last.reverse ++
          mark :: (content.reverse ++ mark :: before.reverse)) =
        last.reverse ++ mark :: (content.reverse ++ mark :: before.reverse) := by
      rw [Text.trimStart_append_cons unblank, trimmedLast]
    rw [isText, begins, strip?_eq_resume? trimmedText, ← begins, ← Stripping.resume?_mark isMark,
      ← Stripping.passOver_cons, ← Stripping.passOver_append]
    exact Stripping.alike_resume?_passOver (List.cons_ne_nil _ _) _ _
  have sameOutcome := alike.step_passOver isMark ((⟨.between, 0⟩ : Stripping).passOver last)
  have ofFirst := outcome first
  rw [sameOutcome] at ofFirst
  exact ofFirst.trans (outcome second).symm

end Strings

end TagCheck.Signature
