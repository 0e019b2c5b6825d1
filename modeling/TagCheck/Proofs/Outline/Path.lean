import Mathlib.Data.List.DropRight
import Mathlib.Data.List.Infix
import TagCheck.Outline.Path

namespace TagCheck.ConstantPath

/-!
# The names along a path

A path is split at double colons from the left.  Joining its first names gives the paths that it
leads along, and splitting such a path gives the same names again.
-/

/-- Pieces with double colons between them. -/
def joinedChars (pieces : List (List Char)) : List Char :=
  Text.joinWith [':', ':'] pieces

/-- The first name of a path. -/
def firstName (path : String) : String :=
  (parts path).headD ""

/-- The paths that a path leads along, the outermost first, and itself the last. -/
def along (path : String) : List String :=
  (parts path).tail.inits.map (List.foldl joinPath (firstName path))

/-- A path as namespaces have it: no double colons in front, and no white space around. -/
structure IsPlain (path : String) : Prop where
  notEmpty : path ≠ ""
  relative : absolute? path = none
  trimmed : ∀ outer ∈ along path, Text.trimmed outer = outer

section Pieces

theorem joinedChars_singleton
    (piece : List Char) :
    joinedChars [piece] = piece := by
  simp [joinedChars, Text.joinWith, List.intercalate]

theorem joinedChars_cons_cons
    (first second : List Char)
    (rest : List (List Char)) :
    joinedChars (first :: second :: rest) =
      first ++ ':' :: ':' :: joinedChars (second :: rest) := by
  simp [joinedChars, Text.joinWith, List.intercalate]

theorem joinedChars_append
    (front first : List Char)
    (rest : List (List Char)) :
    joinedChars ((front ++ first) :: rest) = front ++ joinedChars (first :: rest) := by
  cases rest with
  | nil =>
      rw [joinedChars_singleton, joinedChars_singleton]
  | cons second rest =>
      rw [joinedChars_cons_cons, joinedChars_cons_cons, List.append_assoc]

theorem joinedChars_cons
    (c : Char)
    (first : List Char)
    (rest : List (List Char)) :
    joinedChars ((c :: first) :: rest) = c :: joinedChars (first :: rest) :=
  joinedChars_append [c] first rest

/-- A character in a path stands in one of its names, or between two of them. -/
theorem mem_joinedChars
    {c : Char}
    {pieces : List (List Char)}
    (member : c ∈ joinedChars pieces) :
    c = ':' ∨ ∃ piece ∈ pieces, c ∈ piece := by
  induction pieces with
  | nil =>
      cases member
  | cons first rest inductionHypothesis =>
      cases rest with
      | nil =>
          rw [joinedChars_singleton] at member
          exact .inr ⟨first, List.mem_cons_self, member⟩
      | cons second rest =>
          rw [joinedChars_cons_cons, List.mem_append, List.mem_cons, List.mem_cons] at member
          rcases member with inFirst | isColon | isColon | inRest
          · exact .inr ⟨first, List.mem_cons_self, inFirst⟩
          · exact .inl isColon
          · exact .inl isColon
          · exact (inductionHypothesis inRest).imp_right fun ⟨piece, isPiece, inPiece⟩ =>
              ⟨piece, List.mem_cons_of_mem first isPiece, inPiece⟩

/-- Of a path, only colons are dropped in front. -/
theorem mem_dropColonPairs
    {c : Char}
    {path : List Char}
    (notColon : c ≠ ':')
    (member : c ∈ path) :
    c ∈ Text.dropColonPairs path := by
  fun_induction Text.dropColonPairs path with
  | case1 rest inductionHypothesis =>
      refine inductionHypothesis ?_
      simpa [notColon] using member
  | case2 =>
      exact member

theorem partsOfChars_ne_nil
    (text : List Char) :
    partsOfChars text ≠ [] := by
  fun_cases partsOfChars text <;> simp_all

/-- Joining the pieces of a text gives the text again. -/
theorem joinedChars_partsOfChars
    (text : List Char) :
    joinedChars (partsOfChars text) = text := by
  fun_induction partsOfChars text with
  | case1 =>
      rfl
  | case2 rest inductionHypothesis =>
      cases split : partsOfChars rest with
      | nil =>
          exact absurd split (partsOfChars_ne_nil rest)
      | cons part others =>
          rw [joinedChars_cons_cons, ← split, inductionHypothesis, List.nil_append]
  | case3 c rest _ empty _ =>
      exact absurd empty (partsOfChars_ne_nil rest)
  | case4 c rest _ part others split inductionHypothesis =>
      rw [joinedChars_cons, ← split, inductionHypothesis]

theorem joinedChars_prefix
    {fewer pieces : List (List Char)}
    (isPrefix : fewer <+: pieces) :
    joinedChars fewer <+: joinedChars pieces := by
  induction fewer generalizing pieces with
  | nil =>
      exact List.nil_prefix
  | cons first rest inductionHypothesis =>
      obtain ⟨more, rfl⟩ := isPrefix
      cases rest with
      | nil =>
          cases more with
          | nil =>
              exact List.prefix_refl _
          | cons second others =>
              rw [List.singleton_append, joinedChars_cons_cons, joinedChars_singleton]
              exact List.prefix_append first _
      | cons second others =>
          have further := inductionHypothesis (List.prefix_append (second :: others) more)
          rw [List.cons_append, List.cons_append, joinedChars_cons_cons, joinedChars_cons_cons]
          obtain ⟨behind, joined⟩ := further
          rw [List.cons_append] at joined
          exact ⟨behind, by rw [← joined]; simp⟩

/-- A character that does not begin double colons goes to the first piece. -/
theorem partsOfChars_cons
    {c : Char}
    {text part : List Char}
    {others : List (List Char)}
    (notColons : ∀ behind, c = ':' → text = ':' :: behind → False)
    (split : partsOfChars text = part :: others) :
    partsOfChars (c :: text) = (c :: part) :: others := by
  rw [partsOfChars, split]
  exact notColons

/-- A name without colons is the first piece, if double colons or nothing follows it. -/
theorem partsOfChars_append
    {name text : List Char}
    {others : List (List Char)}
    (noColon : ':' ∉ name)
    (split : partsOfChars text = [] :: others) :
    partsOfChars (name ++ text) = name :: others := by
  induction name with
  | nil =>
      exact split
  | cons c rest inductionHypothesis =>
      rw [List.mem_cons, not_or] at noColon
      exact partsOfChars_cons (fun _ isColon _ => noColon.1 isColon.symm)
        (inductionHypothesis noColon.2)

/-- Names without colons are the pieces of the path that they make. -/
theorem partsOfChars_joinedChars_of_noColon
    {first : List Char}
    {rest : List (List Char)}
    (noColon : ∀ name ∈ first :: rest, ':' ∉ name) :
    partsOfChars (joinedChars (first :: rest)) = first :: rest := by
  obtain ⟨noColonInFirst, noColonInRest⟩ := List.forall_mem_cons.mp noColon
  induction rest generalizing first with
  | nil =>
      have ofFirst : partsOfChars (first ++ []) = [first] :=
        partsOfChars_append noColonInFirst rfl
      simpa only [joinedChars_singleton, List.append_nil] using ofFirst
  | cons second others inductionHypothesis =>
      obtain ⟨noColonInSecond, noColonInOthers⟩ := List.forall_mem_cons.mp noColonInRest
      rw [joinedChars_cons_cons, partsOfChars_append noColonInFirst rfl,
        inductionHypothesis noColonInRest noColonInSecond noColonInOthers]

/-- The first pieces of a text are the pieces of the text that they make. -/
theorem partsOfChars_joinedChars
    {text : List Char}
    {fewer : List (List Char)}
    (notEmpty : fewer ≠ [])
    (isPrefix : fewer <+: partsOfChars text) :
    partsOfChars (joinedChars fewer) = fewer := by
  obtain ⟨first, rest, rfl⟩ := List.exists_cons_of_ne_nil notEmpty
  fun_induction partsOfChars text generalizing first rest with
  | case1 =>
      obtain ⟨rfl, nothing⟩ := List.cons_prefix_cons.mp isPrefix
      rw [List.prefix_nil.mp nothing]
      rfl
  | case2 text inductionHypothesis =>
      obtain ⟨rfl, fewerOthers⟩ := List.cons_prefix_cons.mp isPrefix
      cases rest with
      | nil =>
          rfl
      | cons second others =>
          have further :=
            inductionHypothesis second others (List.cons_ne_nil second others) fewerOthers
          rw [joinedChars_cons_cons, List.nil_append, partsOfChars, further]
  | case3 c text _ empty _ =>
      exact absurd empty (partsOfChars_ne_nil text)
  | case4 c text notColons part others split inductionHypothesis =>
      obtain ⟨rfl, fewerOthers⟩ := List.cons_prefix_cons.mp isPrefix
      have isBeginning : part :: rest <+: partsOfChars text := by
        rw [split]
        exact List.cons_prefix_cons.mpr ⟨rfl, fewerOthers⟩
      have further := inductionHypothesis part rest (List.cons_ne_nil part rest) isBeginning
      rw [joinedChars_cons]
      refine partsOfChars_cons ?_ further
      -- What the joined pieces begin with, the text begins with as well.
      intro behind isColon begins
      have joined := joinedChars_prefix isBeginning
      rw [joinedChars_partsOfChars, begins] at joined
      obtain ⟨more, same⟩ := joined
      exact notColons (behind ++ more) isColon same.symm

end Pieces

section Names

/-- The first names of a path are those before and behind its first double colons. -/
theorem partsOfChars_eq_of_splitFirstChars?
    (text : List Char) :
    partsOfChars text =
      match splitFirstChars? text with
      | none => [text]
      | some (before, behind) => before :: partsOfChars behind := by
  fun_induction splitFirstChars? text with
  | case1 =>
      rfl
  | case2 c =>
      exact partsOfChars_cons nofun rfl
  | case3 rest =>
      rfl
  | case4 c rest notSingle notColons inductionHypothesis =>
      cases split : splitFirstChars? rest with
      | none =>
          rw [split] at inductionHypothesis
          exact partsOfChars_cons notColons inductionHypothesis
      | some halves =>
          rw [split] at inductionHypothesis
          exact partsOfChars_cons notColons inductionHypothesis

theorem parts_of_splitFirst?_eq_none
    {path : String}
    (unsplit : splitFirst? path = none) :
    parts path = [path] := by
  rw [splitFirst?, Option.map_eq_none_iff] at unsplit
  rw [parts, partsOfChars_eq_of_splitFirstChars?, unsplit]
  simp

/-- The names of a path are the first one and those of the path inside it. -/
theorem parts_of_splitFirst?_eq_some
    {path first inner : String}
    (split : splitFirst? path = some (first, inner)) :
    parts path = first :: parts inner := by
  rw [splitFirst?, Option.map_eq_some_iff] at split
  obtain ⟨⟨before, behind⟩, found, same⟩ := split
  cases same
  rw [parts, partsOfChars_eq_of_splitFirstChars?, found]
  simp [parts]

theorem parts_ne_nil
    (path : String) :
    parts path ≠ [] := by
  rw [parts, Ne, List.map_eq_nil_iff]
  exact partsOfChars_ne_nil path.toList

theorem parts_eq_cons
    (path : String) :
    parts path = firstName path :: (parts path).tail := by
  obtain ⟨first, rest, split⟩ := List.exists_cons_of_ne_nil (parts_ne_nil path)
  rw [firstName, split]
  rfl

theorem toList_foldl_joinPath
    {path : String}
    (notEmpty : path ≠ "")
    (names : List String) :
    (names.foldl joinPath path).toList = joinedChars (path.toList :: names.map String.toList) := by
  induction names generalizing path with
  | nil =>
      rw [List.map_nil, joinedChars_singleton, List.foldl_nil]
  | cons name rest inductionHypothesis =>
      have joined : joinPath path name = path ++ "::" ++ name := if_neg notEmpty
      have stillNotEmpty : path ++ "::" ++ name ≠ "" := by
        intro isEmpty
        have noText := congrArg String.toList isEmpty
        simp at noText
      have text : (path ++ "::" ++ name).toList = (path.toList ++ [':', ':']) ++ name.toList := by
        simp
      rw [List.foldl_cons, joined, inductionHypothesis stillNotEmpty, List.map_cons,
        joinedChars_cons_cons, text, joinedChars_append, List.append_assoc]
      rfl

/-- The first piece of a text is empty only if the text is, or begins with double colons. -/
theorem eq_nil_or_colons_of_head?_partsOfChars
    {text : List Char}
    (isEmpty : (partsOfChars text).head? = some []) :
    text = [] ∨ ∃ behind, text = ':' :: ':' :: behind := by
  fun_cases partsOfChars text with
  | case1 =>
      exact .inl rfl
  | case2 behind =>
      exact .inr ⟨behind, rfl⟩
  | case3 c rest _ empty =>
      exact absurd empty (partsOfChars_ne_nil rest)
  | case4 c rest notColons part others split =>
      rw [partsOfChars_cons notColons split] at isEmpty
      cases isEmpty

/-- A path has a first name exactly if it is neither empty nor absolute. -/
theorem firstName_ne_empty_iff
    {path : String} :
    firstName path ≠ "" ↔ path ≠ "" ∧ absolute? path = none := by
  constructor
  · intro named
    refine ⟨?_, ?_⟩
    · rintro rfl
      exact named rfl
    · unfold absolute?
      split
      · next behind begins =>
          refine absurd ?_ named
          rw [firstName, parts, begins]
          rfl
      · rfl
  · rintro ⟨notEmpty, relative⟩ unnamed
    have pieces : (partsOfChars path.toList).head? = some [] := by
      obtain ⟨piece, rest, split⟩ := List.exists_cons_of_ne_nil (partsOfChars_ne_nil path.toList)
      rw [firstName, parts, split, List.map_cons, List.headD_cons] at unnamed
      rw [split, List.head?_cons, String.ofList_eq_empty_iff.mp unnamed]
    rcases eq_nil_or_colons_of_head?_partsOfChars pieces with isEmpty | ⟨behind, begins⟩
    · exact notEmpty (String.toList_eq_nil_iff.mp isEmpty)
    · rw [absolute?, begins] at relative
      cases relative

/-- The names of a path that are joined to its first name give the path. -/
theorem foldl_joinPath_tail
    {path : String}
    (named : firstName path ≠ "") :
    (parts path).tail.foldl joinPath (firstName path) = path := by
  have pieces : (firstName path).toList :: (parts path).tail.map String.toList =
      partsOfChars path.toList := by
    rw [← List.map_cons, ← parts_eq_cons, parts, List.map_map]
    simp
  have text := toList_foldl_joinPath named (parts path).tail
  rw [pieces, joinedChars_partsOfChars] at text
  exact String.toList_injective text

/-- The first names of a path are the names of the path that they make. -/
theorem parts_foldl_joinPath
    {path : String}
    (named : firstName path ≠ "")
    {names : List String}
    (isPrefix : names <+: (parts path).tail) :
    parts (names.foldl joinPath (firstName path)) = firstName path :: names := by
  have pieces : (firstName path).toList :: (parts path).tail.map String.toList =
      partsOfChars path.toList := by
    rw [← List.map_cons, ← parts_eq_cons, parts, List.map_map]
    simp
  have isBeginning : (firstName path).toList :: names.map String.toList <+:
      partsOfChars path.toList := by
    rw [← pieces]
    exact List.cons_prefix_cons.mpr ⟨rfl, isPrefix.map String.toList⟩
  rw [parts, toList_foldl_joinPath named,
    partsOfChars_joinedChars (List.cons_ne_nil _ _) isBeginning, ← List.map_cons, List.map_map]
  simp

theorem parts_firstName
    {path : String}
    (named : firstName path ≠ "") :
    parts (firstName path) = [firstName path] := by
  have joined := parts_foldl_joinPath named List.nil_prefix
  rwa [List.foldl_nil] at joined

theorem mem_along_iff
    {path outer : String} :
    outer ∈ along path ↔
      ∃ names, names <+: (parts path).tail ∧ names.foldl joinPath (firstName path) = outer := by
  simp only [along, List.mem_map, List.mem_inits]

theorem firstName_mem_along
    (path : String) :
    firstName path ∈ along path :=
  mem_along_iff.mpr ⟨[], List.nil_prefix, rfl⟩

end Names

section Absolute

theorem trim_colons
    {text : List Char}
    (notEmpty : text ≠ [])
    (trimmed : Text.trim text = text) :
    Text.trim (':' :: ':' :: text) = ':' :: ':' :: text := by
  have begins : Text.trimStart (':' :: ':' :: text) = ':' :: ':' :: text := rfl
  have dropped : (Text.trimStart text).reverse.dropWhile Text.isBlank = text.reverse := by
    rw [← List.reverse_inj, List.reverse_reverse]
    exact trimmed
  have kept : text.reverse.dropWhile Text.isBlank = text.reverse := by
    rw [← dropped, List.dropWhile_idempotent]
  have behind : text.reverse.isEmpty = false := by
    simpa using notEmpty
  rw [Text.trim, begins, Text.trimEnd, List.reverse_cons, List.reverse_cons, List.append_assoc,
    List.dropWhile_append, kept, behind]
  simp

/-- Double colons in front of a trimmed path leave it trimmed. -/
theorem trimmed_colons
    {path : String}
    (notEmpty : path ≠ "")
    (trimmed : Text.trimmed path = path) :
    Text.trimmed ("::" ++ path) = "::" ++ path := by
  have text : ("::" ++ path).toList = ':' :: ':' :: path.toList := String.toList_append
  have kept : Text.trim path.toList = path.toList := by
    have chars := congrArg String.toList trimmed
    rwa [Text.trimmed, String.toList_ofList] at chars
  apply String.toList_injective
  rw [Text.trimmed, String.toList_ofList, text]
  exact trim_colons (mt String.toList_eq_nil_iff.mp notEmpty) kept

theorem absolute?_colons
    (path : String) :
    absolute? ("::" ++ path) = some path := by
  have text : ("::" ++ path).toList = ':' :: ':' :: path.toList := String.toList_append
  rw [absolute?, text]
  simp

end Absolute

section Plain

variable {path outer : String}

theorem IsPlain.named
    (plain : IsPlain path) :
    firstName path ≠ "" :=
  firstName_ne_empty_iff.mpr ⟨plain.notEmpty, plain.relative⟩

theorem IsPlain.mem_along_self
    (plain : IsPlain path) :
    path ∈ along path :=
  mem_along_iff.mpr ⟨(parts path).tail, List.prefix_refl _, foldl_joinPath_tail plain.named⟩

theorem IsPlain.firstName_eq
    (plain : IsPlain path)
    (member : outer ∈ along path) :
    firstName outer = firstName path := by
  obtain ⟨names, isPrefix, rfl⟩ := mem_along_iff.mp member
  rw [firstName, parts_foldl_joinPath plain.named isPrefix, List.headD_cons]

/-- Whatever a plain path leads along leads along less. -/
theorem IsPlain.along_subset
    (plain : IsPlain path)
    (member : outer ∈ along path) :
    along outer ⊆ along path := by
  intro further isFurther
  have sameName := plain.firstName_eq member
  obtain ⟨names, isPrefix, rfl⟩ := mem_along_iff.mp member
  obtain ⟨fewer, isFewer, rfl⟩ := mem_along_iff.mp isFurther
  rw [parts_foldl_joinPath plain.named isPrefix, List.tail_cons] at isFewer
  exact mem_along_iff.mpr ⟨fewer, isFewer.trans isPrefix, by rw [sameName]⟩

theorem IsPlain.of_mem_along
    (plain : IsPlain path)
    (member : outer ∈ along path) :
    IsPlain outer := by
  have named : firstName outer ≠ "" := by
    rw [plain.firstName_eq member]
    exact plain.named
  obtain ⟨notEmpty, relative⟩ := firstName_ne_empty_iff.mp named
  refine ⟨notEmpty, relative, ?_⟩
  intro further isFurther
  exact plain.trimmed further (plain.along_subset member isFurther)

end Plain

end TagCheck.ConstantPath
