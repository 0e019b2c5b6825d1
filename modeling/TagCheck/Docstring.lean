import TagCheck.DocType.Reader

namespace TagCheck

/-!
# Documentation comments

A documentation comment is running text with tags: lines that begin with an at sign.  A tag has a
name and, depending on it, a parameter name, a bracketed list of types and a text.  The parameter
name may stand before or after the types.
-/

/-- One tag line of a documentation comment. -/
structure DocTag where
  /-- The tag's name, without the at sign. -/
  name : String
  /-- The parameter it documents, for tags about parameters. -/
  param : Option String
  /-- The texts of the types in its brackets. -/
  types : List String
  text : String
  deriving Repr, DecidableEq

/-- A documentation comment: its running text and its tags in order. -/
structure Docstring where
  text : String
  tags : List DocTag
  deriving Repr, DecidableEq

namespace DocTag

/-- The tag lists at least one type. -/
def hasTypes (tag : DocTag) : Bool :=
  !tag.types.isEmpty

/-- The union of the listed types, malformed ones left out. -/
def type (tag : DocTag) : DocUnion :=
  DocUnion.readAll tag.types

/-- The type of a tag that lists types. -/
def type? (tag : DocTag) : Option DocUnion :=
  if tag.hasTypes then some tag.type else none

/-- Tags that document a parameter. -/
def takesParam (name : List Char) : Bool :=
  ["param", "yieldparam", "option"].contains (String.ofList name)

/-- Split before the bracket that closes `depth` open ones; none if it is missing. -/
def splitAtClosing (depth : Nat) : List Char → Option (List Char × List Char)
  | [] => none
  | c :: rest =>
      if c == ']' && depth ≤ 1 then
        some ([], rest)
      else
        let inside :=
          if c == '[' then depth + 1 else if c == ']' then depth - 1 else depth
        (splitAtClosing inside rest).map fun (inner, behind) => (c :: inner, behind)

/-- The inside of a bracket group at the front of a text, and what stands behind it. -/
def bracketed? : List Char → Option (List Char × List Char)
  | '[' :: inner => splitAtClosing 1 inner
  | _ => none

/-- Brackets that open a parameter list. -/
def isOpeningBracket (c : Char) : Bool :=
  c == '<' || c == '\x7b' || c == '('

/--
The pieces of a type list between the commas outside all brackets.  A closing bracket counts only
if one is open and no equals sign stands before it, so that an arrow closes nothing.
-/
def topLevelPieces (depth : Nat) (previous : Option Char) : List Char → List (List Char)
  | [] => [[]]
  | c :: rest =>
      if c == ',' && depth = 0 then
        [] :: topLevelPieces depth none rest
      else
        let inside :=
          if isOpeningBracket c then
            depth + 1
          else if DocType.isClosing c && previous != some '=' then
            depth - 1
          else
            depth
        match topLevelPieces inside (some c) rest with
        | [] => [[c]]
        | piece :: pieces => (c :: piece) :: pieces

/-- The types of a list, trimmed; empty ones are dropped. -/
def splitTypes (list : List Char) : List (List Char) :=
  ((topLevelPieces 0 none list).map Text.trim).filter (!·.isEmpty)

/-- A first word as a parameter name; none if there is no word. -/
def readParam (text : List Char) : Option (List Char) × List Char :=
  match Text.splitWord text with
  | ([], behind) => (none, Text.trimStart behind)
  | (name, behind) => (some name, Text.trimStart behind)

/-- Read a tag line behind its at sign. -/
def read (line : List Char) : DocTag :=
  let (name, behind) := Text.splitWord line
  let behind := Text.trimStart behind
  let (early, behind) :=
    if takesParam name && behind.head? != some '[' then readParam behind else (none, behind)
  let (types, behind) :=
    match bracketed? behind with
    | some (list, behind) => (splitTypes list, Text.trimStart behind)
    | none => ([], behind)
  let (param, behind) :=
    if takesParam name && early.isNone then readParam behind else (early, behind)
  { name := String.ofList name
    param := param.map String.ofList
    types := types.map String.ofList
    text := String.ofList (Text.trim behind) }

end DocTag

namespace Docstring

/-- The comment that says nothing. -/
def empty : Docstring :=
  ⟨"", []⟩

/-- The tag on a trimmed line; none for running text. -/
def tagLine? : List Char → Option DocTag
  | '@' :: line => some (DocTag.read line)
  | _ => none

/-- Read a comment line by line. -/
def read (comments : String) : Docstring :=
  let lines := (Text.lines comments.toList).map Text.trim
  { text := String.ofList
      (Text.trim (Text.joinWith ['\n'] (lines.filter fun line => (tagLine? line).isNone)))
    tags := lines.filterMap tagLine? }

/-- There is neither text nor tag. -/
def isEmpty (doc : Docstring) : Bool :=
  doc.text.isEmpty && doc.tags.isEmpty

/-- The first tag of a name. -/
def tag? (doc : Docstring) (name : String) : Option DocTag :=
  doc.tags.find? (·.name = name)

/-- The documented return type; only the first `@return` counts, and only with types. -/
def returnType? (doc : Docstring) : Option DocUnion :=
  (doc.tag? "return").bind DocTag.type?

/-- The first `@param` tag for a parameter. -/
def paramTag? (doc : Docstring) (name : String) : Option DocTag :=
  doc.tags.find? fun tag => tag.name = "param" && tag.param = some name

/-- The documented type of a parameter; only its first `@param` counts, and only with types. -/
def paramType? (doc : Docstring) (name : String) : Option DocUnion :=
  (doc.paramTag? name).bind DocTag.type?

/-- The type that a comment on an assignment gives to the variable. -/
def typeHint? (doc : Docstring) : Option DocUnion :=
  (doc.tag? "type").bind DocTag.type?

end Docstring

end TagCheck
