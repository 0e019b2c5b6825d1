import TagCheck.DocType.Basic
import TagCheck.Text.Pieces

namespace TagCheck

/-!
# Reading documented types

Recursive descent over a type list such as `Array<String>, Hash{Symbol => Integer}, #to_s, nil`.
White space may stand around alternatives and brackets, round brackets mean the same as angle
brackets, and a comma may end a list.

Every nested list starts behind at least one further character, so the length of the text bounds
the depth of the descent.
-/

/-- What is wrong with the text of a type. -/
inductive TagFault where
  /-- A character stands behind the end of the list. -/
  | unexpected (found : Char)
  /-- The text ends inside a parameter list. -/
  | unterminated
  /-- A name is missing before a character, or before the end of the text. -/
  | missingName (found : Option Char)
  /-- A closing character is missing before a character, or before the end of the text. -/
  | missingDelimiter (expected : Char) (found : Option Char)
  deriving Repr, DecidableEq

/-- A text that is no type, with the first fault found in it. -/
structure TagError where
  tag : String
  fault : TagFault
  deriving Repr, DecidableEq

namespace TagFault

/-- A character between backquotes. -/
def quoted (c : Char) : String :=
  String.ofList ['\x60', c, '\x60']

/-- The wording of a fault. -/
def message : TagFault → String
  | unexpected found => "unexpected " ++ quoted found
  | unterminated => "unterminated parameter list"
  | missingName (some found) => "expected a type name, found " ++ quoted found
  | missingName none => "expected a type name, found end of input"
  | missingDelimiter expected (some found) =>
      "expected " ++ quoted expected ++ ", found " ++ quoted found
  | missingDelimiter expected none => "expected " ++ quoted expected

end TagFault

/-- The wording of an error names the whole text and its fault. -/
def TagError.message (error : TagError) : String :=
  "invalid type tag \x60" ++ error.tag ++ "\x60: " ++ error.fault.message

namespace DocType

/-- Characters of a type's name: word characters and colons. -/
def isNameChar (c : Char) : Bool :=
  Text.isWordChar c || c == ':'

/-- Brackets that end a duck type inside a parameter list. -/
def isClosing (c : Char) : Bool :=
  c == '>' || c == '\x7d' || c == ')'

/--
The member of a duck type and what stands behind it.  A closing bracket ends it only once it is
longer than one byte, so that operators may begin with a bracket; `size` counts the bytes read so
far, the number sign included.
-/
def readMember (size : Nat) : List Char → List Char × List Char
  | [] => ([], [])
  | c :: rest =>
      if Text.isBlank c || c == ',' || (2 < size && isClosing c) then
        ([], c :: rest)
      else
        let (member, behind) := readMember (size + c.utf8Size) rest
        (c :: member, behind)

/-- The name of a type, a leading number sign included, and what stands behind it. -/
def readName (text : List Char) : Except TagFault (List Char × List Char) :=
  match text with
  | '#' :: rest =>
      match readMember 1 rest with
      | ([], behind) => .error (.missingName behind.head?)
      | (member, behind) => .ok ('#' :: member, behind)
  | _ =>
      match text.span isNameChar with
      | ([], behind) => .error (.missingName behind.head?)
      | (name, behind) => .ok (name, behind)

/-- What stands behind an expected character, which white space may precede. -/
def readDelimiter (expected : Char) (text : List Char) : Except TagFault (List Char) :=
  match Text.trimStart text with
  | [] => .error (.missingDelimiter expected none)
  | found :: rest =>
      if found == expected then .ok rest else .error (.missingDelimiter expected (some found))

/-- A question mark directly here, and what stands behind it. -/
def readNullable : List Char → Bool × List Char
  | '?' :: rest => (true, rest)
  | text => (false, text)

mutual

/-- Alternatives separated by commas, up to the closing character, which is left in the text. -/
def readList (close : Option Char) :
    (fuel : Nat) → List Char → Except TagFault (List DocUnion × List Char)
  | 0, _ => .error .unterminated
  | fuel + 1, text =>
      match Text.trimStart text with
      | [] => if close = none then .ok ([], []) else .error .unterminated
      | c :: rest =>
          if some c = close then
            .ok ([], c :: rest)
          else do
            let (first, behind) ← readAlternative fuel (c :: rest)
            match Text.trimStart behind with
            | ',' :: behind =>
                let (more, behind) ← readList close fuel behind
                return (first :: more, behind)
            | behind => return ([first], behind)

/-- One alternative; the name `undefined` is the empty union and takes no parameters. -/
def readAlternative :
    (fuel : Nat) → List Char → Except TagFault (DocUnion × List Char)
  | 0, _ => .error .unterminated
  | fuel + 1, text => do
      let (name, behind) ← readName text
      let name := String.ofList name
      if name = "undefined" then
        return ([], behind)
      else if (named name).isDuck then
        return ([named name], behind)
      else
        let (type, behind) ←
          match behind with
          | '<' :: inner => do
              let (parameters, behind) ← readList (some '>') fuel inner
              let behind ← readDelimiter '>' behind
              .ok (withOrdered name parameters, behind)
          | '(' :: inner => do
              let (parameters, behind) ← readList (some ')') fuel inner
              let behind ← readDelimiter ')' behind
              .ok (withOrdered name parameters, behind)
          | '\x7b' :: inner => do
              let (keys, behind) ← readList (some '=') fuel inner
              let behind ← readDelimiter '=' behind
              let behind ← readDelimiter '>' behind
              let (values, behind) ← readList (some '\x7d') fuel behind
              let behind ← readDelimiter '\x7d' behind
              .ok (withKeyed name keys values, behind)
          | _ => .ok (named name, behind)
        let (nullable, behind) := readNullable behind
        return ([{ type with nullable }], behind)

end

end DocType

namespace DocUnion

/-- Read a whole text as a union, or name its first fault. -/
def readChars (text : List Char) : Except TagFault DocUnion := do
  let (alternatives, behind) ← DocType.readList none (2 * text.length + 2) text
  match Text.trimStart behind with
  | [] => return join alternatives
  | c :: _ => throw (.unexpected c)

/-- Read a tag as a union, or say why it is none. -/
def tryRead (tag : String) : Except TagError DocUnion :=
  (readChars tag.toList).mapError (⟨tag, ·⟩)

/-- Read a tag as a union; a malformed tag says nothing. -/
def read (tag : String) : DocUnion :=
  match tryRead tag with
  | .ok union => union
  | .error _ => []

/-- The union of several tags, malformed ones left out. -/
def readAll (tags : List String) : DocUnion :=
  join (tags.map read)

end DocUnion

end TagCheck
