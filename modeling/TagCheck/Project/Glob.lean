import TagCheck.Text.Pieces

namespace TagCheck

/-!
# Glob patterns

A pattern describes the names of paths, byte by byte.  A star and a question mark stay inside one
name, two stars between slashes stand for any folders, brackets hold a class of bytes, and braces
hold alternatives.

A pattern is read in two steps: the text becomes marks, in which escapes and classes are settled,
and the marks become the parts of the pattern.
-/

/-- One part of a pattern. -/
inductive GlobPart where
  | literal (byte : UInt8)
  /-- Any byte but a slash. -/
  | anyByte
  /-- Any bytes but slashes. -/
  | anyName
  /-- Any folders at the beginning, or none. -/
  | leadingFolders
  /-- A slash, or any folders between slashes. -/
  | innerFolders
  /-- A slash and everything behind it. -/
  | everythingBelow
  /-- A byte in one of the ranges, or in none of them. -/
  | oneOf (isNegated : Bool) (ranges : List (UInt8 × UInt8))
  /-- Any of several patterns; no text at all if there is none. -/
  | alternatives (branches : List (List GlobPart))
  deriving Repr

/-- A pattern for the names of paths. -/
abbrev Glob := List GlobPart

/-- The bytes of a text. -/
def Text.utf8 (text : List Char) : List UInt8 :=
  text.flatMap String.utf8EncodeChar

namespace GlobPart

/-- The slash between names. -/
def slash : UInt8 := 47

/-- All ends of a text, itself included. -/
def suffixes : List UInt8 → List (List UInt8)
  | [] => [[]]
  | byte :: rest => (byte :: rest) :: suffixes rest

/-- The ends of a text behind its slashes. -/
def behindSlashes : List UInt8 → List (List UInt8)
  | [] => []
  | byte :: rest => if byte = slash then rest :: behindSlashes rest else behindSlashes rest

/-- The ends of a text behind its first bytes that are not slashes, any number of them. -/
def behindName : List UInt8 → List (List UInt8)
  | [] => [[]]
  | byte :: rest => (byte :: rest) :: if byte = slash then [] else behindName rest

/-- The byte lies in one of the ranges. -/
def isInRanges (ranges : List (UInt8 × UInt8)) (byte : UInt8) : Bool :=
  ranges.any fun (first, last) => first ≤ byte && byte ≤ last

/-- The pattern describes nothing but the empty text. -/
def isVoid (branch : List GlobPart) : Bool :=
  branch.all fun
    | alternatives [] => true
    | _ => false

mutual

/-- What may be left of a text behind the bytes that a part describes. -/
def rests : GlobPart → List UInt8 → List (List UInt8)
  | literal byte, text =>
      match text with
      | first :: rest => if first = byte then [rest] else []
      | [] => []
  | anyByte, text =>
      match text with
      | first :: rest => if first = slash then [] else [rest]
      | [] => []
  | anyName, text => behindName text
  | leadingFolders, text => text :: behindSlashes text
  | innerFolders, text =>
      match text with
      | first :: rest => if first = slash then rest :: behindSlashes rest else []
      | [] => []
  | everythingBelow, text =>
      match text with
      | first :: rest => if first = slash then suffixes rest else []
      | [] => []
  | oneOf isNegated ranges, text =>
      match text with
      | first :: rest => if isInRanges ranges first != isNegated then [rest] else []
      | [] => []
  | alternatives branches, text =>
      if branches.isEmpty then [text] else restsOfBranches branches text

/-- What may be left of a text behind the bytes that several parts describe one after another. -/
def restsOfParts : List GlobPart → List UInt8 → List (List UInt8)
  | [], text => [text]
  | part :: parts, text => ((part.rests text).eraseDups.map (restsOfParts parts)).flatten

/-- What may be left of a text behind the bytes that one of several patterns describes. -/
def restsOfBranches : List (List GlobPart) → List UInt8 → List (List UInt8)
  | [], _ => []
  | branch :: branches, text => restsOfParts branch text ++ restsOfBranches branches text

end

end GlobPart

/-- A mark in the text of a pattern. -/
inductive GlobMark where
  | char (c : Char)
  /-- A character behind a backslash. -/
  | escaped (c : Char)
  /-- A class in brackets. -/
  | oneOf (isNegated : Bool) (ranges : List (Char × Char))
  deriving Repr, DecidableEq

namespace GlobMark

/-- A class in brackets as far as it has been read. -/
structure OpenClass where
  isNegated : Bool
  /-- Nothing has been read yet. -/
  isEmpty : Bool
  /-- The last character was a dash that may begin the end of a range. -/
  hasDash : Bool
  /-- The ranges so far, the last one in front. -/
  ranges : List (Char × Char)

namespace OpenClass

/-- Put a character in a class, as the end of a range if a dash precedes it. -/
def add? (c : Char) (found : OpenClass) : Option OpenClass :=
  match found.hasDash, found.ranges with
  | true, (first, _) :: ranges =>
      if first ≤ c then
        some { found with isEmpty := false, hasDash := false, ranges := (first, c) :: ranges }
      else
        none
  | _, ranges =>
      some { found with isEmpty := false, hasDash := false, ranges := (c, c) :: ranges }

/-- The class that a closing bracket ends; a dash before it stands for itself. -/
def finish (found : OpenClass) : GlobMark :=
  let ranges := if found.hasDash then ('-', '-') :: found.ranges else found.ranges
  oneOf found.isNegated ranges.reverse

end OpenClass

/-- Where the reading of marks stands. -/
inductive State where
  | plain
  | behindBackslash
  | behindBracket
  | inClass (found : OpenClass)

/-- What a character in a class does: a bracket in front and a dash in front stand for themselves. -/
def classStep? (c : Char) (found : OpenClass) : Option (Option GlobMark × State) :=
  if c == ']' && !found.isEmpty then
    some (some found.finish, .plain)
  else if c == '-' && !found.isEmpty && !found.hasDash then
    some (none, .inClass { found with hasDash := true })
  else
    (found.add? c).map fun found => (none, .inClass found)

/-- The mark that a character ends, and where the reading stands behind it. -/
def step? (c : Char) : State → Option (Option GlobMark × State)
  | .plain =>
      if c == '\\' then some (none, .behindBackslash)
      else if c == '[' then some (none, .behindBracket)
      else some (some (char c), .plain)
  | .behindBackslash => some (some (escaped c), .plain)
  | .behindBracket =>
      if c == '!' || c == '^' then
        some (none, .inClass ⟨true, true, false, []⟩)
      else
        classStep? c ⟨false, true, false, []⟩
  | .inClass found => classStep? c found

/-- The marks of a text; none if a class is not closed or a backslash has nothing behind it. -/
def ofChars? : State → List Char → Option (List GlobMark)
  | .plain, [] => some []
  | _, [] => none
  | state, c :: rest => do
      let (mark, state) ← step? c state
      let marks ← ofChars? state rest
      return mark.toList ++ marks

/-- The bytes between two characters; each byte of a longer character counts for itself. -/
def byteRanges : Char × Char → List (UInt8 × UInt8)
  | (first, last) =>
      let single := fun byte : UInt8 => (byte, byte)
      let start := String.utf8EncodeChar first
      let stop := String.utf8EncodeChar last
      if first = last then
        start.map single
      else
        start.dropLast.map single ++
          (start.getLast?.bind fun low => stop.head?.map fun high => (low, high)).toList ++
          stop.tail.map single

end GlobMark

namespace Glob

/-- An opened brace: what stands before it, and the alternatives that are complete. -/
structure OpenBrace where
  /-- The parts before the brace, the last one in front. -/
  before : List GlobPart
  branches : List (List GlobPart)

/-- A pattern as far as it has been read. -/
structure Progress where
  /-- The open braces, the innermost one in front. -/
  braces : List OpenBrace
  /-- The parts of the current alternative, the last one in front. -/
  parts : List GlobPart
  /-- The last mark was a slash. -/
  isBehindSlash : Bool

namespace Progress

/-- Add a part. -/
def push (progress : Progress) (part : GlobPart) : Progress :=
  { progress with parts := part :: progress.parts, isBehindSlash := false }

/-- Add the bytes of a character. -/
def pushChar (progress : Progress) (c : Char) : Progress :=
  { progress with
    parts := ((String.utf8EncodeChar c).map GlobPart.literal).reverse ++ progress.parts
    isBehindSlash := c == '/' }

/-- Replace the slash at the end by folders; folders that end in a slash include it. -/
def pushFolders (progress : Progress) (folders : GlobPart) : Progress :=
  match progress.parts with
  | .leadingFolders :: _ => { progress with isBehindSlash := false }
  | _ :: parts => { progress with parts := folders :: parts, isBehindSlash := false }
  | [] => progress.push folders

/-- The slash behind folders was read with them. -/
def behindSlash (progress : Progress) : Progress :=
  { progress with isBehindSlash := true }

/-- Open a brace. -/
def openBrace (progress : Progress) : Progress :=
  ⟨⟨progress.parts, []⟩ :: progress.braces, [], false⟩

/-- End an alternative; outside braces a comma stands for itself. -/
def comma (progress : Progress) : Progress :=
  match progress.braces with
  | [] => progress.pushChar ','
  | brace :: outer =>
      ⟨{ brace with branches := brace.branches ++ [progress.parts.reverse] } :: outer, [], false⟩

/-- Close a brace; alternatives that describe only the empty text are left out. -/
def closeBrace? (progress : Progress) : Option Progress :=
  match progress.braces with
  | [] => none
  | brace :: outer =>
      let branches := brace.branches ++ [progress.parts.reverse]
      some ⟨outer, .alternatives (branches.filter (!GlobPart.isVoid ·)) :: brace.before, false⟩

/-- Two stars that stand for bytes inside a name. -/
def pushStars (progress : Progress) : Progress :=
  (progress.push .anyName).push .anyName

/-- Add what a single mark stands for. -/
def add? (progress : Progress) : GlobMark → Option Progress
  | .char '?' => some (progress.push .anyByte)
  | .char '*' => some (progress.push .anyName)
  | .char '\x7b' => some progress.openBrace
  | .char '\x7d' => progress.closeBrace?
  | .char ',' => some progress.comma
  | .char c | .escaped c => some (progress.pushChar c)
  | .oneOf isNegated ranges =>
      some (progress.push (.oneOf isNegated (ranges.flatMap GlobMark.byteRanges)))

/-- The mark ends an alternative. -/
def endsBranch (progress : Progress) (mark : GlobMark) : Bool :=
  !progress.braces.isEmpty && (mark = .char ',' || mark = .char '\x7d')

/-- The whole pattern; none if a brace is open. -/
def finish? (progress : Progress) : Option Glob :=
  if progress.braces.isEmpty then some progress.parts.reverse else none

end Progress

/--
Read marks.  Two stars stand for folders at the beginning of an alternative or behind a slash, if a
slash follows them or they end the alternative.
-/
def ofMarks? (progress : Progress) : List GlobMark → Option Glob
  | [] => progress.finish?
  | [.char '*', .char '*'] =>
      if progress.parts.isEmpty then
        (progress.push .leadingFolders).finish?
      else if progress.isBehindSlash then
        (progress.pushFolders .everythingBelow).finish?
      else
        progress.pushStars.finish?
  | .char '*' :: .char '*' :: mark :: rest =>
      if mark = .char '/' && progress.parts.isEmpty then
        ofMarks? (progress.push .leadingFolders).behindSlash rest
      else if mark = .char '/' && progress.isBehindSlash then
        ofMarks? (progress.pushFolders .innerFolders).behindSlash rest
      else if progress.endsBranch mark && progress.isBehindSlash then do
        ofMarks? (← (progress.pushFolders .everythingBelow).add? mark) rest
      else do
        ofMarks? (← progress.pushStars.add? mark) rest
  | mark :: rest => do ofMarks? (← progress.add? mark) rest

/-- The pattern that a text is; none if brackets or braces do not match. -/
def ofString? (text : String) : Option Glob := do
  ofMarks? ⟨[], [], false⟩ (← GlobMark.ofChars? .plain text.toList)

/-- The pattern describes the whole name of a path.  Leading folders alone describe everything. -/
def describes (glob : Glob) (path : String) : Bool :=
  match glob with
  | [.leadingFolders] => true
  | glob => (GlobPart.restsOfParts glob (Text.utf8 path.toList)).contains []

end Glob

end TagCheck
