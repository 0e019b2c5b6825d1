import TagCheck.Outline.Basic
import TagCheck.Project.PathName

namespace TagCheck

/-!
# The files of a project

A project is what the working directory holds.  Folders exist as far as files lie in them.  Every
source comes with the tree that the grammar has built for it.
-/

/-- What a file holds. -/
inductive FileContent where
  /-- A source text with its tree. -/
  | source (tree : GrammarTree)
  /-- A text for which no tree was built. -/
  | text (content : String)
  /-- Bytes that are no text. -/
  | binary (bytes : List UInt8)

namespace FileContent

/-- The text that bytes are, if they are one. -/
def decode? (bytes : List UInt8) : Option String :=
  String.fromUTF8? (ByteArray.mk bytes.toArray)

/-- The content that bytes are. -/
def ofBytes (bytes : List UInt8) : FileContent :=
  match decode? bytes with
  | some content => text content
  | none => binary bytes

/-- The text of a file. -/
def text? : FileContent → Option String
  | source tree => some tree.code
  | text content => some content
  | binary _ => none

/-- The pieces of a list of bytes between line feeds. -/
def splitBytes : List UInt8 → List (List UInt8)
  | [] => [[]]
  | byte :: rest =>
      match splitBytes rest with
      | [] => [[byte]]
      | line :: lines => if byte = 10 then [] :: line :: lines else (byte :: line) :: lines

/-- The lines of bytes up to the first one that is no text. -/
def readableText (bytes : List UInt8) : String :=
  "\n".intercalate ((((splitBytes bytes).map decode?).takeWhile Option.isSome).filterMap id)

/-- The lines of a file up to the first one that is no text. -/
def lines (content : FileContent) : List String :=
  let text :=
    match content with
    | source tree => tree.code
    | text content => content
    | binary bytes => readableText bytes
  (Text.lines text.toList).map String.ofList

/-- The program without any statement that stands for a text without a tree. -/
def emptyTree (code : String) : GrammarTree :=
  let lines := Text.splitAt '\n' code.toList
  let stop : Position :=
    ⟨lines.length - 1, (String.ofList (lines.getLast?.getD [])).utf8ByteSize⟩
  ⟨code, ⟨"program", true, none, ⟨⟨0, 0⟩, stop⟩, []⟩, false⟩

/-- The text of a file and the source that it is under a name. -/
def source? (filename : String) : FileContent → Option (String × Source)
  | source tree => some (tree.code, .ofGrammar filename tree)
  | text content => some (content, .ofGrammar filename (emptyTree content))
  | binary _ => none

end FileContent

/-- A file and the names that lead to it from the working directory. -/
structure ProjectFile where
  path : List String
  content : FileContent

/-- The files in the working directory and below it. -/
structure Project where
  files : List ProjectFile

/-- Where a path leads. -/
inductive Place where
  | file (content : FileContent)
  | folder (path : List String)
  /-- There is nothing of the name. -/
  | missing
  /-- The path goes on behind a file. -/
  | behindFile

namespace Project

/-- The file at a path; of several the last one counts. -/
def file? (project : Project) (path : List String) : Option FileContent :=
  (project.files.reverse.find? (·.path = path)).map (·.content)

/-- Some file lies below a path. -/
def isFolder (project : Project) (path : List String) : Bool :=
  path.isEmpty || project.files.any fun file =>
    path.isPrefixOf file.path && path.length < file.path.length

/-- What stands at a path of plain names. -/
def placeAt (project : Project) (path : List String) : Place :=
  match project.file? path with
  | some content => .file content
  | none => if project.isFolder path then .folder path else .missing

/-- Follow the next part of a path from a place. -/
def follow (project : Project) (place : Place) (segment : String) : Place :=
  match place with
  | .file _ => .behindFile
  | .folder path =>
      match segment with
      | "" | "." => .folder path
      | ".." => if path.isEmpty then .missing else .folder path.dropLast
      | name => project.placeAt (path ++ [name])
  | place => place

/-- Where the name of a path leads from the working directory; nothing outside it is known. -/
def locate (project : Project) (path : String) : Place :=
  match Text.pieces '/' path with
  | "" :: _ => .missing
  | segments => segments.foldl project.follow (.folder [])

end Project

end TagCheck
