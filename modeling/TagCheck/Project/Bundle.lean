import TagCheck.Project.Basic

namespace TagCheck.Bundle

/-!
# Projects in one text

The grammar is a program of its own.  It hands a project over as one text, in which the first
character of a line tells what the line is:

* an equals sign begins a file and gives its name,
* a bar begins a line of the file's text,
* a colon begins a line of the listing of its tree,
* an exclamation mark says that the text has syntax errors.

A file without a listing is a text that was not parsed, and lines before the first name are ignored.
-/

/-- The lines that belong to one file. -/
structure Section where
  text : List String := []
  listing : List String := []
  hasError : Bool := false

namespace Section

/-- The file that lines under a name describe. -/
def file (lines : Section) (name : String) : ProjectFile :=
  let code := "\n".intercalate lines.text
  let path := (PathName.parts name).filterMap fun
    | .name part => some part
    | _ => none
  match GrammarNode.ofListing? ("\n".intercalate lines.listing) with
  | some root => ⟨path, .source ⟨code, root, lines.hasError⟩⟩
  | none => ⟨path, .text code⟩

end Section

/-- Put a line in front of the files below it and of the lines between. -/
def addLine (line : String) (below : Section × List ProjectFile) : Section × List ProjectFile :=
  let (lines, files) := below
  match line.toList with
  | '=' :: name => ({}, lines.file (String.ofList name) :: files)
  | '|' :: text => ({ lines with text := String.ofList text :: lines.text }, files)
  | ':' :: node => ({ lines with listing := String.ofList node :: lines.listing }, files)
  | '!' :: _ => ({ lines with hasError := true }, files)
  | _ => below

/-- The project that a text describes. -/
def read (text : String) : Project :=
  ⟨((Text.pieces '\n' text).foldr addLine ({}, [])).2⟩

end TagCheck.Bundle
