import TagCheck.CommandLine.Request
import TagCheck.Inference.Chain
import TagCheck.Project.Discovery
import TagCheck.Report.Basic
import TagCheck.Workspace

namespace TagCheck.CommandLine

/-!
# Carrying out requests

A check finds the sources of a project, checks each of them on one snapshot of all, and reports
their problems.  A probe asks one source for the type of a signature.
-/

/-- Why a source cannot be read. -/
inductive ReadError where
  | notFound
  | notFolder
  | isFolder
  | notText
  deriving Repr, DecidableEq

/-- Why a request cannot be carried out. -/
inductive Failure where
  | unreadableSettings (path : String)
  | invalidSettings (path : String)
  | discovery (error : DiscoveryError)
  /-- A source that has been found cannot be read. -/
  | unloadable (path : String)
  | unreadableSource (path : String) (error : ReadError)
  | missingLine (path : String) (line : Nat)
  deriving Repr, DecidableEq

/-- What a request answers. -/
structure Answer where
  /-- Problems were found. -/
  hasProblems : Bool
  output : String
  deriving Repr, DecidableEq

namespace ReadError

/-- The system's wording of an error. -/
def message : ReadError → String
  | notFound => "No such file or directory (os error 2)"
  | notFolder => "Not a directory (os error 20)"
  | isFolder => "Is a directory (os error 21)"
  | notText => "stream did not contain valid UTF-8"

end ReadError

namespace Failure

/-- The wording of a failure. -/
def message : Failure → String
  | unreadableSettings path => "failed to read config file " ++ path
  | invalidSettings path => "invalid config file " ++ path
  | discovery (.missingPath path) => "no such file or directory: " ++ path
  | discovery (.invalidExclusion pattern) => "invalid exclude pattern \x60" ++ pattern ++ "\x60"
  | unloadable path => "failed to load " ++ path
  | unreadableSource path error => "failed to read source " ++ path ++ ": " ++ error.message
  | missingLine path line => path ++ " has no line " ++ toString line

end Failure

/-- The text of the file that a name leads to. -/
def readText (project : Project) (path : String) : Except ReadError String :=
  match project.locate path with
  | .file content =>
      match content.text? with
      | some text => .ok text
      | none => .error .notText
  | .folder _ => .error .isFolder
  | .missing => .error .notFound
  | .behindFile => .error .notFolder

/-- The text of the source that a name leads to, and the source under that name. -/
def readSource (project : Project) (path : String) : Except ReadError (String × Source) :=
  match project.locate path with
  | .file content =>
      match content.source? path with
      | some source => .ok source
      | none => .error .notText
  | .folder _ => .error .isFolder
  | .missing => .error .notFound
  | .behindFile => .error .notFolder

/-- The settings in the named file, or else in the usual file if there is one. -/
def loadSettings (project : Project) (config : Option String) : Except Failure Settings :=
  match config, project.locate Settings.filename with
  | some path, _ => read path
  | none, .file _ => read Settings.filename
  | none, _ => .ok {}
where
  /-- The settings in a file. -/
  read (path : String) : Except Failure Settings :=
    match readText project path with
    | .error _ => .error (.unreadableSettings path)
    | .ok text =>
        match Settings.read? text with
        | some settings => .ok settings
        | none => .error (.invalidSettings path)

/-- The problems of several files, one after another on one snapshot. -/
def checkFiles (filenames : List String) (level : CheckLevel) (study : Study) : List Problem :=
  (study.ask fun snapshot => do
    let problems ← filenames.mapM (snapshot.problems · level)
    return problems.flatten).1

/-- Check the sources that paths stand for. -/
def checkProject (project : Project) (paths : List String) (settings : Settings) :
    Except Failure Answer := do
  let filenames ← (project.discover paths settings.exclude).mapError Failure.discovery
  let sources ← filenames.mapM fun path =>
    ((readSource project path).mapError fun _ => Failure.unloadable path).map (·.2)
  let library := Library.ofSources sources
  let problems := checkFiles filenames settings.level (.fresh library.snapshot)
  return ⟨!problems.isEmpty, Report.render settings.format problems filenames.length⟩

/-- The end of a line, given its place. -/
def endOfLine (place : Nat) (line : List Char) : Position :=
  ⟨place, (String.ofList line).utf8ByteSize⟩

/-- The end of a text: the end of its last line. -/
def endOf (text : String) : Position :=
  let lines := Text.lines text.toList
  match lines.getLast? with
  | some line => endOfLine (lines.length - 1) line
  | none => ⟨0, 0⟩

/--
The position that a probe is made at: the end of a line, counted from one, or the end of the text.
-/
def probePosition? (text : String) : Option Nat → Option Position
  | none => some (endOf text)
  | some line => (Text.lines text.toList)[line - 1]?.map (endOfLine (line - 1))

/-- What a signature means at a position of an outline. -/
def probeAt (snapshot : Snapshot) (outline : Outline) (position : Position) (signature : String) :
    Inferring Inference :=
  snapshot.resolve signature (outline.closureAt position) (outline.localsAt position)

/-- An inference in lines: the type, and the pins that it comes from. -/
def renderInference (inference : Inference) : String :=
  let type :=
    if inference.type.isDefined then
      inference.type.tag
    else
      match inference.unresolved with
      | some segment => "undefined (unresolved \x60" ++ segment ++ "\x60)"
      | none => "undefined"
  let pins := inference.pins.map fun pin => "  " ++ pin.path ++ " (" ++ pin.location.display ++ ")"
  String.join ((type :: pins).map (· ++ "\n"))

/-- Tell the type of a signature in a file. -/
def probeFile (project : Project) (file signature : String) (line : Option Nat) :
    Except Failure Answer := do
  let (text, source) ← (readSource project file).mapError (.unreadableSource file)
  match probePosition? text line with
  | none => throw (.missingLine file (line.getD 0))
  | some position => do
      let study := Study.fresh (Library.ofSources [source]).snapshot
      let (inference, _) := study.ask fun snapshot =>
        match snapshot.outline? source.filename with
        | some outline => probeAt snapshot outline position signature
        | none => return .unknown
      return ⟨false, renderInference inference⟩

/-- Carry out a request.  Flags take precedence over settings. -/
def Request.run (request : Request) (project : Project) : Except Failure Answer :=
  match request with
  | .typecheck paths level format config => do
      let settings ← loadSettings project config
      checkProject project paths
        { settings with level := level.getD settings.level, format := format.getD settings.format }
  | .probe file signature line => probeFile project file signature line

end TagCheck.CommandLine
