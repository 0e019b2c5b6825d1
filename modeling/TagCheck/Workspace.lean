import TagCheck.Check.Basic

namespace TagCheck

/-!
# Libraries and workspaces

A library holds the sources of a project by name.  A workspace publishes a snapshot of its library
after every change, and keeps earlier snapshots as long as someone holds them.

Every survey of a source makes new pins, and the type that is inferred for a pin is remembered with
the pin.  So whatever is remembered for a pin, all snapshots with that pin see: those of the core
library, whose pins are made once and belong to every snapshot, and indexes of loose pins that were
given the same ones.
-/

/-- The sources of a project, in the order of their names. -/
structure Library where
  sources : List Source

namespace Library

/-- No sources. -/
def empty : Library :=
  ⟨[]⟩

/-- Put a source at its place, instead of the one that had its name. -/
def insertSource (source : Source) : List Source → List Source
  | [] => [source]
  | other :: rest =>
      if source.filename < other.filename then
        source :: other :: rest
      else if source.filename = other.filename then
        source :: rest
      else
        other :: insertSource source rest

/-- Add or replace a source. -/
def update (library : Library) (source : Source) : Library :=
  ⟨insertSource source library.sources⟩

/-- The library of several sources; of those with one name the last one counts. -/
def ofSources (sources : List Source) : Library :=
  sources.foldl update empty

/-- The names of all sources. -/
def filenames (library : Library) : List String :=
  library.sources.map (·.filename)

/-- There is a source of the name. -/
def contains (library : Library) (filename : String) : Bool :=
  library.sources.any (·.filename = filename)

/-- The library without a source. -/
def remove (library : Library) (filename : String) : Library :=
  ⟨library.sources.filter (·.filename ≠ filename)⟩

/-- The snapshot of all sources. -/
def snapshot (library : Library) : Snapshot :=
  .ofSources library.sources

end Library

/-- A snapshot and what has been inferred on it. -/
structure Study where
  snapshot : Snapshot
  memo : Memo

namespace Study

/-- A snapshot on which nothing has been inferred yet. -/
def fresh (snapshot : Snapshot) : Study :=
  ⟨snapshot, []⟩

/-- Ask a question, and keep what was inferred for it. -/
def ask (study : Study) (question : Snapshot → Inferring α) : α × Study :=
  let (result, memo) := (question study.snapshot).runOn study.memo
  (result, { study with memo })

/-- The type that is remembered for a pin. -/
def remembered? (study : Study) (pin : Pin) : Option DocUnion :=
  study.memo.lookup pin.id

end Study

namespace PinId

/-- The pin belongs to the core library, whose pins all snapshots share. -/
def isShared (id : PinId) : Bool :=
  id.source = 0

/-- The identity of a pin in a workspace that made so many surveys before those of its snapshot. -/
def shift (start : Nat) (id : PinId) : PinId :=
  if id.isShared then id else { id with source := start + id.source }

/-- The identity in a snapshot, unless the pin was made before the surveys of the snapshot. -/
def unshift? (start : Nat) (id : PinId) : Option PinId :=
  if id.isShared then
    some id
  else if start < id.source then
    some { id with source := id.source - start }
  else
    none

end PinId

namespace Memo

/-- The memory of a workspace, by the numbers of a snapshot. -/
def seenFrom (memo : Memo) (start : Nat) : Memo :=
  memo.filterMap fun (id, type) => (id.unshift? start).map (·, type)

/-- The memory of a workspace behind a question, which left a memory by the numbers of a snapshot. -/
def replaceFrom (memo : Memo) (start : Nat) (seen : Memo) : Memo :=
  seen.map (fun (id, type) => (id.shift start, type)) ++
    memo.filter fun (id, _) => (id.unshift? start).isNone

end Memo

/-- A snapshot of a workspace, and how many surveys the workspace made before those for it. -/
structure Edition where
  snapshot : Snapshot
  start : Nat

/-- A snapshot with what is remembered for pins in its workspace. -/
def Edition.study (edition : Edition) (memo : Memo) : Study :=
  ⟨edition.snapshot, memo.seenFrom edition.start⟩

/-- A library, the snapshots that were built so far, and names for some of them. -/
structure Workspace where
  library : Library
  /-- How many sources were surveyed; the pins of each survey have its number. -/
  surveyed : Nat
  /-- All snapshots; a snapshot is known by its place. -/
  editions : List Edition
  /-- What is remembered for pins, whichever snapshots they belong to. -/
  memo : Memo
  /-- The snapshot of the library as it is. -/
  current : Nat
  /-- Snapshots that are held under a name, the latest first. -/
  held : List (String × Nat)

namespace Workspace

/-- A workspace without sources. -/
def empty : Workspace :=
  ⟨.empty, 0, [⟨Library.empty.snapshot, 0⟩], [], 0, []⟩

/-- All snapshots, each with what it sees remembered. -/
def studies (workspace : Workspace) : List Study :=
  workspace.editions.map (·.study workspace.memo)

/-- Survey sources for whoever wants their outlines. -/
def survey (workspace : Workspace) (sources : List Source) : List Outline × Workspace :=
  (Snapshot.outlinesOf workspace.surveyed sources,
    { workspace with surveyed := workspace.surveyed + sources.length })

/-- Keep a further snapshot; the result tells its place. -/
def keep (workspace : Workspace) (edition : Edition) : Nat × Workspace :=
  (workspace.editions.length, { workspace with editions := workspace.editions ++ [edition] })

/-- Keep a snapshot for which so many sources are surveyed; the result tells its place. -/
def keepSurveyed (workspace : Workspace) (snapshot : Snapshot) (count : Nat) : Nat × Workspace :=
  { workspace with surveyed := workspace.surveyed + count }.keep ⟨snapshot, workspace.surveyed⟩

/-- Publish the snapshot of another library. -/
def publish (workspace : Workspace) (library : Library) : Workspace :=
  let (place, workspace) := workspace.keepSurveyed library.snapshot library.sources.length
  { workspace with library, current := place }

/-- Replace the library by one of the given sources. -/
def load (workspace : Workspace) (sources : List Source) : Workspace :=
  workspace.publish (.ofSources sources)

/-- Add or replace a source. -/
def update (workspace : Workspace) (source : Source) : Workspace :=
  workspace.publish (workspace.library.update source)

/-- Remove a source; nothing changes if there is none of the name. -/
def remove (workspace : Workspace) (filename : String) : Bool × Workspace :=
  if workspace.library.contains filename then
    (true, workspace.publish (workspace.library.remove filename))
  else
    (false, workspace)

/-- Hold the snapshot at a place under a name. -/
def holdAt (workspace : Workspace) (name : String) (place : Nat) : Workspace :=
  { workspace with held := (name, place) :: workspace.held }

/-- Hold the current snapshot under a name. -/
def hold (workspace : Workspace) (name : String) : Workspace :=
  workspace.holdAt name workspace.current

/-- Hold an index of loose pins under a name; the pins remember what they remembered before. -/
def holdIndex (workspace : Workspace) (pins : List Pin) (name : String) : Workspace :=
  let (place, workspace) := workspace.keep ⟨.ofPins pins, 0⟩
  workspace.holdAt name place

/-- Hold a snapshot of outlines under a name; their pins remember what they remembered before. -/
def holdOutlines (workspace : Workspace) (outlines : List Outline) (name : String) : Workspace :=
  let (place, workspace) := workspace.keep ⟨.ofOutlines outlines, 0⟩
  workspace.holdAt name place

/-- Survey sources, and hold an index of their pins under a name. -/
def holdDeclarations (workspace : Workspace) (sources : List Source) (name : String) :
    Workspace :=
  let (outlines, workspace) := workspace.survey sources
  workspace.holdIndex (outlines.flatMap (·.pins)) name

/-- Keep a snapshot of one source alone; the result tells its place. -/
def openAlone (workspace : Workspace) (source : Source) : Nat × Workspace :=
  workspace.keepSurveyed (.ofSources [source]) 1

/-- The place of a snapshot: the one held under a name, or the current one. -/
def place? (workspace : Workspace) : Option String → Option Nat
  | some name => workspace.held.lookup name
  | none => some workspace.current

/-- The snapshot at a place, with what it sees remembered. -/
def study? (workspace : Workspace) (place : Nat) : Option Study :=
  workspace.editions[place]?.map (·.study workspace.memo)

/-- The type that a snapshot sees remembered for a pin. -/
def remembered? (workspace : Workspace) (place : Nat) (pin : Pin) : Option DocUnion :=
  (workspace.study? place).bind (·.remembered? pin)

/-- Ask a question to the snapshot at a place, and remember with the pins what was inferred for it. -/
def ask (workspace : Workspace) (place : Nat) (question : Snapshot → Inferring α) :
    Option α × Workspace :=
  match workspace.editions[place]? with
  | none => (none, workspace)
  | some edition =>
      let (result, study) := (edition.study workspace.memo).ask question
      (some result,
        { workspace with memo := workspace.memo.replaceFrom edition.start study.memo })

end Workspace

end TagCheck
