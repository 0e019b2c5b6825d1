import TagCheck.Project.Basic
import TagCheck.Project.IgnoreRule

namespace TagCheck

/-!
# Finding sources

The sources of a project are looked for below folders.  Left out are paths that an exclusion
describes, paths that an ignore file leaves out, hidden paths that no ignore file keeps, and
everything below them.  The folder that the search begins at, and files that are named themselves,
are never left out.
-/

/-- Why sources cannot be found. -/
inductive DiscoveryError where
  /-- There is neither a file nor a folder of the name. -/
  | missingPath (path : String)
  /-- An exclusion is no pattern. -/
  | invalidExclusion (pattern : String)
  deriving Repr, DecidableEq

/-- The beginnings of a path, the path itself first and the empty one last. -/
def beginnings (path : List String) : List (List String) :=
  match path with
  | [] => [[]]
  | name :: rest => (beginnings rest).map (name :: ·) ++ [[]]

namespace Project

/-- The rules of an ignore file, none if there is no such file. -/
def rulesAt (project : Project) (path : List String) : List IgnoreRule :=
  match project.file? path with
  | some content => IgnoreRule.ofLines content.lines
  | none => []

/--
What the ignore files of one name say about a path: the nearest one that is not silent decides.
`folders` are the folders above the path, the nearest one first.
-/
def ignoreVerdict (project : Project) (name : List String) (path : List String) (isFolder : Bool)
    (folders : List (List String)) : Verdict :=
  folders.foldr
    (fun folder further =>
      (IgnoreRule.verdict (project.rulesAt (folder ++ name)) (path.drop folder.length)
        isFolder).orElse further)
    .silent

/-- The folders above a path up to the one that holds a repository, the nearest one first. -/
def repositoryFolders (project : Project) (folders : List (List String)) : List (List String) :=
  let holdsRepository (folder : List String) : Bool :=
    project.isFolder (folder ++ [".git"]) || (project.file? (folder ++ [".git"])).isSome
  folders.takeWhile (!holdsRepository ·) ++ (folders.find? holdsRepository).toList

/-- What all ignore files say about a path. -/
def verdict (project : Project) (path : List String) (isFolder : Bool) : Verdict :=
  let folders := (beginnings path).tail
  let inRepository := project.repositoryFolders folders
  ((project.ignoreVerdict [".ignore"] path isFolder folders).orElse
    (project.ignoreVerdict [".gitignore"] path isFolder inRepository)).orElse
    (project.ignoreVerdict [".git", "info", "exclude"] path isFolder inRepository)

/-- The last name of a path begins with a point. -/
def isHidden (path : List String) : Bool :=
  (path.getLast?.map (·.startsWith ".")).getD false

/-- A path below a folder is left out for what it is itself. -/
def isLeftOut (project : Project) (exclusions : List IgnoreRule) (folder below : List String)
    (isFolder : Bool) : Bool :=
  IgnoreRule.verdict exclusions below isFolder = .ignored ||
    match project.verdict (folder ++ below) isFolder with
    | .ignored => true
    | .kept => false
    | .silent => isHidden below

/-- The name of a file ends like the names of sources; a name of nothing but the ending does not. -/
def isSourceName (name : String) : Bool :=
  name.endsWith ".rb" && name ≠ ".rb"

/-- A file below a folder is found: neither it nor a folder above it is left out. -/
def isFound (project : Project) (exclusions : List IgnoreRule) (folder below : List String) :
    Bool :=
  (below.getLast?.map isSourceName).getD false &&
    !project.isLeftOut exclusions folder below false &&
    (beginnings below).tail.all fun above =>
      above.isEmpty || !project.isLeftOut exclusions folder above true

/-- The paths of the sources below a folder, from that folder. -/
def sourcesBelow (project : Project) (exclusions : List IgnoreRule) (folder : List String) :
    List (List String) :=
  let below := project.files.filterMap fun file =>
    if folder.isPrefixOf file.path then some (file.path.drop folder.length) else none
  below.filter (project.isFound exclusions folder)

/-- The rules of exclusions. -/
def exclusionRules (patterns : List String) : Except DiscoveryError (List IgnoreRule) :=
  patterns.mapM fun pattern =>
    match IgnoreRule.ofExclusion? pattern with
    | some rule => .ok rule
    | none => .error (.invalidExclusion pattern)

/-- The names of the sources that a path stands for. -/
def sourcesOf (project : Project) (exclude : List String) (path : String) :
    Except DiscoveryError (List String) := do
  match project.locate path with
  | .file _ => return [path]
  | .folder folder => do
      let exclusions ← exclusionRules exclude
      return (project.sourcesBelow exclusions folder).map (PathName.join path)
  | _ => throw (.missingPath path)

/-- The names of the sources that several paths stand for, in their order and each one once. -/
def discover (project : Project) (paths exclude : List String) :
    Except DiscoveryError (List String) := do
  let found ← paths.mapM (project.sourcesOf exclude)
  return PathName.sortUnique found.flatten

end Project

end TagCheck
