import TagCheck.Index.Basic

namespace TagCheck.Index

/-!
# Ancestry

References to superclasses and mixins are resolved from the lexical nesting they stand in.  The
ancestors of a namespace are, nearest first: the modules prepended to it, itself, the modules
included in it, the last one first, and then its superclass with the same pattern.  Each ancestor
is listed once, so that cycles end the walk.
-/

/-- The declared path that a name refers to from a lexical nesting, or absolutely. -/
def qualifyLexical? (index : Index) (name : String) (gates : List String) : Option String :=
  match ConstantPath.absolute? name with
  | some absolute => if index.isDeclared absolute then some absolute else none
  | none => (gates.map (joinPath · name)).find? index.isDeclared

/-- What the written superclass of a class refers to; a class is not its own superclass. -/
def explicitSuperclass? (index : Index) (path : String) : Option String := do
  let (name, gates) ← index.superclassReference? path
  let superclass ← index.qualifyLexical? name gates
  if superclass = path then none else some superclass

/-- The modules that a declared namespace mixes in, in the order of the calls. -/
def mixins (index : Index) (path : String) (kind : ReferenceKind) : List String :=
  if index.isNamespace path then
    (index.references path kind).filterMap fun pin => index.qualifyLexical? pin.name pin.gates
  else
    []

/-- A declared namespace names a superclass or a mixin that cannot be resolved. -/
def hasUnresolvedReference (index : Index) (path : String) : Bool :=
  let isUnresolved (pin : Pin) : Bool := (index.qualifyLexical? pin.name pin.gates).isNone
  index.isNamespace path &&
    ((index.superclassReference? path).isSome && (index.explicitSuperclass? path).isNone ||
      [.inclusion, .extension, .prepending].any fun kind =>
        (index.references path kind).any isUnresolved)

/--
The superclass of a class: the one that is written, or else `Object`.  The top level behaves as a
class below `Object`, and modules have no superclass.
-/
def superclassOf? (index : Index) (path : String) : Option String :=
  if path = "" then
    some "Object"
  else
    match index.explicitSuperclass? path with
    | some superclass => some superclass
    | none =>
        match index.namespaceKind? path with
        | some .classNamespace =>
            match path with
            | "BasicObject" => none
            | "Object" => some "BasicObject"
            | _ => some "Object"
        | _ => none

/-- The names that a walk has met, and those it has listed so far. -/
structure Walk where
  visited : List String
  listed : List String

/--
More steps than a walk can take: it meets every name once, and every name but the first, `Object`
and `BasicObject` comes from a pin.
-/
def walkLimit (index : Index) : Nat :=
  index.pins.length + 3

/-- List a namespace between the modules that it prepends and those that it includes. -/
def listWithMixins (index : Index) (listModule : Walk → String → Walk) (walk : Walk)
    (path : String) : Walk :=
  let walk :=
    (index.mixins path .prepending).reverse.foldl listModule
      { walk with visited := path :: walk.visited }
  (index.mixins path .inclusion).reverse.foldl listModule
    { walk with listed := walk.listed ++ [path] }

/-- List a module with the modules that it mixes in, unless it was met before. -/
def listModule (index : Index) : Nat → Walk → String → Walk
  | 0, walk, _ => walk
  | limit + 1, walk, path =>
      if path ∈ walk.visited then
        walk
      else
        index.listWithMixins (index.listModule limit) walk path

/-- List a namespace with its mixins, and go on to its superclass; stop at a name met before. -/
def listAncestors (index : Index) : Nat → Walk → String → Walk
  | 0, walk, _ => walk
  | limit + 1, walk, path =>
      if path ∈ walk.visited then
        walk
      else
        let walk := index.listWithMixins (index.listModule index.walkLimit) walk path
        match index.superclassOf? path with
        | some superclass => index.listAncestors limit walk superclass
        | none => walk

/-- The ancestors of a namespace, nearest first, itself among them. -/
def ancestors (index : Index) (path : String) : List String :=
  (index.listAncestors index.walkLimit ⟨[], []⟩ path).listed

/-- The ancestors of a module by its own mixins. -/
def moduleAncestors (index : Index) (path : String) : List String :=
  (index.listModule index.walkLimit ⟨[], []⟩ path).listed

/-- A class and its superclasses, nearest first, up to a name met before. -/
def superclassChain (index : Index) : Nat → List String → String → List String
  | 0, _, _ => []
  | limit + 1, visited, path =>
      if path ∈ visited then
        []
      else
        path ::
          match index.namespaceKind? path, index.superclassOf? path with
          | some .classNamespace, some superclass =>
              index.superclassChain limit (path :: visited) superclass
          | _, _ => []

end TagCheck.Index
