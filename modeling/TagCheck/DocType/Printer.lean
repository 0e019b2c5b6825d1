import TagCheck.DocType.Basic

namespace TagCheck.DocType

/-!
# Writing documented types

The canonical spelling of a union: alternatives and parameters are separated by a comma and a
blank, keyed parameters stand in braces around an arrow, and the empty union is `undefined`.
-/

mutual

/-- The spelling of one alternative. -/
def render : DocType → List Char
  | ⟨name, ordered, keys, values, nullable⟩ =>
      name.toList ++
        (if !keys.isEmpty || !values.isEmpty then
          ['\x7b'] ++ renderParameters keys ++ [' ', '=', '>', ' '] ++ renderParameters values ++
            ['\x7d']
        else if !ordered.isEmpty then
          ['<'] ++ renderParameters ordered ++ ['>']
        else
          []) ++
        (if nullable then ['?'] else [])

/-- The spelling of a union. -/
def renderUnion : List DocType → List Char
  | [] => ['u', 'n', 'd', 'e', 'f', 'i', 'n', 'e', 'd']
  | type :: rest => render type ++ renderFurtherTypes rest

/-- Alternatives behind the first one, each after its separator. -/
def renderFurtherTypes : List DocType → List Char
  | [] => []
  | type :: rest => [',', ' '] ++ render type ++ renderFurtherTypes rest

/-- The spelling of a parameter list, without its brackets. -/
def renderParameters : List (List DocType) → List Char
  | [] => []
  | parameter :: rest => renderUnion parameter ++ renderFurtherParameters rest

/-- Parameters behind the first one, each after its separator. -/
def renderFurtherParameters : List (List DocType) → List Char
  | [] => []
  | parameter :: rest => [',', ' '] ++ renderUnion parameter ++ renderFurtherParameters rest

end

/-- The tag text of one alternative. -/
def tag (type : DocType) : String :=
  String.ofList (render type)

end TagCheck.DocType

namespace TagCheck.DocUnion

/-- The tag text of a union. -/
def tag (union : DocUnion) : String :=
  String.ofList (DocType.renderUnion union)

end TagCheck.DocUnion
