import TagCheck.DocType.Basic

namespace TagCheck.DocType

/-!
# Filling in placeholders

`self` stands for the receiver, and `generic<T>`, `generic<K>` and `generic<V>` stand for the
receiver's element, key and value types.  Placeholders are replaced at every depth; a replaced
alternative gives way to all alternatives of its replacement.
-/

mutual

/-- Some alternative, at any depth, has the property. -/
def anyIn (property : DocType → Bool) : DocType → Bool
  | ⟨name, ordered, keys, values, nullable⟩ =>
      property ⟨name, ordered, keys, values, nullable⟩ || anyInParameters property ordered ||
        anyInParameters property keys || anyInParameters property values

/-- Some alternative of a union, at any depth, has the property. -/
def anyInUnion (property : DocType → Bool) : List DocType → Bool
  | [] => false
  | type :: rest => anyIn property type || anyInUnion property rest

/-- Some alternative in a parameter list, at any depth, has the property. -/
def anyInParameters (property : DocType → Bool) : List (List DocType) → Bool
  | [] => false
  | parameter :: rest => anyInUnion property parameter || anyInParameters property rest

end

mutual

/-- Replace an alternative, or else the alternatives inside its parameters. -/
def substitute (replacement? : DocType → Option DocUnion) : DocType → List DocType
  | ⟨name, ordered, keys, values, nullable⟩ =>
      match replacement? ⟨name, ordered, keys, values, nullable⟩ with
      | some replacement => replacement
      | none =>
          [⟨name, substituteParameters replacement? ordered,
            substituteParameters replacement? keys, substituteParameters replacement? values,
            nullable⟩]

/-- The replaced alternatives of a union, repetitions included. -/
def substituteAlternatives (replacement? : DocType → Option DocUnion) :
    List DocType → List DocType
  | [] => []
  | type :: rest => substitute replacement? type ++ substituteAlternatives replacement? rest

/-- Replace inside every parameter. -/
def substituteParameters (replacement? : DocType → Option DocUnion) :
    List (List DocType) → List (List DocType)
  | [] => []
  | parameter :: rest =>
      DocUnion.ofList (substituteAlternatives replacement? parameter) ::
        substituteParameters replacement? rest

end

end TagCheck.DocType

namespace TagCheck.DocUnion

/-- Some alternative, at any depth, has the property. -/
def contains (property : DocType → Bool) (union : DocUnion) : Bool :=
  DocType.anyInUnion property union

/-- Replace alternatives at every depth. -/
def substitute (replacement? : DocType → Option DocUnion) (union : DocUnion) : DocUnion :=
  ofList (DocType.substituteAlternatives replacement? union)

/-- Put the receiver in the place of `self`; an undefined receiver changes nothing. -/
def selfTo (union receiver : DocUnion) : DocUnion :=
  if receiver.isUndefined || !union.contains DocType.isSelf then
    union
  else
    union.substitute fun type => if type.isSelf then some receiver else none

/-- What a placeholder stands for, given the receiver. -/
def genericValue (receiver type : DocType) : DocUnion :=
  match type.ordered.head? with
  | some parameter => if DocUnion.refersTo parameter = "K" then receiver.keyType else receiver.elementType
  | none => receiver.elementType

/-- Fill generic placeholders from the receiver; what it does not say becomes undefined. -/
def resolveGenerics (union : DocUnion) (receiver : DocType) : DocUnion :=
  if union.contains DocType.isGeneric then
    union.substitute fun type => if type.isGeneric then some (genericValue receiver type) else none
  else
    union

end TagCheck.DocUnion
