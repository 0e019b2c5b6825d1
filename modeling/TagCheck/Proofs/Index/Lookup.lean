import Mathlib.Data.List.Nodup
import TagCheck.Index.Methods

namespace TagCheck.Index

/-!
# What is looked up is declared

Every look-up of an index searches the list of its pins, and so it finds pins of the index only.
-/

/-- If no key is there twice, every item is found by its key. -/
theorem find?_key_eq_some_iff
    {Item Key : Type}
    [DecidableEq Key]
    {keyOf : Item → Key}
    {items : List Item}
    (nodup : (items.map keyOf).Nodup)
    {key : Key}
    {item : Item} :
    items.find? (keyOf · = key) = some item ↔ item ∈ items ∧ keyOf item = key := by
  constructor
  · intro found
    have sameKey := List.find?_some found
    exact ⟨List.mem_of_find?_eq_some found, of_decide_eq_true sameKey⟩
  · rintro ⟨member, rfl⟩
    cases found : items.find? (keyOf · = keyOf item) with
    | none =>
        have isOther := List.find?_eq_none.mp found item member
        simp at isOther
    | some other =>
        have sameKey := List.find?_some found
        exact congrArg some (List.inj_on_of_nodup_map nodup (List.mem_of_find?_eq_some found) member
          (of_decide_eq_true sameKey))

/-- The look-ups of an index search the list of its pins. -/
def IsListed (index : Index) : Prop :=
  index = .ofList index.pins

/-- The look-ups behind the core library search the list of all pins. -/
theorem isListed_ofPins
    (pins : List Pin) :
    (ofPins pins).IsListed := by
  rw [ofPins_eq_ofList]
  rfl

/-- The pins of an index are those of the core library and the further ones. -/
theorem pins_ofPins
    (pins : List Pin) :
    (ofPins pins).pins = CoreLibrary.pins ++ pins := by
  rw [ofPins_eq_ofList]
  rfl

namespace IsListed

variable {index : Index}

/-- The pins at a path are those with the path. -/
theorem mem_pathPins
    (listed : index.IsListed)
    {pin : Pin}
    {path : String} :
    pin ∈ index.pathPins path ↔ pin ∈ index.pins ∧ pin.path = path := by
  rw [listed]
  simp [ofList]

theorem mem_ownMethods
    (listed : index.IsListed)
    {pin : Pin}
    {path : String}
    {scope : Scope} :
    pin ∈ index.ownMethods path scope ↔
      pin ∈ index.pins ∧ methodKey? pin = some (path, scope) := by
  rw [listed]
  simp [ofList]

theorem mem_members
    (listed : index.IsListed)
    {pin : Pin}
    {path : String} :
    pin ∈ index.members path ↔ pin ∈ index.pins ∧ memberKey? pin = some path := by
  rw [listed]
  simp [ofList]

theorem mem_mixinCalls
    (listed : index.IsListed)
    {pin : Pin}
    {path : String} :
    pin ∈ index.mixinCalls path ↔ pin ∈ index.pins ∧ referenceKey? pin = some path := by
  rw [listed]
  simp [ofList]

/-- The method that a call reaches is declared. -/
theorem mem_pins_of_method?
    (listed : index.IsListed)
    {path name : String}
    {scope : Scope}
    {pin : Pin}
    (reached : index.method? path name scope = some pin) :
    pin ∈ index.pins := by
  obtain ⟨⟨owner, level⟩, _, found⟩ := List.exists_of_findSome?_eq_some reached
  have member : pin ∈ index.ownMethods owner level :=
    List.mem_reverse.mp (List.mem_of_find?_eq_some found)
  exact (listed.mem_ownMethods.mp member).1

theorem mem_pins_of_publicMethod?
    (listed : index.IsListed)
    {path name : String}
    {scope : Scope}
    {pin : Pin}
    (reached : index.publicMethod? path name scope = some pin) :
    pin ∈ index.pins :=
  listed.mem_pins_of_method? (Option.eq_some_of_filter_eq_some reached)

/-- Instance variables of a namespace are declared. -/
theorem mem_pins_of_mem_instanceVariables
    (listed : index.IsListed)
    {path : String}
    {scope : Scope}
    {pin : Pin}
    (member : pin ∈ index.instanceVariables path scope) :
    pin ∈ index.pins :=
  (listed.mem_members.mp (List.mem_filter.mp member).1).1

theorem mem_pins_of_mem_classVariables
    (listed : index.IsListed)
    {path : String}
    {pin : Pin}
    (member : pin ∈ index.classVariables path) :
    pin ∈ index.pins :=
  (listed.mem_members.mp (List.mem_filter.mp member).1).1

end IsListed

theorem mem_pins_of_mem_globals
    {index : Index}
    {pin : Pin}
    (member : pin ∈ index.globals) :
    pin ∈ index.pins :=
  (List.mem_filter.mp member).1

end TagCheck.Index
