import Std.Data.HashMap

namespace TagCheck

/-!
# Items by key

A table that keeps, for every key, the items with that key in the order in which they were added.
Looking up a key is the same as filtering the list of all items.
-/

/-- Items grouped by key. -/
structure Groups (Key Item : Type) [BEq Key] [Hashable Key] where
  table : Std.HashMap Key (List Item)

namespace Groups

variable {Key Item : Type} [BEq Key] [Hashable Key]

/-- No items. -/
def empty : Groups Key Item :=
  ⟨∅⟩

/-- The items with a key, in the order in which they were added. -/
def find (groups : Groups Key Item) (key : Key) : List Item :=
  groups.table.getD key []

/-- Add an item behind all others with its key. -/
def add (groups : Groups Key Item) (key : Key) (item : Item) : Groups Key Item :=
  ⟨groups.table.insert key (groups.table.getD key [] ++ [item])⟩

/-- Add an item under its key, if it has one. -/
def addBy (keyOf : Item → Option Key) (groups : Groups Key Item) (item : Item) :
    Groups Key Item :=
  match keyOf item with
  | some key => groups.add key item
  | none => groups

/-- Add several items, each under its key. -/
def addAll (keyOf : Item → Option Key) (groups : Groups Key Item) (items : List Item) :
    Groups Key Item :=
  items.foldl (addBy keyOf) groups

/-- No key has an item in the empty table. -/
theorem find_empty (key : Key) : (empty : Groups Key Item).find key = [] := by
  simp [empty, find]

section Lookup

variable [LawfulBEq Key] [LawfulHashable Key] [DecidableEq Key]

/-- An added item is found behind the others with its key, and changes no other key. -/
theorem find_add (groups : Groups Key Item) (added key : Key) (item : Item) :
    (groups.add added item).find key =
      if added = key then groups.find key ++ [item] else groups.find key := by
  simp only [add, find, Std.HashMap.getD_insert, beq_iff_eq]
  split
  · next same => rw [same]
  · rfl

/-- Looking up a key is filtering the items by their keys. -/
theorem find_addAll (keyOf : Item → Option Key) (groups : Groups Key Item) (items : List Item)
    (key : Key) :
    (groups.addAll keyOf items).find key =
      groups.find key ++ items.filter (fun item => keyOf item = some key) := by
  induction items generalizing groups with
  | nil => simp [addAll]
  | cons item rest inductionHypothesis =>
      have step : groups.addAll keyOf (item :: rest) =
          (addBy keyOf groups item).addAll keyOf rest := rfl
      rw [step, inductionHypothesis]
      cases itemKey : keyOf item with
      | none => simp [addBy, itemKey]
      | some other =>
          by_cases same : other = key <;> simp [addBy, itemKey, find_add, same]

end Lookup

end Groups

end TagCheck
