import TagCheck.Check.Calls

namespace TagCheck

/-!
# Arguments by position

A call's arguments by position are compared with the positional parameters in turn.  The language
binds them from both ends: the first ones to the required parameters in front, the last ones to the
required parameters behind, and those between to the optional parameters as far as there are any.
The two agree exactly when nothing is left out between the ends, and no parameter in parentheses
takes the place of several.
-/

/-- An argument that is no keyword argument, no splat and no block. -/
def SyntaxNode.isPositionalArgument (argument : SyntaxNode) : Bool :=
  match argument.kind with
  | .splatArgument | .hashSplatArgument | .blockArgument | .pair => false
  | _ => true

section Comparisons

variable {parameters positional : List ParameterPin} {argument : SyntaxNode}
  {arguments : List SyntaxNode}

/-- An argument by position takes the next positional parameter. -/
theorem bindArguments_cons_positional
    (isPositional : argument.isPositionalArgument = true)
    (rest : List SyntaxNode) :
    bindArguments parameters true positional (argument :: rest) =
      (positional.head?.map (·, argument)).toList ++
        bindArguments parameters true positional.tail rest := by
  unfold SyntaxNode.isPositionalArgument at isPositional
  split at isPositional
  any_goals cases isPositional
  next notSplat notHashSplat notBlock notPair =>
    cases positional <;> simp [bindArguments]

/-- Arguments that are all given by position take the positional parameters in turn. -/
theorem bindArguments_eq_zip
    (arePositional : ∀ argument ∈ arguments, argument.isPositionalArgument = true) :
    bindArguments parameters true positional arguments = positional.zip arguments := by
  induction arguments generalizing positional with
  | nil =>
      simp [bindArguments]
  | cons argument rest inductionHypothesis =>
      have arePositionalBehind := fun other isBehind =>
        arePositional other (List.mem_cons_of_mem argument isBehind)
      rw [bindArguments_cons_positional (arePositional argument List.mem_cons_self),
        inductionHypothesis arePositionalBehind]
      cases positional <;> rfl

/-- Other arguments take no positional parameter; at most they are compared with a keyword's. -/
theorem exists_bindArguments_cons
    (parameters : List ParameterPin)
    (notPositional : argument.isPositionalArgument = false)
    (noSplat : argument.kind ≠ .splatArgument) :
    ∃ bound : List (ParameterPin × SyntaxNode),
      (∀ binding ∈ bound, binding.1.kind.kind.isKeyword = true) ∧
        ∀ positional rest, bindArguments parameters true positional (argument :: rest) =
          bound ++ bindArguments parameters true positional rest := by
  unfold SyntaxNode.isPositionalArgument at notPositional
  split at notPositional
  · next isSplat =>
      exact absurd isSplat noSplat
  · next isHashSplat =>
      exact ⟨[], nofun, fun _ _ => by simp [bindArguments, isHashSplat]⟩
  · next isBlock =>
      exact ⟨[], nofun, fun _ _ => by simp [bindArguments, isBlock]⟩
  · next isPair =>
      simp only [bindArguments, isPair]
      refine ⟨_, ?_, fun _ _ => rfl⟩
      intro binding member
      split at member
      · obtain ⟨parameter, found, rfl⟩ := Option.map_eq_some_iff.mp (Option.mem_toList.mp member)
        have isNamed := List.find?_some found
        simp only [Bool.and_eq_true] at isNamed
        exact isNamed.2
      · cases member
  · cases notPositional

/-- Without positional parameters, only keyword arguments are compared. -/
theorem isKeyword_of_mem_bindArguments_nil
    (noSplat : ∀ argument ∈ arguments, argument.kind ≠ .splatArgument)
    {binding : ParameterPin × SyntaxNode}
    (member : binding ∈ bindArguments parameters true [] arguments) :
    binding.1.kind.kind.isKeyword = true := by
  induction arguments with
  | nil =>
      cases member
  | cons argument rest inductionHypothesis =>
      have noSplatBehind := fun other isBehind =>
        noSplat other (List.mem_cons_of_mem argument isBehind)
      cases isPositional : argument.isPositionalArgument with
      | true =>
          rw [bindArguments_cons_positional isPositional] at member
          exact inductionHypothesis noSplatBehind member
      | false =>
          obtain ⟨bound, areKeywords, cons_eq⟩ :=
            exists_bindArguments_cons parameters isPositional (noSplat argument List.mem_cons_self)
          rw [cons_eq] at member
          rcases List.mem_append.mp member with isBound | isBehind
          · exact areKeywords binding isBound
          · exact inductionHypothesis noSplatBehind isBehind

/-- Arguments by position are compared with the positional parameters one by one. -/
theorem bindArguments_perm
    (noSplat : ∀ argument ∈ arguments, argument.kind ≠ .splatArgument) :
    (bindArguments parameters true positional arguments).Perm
      (positional.zip (arguments.filter (·.isPositionalArgument)) ++
        bindArguments parameters true [] arguments) := by
  induction arguments generalizing positional with
  | nil =>
      simp [bindArguments]
  | cons argument rest inductionHypothesis =>
      have noSplatBehind := fun other isBehind =>
        noSplat other (List.mem_cons_of_mem argument isBehind)
      cases isPositional : argument.isPositionalArgument with
      | true =>
          rw [bindArguments_cons_positional isPositional, bindArguments_cons_positional isPositional,
            List.filter_cons_of_pos isPositional]
          cases positional with
          | nil =>
              exact inductionHypothesis noSplatBehind
          | cons parameter others =>
              exact (inductionHypothesis noSplatBehind).cons (parameter, argument)
      | false =>
          obtain ⟨bound, -, cons_eq⟩ :=
            exists_bindArguments_cons parameters isPositional (noSplat argument List.mem_cons_self)
          rw [cons_eq, cons_eq, List.filter_cons_of_neg (by simp [isPositional])]
          refine ((inductionHypothesis noSplatBehind).append_left bound).trans ?_
          exact List.perm_append_comm_assoc _ _ _

end Comparisons

section Dealing

variable {Item Entry : Type}

/-- What each of several takers gets when items are dealt out in turn. -/
def deal (takers : Nat) (items : List Item) : List (Option Item) :=
  (List.range takers).map (items[·]?)

@[simp] theorem deal_zero
    {items : List Item} :
    deal 0 items = [] :=
  rfl

@[simp] theorem deal_nil
    {takers : Nat} :
    deal takers ([] : List Item) = List.replicate takers none := by
  simp [deal, List.map_const']

@[simp] theorem deal_cons
    {takers : Nat}
    {item : Item}
    {items : List Item} :
    deal (takers + 1) (item :: items) = some item :: deal takers items := by
  simp [deal, List.range_succ_eq_map]

/-- Takers beyond the last item do not matter to what is dealt. -/
theorem deal_map_zip
    {Other : Type}
    (place : Item → Nat)
    {items : List Item}
    {others : List Other} :
    deal others.length ((items.zip others).map (place ·.1)) =
      deal others.length (items.map place) := by
  induction others generalizing items with
  | nil =>
      rfl
  | cons other rest inductionHypothesis =>
      cases items with
      | nil =>
          rfl
      | cons item items =>
          simp [inductionHypothesis]

/-- The places that entries take up when an entry takes up its place once for every name. -/
def places (namesOf placeOf : Entry → Nat) (entries : List Entry) : List Nat :=
  entries.flatMap fun entry => List.replicate (namesOf entry) (placeOf entry)

/-- Every entry that takes an argument has one name, unless it takes the last one. -/
def TakeOneEach (namesOf : Entry → Nat) (taken : List (Option Entry)) : Prop :=
  ∀ number entry, taken[number]? = some (some entry) →
    namesOf entry = 1 ∨ (number + 1 = taken.length ∧ 0 < namesOf entry)

variable {namesOf placeOf : Entry → Nat}

theorem takeOneEach_nil :
    TakeOneEach namesOf [] := by
  intro number entry found
  simp at found

theorem takeOneEach_some_cons
    {entry : Entry}
    {taken : List (Option Entry)} :
    TakeOneEach namesOf (some entry :: taken) ↔
      (namesOf entry = 1 ∨ (taken = [] ∧ 0 < namesOf entry)) ∧ TakeOneEach namesOf taken := by
  constructor
  · intro each
    constructor
    · have fits := each 0 entry rfl
      simpa [List.length_eq_zero_iff] using fits
    · intro number other found
      have fits := each (number + 1) other (by simpa using found)
      simpa using fits
  · rintro ⟨first, each⟩ number other found
    cases number with
    | zero =>
        obtain rfl : entry = other := by simpa using found
        simpa [List.length_eq_zero_iff] using first
    | succ number =>
        have fits := each number other (by simpa using found)
        simpa using fits

/-- Places dealt out in turn come to the entries that take the arguments. -/
def DealsTo (namesOf placeOf : Entry → Nat) (entries : List Entry)
    (taken : List (Option Entry)) : Prop :=
  deal taken.length (places namesOf placeOf entries) = taken.map (Option.map placeOf)

theorem places_cons
    {entry : Entry}
    {rest : List Entry} :
    places namesOf placeOf (entry :: rest) =
      List.replicate (namesOf entry) (placeOf entry) ++ places namesOf placeOf rest :=
  List.flatMap_cons

theorem mem_map_of_mem_places
    {place : Nat}
    {entries : List Entry}
    (member : place ∈ places namesOf placeOf entries) :
    place ∈ entries.map placeOf := by
  obtain ⟨entry, isEntry, isPlace⟩ := List.mem_flatMap.mp member
  exact List.mem_map.mpr ⟨entry, isEntry, (List.eq_of_mem_replicate isPlace).symm⟩

/--
An entry in front takes the first argument if it has one name and the others follow, or if there is
no further argument.
-/
theorem dealsTo_cons_iff
    {entry : Entry}
    {rest : List Entry}
    {taken : List (Option Entry)}
    (notPlace : placeOf entry ∉ rest.map placeOf)
    (fromRest : ∀ other, some other ∈ taken → other ∈ rest) :
    DealsTo namesOf placeOf (entry :: rest) (some entry :: taken) ↔
      (namesOf entry = 1 ∧ DealsTo namesOf placeOf rest taken) ∨
        (1 < namesOf entry ∧ taken = []) := by
  unfold DealsTo
  rw [List.length_cons, List.map_cons, Option.map_some, places_cons]
  match namesOf entry with
  | 0 =>
      cases further : places namesOf placeOf rest with
      | nil =>
          simp [List.replicate_succ]
      | cons place others =>
          have otherPlace : place ≠ placeOf entry := by
            rintro rfl
            exact notPlace (mem_map_of_mem_places (further ▸ List.mem_cons_self))
          simp [otherPlace]
  | 1 =>
      simp
  | count + 2 =>
      cases taken with
      | nil =>
          simp [List.replicate_succ]
      | cons next others =>
          have otherNext : some (placeOf entry) ≠ next.map placeOf := by
            intro same
            obtain ⟨other, rfl, samePlace⟩ := Option.map_eq_some_iff.mp same.symm
            exact notPlace (List.mem_map.mpr ⟨other, fromRest other List.mem_cons_self, samePlace⟩)
          simp [List.replicate_succ, otherNext]

/-- One entry more in front takes its argument under the same condition as the others. -/
theorem dealsTo_cons_iff_takeOneEach
    {entry : Entry}
    {rest : List Entry}
    {taken : List (Option Entry)}
    {isFilled : Prop}
    (notPlace : placeOf entry ∉ rest.map placeOf)
    (fromRest : ∀ other, some other ∈ taken → other ∈ rest)
    (nothingLeft : taken = [] → isFilled)
    (rest_iff :
      DealsTo namesOf placeOf rest taken ↔ TakeOneEach namesOf taken ∧ isFilled) :
    DealsTo namesOf placeOf (entry :: rest) (some entry :: taken) ↔
      TakeOneEach namesOf (some entry :: taken) ∧ isFilled := by
  rw [dealsTo_cons_iff notPlace fromRest, takeOneEach_some_cons, rest_iff]
  constructor
  · rintro (⟨oneName, each, filled⟩ | ⟨moreNames, rfl⟩)
    · exact ⟨⟨.inl oneName, each⟩, filled⟩
    · exact ⟨⟨.inr ⟨rfl, by omega⟩, takeOneEach_nil⟩, nothingLeft rfl⟩
  · rintro ⟨⟨oneName | ⟨rfl, hasName⟩, each⟩, filled⟩
    · exact .inl ⟨oneName, each, filled⟩
    · by_cases oneName : namesOf entry = 1
      · exact .inl ⟨oneName, each, filled⟩
      · exact .inr ⟨by omega, rfl⟩

/-- Arguments are taken by the entries that they are dealt to, and by those behind. -/
theorem mem_append_of_some_mem
    {takers : Nat}
    {dealt others : List Item}
    {item : Item}
    (member : some item ∈ deal takers dealt ++ others.map some) :
    item ∈ dealt ++ others := by
  rcases List.mem_append.mp member with isDealt | isOther
  · obtain ⟨number, -, found⟩ := List.mem_map.mp isDealt
    exact List.mem_append_left others (List.mem_of_getElem? found)
  · exact List.mem_append_right dealt (by simpa using isOther)

variable {leading optional trailing : List Entry}

/-- Entries that all take an argument take them in turn. -/
theorem dealsTo_all_iff
    (nodup : (trailing.map placeOf).Nodup) :
    DealsTo namesOf placeOf trailing (trailing.map some) ↔
      TakeOneEach namesOf (trailing.map some) := by
  induction trailing with
  | nil =>
      exact iff_of_true rfl takeOneEach_nil
  | cons entry rest inductionHypothesis =>
      obtain ⟨notPlace, nodupRest⟩ := List.nodup_cons.mp nodup
      have step :
          DealsTo namesOf placeOf (entry :: rest) (some entry :: rest.map some) ↔
            TakeOneEach namesOf (some entry :: rest.map some) ∧ True :=
        dealsTo_cons_iff_takeOneEach notPlace (by simp) (fun _ => trivial)
          (by rw [inductionHypothesis nodupRest, and_true])
      rwa [and_true] at step

/-- Where somebody gets nothing, nobody behind gets anything. -/
theorem not_dealsTo_none_cons
    {entry : Entry}
    {entries : List Entry}
    {taken : List (Option Entry)}
    (isTaken : some entry ∈ taken) :
    ¬DealsTo namesOf placeOf entries (none :: taken) := by
  unfold DealsTo
  intro dealt
  rw [List.length_cons, List.map_cons, Option.map_none] at dealt
  cases found : places namesOf placeOf entries with
  | nil =>
      rw [found, deal_nil, List.replicate_succ, List.cons.injEq] at dealt
      have gets : some (placeOf entry) ∈ List.replicate taken.length none := by
        rw [dealt.2]
        exact List.mem_map.mpr ⟨some entry, isTaken, rfl⟩
      cases List.eq_of_mem_replicate gets
  | cons place others =>
      rw [found, deal_cons] at dealt
      cases dealt

/-- Behind optional entries the required ones get theirs if the arguments are right in number. -/
theorem dealsTo_optional_iff
    {between : Nat}
    (nodup : ((optional ++ trailing).map placeOf).Nodup)
    (named : ∀ entry ∈ optional, namesOf entry = 1) :
    DealsTo namesOf placeOf (optional ++ trailing)
        (deal between optional ++ trailing.map some) ↔
      TakeOneEach namesOf (deal between optional ++ trailing.map some) ∧
        (trailing = [] ∨ between = optional.length) := by
  induction optional generalizing between with
  | nil =>
      cases between with
      | zero =>
          simpa using dealsTo_all_iff nodup
      | succ between =>
          cases trailing with
          | nil =>
              simp [DealsTo, places, TakeOneEach, List.getElem?_replicate]
          | cons entry rest =>
              have isTaken : some entry ∈
                  List.replicate between none ++ (entry :: rest).map some := by
                simp
              have nothing : ¬DealsTo namesOf placeOf (entry :: rest) _ :=
                not_dealsTo_none_cons isTaken
              simpa [List.replicate_succ] using nothing
  | cons entry others inductionHypothesis =>
      obtain ⟨notPlace, nodupOthers⟩ := List.nodup_cons.mp nodup
      have namedOthers := fun other isOther => named other (List.mem_cons_of_mem entry isOther)
      cases between with
      | zero =>
          cases trailing with
          | nil =>
              simp [DealsTo, takeOneEach_nil]
          | cons next rest =>
              have otherPlace : placeOf entry ≠ placeOf next := by
                intro same
                exact notPlace (List.mem_map.mpr ⟨next, by simp, same.symm⟩)
              simp [DealsTo, places_cons, named entry List.mem_cons_self, otherPlace]
      | succ between =>
          have nothingLeft : deal between others ++ trailing.map some = [] →
              trailing = [] ∨ between = others.length := by
            intro nothing
            exact .inl (List.map_eq_nil_iff.mp (List.append_eq_nil_iff.mp nothing).2)
          have step := dealsTo_cons_iff_takeOneEach notPlace (fun _ => mem_append_of_some_mem)
            nothingLeft (inductionHypothesis nodupOthers namedOthers)
          simpa using step

/--
The arguments that the parts of a parameter list take: one for each required entry in front and
behind, and the others for the optional entries in turn, as far as there are any.
-/
def takers (leading optional trailing : List Entry) (arguments : Nat) : List (Option Entry) :=
  leading.map some ++
    (deal (arguments - leading.length - trailing.length) optional ++ trailing.map some)

/-- Every argument is taken by an entry, or by none. -/
theorem length_takers
    {arguments : Nat}
    (enough : leading.length + trailing.length ≤ arguments) :
    (takers leading optional trailing arguments).length = arguments := by
  simp only [takers, deal, List.length_append, List.length_map, List.length_range]
  omega

/--
Dealing places out in turn gives every entry its argument exactly when there are arguments for all
optional entries or no required ones behind them, and no entry takes up several places but the one
that takes the last argument.
-/
theorem dealsTo_takers_iff
    (arguments : Nat)
    (nodup : ((leading ++ (optional ++ trailing)).map placeOf).Nodup)
    (named : ∀ entry ∈ optional, namesOf entry = 1) :
    DealsTo namesOf placeOf (leading ++ (optional ++ trailing))
        (takers leading optional trailing arguments) ↔
      TakeOneEach namesOf (takers leading optional trailing arguments) ∧
        (trailing = [] ∨ arguments - leading.length - trailing.length = optional.length) := by
  unfold takers
  generalize arguments - leading.length - trailing.length = between
  induction leading with
  | nil =>
      exact dealsTo_optional_iff nodup named
  | cons entry others inductionHypothesis =>
      obtain ⟨notPlace, nodupOthers⟩ := List.nodup_cons.mp nodup
      refine dealsTo_cons_iff_takeOneEach notPlace ?_ ?_ (inductionHypothesis nodupOthers)
      · intro other isTaken
        rcases List.mem_append.mp isTaken with isLeading | isBehind
        · exact List.mem_append_left _ (by simpa using isLeading)
        · exact List.mem_append_right _ (mem_append_of_some_mem isBehind)
      · intro nothing
        have nothingBehind := (List.append_eq_nil_iff.mp nothing).2
        exact .inl (List.map_eq_nil_iff.mp (List.append_eq_nil_iff.mp nothingBehind).2)

end Dealing

namespace SyntaxNode

/-- An entry of a parameter list that takes one argument by position. -/
def isSlot (entry : SyntaxNode) : Bool :=
  match entry.kind with
  | .requiredParameter | .other "destructured_parameter" | .optionalParameter => true
  | _ => false

/-- An entry of a parameter list that must take an argument: a name, or several in parentheses. -/
def isMandatory (entry : SyntaxNode) : Bool :=
  entry.isSlot && entry.kind != .optionalParameter

/-- How many parameters an entry of a parameter list binds. -/
def nameCount (entry : SyntaxNode × Nat) : Nat :=
  entry.1.boundParameters.length

/-- A single parameter is positional if its entry takes one argument by position. -/
theorem isSlot_eq_isPositional
    {entry : SyntaxNode}
    (notDestructured : entry.kind ≠ .other "destructured_parameter") :
    entry.isSlot = (entry.parameterKind?.map (·.isPositional)).getD false := by
  unfold isSlot parameterKind?
  split
  · next isRequired => rw [isRequired]; rfl
  · next isDestructured => exact absurd isDestructured notDestructured
  · next isOptional => rw [isOptional]; rfl
  · next notRequired _ notOptional =>
      split
      any_goals first | contradiction | rfl
      split <;> rfl

/-- The parameters by position are those of the entries that take one argument by position. -/
theorem filter_boundParameters
    (entry : SyntaxNode) :
    entry.boundParameters.filter (·.2.1.isPositional) =
      if entry.isSlot then entry.boundParameters else [] := by
  by_cases isDestructured : entry.kind = .other "destructured_parameter"
  · simp [boundParameters, isSlot, isDestructured, ParameterKind.isPositional]
  · rw [boundParameters, if_neg isDestructured, isSlot_eq_isPositional isDestructured]
    cases entry.parameterKind? with
    | none =>
        rfl
    | some kind =>
        dsimp only [Option.map_some, Option.getD_some]
        by_cases unnamed : entry.parameterName kind = ""
        · simp [unnamed]
        · by_cases isPositional : kind.isPositional = true <;> simp [unnamed, isPositional]

/-- A slot gives its place to each of its parameters; other entries have none by position. -/
theorem positionalPlaces_entry
    (entry : SyntaxNode × Nat) :
    ((entry.1.boundParameters.map fun (name, kind, node) => (name, kind, node.span, entry.2)).filter
        (·.2.1.isPositional)).map (·.2.2.2) =
      if entry.1.isSlot then List.replicate (nameCount entry) entry.2 else [] := by
  rw [List.filter_map, List.map_map]
  have bound := entry.1.filter_boundParameters
  split
  · next isSlot =>
      rw [if_pos isSlot] at bound
      calc _ = (entry.1.boundParameters.filter (·.2.1.isPositional)).map fun _ => entry.2 := rfl
        _ = _ := by rw [bound, List.map_const']; rfl
  · next notSlot =>
      rw [if_neg notSlot] at bound
      calc _ = (entry.1.boundParameters.filter (·.2.1.isPositional)).map fun _ => entry.2 := rfl
        _ = _ := by rw [bound, List.map_nil]

end SyntaxNode

/--
A parameter list as the language allows it, as far as positions go: required entries, then optional
ones, then at most one splat, then required entries again.  Each entry is listed with its number.
-/
structure ParameterRow (list : SyntaxNode) where
  leading : List (SyntaxNode × Nat)
  optional : List (SyntaxNode × Nat)
  splat : List (SyntaxNode × Nat)
  trailing : List (SyntaxNode × Nat)
  entries_eq :
    list.children.zipIdx.filter (fun entry => entry.1.isSlot || entry.1.kind = .splatParameter) =
      leading ++ optional ++ splat ++ trailing
  isMandatory : ∀ entry ∈ leading ++ trailing, entry.1.isMandatory = true
  isOptional : ∀ entry ∈ optional,
    entry.1.kind = .optionalParameter ∧ entry.1.name?.getD "" ≠ ""
  isSplat : ∀ entry ∈ splat, entry.1.kind = .splatParameter
  splat_length_le : splat.length ≤ 1

namespace ParameterRow

variable {list : SyntaxNode}

/-- The entries that take one argument by position, in their order. -/
def slots (row : ParameterRow list) : List (SyntaxNode × Nat) :=
  row.leading ++ (row.optional ++ row.trailing)

/-- Of several entries, those that take one argument by position are the slots of the list. -/
theorem filter_isSlot
    (row : ParameterRow list) :
    list.children.zipIdx.filter (·.1.isSlot) = row.slots := by
  have areSlots : ∀ entry ∈ row.leading ++ row.trailing, entry.1.isSlot = true := by
    intro entry member
    exact (Bool.and_eq_true_iff.mp (row.isMandatory entry member)).1
  have leading := List.filter_eq_self.mpr fun entry member =>
    areSlots entry (List.mem_append_left row.trailing member)
  have trailing := List.filter_eq_self.mpr fun entry member =>
    areSlots entry (List.mem_append_right row.leading member)
  have optional : row.optional.filter (·.1.isSlot) = row.optional := by
    refine List.filter_eq_self.mpr fun entry member => ?_
    simp [SyntaxNode.isSlot, (row.isOptional entry member).1]
  have splat : row.splat.filter (·.1.isSlot) = [] := by
    refine List.filter_eq_nil_iff.mpr fun entry member => ?_
    simp [SyntaxNode.isSlot, row.isSplat entry member]
  calc list.children.zipIdx.filter (·.1.isSlot)
      = (list.children.zipIdx.filter fun entry =>
          entry.1.isSlot || entry.1.kind = .splatParameter).filter (·.1.isSlot) := by
        rw [List.filter_filter]
        refine List.filter_congr fun entry _ => ?_
        cases entry.1.isSlot <;> rfl
    _ = row.slots := by
        rw [row.entries_eq]
        simp [leading, optional, splat, trailing, slots]

/-- The positional parameters of a list have the places of its slots, once for every name. -/
theorem positionalPlaces_eq
    (row : ParameterRow list) :
    (list.listedParameters.filter (·.2.1.isPositional)).map (·.2.2.2) =
      places SyntaxNode.nameCount Prod.snd row.slots := by
  rw [← row.filter_isSlot, SyntaxNode.listedParameters, List.filter_flatMap, List.map_flatMap,
    places]
  induction list.children.zipIdx with
  | nil =>
      rfl
  | cons entry rest inductionHypothesis =>
      rw [List.flatMap_cons, inductionHypothesis, SyntaxNode.positionalPlaces_entry,
        List.filter_cons]
      split
      · rw [List.flatMap_cons]
      · rw [List.nil_append]

/-- No two slots have the same place. -/
theorem nodup_places
    (row : ParameterRow list) :
    (row.slots.map Prod.snd).Nodup := by
  rw [← row.filter_isSlot]
  refine List.Nodup.sublist (List.filter_sublist.map Prod.snd) ?_
  rw [List.zipIdx_map_snd]
  exact List.nodup_range'

theorem nameCount_optional
    (row : ParameterRow list)
    {entry : SyntaxNode × Nat}
    (member : entry ∈ row.optional) :
    SyntaxNode.nameCount entry = 1 := by
  obtain ⟨isOptional, named⟩ := row.isOptional entry member
  simp [SyntaxNode.nameCount, SyntaxNode.boundParameters, SyntaxNode.parameterKind?,
    SyntaxNode.parameterName, isOptional, named]

end ParameterRow

/-- The parameters of a method are those that a list binds, as far as kinds and places go. -/
def PinOf.HasParameters (method : Pin) (list : SyntaxNode) : Prop :=
  method.parameters.map (fun parameter => (parameter.kind.kind, parameter.kind.index)) =
    list.listedParameters.map fun (_, kind, _, index) => (kind, index)

/-- The comparisons that the check of a call makes for a method. -/
def PinOf.comparisons (method : Pin) (arguments : List SyntaxNode) :
    List (ParameterPin × SyntaxNode) :=
  bindArguments method.parameters true (method.parameters.filter (·.kind.kind.isPositional))
    arguments

/--
The place, in the parameter list, of the parameter that each argument by position is compared with.
-/
def PinOf.comparedPlaces (method : Pin) (arguments : List SyntaxNode) : List (Option Nat) :=
  let given := arguments.filter (·.isPositionalArgument)
  deal given.length ((method.comparisons given).map (·.1.kind.index))

/-- The parameters that a definition declares are those of its list. -/
theorem Survey.map_parameterPins
    (survey : Survey)
    (source : SourceLabel)
    (closure : Closure)
    (doc : Docstring)
    (presence hardScope : Span)
    (list : SyntaxNode) :
    (survey.parameterPins source closure doc presence hardScope list).map
        (fun parameter => (parameter.kind.kind, parameter.kind.index)) =
      list.listedParameters.map fun (_, kind, _, index) => (kind, index) := by
  rw [parameterPins, List.map_map]
  conv =>
    rhs
    rw [← List.zipIdx_map_fst 0 list.listedParameters, List.map_map]
  rfl

/-- The positional parameters of a method have the places of the slots of its list. -/
theorem PinOf.HasParameters.map_index_eq
    {method : Pin}
    {list : SyntaxNode}
    (hasParameters : method.HasParameters list)
    (row : ParameterRow list) :
    (method.parameters.filter (·.kind.kind.isPositional)).map (·.kind.index) =
      places SyntaxNode.nameCount Prod.snd row.slots := by
  have positional := congrArg
    (fun described : List (ParameterKind × Nat) =>
      (described.filter (·.1.isPositional)).map Prod.snd) hasParameters
  simp only [List.filter_map, List.map_map] at positional
  rw [← row.positionalPlaces_eq]
  exact positional

/--
The check of a call compares the arguments by position with the positional parameters in turn, and
all others at most with keyword parameters.  The arguments are compared with the parameters that the
language binds them to exactly when they are enough for all optional parameters or no required ones
stand behind these, and every parameter in parentheses that takes an argument binds one name, or
takes the last argument.
-/
theorem comparedPlaces_eq_iff
    {method : Pin}
    {list : SyntaxNode}
    {arguments : List SyntaxNode}
    (row : ParameterRow list)
    (hasParameters : method.HasParameters list)
    (noSplat : ∀ argument ∈ arguments, argument.kind ≠ .splatArgument)
    (enough : row.leading.length + row.trailing.length ≤
      (arguments.filter (·.isPositionalArgument)).length) :
    (∀ (check : CallCheck) (receiver : DocUnion) (name : String) (isExplicit : Bool)
        (context : Pin) (type : DocType),
      (receiver.findSome? fun type => (check.callee? name isExplicit type).map (·, type)) =
          some (method, type) →
        check.checkArguments receiver name isExplicit arguments context =
          List.flatten <$>
            (method.comparisons arguments).mapM (check.checkArgument method type context)) ∧
    (∃ others : List (ParameterPin × SyntaxNode),
      (∀ binding ∈ others, binding.1.kind.kind.isKeyword = true) ∧
        (method.comparisons arguments).Perm
          ((method.parameters.filter (·.kind.kind.isPositional)).zip
            (arguments.filter (·.isPositionalArgument)) ++ others)) ∧
    (method.comparedPlaces arguments =
        (takers row.leading row.optional row.trailing
          (arguments.filter (·.isPositionalArgument)).length).map (Option.map Prod.snd) ↔
      (row.trailing = [] ∨
        (arguments.filter (·.isPositionalArgument)).length =
          row.leading.length + row.optional.length + row.trailing.length) ∧
      TakeOneEach SyntaxNode.nameCount
        (takers row.leading row.optional row.trailing
          (arguments.filter (·.isPositionalArgument)).length)) := by
  refine ⟨?_, ⟨_, fun _ => isKeyword_of_mem_bindArguments_nil noSplat,
    bindArguments_perm noSplat⟩, ?_⟩
  · intro check receiver name isExplicit context type reached
    rw [CallCheck.checkArguments, reached]
    rfl
  · have compared_eq : method.comparedPlaces arguments =
        deal (arguments.filter (·.isPositionalArgument)).length
          (places SyntaxNode.nameCount Prod.snd row.slots) := by
      rw [PinOf.comparedPlaces, PinOf.comparisons,
        bindArguments_eq_zip fun _ member => (List.mem_filter.mp member).2,
        deal_map_zip fun parameter : ParameterPin => parameter.kind.index,
        hasParameters.map_index_eq row]
    rw [compared_eq]
    generalize (arguments.filter (·.isPositionalArgument)).length = number at enough ⊢
    have inTurn := dealsTo_takers_iff number row.nodup_places
      fun _ => row.nameCount_optional
    rw [DealsTo, length_takers enough] at inTurn
    have allTaken : number - row.leading.length - row.trailing.length = row.optional.length ↔
        number = row.leading.length + row.optional.length + row.trailing.length := by
      omega
    rw [ParameterRow.slots, inTurn, allTaken, and_comm]

namespace OptionalInside

open Stub.Layout

/-! The method `m(a, b = 1, c)`, whose optional parameter stands between the required ones. -/

def first : SyntaxNode :=
  parameter ⟨1, 8⟩ (.required "a")

def inside : SyntaxNode :=
  parameter ⟨1, 11⟩ (.optional "b" "1")

def last : SyntaxNode :=
  parameter ⟨1, 18⟩ (.required "c")

def list : SyntaxNode :=
  branch .parameters (some .parameters) ⟨1, 7⟩ ⟨1, 20⟩ [first, inside, last]

def row : ParameterRow list where
  leading := [(first, 0)]
  optional := [(inside, 1)]
  splat := []
  trailing := [(last, 2)]
  entries_eq := rfl
  isMandatory := by decide
  isOptional := by decide
  isSplat := nofun
  splat_length_le := by decide

def method : Pin :=
  let closure : Closure := ⟨"Foo#m", "Foo", .instanceLevel⟩
  let parameters := Survey.parameterPins ⟨[], [], [], .publicAccess, 1⟩ ⟨"foo.rb", 1⟩ closure .empty
    ⟨⟨1, 2⟩, ⟨2, 5⟩⟩ ⟨⟨1, 2⟩, ⟨2, 5⟩⟩ list
  .declare ⟨1, 4⟩ "m" "Foo#m" ⟨"Foo", "Foo", .classLevel⟩ ⟨"foo.rb", ⟨⟨1, 2⟩, ⟨2, 5⟩⟩⟩ none
    (.method ⟨.instanceLevel, .publicAccess, parameters, false, none⟩)

theorem hasParameters : method.HasParameters list :=
  Survey.map_parameterPins _ _ _ _ _ _ list

/-- The arguments `'x'` and `:y` of a call, and a further one. -/
def arguments : List SyntaxNode :=
  [leaf .string none ⟨4, 10⟩ "'x'", leaf .symbol none ⟨4, 15⟩ ":y"]

def further : SyntaxNode :=
  leaf .integer none ⟨4, 19⟩ "2"

/-- Three arguments are compared with the parameters that they are bound to. -/
theorem comparedPlaces_three :
    method.comparedPlaces (arguments ++ [further]) = [some 0, some 1, some 2] := by
  have oneEach : TakeOneEach SyntaxNode.nameCount
      [some (first, 0), some (inside, 1), some (last, 2)] := by
    simp only [takeOneEach_some_cons, takeOneEach_nil]
    decide
  exact (comparedPlaces_eq_iff row hasParameters (by decide) (by decide)).2.2.mpr
    ⟨.inr rfl, oneEach⟩

/-- Of two arguments, the second one is bound to the last parameter, and compared with the other. -/
theorem comparedPlaces_two_ne :
    ¬∀ (method : Pin) (list : SyntaxNode) (row : ParameterRow list) (arguments : List SyntaxNode),
      method.HasParameters list →
        (∀ argument ∈ arguments, argument.kind ≠ .splatArgument) →
          row.leading.length + row.trailing.length ≤
              (arguments.filter (·.isPositionalArgument)).length →
            (row.splat = [] → (arguments.filter (·.isPositionalArgument)).length ≤
                row.leading.length + row.optional.length + row.trailing.length) →
              method.comparedPlaces arguments =
                (takers row.leading row.optional row.trailing
                  (arguments.filter (·.isPositionalArgument)).length).map (Option.map Prod.snd) := by
  intro alwaysBound
  have bound := alwaysBound method list row arguments hasParameters (by decide) (by decide)
    fun _ => by decide
  revert bound
  decide

end OptionalInside

end TagCheck
