import TagCheck.Inference.PinType
import TagCheck.Proofs.Outline.Parameters
import TagCheck.Proofs.Snapshot

namespace TagCheck

/-!
# The method that has a parameter

The type of a parameter is read from the documentation of its method, which is searched among the
pins at the path that the parameter stores.  Several definitions may share that path; only one of
them has the parameter.
-/

namespace Snapshot

/-- The search for a method finds one at the stored path, with a parameter of the same identity. -/
theorem owningMethod?_spec
    {snapshot : Snapshot}
    (listed : snapshot.index.IsListed)
    {parameter method : Pin}
    (found : snapshot.owningMethod? parameter = some method) :
    method ∈ snapshot.index.pins ∧
      method.path = parameter.closure.path ∧
      ∃ other ∈ method.parameters, other.id = parameter.id := by
  obtain ⟨indexed, samePath⟩ := listed.mem_pathPins.mp (List.mem_of_find?_eq_some found)
  have hasParameter := List.find?_some (p := fun pin : Pin =>
    pin.parameters.any (·.id = parameter.id)) found
  obtain ⟨other, ofMethod, sameId⟩ := List.any_eq_true.mp hasParameter
  exact ⟨indexed, samePath, other, ofMethod, of_decide_eq_true sameId⟩

/-- The declarations of the core library, or of the source with a number. -/
def declarationsOf (start : Nat) (sources : List Source) (number : Nat) : List Pin :=
  if number = 0 then
    CoreLibrary.pins
  else
    match sourceAt? start sources number with
    | some source => (Outline.ofSource number source).pins
    | none => []

/-- The methods of each source own their parameters. -/
theorem areOwners_declarationsOf
    (start : Nat)
    (sources : List Source)
    (number : Nat) :
    AreOwners number (declarationsOf start sources number) := by
  unfold declarationsOf
  split
  · next isCore =>
      rw [isCore]
      exact CoreLibrary.areOwners_pins
  · split
    · exact Outline.areOwners_ofSource _ _
    · exact ⟨nofun, List.nodup_nil, nofun⟩

/-- What is declared is declared by the core library or by one of the sources. -/
theorem exists_mem_declarationsOf
    {start : Nat}
    {sources : List Source}
    {pin : Pin}
    (declared : pin ∈ CoreLibrary.pins ++ (outlinesOf start sources).flatMap (·.pins)) :
    ∃ number, pin ∈ declarationsOf start sources number := by
  rcases List.mem_append.mp declared with isCore | ofSources
  · refine ⟨0, ?_⟩
    rwa [declarationsOf, if_pos rfl]
  · obtain ⟨outline, published, inOutline⟩ := List.mem_flatMap.mp ofSources
    obtain ⟨number, source, found, rfl⟩ := exists_of_mem_outlinesOf published
    have positive := (lt_of_sourceAt? found).1
    refine ⟨number, ?_⟩
    rw [declarationsOf, if_neg (Nat.ne_of_gt (Nat.zero_lt_of_lt positive)), found]
    exact inOutline

namespace IsBuilt

variable {snapshot : Snapshot}

/-- Every pin that a published snapshot indexes is declared by the core library or by a source. -/
theorem exists_declarationsOf
    (built : snapshot.IsBuilt) :
    ∃ start sources, ∀ pin ∈ snapshot.index.pins,
      ∃ number, pin ∈ declarationsOf start sources number := by
  cases built with
  | ofOutlines start sources =>
      refine ⟨start, sources, fun pin indexed => exists_mem_declarationsOf ?_⟩
      dsimp only [Snapshot.ofOutlines] at indexed
      rw [Index.pins_ofPins] at indexed
      exact indexed
  | ofPins start sources =>
      refine ⟨start, sources, fun pin indexed => exists_mem_declarationsOf ?_⟩
      dsimp only [Snapshot.ofPins] at indexed
      rw [Index.pins_ofPins] at indexed
      exact indexed

/-- A parameter stores the path of its method. -/
theorem path_of_mem_parameters
    (built : snapshot.IsBuilt)
    {method : Pin}
    {parameter : ParameterPin}
    (indexed : method ∈ snapshot.index.pins)
    (listed : parameter ∈ method.parameters) :
    method.path = parameter.closure.path := by
  obtain ⟨start, sources, declared⟩ := built.exists_declarationsOf
  obtain ⟨number, ofNumber⟩ := declared method indexed
  have owners := areOwners_declarationsOf start sources number
  exact (owners.stored method ofNumber parameter listed).symm

/-- Methods with a parameter of one identity are the same pin, whatever their paths are. -/
theorem eq_of_parameter_id_eq
    (built : snapshot.IsBuilt)
    {first second : Pin}
    {parameter other : ParameterPin}
    (isFirst : first ∈ snapshot.index.pins)
    (isSecond : second ∈ snapshot.index.pins)
    (ofFirst : parameter ∈ first.parameters)
    (ofSecond : other ∈ second.parameters)
    (sameId : parameter.id = other.id) :
    first = second := by
  obtain ⟨start, sources, declared⟩ := built.exists_declarationsOf
  obtain ⟨number, firstOf⟩ := declared first isFirst
  obtain ⟨otherNumber, secondOf⟩ := declared second isSecond
  -- The identity of a parameter names the source, so both methods are declared by the same one.
  have firstSource : parameter.id.source = number :=
    (areOwners_declarationsOf start sources number).source_eq_of_mem firstOf ofFirst
  have secondSource : other.id.source = otherNumber :=
    (areOwners_declarationsOf start sources otherNumber).source_eq_of_mem secondOf ofSecond
  have sameNumber : number = otherNumber := by
    rw [← firstSource, ← secondSource, sameId]
  subst sameNumber
  exact (areOwners_declarationsOf start sources number).eq_of_parameter_id_eq firstOf secondOf ofFirst
    ofSecond sameId

/-- The search for the method of a parameter finds the pin that lists the parameter. -/
theorem owningMethod?_ofParameter
    (built : snapshot.IsBuilt)
    {method : Pin}
    (indexed : method ∈ snapshot.index.pins)
    {parameter : ParameterPin}
    (listed : parameter ∈ method.parameters) :
    snapshot.owningMethod? parameter.ofParameter = some method := by
  have atPath : method ∈ snapshot.index.pathPins parameter.closure.path := by
    apply built.listed.mem_pathPins.mpr
    exact ⟨indexed, built.path_of_mem_parameters indexed listed⟩
  cases searched : snapshot.owningMethod? parameter.ofParameter with
  | none =>
      have hasNoParameter := List.find?_eq_none.mp searched method atPath
      apply absurd _ hasNoParameter
      exact List.any_eq_true.mpr ⟨parameter, listed, decide_eq_true rfl⟩
  | some found =>
      obtain ⟨isFound, -, other, ofFound, sameId⟩ := owningMethod?_spec built.listed searched
      have isMethod : found = method :=
        built.eq_of_parameter_id_eq isFound indexed ofFound listed sameId
      rw [isMethod]

end IsBuilt

end Snapshot

namespace RepeatedMethod

open Stub.Layout

/-- The definition `def bar(x); end` on a line. -/
def definition (line : Nat) : SyntaxNode :=
  methodNode ⟨line, 2⟩ false "bar" [.required "x"] []

/-- The call `private :bar`. -/
def call : SyntaxNode :=
  branch .call none ⟨3, 2⟩ ⟨3, 14⟩
    [leaf .identifier (some .method) ⟨3, 2⟩ "private",
      branch .argumentList (some .arguments) ⟨3, 10⟩ ⟨3, 14⟩ [leaf .symbol none ⟨3, 10⟩ ":bar"]]

/-- A class that defines a method twice and makes the second definition private. -/
def source : Source where
  filename := "foo.rb"
  root :=
    branch .program none ⟨0, 0⟩ ⟨5, 0⟩
      [branch .classDefinition none ⟨0, 0⟩ ⟨4, 3⟩
        [leaf .constant (some .name) ⟨0, 6⟩ "Foo", definition 1, definition 2, call]]
  isParsed := true

/-- The parameter of the definition on a line. -/
def parameter (line serial : Nat) : ParameterPin where
  id := ⟨1, serial⟩
  name := "x"
  path := "x"
  closure := ⟨"Foo#bar", "Foo", .instanceLevel⟩
  location := ⟨"foo.rb", ⟨⟨line, 10⟩, ⟨line, 11⟩⟩⟩
  comments := ""
  declared := []
  kind := ⟨.required, 0, ⟨(definition line).span, (definition line).span, ⟨line, 2⟩⟩⟩

/-- The method of the definition on a line. -/
def method (line serial : Nat) (visibility : Visibility) : Pin :=
  .declare ⟨1, serial + 1⟩ "bar" "Foo#bar" ⟨"Foo", "Foo", .classLevel⟩
    ⟨"foo.rb", (definition line).span⟩ none
    (.method
      ⟨.instanceLevel, visibility, [parameter line serial], false, some (definition line)⟩)

/-- What the outline declares is indexed. -/
theorem mem_pins
    {pin : Pin}
    (declared : pin ∈ (Outline.ofSource 1 source).pins) :
    pin ∈ (Snapshot.ofSources [source]).index.pins :=
  (Snapshot.IsBuilt.ofSources [source]).indexed _ (List.mem_singleton.mpr rfl) pin declared

/-- The two definitions share their path, and each parameter finds its own. -/
theorem owningMethod?_parameter :
    (Snapshot.ofSources [source]).owningMethod? (parameter 1 2).ofParameter =
        some (method 1 2 .publicAccess) ∧
      (Snapshot.ofSources [source]).owningMethod? (parameter 2 4).ofParameter =
        some (method 2 4 .privateAccess) := by
  have first : method 1 2 .publicAccess ∈ (Outline.ofSource 1 source).pins :=
    List.mem_of_getElem? (i := 2) rfl
  have second : method 2 4 .privateAccess ∈ (Outline.ofSource 1 source).pins :=
    List.mem_of_getElem? (i := 3) rfl
  have built : (Snapshot.ofSources [source]).IsBuilt := .ofSources [source]
  exact
    ⟨built.owningMethod?_ofParameter (mem_pins first) (List.mem_singleton.mpr rfl),
      built.owningMethod?_ofParameter (mem_pins second) (List.mem_singleton.mpr rfl)⟩

end RepeatedMethod

end TagCheck
