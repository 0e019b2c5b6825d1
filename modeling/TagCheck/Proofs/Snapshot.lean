import TagCheck.Proofs.Inference.Asking
import TagCheck.Proofs.Outline.Identity

namespace TagCheck.Snapshot

/-!
# Published snapshots

A snapshot that is published for sources lists its declarations, and each of its pins has an
identity of its own.
-/

/-- The source with a number, if the sources are numbered after a start. -/
def sourceAt? (start : Nat) (sources : List Source) : Nat → Option Source
  | 0 => none
  | place + 1 => if start ≤ place then sources[place - start]? else none

variable {start : Nat} {sources : List Source}

/-- The outlines of sources are those of the sources under their numbers. -/
theorem exists_of_mem_outlinesOf
    {outline : Outline}
    (member : outline ∈ outlinesOf start sources) :
    ∃ number source, sourceAt? start sources number = some source ∧
      outline = .ofSource number source := by
  obtain ⟨⟨source, place⟩, placed, rfl⟩ := List.mem_map.mp member
  obtain ⟨isBehind, found⟩ := List.mk_mem_zipIdx_iff_le_and_getElem?_sub.mp placed
  refine ⟨place + 1, source, ?_, rfl⟩
  rw [sourceAt?, if_pos isBehind, found]

/-- The numbers of sources lie behind the start, as many as there are sources. -/
theorem lt_of_sourceAt?
    {number : Nat}
    {source : Source}
    (found : sourceAt? start sources number = some source) :
    start < number ∧ number ≤ start + sources.length := by
  cases number with
  | zero =>
      cases found
  | succ place =>
      rw [sourceAt?] at found
      split at found
      · next isBehind =>
          have inRange := (List.getElem?_eq_some_iff.mp found).1
          omega
      · cases found

/-- The pins of the core library, or of the source with a number, with parameters and locals. -/
def pinsOf (start : Nat) (sources : List Source) (number : Nat) : List Pin :=
  if number = 0 then
    CoreLibrary.pins.flatMap (·.withParameters)
  else
    match sourceAt? start sources number with
    | some source =>
        let outline := Outline.ofSource number source
        outline.pins.flatMap (·.withParameters) ++ outline.locals
    | none => []

theorem pinsOf_zero :
    pinsOf start sources 0 = CoreLibrary.pins.flatMap (·.withParameters) :=
  if_pos rfl

theorem pinsOf_of_sourceAt?
    {number : Nat}
    {source : Source}
    (found : sourceAt? start sources number = some source) :
    pinsOf start sources number =
      (Outline.ofSource number source).pins.flatMap (·.withParameters) ++
        (Outline.ofSource number source).locals := by
  have notZero : number ≠ 0 :=
    Nat.ne_of_gt (Nat.lt_of_le_of_lt (Nat.zero_le start) (lt_of_sourceAt? found).1)
  rw [pinsOf, if_neg notZero, found]

/-- The pins of each source are identified by its number. -/
theorem areIdentified_pinsOf
    (start : Nat)
    (sources : List Source)
    (number : Nat) :
    AreIdentified number (pinsOf start sources number) := by
  unfold pinsOf
  split
  · next isCore =>
      rw [isCore]
      exact CoreLibrary.areIdentified_pins
  · split
    · exact Outline.areIdentified_ofSource _ _
    · exact ⟨nofun, nofun⟩

/-- Declarations of the core library and of sources belong to one of them. -/
theorem exists_of_mem_declarations
    {pin : Pin}
    (member :
      pin ∈ (CoreLibrary.pins ++ (outlinesOf start sources).flatMap (·.pins)).flatMap
        (·.withParameters)) :
    ∃ number, pin ∈ pinsOf start sources number := by
  obtain ⟨owner, ownerMember, ofOwner⟩ := List.mem_flatMap.mp member
  rcases List.mem_append.mp ownerMember with core | declared
  · refine ⟨0, ?_⟩
    rw [pinsOf_zero]
    exact List.mem_flatMap.mpr ⟨owner, core, ofOwner⟩
  · obtain ⟨outline, published, ownerDeclared⟩ := List.mem_flatMap.mp declared
    obtain ⟨number, source, found, rfl⟩ := exists_of_mem_outlinesOf published
    refine ⟨number, ?_⟩
    rw [pinsOf_of_sourceAt? found]
    exact List.mem_append_left _ (List.mem_flatMap.mpr ⟨owner, ownerDeclared, ofOwner⟩)

/-- The look-ups of a snapshot of sources search one list of pins. -/
theorem ofSources_eq_ofList
    (sources : List Source) :
    ofSources sources =
      ⟨.ofList (CoreLibrary.pins ++ (outlinesOf 0 sources).flatMap (·.pins)),
        outlinesOf 0 sources⟩ := by
  simp only [ofSources, ofOutlines, Index.ofPins_eq_ofList]

/-- The declarations of outlines are indexed in their snapshot. -/
theorem mem_index_ofOutlines
    (outlines : List Outline) :
    ∀ outline ∈ (ofOutlines outlines).outlines, ∀ pin ∈ outline.pins,
      pin ∈ (ofOutlines outlines).index.pins := by
  intro outline published pin member
  dsimp only [ofOutlines]
  rw [Index.pins_ofPins]
  exact List.mem_append_right _ (List.mem_flatMap.mpr ⟨outline, published, member⟩)

/-- The outlines of sources that are numbered from a start list no pin twice. -/
theorem nodup_flatMap_outlinesOf
    (start : Nat)
    (sources : List Source) :
    ((outlinesOf start sources).flatMap (·.pins)).Nodup ∧
      ∀ pin ∈ (outlinesOf start sources).flatMap (·.pins), start < pin.id.source := by
  have source_eq : ∀ number source, ∀ pin ∈ (Outline.ofSource number source).pins,
      pin.id.source = number := by
    intro number source pin member
    exact (Outline.areIdentified_ofSource number source).source_eq pin
      (List.mem_append_left _ (Survey.mem_flatMap_withParameters member))
  rw [outlinesOf, List.flatMap_map]
  induction sources generalizing start with
  | nil =>
      exact ⟨List.nodup_nil, nofun⟩
  | cons source rest inductionHypothesis =>
      obtain ⟨nodup, later⟩ := inductionHypothesis (start + 1)
      rw [List.zipIdx_cons, List.flatMap_cons]
      constructor
      · refine List.nodup_append.mpr ⟨Outline.nodup_pins_ofSource _ source, nodup, ?_⟩
        rintro pin member other isLater rfl
        have laterNumber := later pin isLater
        rw [source_eq _ source pin member] at laterNumber
        exact Nat.lt_irrefl _ laterNumber
      · intro pin member
        rcases List.mem_append.mp member with isFirst | isLater
        · rw [source_eq _ source pin isFirst]
          exact Nat.lt_succ_self start
        · exact Nat.lt_of_succ_lt (later pin isLater)

/-- The core library and sources declare no pin twice. -/
theorem nodup_declarations
    (start : Nat)
    (sources : List Source) :
    (CoreLibrary.pins ++ (outlinesOf start sources).flatMap (·.pins)).Nodup := by
  obtain ⟨nodup, later⟩ := nodup_flatMap_outlinesOf start sources
  refine List.nodup_append.mpr
    ⟨List.nodup_reverse.mpr (Survey.nodup_pins_ofProgram _ _), nodup, ?_⟩
  rintro pin isCore other declared rfl
  have positive := later pin declared
  rw [CoreLibrary.areIdentified_pins.source_eq pin
    (Survey.mem_flatMap_withParameters isCore)] at positive
  exact Nat.not_lt_zero start positive

/-- All pins of a snapshot of sources belong to the core library or to one of the sources. -/
theorem exists_pinsOf_of_mem_ofOutlines
    {pin : Pin}
    (member : pin ∈ (ofOutlines (outlinesOf start sources)).pins) :
    ∃ number, pin ∈ pinsOf start sources number := by
  rcases List.mem_append.mp member with declared | isLocal
  · dsimp only [ofOutlines] at declared
    rw [Index.pins_ofPins] at declared
    exact exists_of_mem_declarations declared
  · obtain ⟨outline, published, isLocal⟩ := List.mem_flatMap.mp isLocal
    obtain ⟨number, source, found, rfl⟩ := exists_of_mem_outlinesOf published
    refine ⟨number, ?_⟩
    rw [pinsOf_of_sourceAt? found]
    exact List.mem_append_right _ isLocal

/-- All pins of an index of what sources declare belong to the core library or to a source. -/
theorem exists_pinsOf_of_mem_ofPins
    {pin : Pin}
    (member : pin ∈ (ofPins ((outlinesOf start sources).flatMap (·.pins))).pins) :
    ∃ number, pin ∈ pinsOf start sources number := by
  rcases List.mem_append.mp member with declared | isLocal
  · dsimp only [ofPins] at declared
    rw [Index.pins_ofPins] at declared
    exact exists_of_mem_declarations declared
  · cases isLocal

/--
A snapshot as it is published: of sources that are numbered after a start, or of their declarations
alone.
-/
inductive IsBuilt : Snapshot → Prop
  | ofOutlines (start : Nat) (sources : List Source) :
      IsBuilt (.ofOutlines (outlinesOf start sources))
  | ofPins (start : Nat) (sources : List Source) :
      IsBuilt (.ofPins ((outlinesOf start sources).flatMap (·.pins)))

namespace IsBuilt

variable {snapshot : Snapshot}

/-- The snapshot of sources is published. -/
theorem ofSources
    (sources : List Source) :
    (Snapshot.ofSources sources).IsBuilt :=
  .ofOutlines 0 sources

/-- The look-ups of a published snapshot search the list of its declarations. -/
theorem listed
    (built : snapshot.IsBuilt) :
    snapshot.index.IsListed := by
  cases built with
  | ofOutlines start sources =>
      exact Index.isListed_ofPins _
  | ofPins start sources =>
      exact Index.isListed_ofPins _

/-- No pin of a published snapshot is indexed twice. -/
theorem nodup
    (built : snapshot.IsBuilt) :
    snapshot.index.pins.Nodup := by
  cases built with
  | ofOutlines start sources =>
      dsimp only [Snapshot.ofOutlines]
      rw [Index.pins_ofPins]
      exact nodup_declarations start sources
  | ofPins start sources =>
      dsimp only [Snapshot.ofPins]
      rw [Index.pins_ofPins]
      exact nodup_declarations start sources

/-- The declarations of a published snapshot's outlines are indexed. -/
theorem indexed
    (built : snapshot.IsBuilt) :
    ∀ outline ∈ snapshot.outlines, ∀ pin ∈ outline.pins, pin ∈ snapshot.index.pins := by
  cases built with
  | ofOutlines start sources =>
      exact mem_index_ofOutlines _
  | ofPins start sources =>
      intro outline published
      cases published

/-- Every pin of a published snapshot belongs to the core library or to one of its sources. -/
theorem exists_mem_pinsOf
    (built : snapshot.IsBuilt) :
    ∃ start sources, ∀ pin ∈ snapshot.pins, ∃ number, pin ∈ pinsOf start sources number := by
  cases built with
  | ofOutlines start sources =>
      exact ⟨start, sources, fun _ => exists_pinsOf_of_mem_ofOutlines⟩
  | ofPins start sources =>
      exact ⟨start, sources, fun _ => exists_pinsOf_of_mem_ofPins⟩

/-- Two pins of a published snapshot with one identity are the same pin. -/
theorem eq_of_id_eq
    (built : snapshot.IsBuilt)
    {first second : Pin}
    (firstMember : first ∈ snapshot.pins)
    (secondMember : second ∈ snapshot.pins)
    (sameId : first.id = second.id) :
    first = second := by
  obtain ⟨start, sources, ofSource⟩ := built.exists_mem_pinsOf
  obtain ⟨number, firstOf⟩ := ofSource first firstMember
  obtain ⟨other, secondOf⟩ := ofSource second secondMember
  have firstSource := (areIdentified_pinsOf start sources number).source_eq first firstOf
  have secondSource := (areIdentified_pinsOf start sources other).source_eq second secondOf
  have sameNumber : number = other := by
    rw [← firstSource, ← secondSource, sameId]
  subst sameNumber
  exact (areIdentified_pinsOf start sources number).eq_of_id_eq first firstOf second secondOf sameId

end IsBuilt

end TagCheck.Snapshot
