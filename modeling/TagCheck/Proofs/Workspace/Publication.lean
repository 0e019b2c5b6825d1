import Mathlib.Data.List.Sort
import Mathlib.Data.String.Basic
import TagCheck.Proofs.Workspace.Isolation

namespace TagCheck

/-!
# The published snapshot follows the library

A library keeps its sources in the order of their names, one under each name.  So it is determined by
the source that it holds under every name, in whatever order the sources came in.  Every change
publishes the snapshot of the changed library, and nothing else replaces it.  So two histories that
leave the same source under every name leave the same snapshot.
-/

namespace Library

/-- The source under a name. -/
def source? (library : Library) (filename : String) : Option Source :=
  library.sources.find? (·.filename = filename)

/-- The sources stand in the order of their names, and no name is there twice. -/
def IsOrdered (library : Library) : Prop :=
  library.sources.Pairwise fun first second => first.filename < second.filename

section Order

variable {library : Library} {source : Source} {filename : String}

theorem mem_of_mem_insertSource
    {sources : List Source}
    {other : Source}
    (member : other ∈ insertSource source sources) :
    other = source ∨ other ∈ sources := by
  induction sources with
  | nil =>
      exact .inl (List.mem_singleton.mp member)
  | cons first rest inductionHypothesis =>
      unfold insertSource at member
      split at member
      · exact List.mem_cons.mp member
      · split at member
        · rcases List.mem_cons.mp member with isNew | isRest
          · exact .inl isNew
          · exact .inr (List.mem_cons_of_mem _ isRest)
        · rcases List.mem_cons.mp member with rfl | isRest
          · exact .inr List.mem_cons_self
          · exact (inductionHypothesis isRest).imp_right (List.mem_cons_of_mem _)

/-- A source that is put at its place keeps the order. -/
theorem IsOrdered.update
    (ordered : library.IsOrdered)
    (source : Source) :
    (library.update source).IsOrdered := by
  obtain ⟨sources⟩ := library
  show (insertSource source sources).Pairwise _
  induction sources with
  | nil =>
      exact List.pairwise_singleton _ _
  | cons first rest inductionHypothesis =>
      obtain ⟨isFirst, restOrdered⟩ := List.pairwise_cons.mp ordered
      unfold insertSource
      split
      · next isBefore =>
          refine List.pairwise_cons.mpr ⟨fun other member => ?_, ordered⟩
          rcases List.mem_cons.mp member with rfl | isRest
          · exact isBefore
          · exact isBefore.trans (isFirst other isRest)
      · next notBefore =>
          split
          · next sameName =>
              exact List.pairwise_cons.mpr ⟨sameName ▸ isFirst, restOrdered⟩
          · next otherName =>
              have isBehind : first.filename < source.filename :=
                lt_of_le_of_ne (not_lt.mp notBefore) (Ne.symm otherName)
              refine List.pairwise_cons.mpr ⟨fun other member => ?_, inductionHypothesis restOrdered⟩
              rcases mem_of_mem_insertSource member with rfl | isRest
              · exact isBehind
              · exact isFirst other isRest

theorem isOrdered_empty :
    empty.IsOrdered :=
  List.Pairwise.nil

theorem isOrdered_ofSources
    (sources : List Source) :
    (ofSources sources).IsOrdered :=
  List.foldlRecOn sources update isOrdered_empty fun _ ordered source _ => ordered.update source

theorem IsOrdered.remove
    (ordered : library.IsOrdered)
    (filename : String) :
    (library.remove filename).IsOrdered :=
  ordered.filter _

/-- No name is there twice. -/
theorem IsOrdered.nodup_filenames
    (ordered : library.IsOrdered) :
    library.filenames.Nodup :=
  List.pairwise_map.mpr (ordered.imp ne_of_lt)

/-- An ordered library holds each of its sources under its name. -/
theorem IsOrdered.source?_eq_some_iff
    (ordered : library.IsOrdered) :
    library.source? filename = some source ↔
      source ∈ library.sources ∧ source.filename = filename :=
  Index.find?_key_eq_some_iff ordered.nodup_filenames

/-- An ordered library is determined by the source that it holds under every name. -/
theorem IsOrdered.eq_of_source?_eq
    {other : Library}
    (ordered : library.IsOrdered)
    (otherOrdered : other.IsOrdered)
    (sameSources : ∀ filename, library.source? filename = other.source? filename) :
    library = other := by
  have irreflexive : Std.Irrefl fun first second : Source => first.filename < second.filename :=
    ⟨fun source => lt_irrefl source.filename⟩
  have antisymmetric :
      Std.Antisymm fun first second : Source => first.filename < second.filename :=
    ⟨fun _ _ isBefore isBehind => absurd (isBefore.trans isBehind) (lt_irrefl _)⟩
  have sameMembers : ∀ source, source ∈ library.sources ↔ source ∈ other.sources := by
    intro source
    have sameFound := sameSources source.filename
    constructor
    · intro member
      have found := ordered.source?_eq_some_iff.mpr ⟨member, rfl⟩
      exact (otherOrdered.source?_eq_some_iff.mp (sameFound ▸ found)).1
    · intro member
      have found := otherOrdered.source?_eq_some_iff.mpr ⟨member, rfl⟩
      exact (ordered.source?_eq_some_iff.mp (sameFound ▸ found)).1
  have sameList : library.sources = other.sources :=
    List.Pairwise.eq_of_mem_iff ordered otherOrdered sameMembers
  exact congrArg Library.mk sameList

theorem contains_eq_isSome_source? :
    library.contains filename = (library.source? filename).isSome := by
  rw [contains, source?, Bool.eq_iff_iff, List.find?_isSome, List.any_eq_true]

end Order

/-- The snapshots of two libraries are the same only if their sources are. -/
theorem snapshot_inj
    {first second : Library} :
    first.snapshot = second.snapshot ↔ first = second := by
  refine ⟨fun same => ?_, fun same => same ▸ rfl⟩
  have sourcesOf : ∀ sources : List Source,
      (Snapshot.ofSources sources).outlines.map (·.source) = sources := by
    intro sources
    rw [Snapshot.ofSources, Snapshot.ofOutlines, Snapshot.outlinesOf, List.map_map]
    exact List.zipIdx_map_fst 0 sources
  have sameSources := congrArg (fun snapshot => snapshot.outlines.map (·.source)) same
  simp only [snapshot, sourcesOf] at sameSources
  exact congrArg Library.mk sameSources

end Library

namespace Workspace

/-- The snapshot that is published now. -/
def published? (workspace : Workspace) : Option Snapshot :=
  workspace.editions[workspace.current]?.map (·.snapshot)

/-- The library is ordered, and the snapshot of all its sources is published. -/
structure IsCurrent (workspace : Workspace) : Prop where
  ordered : workspace.library.IsOrdered
  published : workspace.published? = some workspace.library.snapshot

/-- Nothing is remembered for any pin. -/
def IsUnasked (workspace : Workspace) : Prop :=
  workspace.memo = []

/-- Nothing is asked in the course of a history. -/
def AreChanges (history : List (WorkspaceEvent α)) : Prop :=
  ∀ event ∈ history, event.asks (fun _ => true) = false

section Steps

variable {workspace : Workspace}

theorem isCurrent_empty :
    empty.IsCurrent :=
  ⟨Library.isOrdered_empty, rfl⟩

theorem isCurrent_publish
    {library : Library}
    (ordered : library.IsOrdered)
    (workspace : Workspace) :
    (workspace.publish library).IsCurrent where
  ordered := ordered
  published := by
    simp [published?, publish, keepSurveyed, keep]

/-- Further snapshots leave the library and the published one. -/
theorem IsCurrent.append
    (isCurrent : workspace.IsCurrent)
    {after : Workspace}
    (sameLibrary : after.library = workspace.library)
    (sameCurrent : after.current = workspace.current)
    {new : List Edition}
    (editions : after.editions = workspace.editions ++ new) :
    after.IsCurrent where
  ordered := by
    rw [sameLibrary]
    exact isCurrent.ordered
  published := by
    have inRange : workspace.current < workspace.editions.length := by
      obtain ⟨edition, found, -⟩ := Option.map_eq_some_iff.mp isCurrent.published
      exact (List.getElem?_eq_some_iff.mp found).1
    rw [sameLibrary, ← isCurrent.published, published?, published?, editions, sameCurrent,
      List.getElem?_append_left inRange]

/-- Every event leaves the snapshot of the library published. -/
theorem IsCurrent.take
    (isCurrent : workspace.IsCurrent)
    (event : WorkspaceEvent α) :
    (event.take workspace).2.IsCurrent := by
  cases event with
  | load sources =>
      exact isCurrent_publish (Library.isOrdered_ofSources sources) workspace
  | update source =>
      exact isCurrent_publish (isCurrent.ordered.update source) workspace
  | remove filename =>
      rw [WorkspaceEvent.take, Workspace.remove]
      split
      · exact isCurrent_publish (isCurrent.ordered.remove filename) workspace
      · exact isCurrent
  | hold name | survey sources =>
      exact ⟨isCurrent.ordered, isCurrent.published⟩
  | holdIndex pins name | holdOutlines outlines name | holdDeclarations sources name
  | openAlone source =>
      exact isCurrent.append rfl rfl rfl
  | ask place query =>
      rw [WorkspaceEvent.take, ask_snd_eq]
      exact ⟨isCurrent.ordered, isCurrent.published⟩

/-- Every history leaves the snapshot of the library published. -/
theorem IsCurrent.after
    (isCurrent : workspace.IsCurrent)
    (history : List (WorkspaceEvent α)) :
    (workspace.after history).IsCurrent :=
  List.foldlRecOn history _ isCurrent fun _ isCurrent event _ => isCurrent.take event

theorem isUnasked_empty :
    empty.IsUnasked :=
  rfl

/-- An event that asks nothing leaves nothing remembered. -/
theorem IsUnasked.take
    (isUnasked : workspace.IsUnasked)
    {event : WorkspaceEvent α}
    (isChange : event.asks (fun _ => true) = false) :
    (event.take workspace).2.IsUnasked := by
  cases event with
  | remove filename =>
      rw [WorkspaceEvent.take, Workspace.remove]
      split <;> exact isUnasked
  | ask place query =>
      cases isChange
  | _ =>
      exact isUnasked

/-- A history of changes leaves nothing remembered. -/
theorem IsUnasked.after
    (isUnasked : workspace.IsUnasked)
    {history : List (WorkspaceEvent α)}
    (areChanges : AreChanges history) :
    (workspace.after history).IsUnasked :=
  List.foldlRecOn history _ isUnasked fun _ isUnasked event member =>
    isUnasked.take (areChanges event member)

/-- As long as nothing was asked, the published snapshot answers with an empty memory. -/
theorem IsCurrent.ask_current
    (isCurrent : workspace.IsCurrent)
    (isUnasked : workspace.IsUnasked)
    (query : Snapshot → Inferring α) :
    (workspace.ask workspace.current query).1 =
      some ((Study.fresh workspace.library.snapshot).ask query).1 := by
  obtain ⟨⟨snapshot, start⟩, found, sameSnapshot⟩ := Option.map_eq_some_iff.mp isCurrent.published
  have noMemo : workspace.memo = [] := isUnasked
  dsimp only at sameSnapshot
  subst sameSnapshot
  simp only [ask, found, noMemo]
  rfl

end Steps

/--
Two histories leave the same snapshot published exactly if they leave the same source under every
name, and as long as nothing was asked, that snapshot answers every query alike.  A removal succeeds
exactly if there is a source of the name, and one that fails changes nothing.
-/
theorem published?_after_eq_iff
    (first second : List (WorkspaceEvent α)) :
    ((empty.after first).published? = (empty.after second).published? ↔
        ∀ filename, (empty.after first).library.source? filename =
          (empty.after second).library.source? filename) ∧
      (AreChanges first → AreChanges second →
        (empty.after first).published? = (empty.after second).published? →
          ∀ query : Snapshot → Inferring β,
            ((empty.after first).ask (empty.after first).current query).1 =
              ((empty.after second).ask (empty.after second).current query).1) ∧
      ∀ filename,
        ((empty.after first).remove filename).1 =
            ((empty.after first).library.source? filename).isSome ∧
          (((empty.after first).remove filename).1 = false →
            ((empty.after first).remove filename).2 = empty.after first) := by
  have firstCurrent := isCurrent_empty.after first
  have secondCurrent := isCurrent_empty.after second
  have sameIff :
      (empty.after first).published? = (empty.after second).published? ↔
        (empty.after first).library = (empty.after second).library := by
    rw [firstCurrent.published, secondCurrent.published, Option.some_inj, Library.snapshot_inj]
  refine ⟨?_, ?_, ?_⟩
  · rw [sameIff]
    exact ⟨fun same filename => same ▸ rfl,
      firstCurrent.ordered.eq_of_source?_eq secondCurrent.ordered⟩
  · intro firstChanges secondChanges samePublished query
    rw [firstCurrent.ask_current (isUnasked_empty.after firstChanges),
      secondCurrent.ask_current (isUnasked_empty.after secondChanges), sameIff.mp samePublished]
  · intro filename
    rw [← Library.contains_eq_isSome_source?]
    unfold Workspace.remove
    split
    · next isHeld =>
        exact ⟨isHeld.symm, nofun⟩
    · next notHeld =>
        exact ⟨(Bool.not_eq_true _ ▸ notHeld).symm, fun _ => rfl⟩

end Workspace

namespace ReorderedUpdates

open ConstantSource Stub.Layout

/-! Two files that are updated one after the other, and that are loaded together with others. -/

/-- The first file as it was before the constant was added. -/
def draft : Source :=
  { source with root := branch .program none ⟨0, 0⟩ ⟨1, 0⟩ [] }

/-- The same declaration in a second file. -/
def other : Source :=
  { source with filename := "other.rb" }

/-- The same declaration in a file that is removed again. -/
def surplus : Source :=
  { source with filename := "surplus.rb" }

def updated : List (WorkspaceEvent Unit) :=
  [.update other, .remove "missing.rb", .update draft, .update source]

def loaded : List (WorkspaceEvent Unit) :=
  [.load [surplus, draft, other], .update source, .hold "both", .remove "surplus.rb"]

theorem areChanges :
    Workspace.AreChanges updated ∧ Workspace.AreChanges loaded := by
  simp [Workspace.AreChanges, updated, loaded, WorkspaceEvent.asks]

theorem library_after :
    (Workspace.empty.after updated).library = ⟨[source, other]⟩ ∧
      (Workspace.empty.after loaded).library = ⟨[source, other]⟩ :=
  ⟨rfl, rfl⟩

/-- Both histories publish the same snapshot, and the failing removal leaves it. -/
theorem published?_after_reordered :
    (Workspace.empty.after updated).published? = (Workspace.empty.after loaded).published? ∧
      ((Workspace.empty.after updated).ask (Workspace.empty.after updated).current
          (·.problems "other.rb" .strict)).1 =
        ((Workspace.empty.after loaded).ask (Workspace.empty.after loaded).current
          (·.problems "other.rb" .strict)).1 ∧
      ((Workspace.empty.after updated).remove "missing.rb").1 = false ∧
      ((Workspace.empty.after updated).remove "missing.rb").2 = Workspace.empty.after updated := by
  obtain ⟨isUpdated, isLoaded⟩ := library_after
  obtain ⟨sameIff, sameAnswers, removal⟩ :=
    Workspace.published?_after_eq_iff (β := List Problem) updated loaded
  have samePublished := sameIff.mpr fun filename => by rw [isUpdated, isLoaded]
  have missing : ((Workspace.empty.after updated).remove "missing.rb").1 = false := by
    rw [(removal "missing.rb").1, isUpdated]
    decide
  exact ⟨samePublished, sameAnswers areChanges.1 areChanges.2 samePublished _, missing,
    (removal "missing.rb").2 missing⟩

end ReorderedUpdates

end TagCheck
