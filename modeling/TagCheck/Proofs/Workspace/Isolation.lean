import TagCheck.Proofs.Check.History
import TagCheck.Proofs.Inference.Footprint
import TagCheck.Proofs.Outline.Location
import TagCheck.Proofs.Workspace.Numbering

namespace TagCheck

/-!
# Snapshots do not influence one another

What is inferred for a pin is remembered with the pin, and all snapshots that have the pin see it.
The pins of the core library belong to every snapshot, but nothing is ever remembered for them,
although their types may depend on the code of one snapshot.  All other pins are made by surveys.
Libraries, checkers and indexes of the declarations of sources survey their sources anew; only an
index of pins, or a snapshot of outlines, that were made before shares them with other snapshots.

Snapshots that share no such pin are apart.  A query leaves everything that is remembered for a
snapshot apart from its own as it is, and that snapshot answers as if the query had not been asked.
-/

namespace Snapshot

variable {snapshot : Snapshot}

/-- All questions about types, signatures and problems are queries. -/
theorem IsQuery.ask
    (listed : snapshot.index.IsListed)
    (indexed : ∀ outline ∈ snapshot.outlines, ∀ pin ∈ outline.pins, pin ∈ snapshot.index.pins)
    {question : Question}
    (about : question.IsAbout snapshot) :
    snapshot.IsQuery (question.ask snapshot) := by
  cases question with
  | typeOf pin =>
      exact .andThen (.infer (.typeOf about)) fun _ => .answer ()
  | expression node context =>
      exact .andThen (.infer (evaluateIn_asksOnly listed context node)) fun _ => .answer ()
  | signature text context locals =>
      exact .andThen (.infer (evaluateSignature_asksOnly listed text context about))
        fun _ => .answer ()
  | signaturePins text context locals =>
      exact .andThen (.infer (pinsOfSignature_asksOnly listed text context about))
        fun _ => .answer ()
  | returnTypeProblems filename =>
      exact .andThen (.infer (checkReturnTypes_asksOnly indexed filename)) fun _ => .answer ()
  | strictTypeProblems filename =>
      exact .andThen (.infer (checkStrictly_asksOnly listed filename)) fun _ => .answer ()
  | problems filename level =>
      exact .andThen (.infer (checkFile_asksOnly listed indexed filename level))
        fun _ => .answer ()

/-- A pin of sources that are numbered after a start has one of their numbers, or is a core pin. -/
theorem isCore_or_source_of_mem_pinsOf
    {start number : Nat}
    {sources : List Source}
    {pin : Pin}
    (member : pin ∈ pinsOf start sources number) :
    pin ∈ CoreLibrary.pins.flatMap (·.withParameters) ∨
      (start < pin.id.source ∧ pin.id.source ≤ start + sources.length) := by
  have sameSource := (areIdentified_pinsOf start sources number).source_eq pin member
  unfold pinsOf at member
  split at member
  · exact .inl member
  · split at member
    · next found =>
        rw [sameSource]
        exact .inr (lt_of_sourceAt? found)
    · cases member

end Snapshot

namespace Edition

variable {edition other : Edition}

/-- A pin of the snapshot, and none of the core library, has the identity in the workspace. -/
def Owns (edition : Edition) (id : PinId) : Prop :=
  id.isShared = false ∧ ∃ pin ∈ edition.snapshot.pins, pin.id.shift edition.start = id

/-- No pin belongs to both snapshots, apart from those of the core library. -/
def IsApart (first second : Edition) : Prop :=
  ∀ id, first.Owns id → ¬second.Owns id

/--
The look-ups search one list, and its pins belong to the core library or were made by surveys with
numbers behind the first one, up to the last one.
-/
structure IsMadeIn (first last : Nat) (edition : Edition) : Prop where
  listed : edition.snapshot.index.IsListed
  made : ∀ pin ∈ edition.snapshot.pins,
    pin ∈ CoreLibrary.pins.flatMap (·.withParameters) ∨
      (0 < pin.id.source ∧ first < edition.start + pin.id.source ∧
        edition.start + pin.id.source ≤ last)

namespace IsMadeIn

variable {first last : Nat}

theorem mono
    (isMade : edition.IsMadeIn first last)
    {earlier later : Nat}
    (isEarlier : earlier ≤ first)
    (isLater : last ≤ later) :
    edition.IsMadeIn earlier later where
  listed := isMade.listed
  made pin member := by
    refine (isMade.made pin member).imp_right fun ⟨positive, isBehind, isUpTo⟩ => ?_
    exact ⟨positive, Nat.lt_of_le_of_lt isEarlier isBehind, Nat.le_trans isUpTo isLater⟩

/-- What the snapshot owns was made by those surveys. -/
theorem source_of_owns
    (isMade : edition.IsMadeIn first last)
    {id : PinId}
    (owns : edition.Owns id) :
    first < id.source ∧ id.source ≤ last := by
  obtain ⟨notShared, pin, member, rfl⟩ := owns
  rw [PinId.isShared_shift] at notShared
  rw [PinId.source_shift notShared]
  rcases isMade.made pin member with isCore | ⟨-, inRange⟩
  · rw [PinId.isShared, CoreLibrary.areIdentified_pins.source_eq pin isCore] at notShared
    cases notShared
  · exact inRange

/-- Snapshots of different surveys are apart. -/
theorem isApart
    (isMade : edition.IsMadeIn first last)
    {next final : Nat}
    (isMadeLater : other.IsMadeIn next final)
    (isLater : last ≤ next) :
    edition.IsApart other := by
  intro id owns ownsLater
  have upTo := (isMade.source_of_owns owns).2
  have behind := (isMadeLater.source_of_owns ownsLater).1
  omega

/-- A type is remembered only for what the snapshot owns. -/
theorem owns_of_remembers
    (isMade : edition.IsMadeIn first last)
    {id : PinId}
    (remembers : edition.snapshot.Remembers id) :
    edition.Owns (id.shift edition.start) := by
  obtain ⟨pin, member, isRemembered, rfl⟩ := remembers
  refine ⟨?_, pin, member, rfl⟩
  rw [PinId.isShared_shift]
  rcases isMade.made pin member with isCore | ⟨positive, -⟩
  · have inCore := CoreLibrary.filename_of_mem_pins pin isCore
    simp [PinOf.isRemembered, inCore] at isRemembered
  · simpa [PinId.isShared, Nat.pos_iff_ne_zero] using positive

end IsMadeIn

/-- The snapshot of sources is made by their surveys. -/
theorem isMadeIn_ofOutlines
    (start offset : Nat)
    (sources : List Source) :
    IsMadeIn (offset + start) (offset + start + sources.length)
      ⟨.ofOutlines (Snapshot.outlinesOf start sources), offset⟩ where
  listed := Index.isListed_ofPins _
  made pin member := by
    obtain ⟨number, ofNumber⟩ := Snapshot.exists_pinsOf_of_mem_ofOutlines member
    refine (Snapshot.isCore_or_source_of_mem_pinsOf ofNumber).imp_right fun inRange => ?_
    dsimp only
    omega

/-- An index of what sources declare is made by their surveys. -/
theorem isMadeIn_ofPins
    (start offset : Nat)
    (sources : List Source) :
    IsMadeIn (offset + start) (offset + start + sources.length)
      ⟨.ofPins ((Snapshot.outlinesOf start sources).flatMap (·.pins)), offset⟩ where
  listed := Index.isListed_ofPins _
  made pin member := by
    obtain ⟨number, ofNumber⟩ := Snapshot.exists_pinsOf_of_mem_ofPins member
    refine (Snapshot.isCore_or_source_of_mem_pinsOf ofNumber).imp_right fun inRange => ?_
    dsimp only
    omega

/-- An index of pins that were made before is made by the surveys so far. -/
theorem isMadeIn_index
    {surveyed : Nat}
    {pins : List Pin}
    (areMade : ∀ pin ∈ pins.flatMap (·.withParameters),
      pin ∈ CoreLibrary.pins.flatMap (·.withParameters) ∨
        (0 < pin.id.source ∧ pin.id.source ≤ surveyed)) :
    IsMadeIn 0 surveyed ⟨.ofPins pins, 0⟩ where
  listed := Index.isListed_ofPins _
  made pin member := by
    rcases List.mem_append.mp member with declared | isLocal
    · dsimp only [Snapshot.ofPins] at declared
      rw [Index.pins_ofPins, List.flatMap_append] at declared
      rcases List.mem_append.mp declared with isCore | isGiven
      · exact .inl isCore
      · refine (areMade pin isGiven).imp_right fun inRange => ?_
        dsimp only
        omega
    · cases isLocal

/-- A snapshot of outlines that were made before is made by the surveys so far. -/
theorem isMadeIn_outlines
    {surveyed : Nat}
    {outlines : List Outline}
    (areMade : ∀ outline ∈ outlines,
      ∃ number source, 0 < number ∧ number ≤ surveyed ∧ outline = .ofSource number source) :
    IsMadeIn 0 surveyed ⟨.ofOutlines outlines, 0⟩ where
  listed := Index.isListed_ofPins _
  made pin member := by
    have ofOutline : ∀ outline ∈ outlines,
        pin ∈ outline.pins.flatMap (·.withParameters) ++ outline.locals →
          0 < pin.id.source ∧ pin.id.source ≤ surveyed := by
      intro outline given inOutline
      obtain ⟨number, source, positive, isUpTo, rfl⟩ := areMade outline given
      rw [(Outline.areIdentified_ofSource number source).source_eq pin inOutline]
      exact ⟨positive, isUpTo⟩
    have inRange :
        pin ∈ CoreLibrary.pins.flatMap (·.withParameters) ∨
          (0 < pin.id.source ∧ pin.id.source ≤ surveyed) := by
      rcases List.mem_append.mp member with declared | isLocal
      · dsimp only [Snapshot.ofOutlines] at declared
        rw [Index.pins_ofPins, List.flatMap_append] at declared
        rcases List.mem_append.mp declared with isCore | isGiven
        · exact .inl isCore
        · obtain ⟨owner, ownerGiven, ofOwner⟩ := List.mem_flatMap.mp isGiven
          obtain ⟨outline, given, inOutline⟩ := List.mem_flatMap.mp ownerGiven
          refine .inr (ofOutline outline given (List.mem_append_left _ ?_))
          exact List.mem_flatMap.mpr ⟨owner, inOutline, ofOwner⟩
      · obtain ⟨outline, given, isLocal⟩ := List.mem_flatMap.mp isLocal
        exact .inr (ofOutline outline given (List.mem_append_right _ isLocal))
    refine inRange.imp_right fun inRange => ?_
    dsimp only
    omega

end Edition

/-- What may happen to a workspace: a snapshot is built, or a snapshot is asked. -/
inductive WorkspaceEvent (α : Type) where
  | load (sources : List Source)
  | update (source : Source)
  | remove (filename : String)
  | hold (name : String)
  | survey (sources : List Source)
  | holdIndex (pins : List Pin) (name : String)
  | holdOutlines (outlines : List Outline) (name : String)
  | holdDeclarations (sources : List Source) (name : String)
  | openAlone (source : Source)
  | ask (place : Nat) (query : Snapshot → Inferring α)

namespace WorkspaceEvent

/-- The answer to an event that asks, and the workspace behind the event. -/
def take (workspace : Workspace) : WorkspaceEvent α → Option α × Workspace
  | load sources => (none, workspace.load sources)
  | update source => (none, workspace.update source)
  | remove filename => (none, (workspace.remove filename).2)
  | hold name => (none, workspace.hold name)
  | survey sources => (none, (workspace.survey sources).2)
  | holdIndex pins name => (none, workspace.holdIndex pins name)
  | holdOutlines outlines name => (none, workspace.holdOutlines outlines name)
  | holdDeclarations sources name => (none, workspace.holdDeclarations sources name)
  | openAlone source => (none, (workspace.openAlone source).2)
  | ask place query => workspace.ask place query

/-- The event asks a snapshot at one of some places. -/
def asks (places : Nat → Bool) : WorkspaceEvent α → Bool
  | ask place _ => places place
  | _ => false

@[simp] theorem asks_ask
    (places : Nat → Bool)
    (place : Nat)
    (query : Snapshot → Inferring α) :
    (ask place query).asks places = places place :=
  rfl

/-- The event surveys the sources of every snapshot that it builds. -/
def surveysAnew : WorkspaceEvent α → Bool
  | holdIndex .. | holdOutlines .. => false
  | _ => true

/--
What is asked is a query of the snapshot that is asked; and pins and outlines that are given were made
before, by the core library or by a survey.
-/
def IsValid (workspace : Workspace) : WorkspaceEvent α → Prop
  | ask place query => ∀ edition ∈ workspace.editions[place]?,
      edition.snapshot.IsQuery (query edition.snapshot)
  | holdIndex pins _ => ∀ pin ∈ pins.flatMap (·.withParameters),
      pin ∈ CoreLibrary.pins.flatMap (·.withParameters) ∨
        (0 < pin.id.source ∧ pin.id.source ≤ workspace.surveyed)
  | holdOutlines outlines _ => ∀ outline ∈ outlines,
      ∃ number source, 0 < number ∧ number ≤ workspace.surveyed ∧
        outline = .ofSource number source
  | _ => True

end WorkspaceEvent

namespace Workspace

/-- The workspace behind a history. -/
def after (workspace : Workspace) (history : List (WorkspaceEvent α)) : Workspace :=
  history.foldl (fun workspace event => (event.take workspace).2) workspace

/-- The answers that snapshots at some places give in the course of a history. -/
def answers (places : Nat → Bool) : List (WorkspaceEvent α) → Workspace → List (Option α)
  | [], _ => []
  | event :: rest, workspace =>
      let (answer, after) := event.take workspace
      if event.asks places then answer :: answers places rest after else answers places rest after

/-- All events of a history are valid when they happen. -/
def AreValid : List (WorkspaceEvent α) → Workspace → Prop
  | [], _ => True
  | event :: rest, workspace => event.IsValid workspace ∧ AreValid rest (event.take workspace).2

/-- The snapshots at two places, if there are any, are apart. -/
def AreApart (workspace : Workspace) (place other : Nat) : Prop :=
  ∀ first ∈ workspace.editions[place]?, ∀ second ∈ workspace.editions[other]?, first.IsApart second

theorem AreApart.symm
    {workspace : Workspace}
    {place other : Nat}
    (areApart : workspace.AreApart place other) :
    workspace.AreApart other place :=
  fun second foundSecond first foundFirst id ownsSecond ownsFirst =>
    areApart first foundFirst second foundSecond id ownsFirst ownsSecond

/-- All snapshots are made by surveys so far, and nothing is remembered for the core library. -/
structure IsPublished (workspace : Workspace) : Prop where
  made : ∀ edition ∈ workspace.editions, edition.IsMadeIn 0 workspace.surveyed
  noShared : ∀ id, id.isShared = true → workspace.memo.lookup id = none

section Steps

variable {workspace : Workspace} {place : Nat} {edition : Edition}

theorem remembered?_eq
    (found : workspace.editions[place]? = some edition)
    (pin : Pin) :
    workspace.remembered? place pin = workspace.memo.lookup (pin.id.shift edition.start) := by
  simp [remembered?, study?, found, Edition.study, Study.remembered?]

/-- Snapshots that have the same pin see the same type remembered for it. -/
theorem remembered?_eq_of_shift_eq
    {other : Nat}
    {second : Edition}
    (found : workspace.editions[place]? = some edition)
    (foundSecond : workspace.editions[other]? = some second)
    {pin twin : Pin}
    (samePin : pin.id.shift edition.start = twin.id.shift second.start) :
    workspace.remembered? place pin = workspace.remembered? other twin := by
  rw [remembered?_eq found, remembered?_eq foundSecond, samePin]

/-- So do two indexes of the pins of one survey. -/
example :
    let survey := empty.survey [ConstantSource.source]
    let pins := survey.1.flatMap (·.pins)
    let workspace := (survey.2.holdIndex pins "first").holdIndex pins "second"
    let asked := (workspace.ask 1 (·.typeOfPin ConstantSource.pin)).2
    asked.remembered? 1 ConstantSource.pin = some (.named "String") ∧
      asked.remembered? 2 ConstantSource.pin = some (.named "String") := by
  decide +kernel

theorem ask_of_none
    {query : Snapshot → Inferring α}
    (isNone : workspace.editions[place]? = none) :
    workspace.ask place query = (none, workspace) := by
  simp [ask, isNone]

theorem editions_ask
    (place : Nat)
    (query : Snapshot → Inferring α) :
    (workspace.ask place query).2.editions = workspace.editions ∧
      (workspace.ask place query).2.surveyed = workspace.surveyed := by
  unfold ask
  split <;> exact ⟨rfl, rfl⟩

/-- A query leaves what is remembered for all but the pins that its snapshot owns. -/
theorem lookup_ask
    (isMade : edition.IsMadeIn 0 workspace.surveyed)
    {query : Snapshot → Inferring α}
    (found : workspace.editions[place]? = some edition)
    (isQuery : edition.snapshot.IsQuery (query edition.snapshot))
    {id : PinId}
    (notOwned : ¬edition.Owns id) :
    (workspace.ask place query).2.memo.lookup id = workspace.memo.lookup id := by
  simp only [ask, found]
  cases seen : id.unshift? edition.start with
  | none =>
      exact Memo.lookup_replaceFrom_of_unseen _ _ seen
  | some inner =>
      have isInner := PinId.shift_of_unshift? seen
      subst isInner
      have isOther : ¬edition.snapshot.Remembers inner :=
        fun remembers => notOwned (isMade.owns_of_remembers remembers)
      rw [Memo.lookup_replaceFrom_shift]
      exact (isQuery.lookup_eq isOther isMade.listed _).trans (Memo.lookup_seenFrom _ inner)

/-- A query leaves nothing remembered for the core library. -/
theorem IsPublished.ask
    (published : workspace.IsPublished)
    {query : Snapshot → Inferring α}
    (isValid : (WorkspaceEvent.ask place query).IsValid workspace) :
    (workspace.ask place query).2.IsPublished where
  made := by
    rw [(editions_ask place query).1, (editions_ask place query).2]
    exact published.made
  noShared id isShared := by
    cases found : workspace.editions[place]? with
    | none =>
        rw [ask_of_none found]
        exact published.noShared id isShared
    | some edition =>
        have isMade := published.made edition (List.mem_of_getElem? found)
        have notOwned : ¬edition.Owns id := by
          rintro ⟨notShared, -⟩
          rw [isShared] at notShared
          cases notShared
        rw [lookup_ask isMade found (isValid edition found) notOwned]
        exact published.noShared id isShared

/--
Between two workspaces some snapshots were built, and nothing was asked.  Their pins were made by
surveys so far; if they are surveyed anew, by surveys in between.
-/
structure Builds (before after : Workspace) (isAnew : Bool) (new : List Edition) : Prop where
  editions : after.editions = before.editions ++ new
  surveyed_le : before.surveyed ≤ after.surveyed
  memo : after.memo = before.memo
  made : ∀ edition ∈ new,
    edition.IsMadeIn (if isAnew then before.surveyed else 0) after.surveyed

theorem builds_refl
    {after : Workspace}
    (editions : after.editions = workspace.editions)
    (surveyed_le : workspace.surveyed ≤ after.surveyed)
    (memo : after.memo = workspace.memo) :
    workspace.Builds after true [] where
  editions := by
    rw [editions, List.append_nil]
  surveyed_le := surveyed_le
  memo := memo
  made := List.forall_mem_nil _

theorem builds_singleton
    {after : Workspace}
    {isAnew : Bool}
    (count : Nat)
    (editions : after.editions = workspace.editions ++ [edition])
    (surveyed : after.surveyed = workspace.surveyed + count)
    (memo : after.memo = workspace.memo)
    (isMade :
      edition.IsMadeIn (if isAnew then workspace.surveyed else 0) (workspace.surveyed + count)) :
    workspace.Builds after isAnew [edition] where
  editions := editions
  surveyed_le := by
    rw [surveyed]
    exact Nat.le_add_right _ count
  memo := memo
  made other member := by
    rw [List.mem_singleton.mp member, surveyed]
    exact isMade

theorem builds_publish
    (workspace : Workspace)
    (library : Library) :
    workspace.Builds (workspace.publish library) true [⟨library.snapshot, workspace.surveyed⟩] :=
  builds_singleton library.sources.length rfl rfl rfl
    (Edition.isMadeIn_ofOutlines 0 workspace.surveyed library.sources)

/-- Every event that asks nothing builds some snapshots. -/
theorem exists_builds
    {event : WorkspaceEvent α}
    (isChange : event.asks (fun _ => true) = false)
    (isValid : event.IsValid workspace) :
    ∃ new, workspace.Builds (event.take workspace).2 event.surveysAnew new := by
  cases event with
  | load sources =>
      exact ⟨_, builds_publish workspace _⟩
  | update source =>
      exact ⟨_, builds_publish workspace _⟩
  | remove filename =>
      rw [WorkspaceEvent.take, Workspace.remove]
      split
      · exact ⟨_, builds_publish workspace _⟩
      · exact ⟨[], builds_refl rfl (Nat.le_refl _) rfl⟩
  | hold name =>
      exact ⟨[], builds_refl rfl (Nat.le_refl _) rfl⟩
  | survey sources =>
      exact ⟨[], builds_refl rfl (Nat.le_add_right _ _) rfl⟩
  | holdIndex pins name =>
      exact ⟨_, builds_singleton 0 rfl rfl rfl (Edition.isMadeIn_index isValid)⟩
  | holdOutlines outlines name =>
      exact ⟨_, builds_singleton 0 rfl rfl rfl (Edition.isMadeIn_outlines isValid)⟩
  | holdDeclarations sources name =>
      have isMade := Edition.isMadeIn_ofPins workspace.surveyed 0 sources
      rw [Nat.zero_add] at isMade
      exact ⟨_, builds_singleton sources.length rfl rfl rfl isMade⟩
  | openAlone source =>
      exact ⟨_, builds_singleton 1 rfl rfl rfl
        (Edition.isMadeIn_ofOutlines 0 workspace.surveyed [source])⟩
  | ask place query =>
      cases isChange

/-- Every event leaves all snapshots made by surveys so far, and the core library unremembered. -/
theorem IsPublished.take
    (published : workspace.IsPublished)
    {event : WorkspaceEvent α}
    (isValid : event.IsValid workspace) :
    (event.take workspace).2.IsPublished := by
  cases isChange : event.asks fun _ => true with
  | true =>
      cases event with
      | ask place query =>
          exact published.ask isValid
      | _ =>
          cases isChange
  | false =>
      obtain ⟨new, built⟩ := exists_builds isChange isValid
      refine ⟨fun edition member => ?_, ?_⟩
      · rw [built.editions] at member
        rcases List.mem_append.mp member with isOld | isNew
        · exact (published.made edition isOld).mono (Nat.le_refl 0) built.surveyed_le
        · exact (built.made edition isNew).mono (Nat.zero_le _) (Nat.le_refl _)
      · rw [built.memo]
        exact published.noShared

/-- A history leaves all snapshots made by surveys so far, and the core library unremembered. -/
theorem IsPublished.after
    (published : workspace.IsPublished)
    {history : List (WorkspaceEvent α)}
    (areValid : AreValid history workspace) :
    (workspace.after history).IsPublished := by
  induction history generalizing workspace with
  | nil =>
      exact published
  | cons event rest inductionHypothesis =>
      exact inductionHypothesis (published.take areValid.1) areValid.2

/-- An event leaves the snapshots at their places. -/
theorem getElem?_editions_take
    {event : WorkspaceEvent α}
    (isValid : event.IsValid workspace)
    (found : workspace.editions[place]? = some edition) :
    (event.take workspace).2.editions[place]? = some edition := by
  cases isChange : event.asks fun _ => true with
  | true =>
      cases event with
      | ask other query =>
          rw [WorkspaceEvent.take, (editions_ask other query).1]
          exact found
      | _ =>
          cases isChange
  | false =>
      obtain ⟨new, built⟩ := exists_builds isChange isValid
      rw [built.editions, List.getElem?_append_left (List.getElem?_eq_some_iff.mp found).1]
      exact found

/-- A history leaves the snapshots at their places. -/
theorem getElem?_editions_after
    {history : List (WorkspaceEvent α)}
    (areValid : AreValid history workspace)
    (found : workspace.editions[place]? = some edition) :
    (workspace.after history).editions[place]? = some edition := by
  induction history generalizing workspace with
  | nil =>
      exact found
  | cons event rest inductionHypothesis =>
      exact inductionHypothesis areValid.2 (getElem?_editions_take areValid.1 found)

/-- Snapshots that are apart stay apart. -/
theorem AreApart.after
    {other : Nat}
    (areApart : workspace.AreApart place other)
    (isFirst : place < workspace.editions.length)
    (isSecond : other < workspace.editions.length)
    {history : List (WorkspaceEvent α)}
    (areValid : AreValid history workspace) :
    (workspace.after history).AreApart place other := by
  intro first foundFirst second foundSecond
  rw [getElem?_editions_after areValid (List.getElem?_eq_getElem isFirst)] at foundFirst
  rw [getElem?_editions_after areValid (List.getElem?_eq_getElem isSecond)] at foundSecond
  cases foundFirst
  cases foundSecond
  exact areApart _ (List.getElem?_eq_getElem isFirst) _ (List.getElem?_eq_getElem isSecond)

/-- Only the memory of a workspace changes when a snapshot is asked. -/
theorem ask_snd_eq
    (workspace : Workspace)
    (place : Nat)
    (query : Snapshot → Inferring α) :
    (workspace.ask place query).2 =
      { workspace with memo := (workspace.ask place query).2.memo } := by
  unfold ask
  split <;> rfl

/-- An event that asks nothing does not look at what is remembered. -/
theorem take_withMemo
    (workspace : Workspace)
    (memo : Memo)
    {event : WorkspaceEvent α}
    (isChange : event.asks (fun _ => true) = false) :
    event.take { workspace with memo } =
      ((event.take workspace).1, { (event.take workspace).2 with memo }) := by
  cases event with
  | remove filename =>
      simp only [WorkspaceEvent.take, Workspace.remove]
      split <;> rfl
  | ask place query =>
      cases isChange
  | _ =>
      rfl

end Steps

/-- Two workspaces that differ at most in what is remembered, and remember alike what is kept. -/
structure IsAlike (kept : PinId → Prop) (first second : Workspace) : Prop where
  same : second = { first with memo := second.memo }
  lookup_eq : ∀ id, kept id → first.memo.lookup id = second.memo.lookup id

namespace IsAlike

variable {kept : PinId → Prop} {first second : Workspace} {place : Nat} {edition : Edition}

theorem refl
    (workspace : Workspace) :
    IsAlike kept workspace workspace :=
  ⟨rfl, fun _ _ => rfl⟩

theorem symm
    (alike : IsAlike kept first second) :
    IsAlike kept second first where
  same := by
    rw [alike.same]
  lookup_eq id isKept := (alike.lookup_eq id isKept).symm

theorem trans
    {third : Workspace}
    (alike : IsAlike kept first second)
    (alikeRest : IsAlike kept second third) :
    IsAlike kept first third where
  same := by
    rw [alikeRest.same, alike.same]
  lookup_eq id isKept := (alike.lookup_eq id isKept).trans (alikeRest.lookup_eq id isKept)

theorem editions_eq
    (alike : IsAlike kept first second) :
    second.editions = first.editions := by
  rw [alike.same]

/-- The same is valid in alike workspaces, for their snapshots and surveys are the same. -/
theorem isValid
    (alike : IsAlike kept first second)
    {event : WorkspaceEvent α}
    (isValid : event.IsValid first) :
    event.IsValid second := by
  rw [alike.same]
  cases event <;> exact isValid

/-- An event that asks nothing leads alike workspaces to alike ones. -/
theorem take_change
    (alike : IsAlike kept first second)
    {event : WorkspaceEvent α}
    (isChange : event.asks (fun _ => true) = false)
    (isValid : event.IsValid first) :
    (event.take first).1 = (event.take second).1 ∧
      IsAlike kept (event.take first).2 (event.take second).2 := by
  have outcome := take_withMemo first second.memo isChange
  rw [← alike.same] at outcome
  obtain ⟨new, built⟩ := exists_builds isChange isValid
  rw [outcome]
  refine ⟨rfl, rfl, fun id isKept => ?_⟩
  rw [built.memo]
  exact alike.lookup_eq id isKept

/-- A query about pins that are not kept makes no difference. -/
theorem ask_unkept
    (published : first.IsPublished)
    {query : Snapshot → Inferring α}
    (isValid : (WorkspaceEvent.ask place query).IsValid first)
    (notKept : ∀ edition ∈ first.editions[place]?, ∀ id, edition.Owns id → ¬kept id) :
    IsAlike kept first (first.ask place query).2 where
  same := ask_snd_eq first place query
  lookup_eq id isKept := by
    cases found : first.editions[place]? with
    | none =>
        rw [ask_of_none found]
    | some edition =>
        have isMade := published.made edition (List.mem_of_getElem? found)
        have notOwned : ¬edition.Owns id :=
          fun owns => notKept edition found id owns isKept
        exact (lookup_ask isMade found (isValid edition found) notOwned).symm

/-- Alike workspaces show the same to a snapshot whose pins are kept. -/
theorem agreeOn
    (alike : IsAlike kept first second)
    (published : first.IsPublished)
    (publishedSecond : second.IsPublished)
    (areKept : ∀ id, edition.Owns id → kept id) :
    edition.snapshot.AgreeOn (.ofMemo (first.memo.seenFrom edition.start))
      (.ofMemo (second.memo.seenFrom edition.start)) where
  lookup_eq pin member := by
    simp only [InferenceState.ofMemo, Memo.lookup_seenFrom]
    cases isShared : (pin.id.shift edition.start).isShared with
    | true =>
        rw [published.noShared _ isShared, publishedSecond.noShared _ isShared]
    | false =>
        exact alike.lookup_eq _ (areKept _ ⟨isShared, pin, member, rfl⟩)
  cycles_eq := rfl
  overruns_eq := rfl

/-- A query about pins that are kept has the same answer, and leads to alike workspaces. -/
theorem ask_kept
    (alike : IsAlike kept first second)
    (published : first.IsPublished)
    (publishedSecond : second.IsPublished)
    {query : Snapshot → Inferring α}
    (isValid : (WorkspaceEvent.ask place query).IsValid first)
    (areKept : ∀ edition ∈ first.editions[place]?, ∀ id, edition.Owns id → kept id) :
    (first.ask place query).1 = (second.ask place query).1 ∧
      IsAlike kept (first.ask place query).2 (second.ask place query).2 := by
  have sameAll : (second.ask place query).2 =
      { (first.ask place query).2 with memo := (second.ask place query).2.memo } := by
    rw [ask_snd_eq second, alike.same, ask_snd_eq first]
  cases found : first.editions[place]? with
  | none =>
      have foundSecond := alike.editions_eq ▸ found
      rw [ask_of_none found, ask_of_none foundSecond]
      exact ⟨rfl, alike⟩
  | some edition =>
      have foundSecond : second.editions[place]? = some edition := alike.editions_eq ▸ found
      have isMade := published.made edition (List.mem_of_getElem? found)
      have isMadeSecond := publishedSecond.made edition (List.mem_of_getElem? foundSecond)
      have isQuery := isValid edition found
      obtain ⟨sameAnswer, agree⟩ := isQuery.respects isMade.listed _ _
        (alike.agreeOn published publishedSecond (areKept edition found))
      refine ⟨?_, sameAll, fun id isKept => ?_⟩
      · simp only [ask, found, foundSecond]
        exact congrArg some sameAnswer
      · by_cases owns : edition.Owns id
        · obtain ⟨-, pin, member, rfl⟩ := owns
          simp only [ask, found, foundSecond, Memo.lookup_replaceFrom_shift]
          exact agree.lookup_eq pin member
        · rw [lookup_ask isMade found isQuery owns, lookup_ask isMadeSecond foundSecond isQuery owns]
          exact alike.lookup_eq id isKept

end IsAlike

/-- Identities of pins that snapshots outside of a family own. -/
def IsOutside (family : Nat → Bool) (editions : List Edition) (id : PinId) : Prop :=
  ∃ place, family place = false ∧ ∃ edition ∈ editions[place]?, edition.Owns id

section Answers

variable {family leftOut places : Nat → Bool} {first second last : Workspace}
variable (areApart : ∀ place other, family place = true → family other = false →
  last.AreApart place other)
include areApart

/-- A query of a snapshot in the family makes no difference to the snapshots outside. -/
theorem IsAlike.ask_inside
    (published : first.IsPublished)
    {place : Nat}
    {query : Snapshot → Inferring α}
    (isValid : (WorkspaceEvent.ask place query).IsValid first)
    (isInside : family place = true)
    (foundLast : ∀ edition ∈ first.editions[place]?, edition ∈ last.editions[place]?) :
    IsAlike (IsOutside family last.editions) first (first.ask place query).2 := by
  refine .ask_unkept published isValid fun edition found id owns => ?_
  rintro ⟨other, isOutside, second, foundSecond, ownsSecond⟩
  exact areApart place other isInside isOutside edition (foundLast edition found) second foundSecond
    id owns ownsSecond

/-- An event leads alike workspaces to alike ones, with the same answer outside of the family. -/
theorem IsAlike.take
    (alike : IsAlike (IsOutside family last.editions) first second)
    (published : first.IsPublished)
    (publishedSecond : second.IsPublished)
    {event : WorkspaceEvent α}
    (isValid : event.IsValid first)
    (foundLast : ∀ place : Nat,
      ∀ edition ∈ first.editions[place]?, edition ∈ last.editions[place]?) :
    (event.asks family = false → (event.take first).1 = (event.take second).1) ∧
      IsAlike (IsOutside family last.editions) (event.take first).2 (event.take second).2 := by
  cases isChange : event.asks fun _ => true with
  | false =>
      exact (alike.take_change isChange isValid).imp_left fun sameAnswer _ => sameAnswer
  | true =>
      cases event with
      | ask place query =>
          have isValidSecond := alike.isValid isValid
          cases isInside : family place with
          | true =>
              refine ⟨fun isOutside => ?_, ?_⟩
              · rw [WorkspaceEvent.asks_ask, isInside] at isOutside
                cases isOutside
              · have leavesFirst := ask_inside areApart published isValid isInside (foundLast place)
                have leavesSecond := ask_inside areApart publishedSecond isValidSecond isInside
                  (alike.editions_eq ▸ foundLast place)
                exact (leavesFirst.symm.trans alike).trans leavesSecond
          | false =>
              have outcome := alike.ask_kept published publishedSecond isValid
                fun edition found id owns =>
                  ⟨place, isInside, edition, foundLast place edition found, owns⟩
              exact outcome.imp_left fun sameAnswer _ => sameAnswer
      | _ =>
          cases isChange

end Answers

section Published

variable {workspace : Workspace} {place : Nat}

end Published

end Workspace

namespace TwinSnapshots

open ConstantSource

/-! Two snapshots of one source: a type that is remembered for the first is not for the second. -/

def query (snapshot : Snapshot) : Inferring DocUnion :=
  snapshot.typeOfPin pin

def loads : List (WorkspaceEvent DocUnion) :=
  [.load [source], .load [source]]

def workspace : Workspace :=
  .after .empty loads

def history : List (WorkspaceEvent DocUnion) :=
  loads ++ [.ask 1 query, .ask 2 query]

theorem editions_workspace :
    workspace.editions =
      [⟨Library.empty.snapshot, 0⟩, ⟨.ofSources [source], 0⟩, ⟨.ofSources [source], 1⟩] :=
  rfl

theorem isValid_ask
    (place : Nat)
    (isTwin : place = 1 ∨ place = 2) :
    (WorkspaceEvent.ask place query).IsValid workspace := by
  intro edition found
  rw [editions_workspace] at found
  have isSnapshot : edition.snapshot = .ofSources [source] := by
    rcases isTwin with rfl | rfl <;>
      simp only [List.getElem?_cons_succ, List.getElem?_cons_zero, Option.mem_def,
        Option.some.injEq] at found <;>
      rw [← found]
  rw [isSnapshot]
  exact .infer (.typeOf (.inl pin_mem_pins))

/-- A query leaves the snapshots as they are, so the next one is a query as before. -/
theorem areValid :
    Workspace.AreValid history .empty :=
  ⟨trivial, trivial, isValid_ask 1 (.inl rfl), isValid_ask 2 (.inr rfl), trivial⟩

end TwinSnapshots

end TagCheck
