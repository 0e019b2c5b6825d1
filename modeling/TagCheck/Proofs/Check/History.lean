import TagCheck.Workspace
import TagCheck.Proofs.Check.Asking
import TagCheck.Proofs.Inference.Finding

namespace TagCheck

/-!
# Histories of questions

A snapshot is asked questions in any order: for types of pins, for what is written inside a pin, and
for the problems of its files.  Whatever was asked before, the memory that is left is exact, and a
type in it is the one that an inference from scratch finds without cutting anything off.
-/

/-- A question to a snapshot. -/
inductive Question where
  | typeOf (pin : Pin)
  | expression (node : SyntaxNode) (context : Pin)
  | signature (text : String) (context : Pin) (locals : List Pin)
  | signaturePins (text : String) (context : Pin) (locals : List Pin)
  | returnTypeProblems (filename : String)
  | strictTypeProblems (filename : String)
  | problems (filename : String) (level : CheckLevel)

namespace Question

/-- What is asked about belongs to a snapshot: the pin, or the locals that come with a signature. -/
def IsAbout (snapshot : Snapshot) : Question → Prop
  | .typeOf pin => snapshot.Knows pin
  | .signature _ _ locals | .signaturePins _ _ locals => ∀ pin ∈ locals, snapshot.Knows pin
  | .expression .. | .returnTypeProblems _ | .strictTypeProblems _ | .problems .. => True

/-- Ask a question, whatever the answer is. -/
def ask (snapshot : Snapshot) : Question → Inferring Unit
  | .typeOf pin => discard (snapshot.typeOfPin pin)
  | .expression node context => discard (snapshot.resolveNode node context)
  | .signature text context locals => discard (snapshot.resolve text context locals)
  | .signaturePins text context locals => discard (snapshot.signaturePins text context locals)
  | .returnTypeProblems filename => discard (snapshot.returnTypeProblems filename)
  | .strictTypeProblems filename => discard (snapshot.strictTypeProblems filename)
  | .problems filename level => discard (snapshot.problems filename level)

end Question

/-- Ask several questions in one go. -/
def Snapshot.askAll (questions : List Question) (snapshot : Snapshot) : Inferring Unit :=
  questions.forM (·.ask snapshot)

/-- A snapshot after a history of questions, several in each go, the earliest first. -/
def Study.after (snapshot : Snapshot) (history : List (List Question)) : Study :=
  history.foldl (fun study questions => (study.ask (Snapshot.askAll questions)).2) (.fresh snapshot)

/-- All questions of a history are about a snapshot. -/
def AreAbout (snapshot : Snapshot) (history : List (List Question)) : Prop :=
  ∀ questions ∈ history, ∀ question ∈ questions, question.IsAbout snapshot

namespace Snapshot

variable {snapshot : Snapshot}
variable (built : snapshot.IsBuilt)
include built

/-- An inquiry that is carried out leaves an exact memory. -/
theorem advances_infer
    {inquiry : Inquiry α}
    (asks : inquiry.AsksOnly snapshot.Knows)
    {before : InferenceState}
    (isExact : snapshot.IsExact before.memo) :
    snapshot.Advances inquiry before ((snapshot.infer inquiry).run before).1
      ((snapshot.infer inquiry).run before).2 :=
  (isAdvancing_typeOfPinWithin built maxInferenceDepth []).follow built asks isExact

/-- A question leaves an exact memory. -/
theorem isExact_ask
    {question : Question}
    (about : question.IsAbout snapshot)
    {before : InferenceState}
    (isExact : snapshot.IsExact before.memo) :
    snapshot.IsExact ((question.ask snapshot).run before).2.memo := by
  cases question with
  | typeOf pin =>
      exact (advances_infer built (.typeOf about) isExact).isExact
  | expression node context =>
      exact (advances_infer built (evaluateIn_asksOnly built.listed context node) isExact).isExact
  | signature text context locals =>
      exact (advances_infer built
        (evaluateSignature_asksOnly built.listed text context about) isExact).isExact
  | signaturePins text context locals =>
      exact (advances_infer built
        (pinsOfSignature_asksOnly built.listed text context about) isExact).isExact
  | returnTypeProblems filename =>
      exact (advances_infer built
        (checkReturnTypes_asksOnly built.indexed filename) isExact).isExact
  | strictTypeProblems filename =>
      exact (advances_infer built (checkStrictly_asksOnly built.listed filename) isExact).isExact
  | problems filename level =>
      exact (advances_infer built
        (checkFile_asksOnly built.listed built.indexed filename level) isExact).isExact

/-- Several questions leave an exact memory. -/
theorem isExact_askAll
    {questions : List Question}
    (about : ∀ question ∈ questions, question.IsAbout snapshot)
    {before : InferenceState}
    (isExact : snapshot.IsExact before.memo) :
    snapshot.IsExact ((snapshot.askAll questions).run before).2.memo := by
  induction questions generalizing before with
  | nil =>
      exact isExact
  | cons question rest inductionHypothesis =>
      have first := isExact_ask built (about question (by simp)) isExact
      exact inductionHypothesis (fun other member => about other (by simp [member])) first

/-- Every history of questions leaves the snapshot as it is, and an exact memory. -/
theorem isExact_after
    {history : List (List Question)}
    (about : AreAbout snapshot history) :
    (Study.after snapshot history).snapshot = snapshot ∧
      snapshot.IsExact (Study.after snapshot history).memo := by
  refine List.foldlRecOn history _
    (motive := fun study : Study => study.snapshot = snapshot ∧ snapshot.IsExact study.memo)
    ⟨rfl, isExact_nil snapshot⟩ ?_
  rintro ⟨_, memo⟩ ⟨rfl, isExact⟩ questions member
  exact ⟨rfl, isExact_askAll built (about questions member) isExact⟩

/--
Whatever was asked before, a type that is remembered for a pin is exact: with nothing remembered, and
with enough nested inferences allowed, the inference of the pin cuts nothing off and finds the type.
-/
theorem exists_uncut_run_of_remembered
    {history : List (List Question)}
    (about : AreAbout snapshot history)
    {pin : Pin}
    (member : pin ∈ snapshot.pins)
    {type : DocUnion}
    (remembered : (Study.after snapshot history).remembered? pin = some type) :
    ∃ limit memo,
      (snapshot.typeOfPinWithin limit [] pin).run (.ofMemo []) = (type, .ofMemo memo) := by
  have isExact := (isExact_after built about).2
  obtain ⟨depth, settles⟩ := isExact.settled pin member type remembered
  have fromScratch : snapshot.IsExact (InferenceState.ofMemo []).memo :=
    isExact_nil snapshot
  rcases findsOrOverruns_typeOfPinWithin built depth (isApart_nil snapshot depth) (.inl member)
      fromScratch settles with finds | ⟨tooDeep, -⟩
  · generalize ran : (snapshot.typeOfPinWithin depth [] pin).run (.ofMemo []) = outcome at finds
    obtain ⟨found, ⟨memo, cycles, overruns⟩⟩ := outcome
    obtain ⟨rfl, rfl, rfl, -⟩ := finds
    exact ⟨depth, memo, ran⟩
  · exact absurd tooDeep (Nat.lt_irrefl depth)

end Snapshot

namespace ConstantSource

open Stub.Layout

/-- The value `'a'` that is assigned to a constant. -/
def value : SyntaxNode :=
  leaf .string (some .right) ⟨0, 4⟩ "'a'"

/-- The source `X = 'a'`. -/
def source : Source where
  filename := "constant.rb"
  root :=
    branch .program none ⟨0, 0⟩ ⟨1, 0⟩
      [branch .assignment none ⟨0, 0⟩ value.span.stop
        [leaf .constant (some .left) ⟨0, 0⟩ "X", value]]
  isParsed := true

/-- The pin of the constant. -/
def pin : Pin :=
  .declare ⟨1, 1⟩ "X" "X" .root ⟨"constant.rb", ⟨⟨0, 0⟩, value.span.stop⟩⟩ none
    (.constant (some value))

/-- The constant is declared. -/
theorem pin_mem_pins :
    pin ∈ (Snapshot.ofSources [source]).pins := by
  have declared : pin ∈ (Outline.ofSource 1 source).pins :=
    List.mem_cons_of_mem _ (List.mem_singleton.mpr rfl)
  have indexed :=
    (Snapshot.IsBuilt.ofSources [source]).indexed _ (List.mem_singleton.mpr rfl) pin declared
  exact List.mem_append_left _ (List.mem_flatMap.mpr ⟨pin, indexed, List.mem_cons_self⟩)

/-- A string is remembered for the constant, and found by an inference from scratch. -/
theorem exists_uncut_run_of_pin :
    (Study.after (.ofSources [source]) [[.typeOf pin]]).remembered? pin = some (.named "String") ∧
      ∃ limit memo,
        ((Snapshot.ofSources [source]).typeOfPinWithin limit [] pin).run (.ofMemo []) =
          (.named "String", .ofMemo memo) := by
  have remembered :
      (Study.after (.ofSources [source]) [[.typeOf pin]]).remembered? pin =
        some (.named "String") := by
    decide +kernel
  have about : AreAbout (.ofSources [source]) [[.typeOf pin]] := by
    intro questions member question asked
    cases List.mem_singleton.mp member
    cases List.mem_singleton.mp asked
    exact .inl pin_mem_pins
  exact
    ⟨remembered,
      Snapshot.exists_uncut_run_of_remembered (.ofSources [source]) about pin_mem_pins remembered⟩

end ConstantSource

end TagCheck
