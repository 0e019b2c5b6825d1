import Mathlib.Data.String.Basic
import TagCheck.Proofs.Check.Reports
import TagCheck.Proofs.Outline.Location
import TagCheck.Proofs.Snapshot

namespace TagCheck

/-!
# What the strict level adds

A check on the strict level makes the passes of the normal level, and one more.  Only the further
pass finds errors, and it finds nothing else.  All findings are sorted by where they start, without
changing the order of those at one place, so that the warnings among them are in the order in which
the normal level reports them.
-/

section Sorting

variable {le : α → α → Bool} (trans : ∀ a b c, le a b → le b c → le a c)
variable (total : ∀ a b, le a b || le b a)
include trans total

/-- The first item is sorted in between the items that it is above and the others. -/
theorem mergeSort_cons_eq
    (item : α)
    (rest : List α) :
    (item :: rest).mergeSort le =
        (rest.mergeSort le).filter (fun other => !le item other) ++
          item :: (rest.mergeSort le).filter (le item) ∧
      rest.mergeSort le =
        (rest.mergeSort le).filter (fun other => !le item other) ++
          (rest.mergeSort le).filter (le item) := by
  obtain ⟨before, behind, sorted, sortedRest, notAbove⟩ := List.mergeSort_cons trans total item rest
  have pairwise := List.pairwise_mergeSort trans total (item :: rest)
  rw [sorted] at pairwise
  have above : ∀ other ∈ behind, le item other :=
    fun _ member => List.rel_of_pairwise_cons (List.pairwise_append.mp pairwise).2.1 member
  have isBefore : (before ++ behind).filter (fun other => !le item other) = before := by
    rw [List.filter_append, List.filter_eq_self.mpr notAbove,
      List.filter_eq_nil_iff.mpr fun other member => by simp [above other member], List.append_nil]
  have isBehind : (before ++ behind).filter (le item) = behind := by
    rw [List.filter_append, List.filter_eq_self.mpr above,
      List.filter_eq_nil_iff.mpr fun other member => by simpa using notAbove other member,
      List.nil_append]
  rw [sorted, sortedRest, isBefore, isBehind]
  exact ⟨rfl, rfl⟩

/-- Sorting can be done before or after some items are left out. -/
theorem filter_mergeSort
    (isKept : α → Bool)
    (items : List α) :
    (items.mergeSort le).filter isKept = (items.filter isKept).mergeSort le := by
  induction items with
  | nil =>
      simp
  | cons item rest inductionHypothesis =>
      have exchange (isMeant : α → Bool) :
          ((rest.mergeSort le).filter isMeant).filter isKept =
            ((rest.filter isKept).mergeSort le).filter isMeant := by
        rw [← inductionHypothesis, List.filter_filter, List.filter_filter]
        simp only [Bool.and_comm]
      rw [(mergeSort_cons_eq trans total item rest).1, List.filter_append,
        List.filter_cons (x := item), exchange, exchange, List.filter_cons (x := item)]
      split
      · exact (mergeSort_cons_eq trans total item _).1.symm
      · exact (mergeSort_cons_eq trans total item _).2.symm

end Sorting

namespace Problem

theorem isAtOrBefore_iff
    {a b : Problem} :
    a.isAtOrBefore b = true ↔
      a.location.filename < b.location.filename ∨
        a.location.filename = b.location.filename ∧
          a.location.span.start ≤ b.location.span.start := by
  simp [isAtOrBefore]

theorem isAtOrBefore_trans
    (a b c : Problem)
    (first : a.isAtOrBefore b = true)
    (second : b.isAtOrBefore c = true) :
    a.isAtOrBefore c = true := by
  rw [isAtOrBefore_iff] at *
  rcases first with lt | ⟨same, le⟩ <;> rcases second with otherLt | ⟨otherSame, otherLe⟩
  · exact Or.inl (lt_trans lt otherLt)
  · exact Or.inl (otherSame ▸ lt)
  · exact Or.inl (same ▸ otherLt)
  · exact Or.inr ⟨same.trans otherSame, Position.le_trans le otherLe⟩

theorem isAtOrBefore_total
    (a b : Problem) :
    (a.isAtOrBefore b || b.isAtOrBefore a) = true := by
  rw [Bool.or_eq_true, isAtOrBefore_iff, isAtOrBefore_iff]
  rcases lt_trichotomy a.location.filename b.location.filename with lt | same | gt
  · exact Or.inl (Or.inl lt)
  · rcases Position.le_total a.location.span.start b.location.span.start with le | ge
    · exact Or.inl (Or.inr ⟨same, le⟩)
    · exact Or.inr (Or.inr ⟨same.symm, ge⟩)
  · exact Or.inr (Or.inl gt)

/-- Sorting problems can be done before or after some of them are left out. -/
theorem filter_sort
    (isKept : Problem → Bool)
    (problems : List Problem) :
    (sort problems).filter isKept = sort (problems.filter isKept) :=
  filter_mergeSort isAtOrBefore_trans isAtOrBefore_total isKept problems

/-- Sorting problems that are sorted already changes nothing. -/
theorem sort_sort
    (problems : List Problem) :
    sort (sort problems) = sort problems :=
  List.mergeSort_of_pairwise
    (List.pairwise_mergeSort isAtOrBefore_trans isAtOrBefore_total problems)

/--
Problems in the order of where they start, and those that start at one place in the order in which
they were found.
-/
structure IsArrangementOf (arranged found : List Problem) : Prop where
  perm : arranged.Perm found
  ordered : arranged.Pairwise fun a b => a.location.span.start ≤ b.location.span.start
  atPlace : ∀ place,
    arranged.filter (·.location.span.start = place) = found.filter (·.location.span.start = place)

/-- Problems of one file are sorted by where they start. -/
theorem isArrangementOf_sort
    {filename : String}
    {problems : List Problem}
    (inFile : ∀ problem ∈ problems, problem.location.filename = filename) :
    IsArrangementOf (sort problems) problems where
  perm := List.mergeSort_perm problems _
  ordered := by
    have sorted := List.pairwise_mergeSort isAtOrBefore_trans isAtOrBefore_total problems
    refine sorted.imp_of_mem fun {a b} isFirst isSecond before => ?_
    have firstFile := inFile a (List.mem_mergeSort.mp isFirst)
    have secondFile := inFile b (List.mem_mergeSort.mp isSecond)
    rcases isAtOrBefore_iff.mp before with lt | ⟨-, le⟩
    · rw [firstFile, secondFile] at lt
      exact absurd lt (lt_irrefl _)
    · exact le
  atPlace place := by
    rw [filter_sort]
    refine List.mergeSort_of_pairwise (List.pairwise_iff_forall_sublist.mpr fun {a b} pair => ?_)
    have ofPair : ∀ problem ∈ [a, b],
        problem.location.filename = filename ∧ problem.location.span.start = place := by
      intro problem member
      obtain ⟨isProblem, atPlace⟩ := List.mem_filter.mp (pair.subset member)
      exact ⟨inFile problem isProblem, of_decide_eq_true atPlace⟩
    obtain ⟨firstFile, firstPlace⟩ := ofPair a (by simp)
    obtain ⟨secondFile, secondPlace⟩ := ofPair b (by simp)
    rw [isAtOrBefore_iff, firstFile, secondFile, firstPlace, secondPlace]
    exact Or.inr ⟨rfl, (Position.le_total place place).elim id id⟩

/-- All problems are of one severity, and in one file. -/
def AreOf (severity : Severity) (filename : String) (problems : List Problem) : Prop :=
  ∀ problem ∈ problems, problem.severity = severity ∧ problem.location.filename = filename

namespace AreOf

variable {severity : Severity} {filename : String}

theorem nil : AreOf severity filename [] :=
  nofun

theorem singleton
    {location : Location}
    {finding : Finding}
    (isOf : finding.severity = severity)
    (inFile : location.filename = filename) :
    AreOf severity filename [⟨location, finding⟩] := by
  intro problem member
  cases List.mem_singleton.mp member
  exact ⟨isOf, inFile⟩

theorem append
    {problems others : List Problem}
    (first : AreOf severity filename problems)
    (second : AreOf severity filename others) :
    AreOf severity filename (problems ++ others) :=
  List.forall_mem_append.mpr ⟨first, second⟩

theorem flatten
    {results : List (List Problem)}
    (each : ∀ problems ∈ results, AreOf severity filename problems) :
    AreOf severity filename results.flatten := by
  intro problem member
  obtain ⟨problems, isResult, isProblem⟩ := List.mem_flatten.mp member
  exact each problems isResult problem isProblem

theorem sort
    {problems : List Problem}
    (areOf : AreOf severity filename problems) :
    AreOf severity filename (Problem.sort problems) :=
  fun problem member => areOf problem (List.mem_mergeSort.mp member)

end AreOf

end Problem

namespace CallCheck

variable {check : CallCheck}

/-- What the check of calls finds is an error in the file that is checked. -/
theorem FindsOnly.areErrors
    {nodes : List SyntaxNode}
    {problems : List Problem}
    (findsOnly : check.FindsOnly nodes problems) :
    Problem.AreOf .error check.outline.filename problems := by
  intro problem member
  cases findsOnly problem member with
  | call | argument =>
      exact ⟨rfl, rfl⟩

end CallCheck

namespace Snapshot

variable {snapshot : Snapshot}

theorem filename_of_parsedOutline?
    {filename : String}
    {outline : Outline}
    (found : snapshot.parsedOutline? filename = some outline) :
    outline.filename = filename :=
  filename_of_outline? (Option.eq_some_of_filter_eq_some found)

/-- The methods that a file declares are located in it. -/
theorem filename_of_mem_methodPins
    (built : snapshot.IsBuilt)
    {filename : String}
    {outline : Outline}
    (found : snapshot.parsedOutline? filename = some outline)
    {pin : Pin}
    (member : pin ∈ outline.methodPins) :
    pin.location.filename = filename := by
  rw [← filename_of_parsedOutline? found]
  cases built with
  | ofOutlines start sources =>
      have published := mem_outlines_of_outline? (Option.eq_some_of_filter_eq_some found)
      obtain ⟨⟨source, place⟩, -, rfl⟩ := List.mem_map.mp published
      have located := Survey.isLocatedIn_ofProgram ⟨source.filename, place + 1⟩ source.root
      rcases List.mem_cons.mp (List.mem_filter.mp member).1 with rfl | declared
      · rfl
      · exact located.pins pin (List.mem_reverse.mp declared)
  | ofPins start sources =>
      cases found

/-- The check of a return type finds only warnings at the method. -/
theorem checkReturnTag_areOf
    (pin : Pin) :
    (snapshot.checkReturnTag pin).Always
      (Problem.AreOf .warning pin.location.filename) := by
  unfold checkReturnTag
  split
  · exact .bind (.trivial _) fun _ _ => .pure (.singleton rfl rfl)
  · refine .pure ?_
    split
    · exact .nil
    · exact .singleton rfl rfl

/-- The check of a return value finds only errors at the method. -/
theorem checkReturnValue_areOf
    (pin : Pin) :
    (snapshot.checkReturnValue pin).Always (Problem.AreOf .error pin.location.filename) := by
  refine (snapshot.checkReturnValue_finds pin).mono fun problems findsOnly problem member => ?_
  obtain ⟨documented, inferred, rfl⟩ := findsOnly problem member
  exact ⟨rfl, rfl⟩

/-- The documentation of a method's parameters is only warned about, at the method. -/
theorem paramProblems_areOf
    (pin : Pin) :
    Problem.AreOf .warning pin.location.filename
      (unknownParamProblems pin ++ pin.parameters.flatMap (snapshot.checkParamTag pin)) := by
  refine .append ?_ ?_
  · unfold unknownParamProblems
    split
    · exact .nil
    · intro problem member
      obtain ⟨tag, -, warned⟩ := List.mem_filterMap.mp member
      split at warned
      · split at warned
        · cases warned
        · cases warned
          exact ⟨rfl, rfl⟩
      · cases warned
  · intro problem member
    obtain ⟨parameter, -, warned⟩ := List.mem_flatMap.mp member
    unfold checkParamTag at warned
    split at warned
    · cases warned
    · split at warned
      · cases List.mem_singleton.mp warned
        exact ⟨rfl, rfl⟩
      · split at warned
        · cases warned
        · cases List.mem_singleton.mp warned
          exact ⟨rfl, rfl⟩

section Passes

variable (built : snapshot.IsBuilt)
include built

/-- The passes over documentation find only warnings in the file. -/
theorem areOf_documentation
    (filename : String)
    (state : InferenceState) :
    Problem.AreOf .warning filename
      (((snapshot.returnTypeProblems filename).run state).1 ++
        snapshot.paramTypeProblems filename) := by
  refine .append ?_ ?_
  · refine Inquiry.Always.follow ?_ _ state
    unfold checkReturnTypes
    split
    · exact .pure .nil
    · next outline found =>
        have ofPin : ∀ pin ∈ outline.methodPins,
            (snapshot.checkReturnTag pin).Always (Problem.AreOf .warning filename) := by
          intro pin member
          rw [← filename_of_mem_methodPins built found member]
          exact checkReturnTag_areOf pin
        exact .bind (.mapM fun pin member => ofPin pin (List.mem_filter.mp member).1)
          fun _ each => .pure (.flatten each)
  · unfold paramTypeProblems
    split
    · exact .nil
    · next outline found =>
        intro problem member
        obtain ⟨pin, isMethod, ofPin⟩ := List.mem_flatMap.mp member
        rw [← filename_of_mem_methodPins built found (List.mem_filter.mp isMethod).1]
        exact paramProblems_areOf pin problem ofPin

/-- The strict pass finds only errors in the file. -/
theorem areOf_strictTypeProblems
    (filename : String)
    (state : InferenceState) :
    Problem.AreOf .error filename ((snapshot.strictTypeProblems filename).run state).1 := by
  refine Inquiry.Always.follow ?_ _ state
  unfold checkStrictly
  split
  · exact .pure .nil
  · next outline found =>
      have ofPin : ∀ pin ∈ outline.methodPins,
          (snapshot.checkReturnValue pin).Always (Problem.AreOf .error filename) := by
        intro pin member
        rw [← filename_of_mem_methodPins built found member]
        exact checkReturnValue_areOf pin
      have ofCalls : (CallCheck.checkNode ⟨snapshot, outline⟩ outline.source.root).Always
          (Problem.AreOf .error filename) := by
        rw [← filename_of_parsedOutline? found]
        exact (CallCheck.checkNode_findsOnly outline.source.root).mono fun _ found =>
          found.areErrors
      exact .bind (.mapM fun pin member => ofPin pin (List.mem_filter.mp member).1)
        fun _ each => .bind ofCalls fun _ inTree =>
          .pure (.sort (.append (.flatten each) inTree))

end Passes

/-- A check of the documentation sorts what the passes over documentation find. -/
theorem run_problems_normal
    (filename : String)
    (state : InferenceState) :
    (snapshot.problems filename .normal).run state =
      let returns := (snapshot.returnTypeProblems filename).run state
      (Problem.sort (returns.1 ++ snapshot.paramTypeProblems filename), returns.2) := by
  simp only [problems, infer, checkFile, Inquiry.follow_bind]
  rfl

/-- A strict check sorts what all passes find; the strict pass goes on with what is remembered. -/
theorem run_problems_strict
    (filename : String)
    (state : InferenceState) :
    (snapshot.problems filename .strict).run state =
      let returns := (snapshot.returnTypeProblems filename).run state
      let strict := (snapshot.strictTypeProblems filename).run returns.2
      (Problem.sort (returns.1 ++ snapshot.paramTypeProblems filename ++ strict.1), strict.2) := by
  simp only [problems, infer, checkFile, Inquiry.follow_bind]
  rfl

/-- What the strict pass finds is sorted already. -/
theorem sort_strictTypeProblems
    (filename : String)
    (state : InferenceState) :
    Problem.sort ((snapshot.strictTypeProblems filename).run state).1 =
      ((snapshot.strictTypeProblems filename).run state).1 := by
  have areSorted : (snapshot.checkStrictly filename).Always
      fun problems => Problem.sort problems = problems := by
    unfold checkStrictly
    split
    · exact .pure (List.mergeSort_nil)
    · exact .bind (.trivial _) fun _ _ => .bind (.trivial _) fun _ _ =>
        .pure (Problem.sort_sort _)
  exact areSorted.follow _ state

/--
From every memory, the warnings of a strict check are what a normal check reports, and its other
problems are the errors that the strict pass finds behind the passes over documentation; both checks
report what their passes find in the order of where it starts.
-/
theorem problems_strict
    (built : snapshot.IsBuilt)
    (filename : String)
    (state : InferenceState) :
    let returns := (snapshot.returnTypeProblems filename).run state
    let documentation := returns.1 ++ snapshot.paramTypeProblems filename
    let errors := ((snapshot.strictTypeProblems filename).run returns.2).1
    let normal := ((snapshot.problems filename .normal).run state).1
    let strict := ((snapshot.problems filename .strict).run state).1
    strict.filter (·.severity = .warning) = normal ∧
      strict.filter (·.severity ≠ .warning) = errors ∧
      (∀ problem ∈ errors, problem.severity = .error) ∧
      Problem.IsArrangementOf normal documentation ∧
      Problem.IsArrangementOf strict (documentation ++ errors) := by
  intro returns documentation errors normal strict
  have warnings : Problem.AreOf .warning filename documentation :=
    areOf_documentation built filename state
  have areErrors : Problem.AreOf .error filename errors :=
    areOf_strictTypeProblems built filename returns.2
  have isNormal : normal = Problem.sort documentation :=
    congrArg Prod.fst (run_problems_normal filename state)
  have isStrict : strict = Problem.sort (documentation ++ errors) :=
    congrArg Prod.fst (run_problems_strict filename state)
  have onlyWarnings : (documentation ++ errors).filter (·.severity = .warning) = documentation := by
    rw [List.filter_append, List.filter_eq_self.mpr fun problem member => by
        simp [(warnings problem member).1],
      List.filter_eq_nil_iff.mpr fun problem member => by simp [(areErrors problem member).1],
      List.append_nil]
  have onlyErrors : (documentation ++ errors).filter (·.severity ≠ .warning) = errors := by
    rw [List.filter_append, List.filter_eq_nil_iff.mpr fun problem member => by
        simp [(warnings problem member).1],
      List.filter_eq_self.mpr fun problem member => by simp [(areErrors problem member).1],
      List.nil_append]
  refine ⟨?_, ?_, fun problem member => (areErrors problem member).1, ?_, ?_⟩
  · rw [isStrict, Problem.filter_sort, onlyWarnings, isNormal]
  · rw [isStrict, Problem.filter_sort, onlyErrors]
    exact sort_strictTypeProblems filename returns.2
  · rw [isNormal]
    exact Problem.isArrangementOf_sort fun problem member => (warnings problem member).2
  · rw [isStrict]
    refine @Problem.isArrangementOf_sort filename _ fun problem member => ?_
    rcases List.mem_append.mp member with isWarning | isError
    · exact (warnings problem isWarning).2
    · exact (areErrors problem isError).2

end Snapshot

namespace UndocumentedCall

open Stub.Layout

/-! An undocumented method that calls a method which is not declared. -/

def source : Source where
  filename := "foo.rb"
  root :=
    branch .program none ⟨0, 0⟩ ⟨5, 0⟩
      [branch .classDefinition none ⟨0, 0⟩ ⟨4, 3⟩
        [leaf .constant (some .name) ⟨0, 6⟩ "Foo",
          branch .method none ⟨1, 2⟩ ⟨3, 5⟩
            [leaf .identifier (some .name) ⟨1, 6⟩ "bar", leaf .identifier none ⟨2, 4⟩ "zork"]]]
  isParsed := true

def snapshot : Snapshot :=
  .ofSources [source]

/-- The missing documentation of the method. -/
def warning : Problem :=
  ⟨⟨"foo.rb", ⟨⟨1, 2⟩, ⟨3, 5⟩⟩⟩, .undefinedReturn "Foo#bar" none⟩

/-- The call that reaches no method. -/
def error : Problem :=
  ⟨⟨"foo.rb", ⟨⟨2, 4⟩, ⟨2, 8⟩⟩⟩, .unresolvedCall "zork"⟩

/-- What is known behind the pass over return types. -/
def remembered : InferenceState :=
  ((snapshot.returnTypeProblems "foo.rb").run (.ofMemo [])).2

theorem returnTypeProblems_foo :
    ((snapshot.returnTypeProblems "foo.rb").run (.ofMemo [])).1 = [warning] ∧
      snapshot.paramTypeProblems "foo.rb" = [] := by
  rw [snapshot, Snapshot.ofSources_eq_ofList]
  decide +kernel

theorem strictTypeProblems_foo :
    ((snapshot.strictTypeProblems "foo.rb").run remembered).1 = [error] := by
  rw [remembered, snapshot, Snapshot.ofSources_eq_ofList]
  decide +kernel

/-- The strict level adds the call to what the normal level reports. -/
theorem problems_strict_foo :
    snapshot.IsBuilt ∧
      ((snapshot.problems "foo.rb" .strict).run (.ofMemo [])).1 = [warning, error] ∧
      ((snapshot.problems "foo.rb" .normal).run (.ofMemo [])).1 = [warning] := by
  have built : snapshot.IsBuilt := .ofSources [source]
  have isStrict :
      ((snapshot.problems "foo.rb" .strict).run (.ofMemo [])).1 = [warning, error] := by
    have sorted : Problem.sort [warning, error] = [warning, error] :=
      List.mergeSort_of_pairwise (by decide)
    rw [Snapshot.run_problems_strict]
    dsimp only
    rw [returnTypeProblems_foo.1, returnTypeProblems_foo.2, ← remembered, strictTypeProblems_foo]
    exact sorted
  have sameWarnings := (Snapshot.problems_strict built "foo.rb" (.ofMemo [])).1
  refine ⟨built, isStrict, ?_⟩
  rw [← sameWarnings, isStrict]
  decide

end UndocumentedCall

end TagCheck
