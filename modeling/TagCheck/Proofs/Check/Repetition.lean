import TagCheck.Proofs.Check.History
import TagCheck.Proofs.Inference.Comparison

namespace TagCheck

/-!
# Checks that are repeated

A check that is never nested too deeply finds the same problems whatever was asked before.  The
limit on nested inferences counts only pins that are opened, so a check that exceeds it may find
more once some of the types are remembered.
-/

/-- Problems that are sorted alike are the same problems. -/
theorem Problem.perm_of_sort_eq
    {first second : List Problem}
    (same : Problem.sort first = Problem.sort second) :
    first.Perm second := by
  have firstSorted : (Problem.sort first).Perm first :=
    List.mergeSort_perm first _
  have secondSorted : (Problem.sort second).Perm second :=
    List.mergeSort_perm second _
  rw [same] at firstSorted
  exact firstSorted.symm.trans secondSorted

namespace Snapshot

variable {snapshot : Snapshot}

/--
If a check from scratch exceeds no limit, it finds the same problems after every history of
questions.
-/
theorem problems_ask_after
    (built : snapshot.IsBuilt)
    {history : List (List Question)}
    (about : AreAbout snapshot history)
    (filename : String)
    (level : CheckLevel)
    (noOverrun : ((snapshot.problems filename level).run (.ofMemo [])).2.overruns = 0) :
    ((Study.after snapshot history).ask (·.problems filename level)).1 =
      ((Study.fresh snapshot).ask (·.problems filename level)).1 := by
  obtain ⟨sameSnapshot, isExact⟩ := isExact_after built about
  have asks := checkFile_asksOnly built.listed built.indexed filename level
  have same := infer_eq_of_noOverrun built asks isExact noOverrun
  simp only [Study.ask, sameSnapshot]
  exact same

/-- A check of the documentation sorts the problems of return types and parameters. -/
theorem problems_ask_normal
    (study : Study)
    (filename : String) :
    (study.ask (·.problems filename .normal)).1 =
      Problem.sort
        ((study.ask (·.returnTypeProblems filename)).1 ++
          study.snapshot.paramTypeProblems filename) := by
  simp only [Study.ask, Snapshot.problems, Snapshot.infer, Snapshot.checkFile, Inquiry.follow_bind]
  rfl

end Snapshot

namespace ChainSource

open Stub.Layout

/-- The name of an instance variable by its number. -/
def variableName (number : Nat) : String :=
  "@x" ++ toString number

/-- The assignment of a string to the first variable, and of each variable to the next one. -/
def assignment (line number : Nat) : SyntaxNode :=
  let left := leaf .instanceVariable (some .left) ⟨line, 4⟩ (variableName number)
  let place := behind left.span.stop " = "
  let right :=
    match number with
    | 0 => leaf .string (some .right) place "'a'"
    | previous + 1 => leaf .instanceVariable (some .right) place (variableName previous)
  branch .assignment none left.span.start right.span.stop [left, right]

/-- A class with a method that returns the last of several variables, and one that fills them. -/
def source (last : Nat) : Source where
  filename := "chain.rb"
  root :=
    branch .program none ⟨0, 0⟩ ⟨last + 8, 0⟩
      [branch .classDefinition none ⟨0, 0⟩ ⟨last + 7, 3⟩
        [leaf .constant (some .name) ⟨0, 6⟩ "C",
          branch .method none ⟨1, 2⟩ ⟨3, 5⟩
            [leaf .identifier (some .name) ⟨1, 6⟩ "last",
              leaf .instanceVariable none ⟨2, 4⟩ (variableName last)],
          branch .method none ⟨4, 2⟩ ⟨last + 6, 5⟩
            (leaf .identifier (some .name) ⟨4, 6⟩ "fill" ::
              (List.range (last + 1)).map fun number => assignment (number + 5) number)]]
  isParsed := true

/-- The snapshot of the class alone. -/
def snapshot (last : Nat) : Snapshot :=
  .ofSources [source last]

/-- The snapshot is published for its source. -/
theorem isBuilt_snapshot
    (last : Nat) :
    (snapshot last).IsBuilt :=
  .ofSources [source last]

/-- The types that a check of the return types suggests. -/
def suggestions (study : Study) : List (Option String) :=
  (study.ask (·.returnTypeProblems "chain.rb")).1.map (·.suggestion?)

/-- A history of one check. -/
def checkedOnce : List (List Question) :=
  [[.problems "chain.rb" .normal]]

/-- A check is about every snapshot. -/
theorem areAbout_checkedOnce
    (last : Nat) :
    AreAbout (snapshot last) checkedOnce := by
  intro questions member question asked
  cases List.mem_singleton.mp member
  cases List.mem_singleton.mp asked
  exact trivial

/-- Checking a class with two variables twice in a row, both checks find the same. -/
theorem problems_ask_twice_eq :
    ((snapshot 1).problems "chain.rb" .normal |>.run (.ofMemo [])).2.overruns = 0 ∧
      ((Study.after (snapshot 1) checkedOnce).ask (·.problems "chain.rb" .normal)).1 =
        ((Study.fresh (snapshot 1)).ask (·.problems "chain.rb" .normal)).1 := by
  have noOverrun :
      ((snapshot 1).problems "chain.rb" .normal |>.run (.ofMemo [])).2.overruns = 0 := by
    rw [snapshot, Snapshot.ofSources_eq_ofList]
    decide +kernel
  exact
    ⟨noOverrun,
      Snapshot.problems_ask_after (isBuilt_snapshot 1) (areAbout_checkedOnce 1) "chain.rb" .normal
        noOverrun⟩

/-- With a chain of 24 variables, the type of the last one is not found at first. -/
theorem suggestions_fresh :
    suggestions (.fresh (snapshot 23)) = [none, some "String"] := by
  rw [snapshot, Snapshot.ofSources_eq_ofList]
  decide +kernel

/-- Once the variables are remembered, the type is found. -/
theorem suggestions_after :
    suggestions (.after (snapshot 23) checkedOnce) = [some "String", some "String"] := by
  rw [snapshot, Snapshot.ofSources_eq_ofList]
  decide +kernel

/-- Checking a class with 24 variables twice in a row, the second check suggests one type more. -/
theorem problems_ask_twice_ne :
    AreAbout (snapshot 23) checkedOnce ∧
      ((Study.after (snapshot 23) checkedOnce).ask (·.problems "chain.rb" .normal)).1 ≠
        ((Study.fresh (snapshot 23)).ask (·.problems "chain.rb" .normal)).1 := by
  have about := areAbout_checkedOnce 23
  have sameSnapshot : (Study.after (snapshot 23) checkedOnce).snapshot = snapshot 23 :=
    (Snapshot.isExact_after (isBuilt_snapshot 23) about).1
  refine ⟨about, fun same => ?_⟩
  rw [Snapshot.problems_ask_normal, Snapshot.problems_ask_normal, sameSnapshot] at same
  have sameReturns := (List.perm_append_right_iff _).mp (Problem.perm_of_sort_eq same)
  have sameSuggestions := sameReturns.map (·.suggestion?)
  have afterSuggestions := suggestions_after
  have freshSuggestions := suggestions_fresh
  unfold suggestions at afterSuggestions freshSuggestions
  rw [afterSuggestions, freshSuggestions] at sameSuggestions
  exact absurd sameSuggestions (by decide)

end ChainSource

end TagCheck
