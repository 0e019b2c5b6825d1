import TagCheck.CommandLine.Run
import TagCheck.Proofs.Outline.TopLevel
import TagCheck.Proofs.Snapshot

namespace TagCheck

/-!
# Probes of the top level

A probe without a line is made at the end of the last line of a text.  It asks about the top level
unless a definition or a block reaches up to there.
-/

/-- The only source of a snapshot is found by its name. -/
theorem Snapshot.outline?_ofSources_singleton
    (source : Source) :
    (Snapshot.ofSources [source]).outline? source.filename = some (.ofSource 1 source) := by
  simp [Snapshot.outline?, Snapshot.ofSources, Snapshot.ofOutlines, Snapshot.outlinesOf,
    Outline.filename, Outline.ofSource]

namespace CommandLine

/-- What a signature means in a source alone, with a context and locals. -/
def answerFor (source : Source) (signature : String) (context : Pin) (locals : List Pin) : Answer :=
  let study := Study.fresh (Snapshot.ofSources [source])
  let (inference, _) := study.ask fun snapshot => snapshot.resolve signature context locals
  ⟨false, renderInference inference⟩

/-- A file that can be read is asked at the end of its text. -/
theorem probeFile_of_readSource
    {project : Project}
    {file text : String}
    {source : Source}
    (signature : String)
    (found : readSource project file = .ok (text, source)) :
    probeFile project file signature none =
      .ok (answerFor source signature ((Outline.ofSource 1 source).closureAt (endOf text))
        ((Outline.ofSource 1 source).localsAt (endOf text))) := by
  have outlineOf := Snapshot.outline?_ofSources_singleton source
  have published : (Library.ofSources [source]).snapshot = .ofSources [source] := rfl
  unfold probeFile
  simp only [found, Except.mapError, bind, Except.bind, probePosition?, Study.ask, Study.fresh,
    published, outlineOf]
  rfl

/--
Without a line, every file that can be read is answered for, with what the signature means in the
context and with the locals at the end of its text.  These are the program's own pin and the locals
of the top level exactly if what is around the end of the text leaves the top level.
-/
theorem probeFile_none
    {project : Project}
    {file text : String}
    {source : Source}
    (signature : String)
    (found : readSource project file = .ok (text, source))
    (nested : source.root.IsNestedBy SyntaxNode.EndsBy) :
    probeFile project file signature none =
        .ok (answerFor source signature ((Outline.ofSource 1 source).closureAt (endOf text))
          ((Outline.ofSource 1 source).localsAt (endOf text))) ∧
      ((Outline.ofSource 1 source).SeesTopLevel (endOf text) ↔
        (Outline.ofSource 1 source).LeavesTopLevel (endOf text)) :=
  ⟨probeFile_of_readSource signature found, Outline.seesTopLevel_iff 1 nested⟩

end CommandLine

namespace TrailingClass

open Stub.Layout CommandLine

/-- The assignment `x = 1`, a class behind it, and what follows the class. -/
def text (behind : String) : String :=
  "x = 1\nclass Foo\nend\n" ++ behind

def tree (behind : String) (stop : Position) : GrammarTree where
  code := text behind
  root := ⟨"program", true, none, ⟨⟨0, 0⟩, stop⟩,
    [⟨"assignment", true, none, ⟨⟨0, 0⟩, ⟨0, 5⟩⟩,
      [⟨"identifier", true, some "left", ⟨⟨0, 0⟩, ⟨0, 1⟩⟩, []⟩,
        ⟨"integer", true, some "right", ⟨⟨0, 4⟩, ⟨0, 5⟩⟩, []⟩]⟩,
      ⟨"class", true, none, ⟨⟨1, 0⟩, ⟨2, 3⟩⟩,
        [⟨"constant", true, some "name", ⟨⟨1, 6⟩, ⟨1, 9⟩⟩, []⟩]⟩]⟩
  hasError := false

def project (behind : String) (stop : Position) : Project where
  files := [⟨["foo.rb"], .source (tree behind stop)⟩]

/-- The value of the assignment. -/
def value : SyntaxNode :=
  leaf .integer (some .right) ⟨0, 4⟩ "1"

/-- The assignment. -/
def assignment : SyntaxNode :=
  branch .assignment none ⟨0, 0⟩ ⟨0, 5⟩ [leaf .identifier (some .left) ⟨0, 0⟩ "x", value]

/-- The source as it is read. -/
def source (stop : Position) : Source where
  filename := "foo.rb"
  root := branch .program none ⟨0, 0⟩ stop
    [assignment,
      branch .classDefinition none ⟨1, 0⟩ ⟨2, 3⟩ [leaf .constant (some .name) ⟨1, 6⟩ "Foo"]]
  isParsed := true

/-- The local of the program. -/
def pin (stop : Position) : Pin :=
  .declare ⟨1, 1⟩ "x" "x" .root ⟨"foo.rb", assignment.span⟩ none
    (.localVariable (some value) ⟨⟨⟨0, 0⟩, stop⟩, ⟨⟨0, 0⟩, stop⟩, ⟨0, 5⟩⟩)

set_option maxRecDepth 10000 in
theorem readSource_class :
    readSource (project "" ⟨3, 0⟩) "foo.rb" = .ok (text "", source ⟨3, 0⟩) := by
  have asRead : .ofGrammar "foo.rb" (tree "" ⟨3, 0⟩) = source ⟨3, 0⟩ := by
    rfl
  rw [← asRead]
  rfl

set_option maxRecDepth 10000 in
theorem readSource_blankLine :
    readSource (project "\n" ⟨4, 0⟩) "foo.rb" = .ok (text "\n", source ⟨4, 0⟩) := by
  have asRead : .ofGrammar "foo.rb" (tree "\n" ⟨4, 0⟩) = source ⟨4, 0⟩ := by
    rfl
  rw [← asRead]
  rfl

theorem endOf_class : endOf (text "") = ⟨2, 3⟩ := by
  decide +kernel

theorem endOf_blankLine : endOf (text "\n") = ⟨3, 0⟩ := by
  decide +kernel

theorem locals_eq
    (stop : Position) :
    (Outline.ofSource 1 (source stop)).locals = [pin stop] := by
  rfl

/-- The local is one of the top level. -/
theorem bindsAtTop_pin
    (stop : Position) :
    (source stop).root.BindsAtTop (pin stop) := by
  have walks : (source stop).root.WalksIn _ _ _ assignment :=
    .statement List.mem_cons_self
  have binds := SyntaxNode.BindsIn.intro walks (List.mem_singleton.mpr rfl)
    (rfl : Binding.ofPin? (pin stop) = _)
  exact binds

/-- With a blank line behind the class, the local is found. -/
theorem probeFile_blankLine :
    probeFile (project "\n" ⟨4, 0⟩) "foo.rb" "x" none =
      .ok (answerFor (source ⟨4, 0⟩) "x" (Outline.ofSource 1 (source ⟨4, 0⟩)).rootPin
        ((Outline.ofSource 1 (source ⟨4, 0⟩)).topLocalsAt ⟨3, 0⟩)) := by
  obtain ⟨answered, sees_iff⟩ := probeFile_none "x" readSource_blankLine (by decide)
  rw [endOf_blankLine] at answered sees_iff
  have leaves : (Outline.ofSource 1 (source ⟨4, 0⟩)).LeavesTopLevel ⟨3, 0⟩ :=
    Outline.leavesTopLevel_of_forall_not_contains 1 (by decide) (by decide)
  obtain ⟨context, locals⟩ := sees_iff.mpr leaves
  rw [answered, context, locals]

/-- Right behind the class, the local of the program is not found. -/
theorem probeFile_class_ne :
    ¬∀ (project : Project) (file signature text : String) (source : Source),
      readSource project file = .ok (text, source) →
        source.root.IsNestedBy SyntaxNode.EndsBefore → source.root.IsProgram →
          endOf text ≤ source.root.span.stop →
            probeFile project file signature none =
              .ok (answerFor source signature (Outline.ofSource 1 source).rootPin
                ((Outline.ofSource 1 source).topLocalsAt (endOf text))) := by
  intro atTop
  have same := atTop (project "" ⟨3, 0⟩) "foo.rb" "x" _ _ readSource_class (by decide)
    ⟨rfl, by decide, by decide⟩ (by rw [endOf_class]; decide)
  have topLocals : (Outline.ofSource 1 (source ⟨3, 0⟩)).topLocalsAt ⟨2, 3⟩ = [pin ⟨3, 0⟩] := by
    rw [← locals_eq]
    apply Outline.topLocalsAt_eq_locals
    all_goals rw [locals_eq]
    · exact List.forall_mem_singleton.mpr (bindsAtTop_pin ⟨3, 0⟩)
    · exact List.forall_mem_singleton.mpr (by decide)
  rw [probeFile_of_readSource "x" readSource_class, endOf_class, topLocals] at same
  have differ :
      answerFor (source ⟨3, 0⟩) "x" ((Outline.ofSource 1 (source ⟨3, 0⟩)).closureAt ⟨2, 3⟩)
          ((Outline.ofSource 1 (source ⟨3, 0⟩)).localsAt ⟨2, 3⟩) ≠
        answerFor (source ⟨3, 0⟩) "x" (Outline.ofSource 1 (source ⟨3, 0⟩)).rootPin
          [pin ⟨3, 0⟩] := by
    rw [answerFor, answerFor, Snapshot.ofSources_eq_ofList]
    decide +kernel
  exact differ (Except.ok.inj same)

end TrailingClass

end TagCheck
