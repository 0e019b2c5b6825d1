import TagCheck.DocType.Printer
import TagCheck.DocType.Substitution
import TagCheck.Docstring
import TagCheck.Outline.Basic
import TagCheck.Outline.Literal
import TagCheck.Inference.Chain
import TagCheck.Workspace
import TagCheck.Main
import TagCheck.Proofs.Check.Repetition
import TagCheck.Proofs.Index.References
import TagCheck.Proofs.Index.Reachability
import TagCheck.Proofs.Index.ClassSide
import TagCheck.Proofs.Index.AbsoluteName
import TagCheck.Proofs.Index.Requalification
import TagCheck.Proofs.Outline.Closures
import TagCheck.Proofs.Outline.Shadowing
import TagCheck.Proofs.Check.BoundNames
import TagCheck.Proofs.DocType.DuckType
import TagCheck.Proofs.Tree.Conversion
import TagCheck.Proofs.Workspace.Isolation
import TagCheck.Proofs.Workspace.Publication
import TagCheck.Proofs.Index.MethodLookup
import TagCheck.Proofs.Index.QualifiedTypes
import TagCheck.Proofs.Inference.ChainTypes
import TagCheck.Proofs.Index.Compatibility
import TagCheck.Proofs.Index.LiteralSpelling
import TagCheck.Proofs.Index.Widening
import TagCheck.Proofs.DocType.Placeholders
import TagCheck.Proofs.Inference.WrittenChain
import TagCheck.Proofs.Inference.LiteralContexts
import TagCheck.Proofs.Check.Binding
import TagCheck.Proofs.Index.InheritedTags
import TagCheck.Proofs.Check.WrittenNames
import TagCheck.Proofs.Check.Levels
import TagCheck.Proofs.Outline.DefaultVisibility
import TagCheck.Proofs.Outline.VisibilityCall
import TagCheck.Proofs.Index.Rearrangement
import TagCheck.Proofs.Docstring.TypeList
import TagCheck.Proofs.Docstring.ParameterTag
import TagCheck.Proofs.Index.HashNotation
import TagCheck.Proofs.Tree.CommentRuns
import TagCheck.Proofs.Inference.OwningMethod
import TagCheck.Proofs.CommandLine.Probe
