import TagCheck.Tree.Node

namespace TagCheck.SyntaxNode

/-!
# Which comment documents which node

A run of comments on lines of their own documents the node on the line directly below it.  A
comment behind a node on the same line, a comment with a gap below it and a block comment document
nothing.
-/

/-- The documentation that a comment line holds: without number signs and one blank in front. -/
def commentLine (comment : SyntaxNode) : List Char :=
  match comment.text.toList.dropWhile (· == '#') with
  | ' ' :: line => line
  | line => line

/-- The documentation that a run of comments holds. -/
def commentText (run : List SyntaxNode) : String :=
  String.ofList (Text.joinWith ['\n'] (run.map commentLine))

/-- A comment between the lines that begin and end a block comment. -/
def isBlockComment (comment : SyntaxNode) : Bool :=
  "=begin".toList.isPrefixOf comment.text.toList

/-- The last line of a run of comments is directly above a node. -/
def endsAbove (run : List SyntaxNode) (node : SyntaxNode) : Bool :=
  match run.getLast? with
  | some last => last.span.stop.line + 1 == node.span.start.line
  | none => false

/--
Take the comments out of a list of siblings and attach each run to the node below it.  `run` holds
the comments that may still find a node, and `lastLine` is the line on which the node before ends.
-/
def attachCommentsFrom (run : List SyntaxNode) (lastLine : Option Nat) :
    List SyntaxNode → List SyntaxNode
  | [] => []
  | node :: rest =>
      if node.kind = .comment then
        let run := if endsAbove run node then run else []
        if lastLine = some node.span.start.line || isBlockComment node then
          attachCommentsFrom run lastLine rest
        else
          attachCommentsFrom (run ++ [node]) lastLine rest
      else
        let node :=
          if endsAbove run node then { node with comments := some (commentText run) } else node
        node :: attachCommentsFrom [] (some node.span.stop.line) rest

/-- Siblings without the comments among them, each with the comment that documents it. -/
def attachComments (siblings : List SyntaxNode) : List SyntaxNode :=
  attachCommentsFrom [] none siblings

end TagCheck.SyntaxNode
