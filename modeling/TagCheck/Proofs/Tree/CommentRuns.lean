import Mathlib.Data.List.Chain
import Mathlib.Data.List.DropRight
import TagCheck.Proofs.Tree.Conversion

namespace TagCheck.SyntaxNode

/-!
# Runs of comments and the nodes below them

Comments are attached in one pass over siblings, which knows the comments that may still find a node
and the line on which the last node ended.  What it finds is described without the pass: a node is
documented by the longest run of comments on lines of their own that stand on consecutive lines
behind the node before it, the last of them directly above the node.
-/

section Passing

/-- What is known behind a sibling: the comments that may find a node, and where a node ended. -/
def passed (state : List SyntaxNode × Option Nat) (sibling : SyntaxNode) :
    List SyntaxNode × Option Nat :=
  if sibling.kind = .comment then
    let run := if endsAbove state.1 sibling then state.1 else []
    if state.2 = some sibling.span.start.line || isBlockComment sibling then
      (run, state.2)
    else
      (run ++ [sibling], state.2)
  else
    ([], some sibling.span.stop.line)

/-- The comments behind several siblings that may find a node. -/
def commentsAbove (above : List SyntaxNode) : List SyntaxNode :=
  (above.foldl passed ([], none)).1

/-- A node that stands behind several siblings, with the comment that documents it there. -/
def documented (node : SyntaxNode) (above : List SyntaxNode) : SyntaxNode :=
  if endsAbove (commentsAbove above) node then
    { node with comments := some (commentText (commentsAbove above)) }
  else
    node

/-- Behind a sibling the pass goes on with what is known there. -/
theorem attachCommentsFrom_cons
    (sibling : SyntaxNode)
    (rest : List SyntaxNode)
    (state : List SyntaxNode × Option Nat) :
    attachCommentsFrom state.1 state.2 (sibling :: rest) =
      attachCommentsFrom state.1 state.2 [sibling] ++
        attachCommentsFrom (passed state sibling).1 (passed state sibling).2 rest := by
  rw [attachCommentsFrom, attachCommentsFrom, passed]
  split
  · dsimp only
    split <;> rfl
  · dsimp only
    split <;> rfl

theorem attachCommentsFrom_append
    (above siblings : List SyntaxNode)
    (state : List SyntaxNode × Option Nat) :
    attachCommentsFrom state.1 state.2 (above ++ siblings) =
      attachCommentsFrom state.1 state.2 above ++
        attachCommentsFrom (above.foldl passed state).1 (above.foldl passed state).2 siblings := by
  induction above generalizing state with
  | nil =>
      rfl
  | cons sibling rest inductionHypothesis =>
      rw [List.cons_append, attachCommentsFrom_cons, inductionHypothesis, List.foldl_cons,
        attachCommentsFrom_cons sibling rest, List.append_assoc]

/-- Every node among siblings has the comment that documents it behind the siblings above. -/
theorem attachComments_append
    {node : SyntaxNode}
    (notComment : node.kind ≠ .comment)
    (above behind : List SyntaxNode) :
    attachComments (above ++ node :: behind) =
      attachComments above ++ node.documented above ::
        attachCommentsFrom [] (some node.span.stop.line) behind := by
  rw [attachComments, attachCommentsFrom_append above _ ([], none), attachCommentsFrom,
    if_neg notComment, documented, commentsAbove]
  split <;> rfl

/-- The comment above a node changes nothing else of the node. -/
theorem documented_eq
    (node : SyntaxNode)
    (above : List SyntaxNode) :
    node.documented above = { node with comments := (node.documented above).comments } := by
  obtain ⟨kind, field, text?, comments, span, children⟩ := node
  unfold documented
  split <;> rfl

/-- The line on which the last node behind several siblings ends. -/
def lastLine (above : List SyntaxNode) : Option Nat :=
  (above.foldl passed ([], none)).2

/-- The comments behind several siblings that document a node there. -/
def runAbove (above : List SyntaxNode) (node : SyntaxNode) : List SyntaxNode :=
  if endsAbove (commentsAbove above) node then commentsAbove above else []

theorem commentsAbove_concat_of_node
    {node : SyntaxNode}
    (notComment : node.kind ≠ .comment)
    (above : List SyntaxNode) :
    commentsAbove (above ++ [node]) = [] := by
  rw [commentsAbove, List.foldl_concat, passed, if_neg notComment]

theorem commentsAbove_concat_of_comment
    {comment : SyntaxNode}
    (isComment : comment.kind = .comment)
    (above : List SyntaxNode) :
    commentsAbove (above ++ [comment]) =
      if lastLine above = some comment.span.start.line || isBlockComment comment then
        runAbove above comment
      else
        runAbove above comment ++ [comment] := by
  rw [commentsAbove, List.foldl_concat, passed, if_pos isComment]
  exact apply_ite Prod.fst _ _ _

theorem lastLine_eq
    (above : List SyntaxNode) :
    lastLine above = (withoutComments above).getLast?.map (·.span.stop.line) := by
  induction above using List.reverseRecOn with
  | nil =>
      rfl
  | append_singleton above sibling inductionHypothesis =>
      rw [lastLine, List.foldl_concat, passed, withoutComments_append]
      by_cases isComment : sibling.kind = .comment
      · have isLeftOut : withoutComments [sibling] = [] := by
          simp [withoutComments, isComment]
        rw [if_pos isComment, isLeftOut, List.append_nil, ← inductionHypothesis]
        dsimp only
        split <;> rfl
      · have isListed : withoutComments [sibling] = [sibling] := by
          simp [withoutComments, isComment]
        rw [if_neg isComment, isListed, List.getLast?_concat]
        rfl

end Passing

section Describing

/-- A comment that a number sign begins. -/
def isLineComment (comment : SyntaxNode) : Bool :=
  comment.kind == .comment && !isBlockComment comment

/-- Some node ends on the line of a comment. -/
def isTrailing (siblings : List SyntaxNode) (comment : SyntaxNode) : Bool :=
  siblings.any fun node => node.kind != .comment && node.span.stop.line == comment.span.start.line

/-- A comment with a number sign on a line on which no node ends. -/
def isOwnLine (siblings : List SyntaxNode) (comment : SyntaxNode) : Bool :=
  isLineComment comment && !isTrailing siblings comment

/-- The comments on lines of their own between the last node above and what follows. -/
def ownLineComments (siblings above : List SyntaxNode) : List SyntaxNode :=
  (above.rtakeWhile fun node => node.kind == .comment).filter (isOwnLine siblings)

/-- A comment ends on the line before the one on which a node begins. -/
def IsDirectlyAbove (comment node : SyntaxNode) : Prop :=
  comment.span.stop.line + 1 = node.span.start.line

/-- The last comments of several stand on consecutive lines that end directly above a node. -/
structure EndsInRun (comments : List SyntaxNode) (node : SyntaxNode) (run : List SyntaxNode) :
    Prop where
  isSuffix : run <:+ comments
  isChain : run.IsChain IsDirectlyAbove
  ends : ∀ last ∈ run.getLast?, last.IsDirectlyAbove node

/-- The longest run of comments that ends directly above a node, which exists if any comment does. -/
structure IsRunAbove (comments : List SyntaxNode) (node : SyntaxNode) (run : List SyntaxNode) :
    Prop extends EndsInRun comments node run where
  longest : ∀ other, EndsInRun comments node other → other.length ≤ run.length
  found : run ≠ [] ↔ ∃ comment ∈ comments, comment.IsDirectlyAbove node

/-- A node with the text of the comments that document it, if there are any. -/
def documentedBy (node : SyntaxNode) (run : List SyntaxNode) : SyntaxNode :=
  if run.isEmpty then node else { node with comments := some (commentText run) }

/--
Siblings in the order of the source, in which a comment with a number sign takes the rest of its line.
Only the body of a heredoc may begin at the end of that line, if the code before the comment asks for
one; that code is a sibling above, or stands in front of all siblings.
-/
structure AreInSourceOrder (siblings : List SyntaxNode) : Prop where
  upright : ∀ node ∈ siblings, node.span.start ≤ node.span.stop
  ordered : siblings.Pairwise fun node next => node.span.stop ≤ next.span.start
  oneLine : ∀ comment ∈ siblings, comment.isLineComment = true →
    comment.span.start.line = comment.span.stop.line
  restOfLine : ∀ above comment behind, siblings = above ++ comment :: behind →
    comment.isLineComment = true → ∀ next ∈ behind,
      comment.span.stop.line < next.span.start.line ∨
        next.kind ≠ .comment ∧ comment.span.stop.line < next.span.stop.line ∧
          (above = [] ∨ isTrailing above comment = true)

theorem forall_split_iff
    {siblings : List SyntaxNode}
    {property : List SyntaxNode → SyntaxNode → List SyntaxNode → Prop} :
    (∀ above sibling behind, siblings = above ++ sibling :: behind →
        property above sibling behind) ↔
      ∀ index : Fin siblings.length,
        property (siblings.take index) siblings[index] (siblings.drop (index + 1)) := by
  constructor
  · intro ofSplit index
    apply ofSplit
    rw [Fin.getElem_fin, ← List.drop_eq_getElem_cons index.isLt, List.take_append_drop]
  · rintro ofIndex above sibling behind rfl
    have here := ofIndex ⟨above.length, by simp⟩
    simpa using here

theorem areInSourceOrder_iff
    {siblings : List SyntaxNode} :
    AreInSourceOrder siblings ↔
      (∀ node ∈ siblings, node.span.start ≤ node.span.stop) ∧
      siblings.Pairwise (fun node next => node.span.stop ≤ next.span.start) ∧
      (∀ comment ∈ siblings, comment.isLineComment = true →
        comment.span.start.line = comment.span.stop.line) ∧
      ∀ index : Fin siblings.length, siblings[index].isLineComment = true →
        ∀ next ∈ siblings.drop (index + 1),
          siblings[index].span.stop.line < next.span.start.line ∨
            next.kind ≠ .comment ∧ siblings[index].span.stop.line < next.span.stop.line ∧
              (siblings.take index = [] ∨ isTrailing (siblings.take index) siblings[index] = true) := by
  constructor
  · rintro ⟨upright, ordered, oneLine, restOfLine⟩
    exact ⟨upright, ordered, oneLine, forall_split_iff.mp restOfLine⟩
  · rintro ⟨upright, ordered, oneLine, restOfLine⟩
    exact ⟨upright, ordered, oneLine, forall_split_iff.mpr restOfLine⟩

instance : DecidablePred AreInSourceOrder :=
  fun _ => decidable_of_iff _ areInSourceOrder_iff.symm

/--
The runs of comments that document the nodes among siblings, one for each node: what the pass over the
siblings attaches, no comment twice, and to each node the longest run above it.
-/
structure AreDocumentingRuns (siblings : List SyntaxNode) (runs : List (List SyntaxNode)) :
    Prop where
  sameLength : runs.length = (withoutComments siblings).length
  attached : attachComments siblings = List.zipWith documentedBy (withoutComments siblings) runs
  once : runs.flatten.Sublist (siblings.filter (isOwnLine siblings))
  /-- A node has its run at its place among the nodes. -/
  isRun : ∀ above node behind, siblings = above ++ node :: behind → node.kind ≠ .comment →
    ∃ run, runs[(withoutComments above).length]? = some run ∧
      IsRunAbove (ownLineComments siblings above) node run

end Describing

section Runs

variable {comments run : List SyntaxNode} {comment node : SyntaxNode}

theorem EndsInRun.nil :
    EndsInRun comments node [] :=
  ⟨List.nil_suffix, .nil, nofun⟩

/-- Where no comment ends directly above a node, there is no run. -/
theorem IsRunAbove.nil
    (noneAbove : ∀ comment ∈ comments, ¬comment.IsDirectlyAbove node) :
    IsRunAbove comments node [] := by
  refine ⟨.nil, fun other endsInRun => ?_, ?_⟩
  · cases isLast : other.getLast? with
    | none =>
        rw [List.getLast?_eq_none_iff.mp isLast]
    | some last =>
        have member := endsInRun.isSuffix.subset (List.mem_of_getLast? isLast)
        exact absurd (endsInRun.ends last isLast) (noneAbove last member)
  · simp only [ne_eq, not_true_eq_false, false_iff, not_exists, not_and]
    exact noneAbove

/-- A comment that ends directly above a node ends the run of the comments above itself. -/
theorem EndsInRun.concat_iff
    (isAbove : comment.IsDirectlyAbove node) :
    EndsInRun (comments ++ [comment]) node (run ++ [comment]) ↔ EndsInRun comments comment run := by
  constructor
  · rintro ⟨isSuffix, isChain, -⟩
    rw [List.isChain_append] at isChain
    exact ⟨List.suffix_append_self_iff.mp isSuffix, isChain.1,
      fun last isLast => isChain.2.2 last isLast comment rfl⟩
  · rintro ⟨isSuffix, isChain, ends⟩
    refine ⟨List.suffix_append_self_iff.mpr isSuffix, ?_, fun last isLast => ?_⟩
    · refine isChain.append (.singleton comment) fun last isLast first isFirst => ?_
      cases isFirst
      exact ends last isLast
    · rw [List.getLast?_concat] at isLast
      cases isLast
      exact isAbove

theorem IsRunAbove.concat
    (isRun : IsRunAbove comments comment run)
    (isAbove : comment.IsDirectlyAbove node) :
    IsRunAbove (comments ++ [comment]) node (run ++ [comment]) := by
  refine ⟨(EndsInRun.concat_iff isAbove).mpr isRun.toEndsInRun, fun other endsInRun => ?_, ?_⟩
  · rcases List.suffix_concat_iff.mp endsInRun.isSuffix with rfl | ⟨front, rfl, -⟩
    · exact Nat.zero_le _
    · have shorter := isRun.longest front ((EndsInRun.concat_iff isAbove).mp endsInRun)
      simpa using shorter
  · exact ⟨fun _ => ⟨comment, by simp, isAbove⟩, fun _ => by simp⟩

end Runs

section Order

variable {siblings above behind : List SyntaxNode} {comment sibling next : SyntaxNode}

theorem line_le_of_le
    {first second : Position}
    (inOrder : first ≤ second) :
    first.line ≤ second.line :=
  inOrder.elim Nat.le_of_lt fun sameLine => Nat.le_of_eq sameLine.1

/-- A sibling ends at the latest on the line on which a later one begins. -/
theorem AreInSourceOrder.stopLine_le_startLine
    (inOrder : AreInSourceOrder siblings)
    (isSplit : siblings = above ++ behind)
    (isAbove : sibling ∈ above)
    (isBehind : next ∈ behind) :
    sibling.span.stop.line ≤ next.span.start.line := by
  have ordered := inOrder.ordered
  rw [isSplit, List.pairwise_append] at ordered
  exact line_le_of_le (ordered.2.2 sibling isAbove next isBehind)

theorem AreInSourceOrder.startLine_le_stopLine
    (inOrder : AreInSourceOrder siblings)
    (member : sibling ∈ siblings) :
    sibling.span.start.line ≤ sibling.span.stop.line :=
  line_le_of_le (inOrder.upright sibling member)

/-- Behind a comment with a number sign, the next comment begins on a later line. -/
theorem AreInSourceOrder.stopLine_lt_startLine
    (inOrder : AreInSourceOrder siblings)
    (isSplit : siblings = above ++ behind)
    (isAbove : comment ∈ above)
    (isLineComment : comment.isLineComment = true)
    (isBehind : next ∈ behind)
    (isComment : next.kind = .comment) :
    comment.span.stop.line < next.span.start.line := by
  obtain ⟨before, between, rfl⟩ := List.append_of_mem isAbove
  have isWhole : siblings = before ++ comment :: (between ++ behind) := by
    rw [isSplit, List.append_assoc, List.cons_append]
  have rest := inOrder.restOfLine before comment (between ++ behind) isWhole isLineComment next
    (List.mem_append_right between isBehind)
  exact rest.elim id fun isHeredoc => absurd isComment isHeredoc.1

/-- On the line of a comment with a number sign no later node ends. -/
theorem AreInSourceOrder.startLine_ne_stopLine
    (inOrder : AreInSourceOrder siblings)
    (isSplit : siblings = above ++ comment :: behind)
    (isLineComment : comment.isLineComment = true)
    (isBehind : next ∈ behind) :
    next.span.stop.line ≠ comment.span.start.line := by
  have isComment : comment ∈ siblings := by
    simp [isSplit]
  have isNext : next ∈ siblings := by
    simp [isSplit, isBehind]
  have oneLine := inOrder.oneLine comment isComment isLineComment
  have upright := inOrder.startLine_le_stopLine isNext
  rcases inOrder.restOfLine above comment behind isSplit isLineComment next isBehind with
    startsLater | ⟨-, endsLater, -⟩ <;>
    omega

/-- The last of several nodes ends last. -/
theorem AreInSourceOrder.exists_getLast?
    (inOrder : AreInSourceOrder siblings)
    (isSplit : siblings = above ++ behind)
    (isNode : sibling ∈ withoutComments above) :
    ∃ last ∈ above, (withoutComments above).getLast? = some last ∧
      sibling.span.stop.line ≤ last.span.stop.line := by
  have areNodes : (withoutComments above).Sublist above :=
    List.filter_sublist
  have areSiblings : (withoutComments above).Sublist siblings :=
    areNodes.trans (isSplit ▸ List.sublist_append_left above behind)
  have ordered := inOrder.ordered.sublist areSiblings
  obtain ⟨front, last, isFront⟩ : ∃ front last, withoutComments above = front ++ [last] :=
    ⟨_, _, (List.dropLast_append_getLast (List.ne_nil_of_mem isNode)).symm⟩
  have isLast : last ∈ withoutComments above := by
    simp [isFront]
  refine ⟨last, areNodes.subset isLast, by simp [isFront], ?_⟩
  rw [isFront] at isNode ordered
  rcases List.mem_append.mp isNode with inFront | isOnly
  · have before := (List.pairwise_append.mp ordered).2.2 sibling inFront last
      (List.mem_singleton_self last)
    exact (line_le_of_le before).trans
      (inOrder.startLine_le_stopLine (areSiblings.subset isLast))
  · cases List.mem_singleton.mp isOnly
    exact Nat.le_refl _

theorem isTrailing_iff :
    isTrailing siblings comment = true ↔
      ∃ node ∈ withoutComments siblings, node.span.stop.line = comment.span.start.line := by
  simp [isTrailing, withoutComments, and_assoc]

/-- The pass takes a comment for a trailing one exactly if some node ends on its line. -/
theorem AreInSourceOrder.lastLine_eq_iff
    (inOrder : AreInSourceOrder siblings)
    (isSplit : siblings = above ++ comment :: behind)
    (isLineComment : comment.isLineComment = true) :
    lastLine above = some comment.span.start.line ↔ isTrailing siblings comment = true := by
  have isComment : comment.kind = .comment := by
    simp only [SyntaxNode.isLineComment, Bool.and_eq_true, beq_iff_eq] at isLineComment
    exact isLineComment.1
  have nodes : withoutComments siblings = withoutComments above ++ withoutComments behind := by
    rw [isSplit, withoutComments_append]
    simp [withoutComments, isComment]
  rw [lastLine_eq, Option.map_eq_some_iff, isTrailing_iff, nodes]
  constructor
  · rintro ⟨last, isLast, sameLine⟩
    exact ⟨last, List.mem_append_left _ (List.mem_of_getLast? isLast), sameLine⟩
  · rintro ⟨node, isNode, sameLine⟩
    rcases List.mem_append.mp isNode with isAbove | isBehind
    · obtain ⟨last, inAbove, isLast, notLater⟩ := inOrder.exists_getLast? isSplit isAbove
      have notBehind := inOrder.stopLine_le_startLine isSplit inAbove List.mem_cons_self
      exact ⟨last, isLast, by omega⟩
    · exact absurd sameLine
        (inOrder.startLine_ne_stopLine isSplit isLineComment (List.mem_of_mem_filter isBehind))

end Order

section Pass

variable {siblings above behind : List SyntaxNode} {comment sibling node : SyntaxNode}

theorem mem_above_of_mem_ownLineComments
    (member : comment ∈ ownLineComments siblings above) :
    comment ∈ above ∧ comment.isLineComment = true := by
  obtain ⟨isComment, isOwn⟩ := List.mem_filter.mp member
  simp only [isOwnLine, Bool.and_eq_true] at isOwn
  exact ⟨(List.rtakeWhile_suffix _ _).subset isComment, isOwn.1⟩

theorem ownLineComments_concat_of_node
    (notComment : node.kind ≠ .comment)
    (above : List SyntaxNode) :
    ownLineComments siblings (above ++ [node]) = [] := by
  simp [ownLineComments, notComment]

theorem ownLineComments_concat_of_comment
    (isComment : comment.kind = .comment)
    (above : List SyntaxNode) :
    ownLineComments siblings (above ++ [comment]) =
      ownLineComments siblings above ++ if isOwnLine siblings comment then [comment] else [] := by
  rw [ownLineComments, List.rtakeWhile_concat, if_pos (by simp [isComment]), List.filter_append,
    List.filter_singleton, Bool.cond_eq_ite]
  rfl

/-- A comment on a line of its own is added to the run that ends above it; another one is not. -/
theorem AreInSourceOrder.commentsAbove_concat
    (inOrder : AreInSourceOrder siblings)
    (isSplit : siblings = above ++ comment :: behind)
    (isComment : comment.kind = .comment) :
    commentsAbove (above ++ [comment]) =
      runAbove above comment ++ if isOwnLine siblings comment then [comment] else [] := by
  rw [commentsAbove_concat_of_comment isComment]
  by_cases isBlock : comment.isBlockComment = true
  · simp [isOwnLine, isLineComment, isBlock]
  · have isLineComment : comment.isLineComment = true := by
      simp [isLineComment, isComment, isBlock]
    have trails := inOrder.lastLine_eq_iff isSplit isLineComment
    by_cases isTrailing : isTrailing siblings comment = true
    · simp [isOwnLine, isTrailing, trails.mpr isTrailing]
    · simp [isOwnLine, isTrailing, isLineComment, isBlock, mt trails.mp isTrailing]

theorem endsAbove_concat_iff
    {run : List SyntaxNode} :
    endsAbove (run ++ [comment]) node = true ↔ comment.IsDirectlyAbove node := by
  simp [endsAbove, IsDirectlyAbove]

/-- A comment that ends directly above a node ends directly above every comment between them. -/
theorem AreInSourceOrder.isDirectlyAbove_comment
    (inOrder : AreInSourceOrder siblings)
    (isSplit : siblings = above ++ sibling :: behind)
    (isComment : sibling.kind = .comment)
    (isBehind : node ∈ behind)
    (member : comment ∈ ownLineComments siblings above)
    (isDirectlyAbove : comment.IsDirectlyAbove node) :
    comment.IsDirectlyAbove sibling := by
  obtain ⟨isAbove, isLineComment⟩ := mem_above_of_mem_ownLineComments member
  have before := inOrder.stopLine_lt_startLine isSplit isAbove isLineComment List.mem_cons_self
    isComment
  have isSplitBehind : siblings = (above ++ [sibling]) ++ behind := by
    simp [isSplit]
  have ends := inOrder.stopLine_le_startLine isSplitBehind (List.mem_append_right above
    (List.mem_singleton_self sibling)) isBehind
  have isSibling : sibling ∈ siblings := by
    simp [isSplit]
  have upright := inOrder.startLine_le_stopLine isSibling
  unfold IsDirectlyAbove at isDirectlyAbove ⊢
  omega

/-- Only the last of several comments on lines of their own ends directly above a node. -/
theorem AreInSourceOrder.not_isDirectlyAbove_of_isOwnLine
    (inOrder : AreInSourceOrder siblings)
    (isSplit : siblings = above ++ sibling :: behind)
    (isComment : sibling.kind = .comment)
    (isOwn : isOwnLine siblings sibling = true)
    (isBehind : node ∈ behind)
    (member : comment ∈ ownLineComments siblings above) :
    ¬comment.IsDirectlyAbove node := by
  intro isAboveNode
  have isAboveSibling := inOrder.isDirectlyAbove_comment isSplit isComment isBehind member isAboveNode
  simp only [isOwnLine, Bool.and_eq_true, Bool.not_eq_true'] at isOwn
  have isSibling : sibling ∈ siblings := by
    simp [isSplit]
  have oneLine := inOrder.oneLine sibling isSibling isOwn.1
  rcases inOrder.restOfLine above sibling behind isSplit isOwn.1 node isBehind with
    startsLater | ⟨-, -, rfl | trails⟩
  · unfold IsDirectlyAbove at isAboveNode isAboveSibling
    omega
  · cases member
  · -- A heredoc begins only behind a comment that trails the code that asks for it.
    have trailsWhole : isTrailing siblings sibling = true := by
      rw [isSplit, isTrailing, List.any_append, Bool.or_eq_true]
      exact .inl trails
    rw [isOwn.2] at trailsWhole
    cases trailsWhole

/-- Behind a comment on a line of its own, the run goes on or ends with it. -/
theorem AreInSourceOrder.isRunAbove_concat_of_isOwnLine
    (inOrder : AreInSourceOrder siblings)
    (isSplit : siblings = above ++ comment :: behind)
    (isComment : comment.kind = .comment)
    (isOwn : isOwnLine siblings comment = true)
    (isBehind : node ∈ behind)
    (isRun : IsRunAbove (ownLineComments siblings above) comment (runAbove above comment)) :
    IsRunAbove (ownLineComments siblings (above ++ [comment])) node
      (runAbove (above ++ [comment]) node) := by
  rw [ownLineComments_concat_of_comment isComment, runAbove,
    inOrder.commentsAbove_concat isSplit isComment, if_pos isOwn]
  split
  · next isAbove =>
      exact isRun.concat (endsAbove_concat_iff.mp isAbove)
  · next notAbove =>
      refine .nil fun other member => ?_
      rcases List.mem_append.mp member with isOther | isLast
      · exact inOrder.not_isDirectlyAbove_of_isOwnLine isSplit isComment isOwn isBehind isOther
      · cases List.mem_singleton.mp isLast
        exact fun isAbove => notAbove (endsAbove_concat_iff.mpr isAbove)

/-- A trailing comment and a block comment leave the run as it is, or end it. -/
theorem AreInSourceOrder.isRunAbove_concat_of_not_isOwnLine
    (inOrder : AreInSourceOrder siblings)
    (isSplit : siblings = above ++ comment :: behind)
    (isComment : comment.kind = .comment)
    (notOwn : isOwnLine siblings comment = false)
    (isBehind : node ∈ behind)
    (isRunHere : IsRunAbove (ownLineComments siblings above) comment (runAbove above comment))
    (isRun : IsRunAbove (ownLineComments siblings above) node (runAbove above node)) :
    IsRunAbove (ownLineComments siblings (above ++ [comment])) node
      (runAbove (above ++ [comment]) node) := by
  have sameComments : commentsAbove (above ++ [comment]) = runAbove above comment := by
    simp [inOrder.commentsAbove_concat isSplit isComment, notOwn]
  have sameOwn : ownLineComments siblings (above ++ [comment]) = ownLineComments siblings above := by
    simp [ownLineComments_concat_of_comment isComment, notOwn]
  rw [sameOwn, runAbove, sameComments]
  by_cases ends : endsAbove (commentsAbove above) comment = true
  · have isKept : runAbove above comment = commentsAbove above := if_pos ends
    rw [isKept]
    exact isRun
  · have isDropped : runAbove above comment = [] := if_neg ends
    rw [isDropped, ite_self]
    rw [isDropped] at isRunHere
    refine .nil fun other member isAbove => isRunHere.found.mpr ⟨other, member, ?_⟩ rfl
    exact inOrder.isDirectlyAbove_comment isSplit isComment isBehind member isAbove

/-- What the pass attaches to a node is the longest run above it. -/
theorem AreInSourceOrder.isRunAbove
    (inOrder : AreInSourceOrder siblings)
    (isSplit : siblings = above ++ behind)
    (isBehind : node ∈ behind) :
    IsRunAbove (ownLineComments siblings above) node (runAbove above node) := by
  induction above using List.reverseRecOn generalizing behind node with
  | nil =>
      exact .nil nofun
  | append_singleton above sibling inductionHypothesis =>
      have isSplitHere : siblings = above ++ sibling :: behind := by
        rw [isSplit, List.append_assoc, List.singleton_append]
      have isRunHere := inductionHypothesis isSplitHere List.mem_cons_self
      have isRun := inductionHypothesis isSplitHere (List.mem_cons_of_mem sibling isBehind)
      by_cases isComment : sibling.kind = .comment
      · cases isOwn : isOwnLine siblings sibling with
        | true =>
            exact inOrder.isRunAbove_concat_of_isOwnLine isSplitHere isComment isOwn isBehind
              isRunHere
        | false =>
            exact inOrder.isRunAbove_concat_of_not_isOwnLine isSplitHere isComment isOwn isBehind
              isRunHere isRun
      · rw [ownLineComments_concat_of_node isComment, runAbove,
          commentsAbove_concat_of_node isComment, ite_self]
        exact .nil nofun

/-- The pass attaches to a node the comments that document it. -/
theorem documented_eq_documentedBy
    (node : SyntaxNode)
    (above : List SyntaxNode) :
    node.documented above = node.documentedBy (runAbove above node) := by
  unfold documented documentedBy runAbove
  split
  · next ends =>
      have notEmpty : (commentsAbove above).isEmpty = false := by
        cases isRun : commentsAbove above with
        | nil =>
            rw [isRun] at ends
            cases ends
        | cons first others =>
            rfl
      rw [notEmpty]
      rfl
  · rfl

theorem attachComments_concat_of_node
    (notComment : node.kind ≠ .comment)
    (above : List SyntaxNode) :
    attachComments (above ++ [node]) =
      attachComments above ++ [node.documentedBy (runAbove above node)] := by
  rw [attachComments_append notComment, documented_eq_documentedBy]
  rfl

theorem attachComments_concat_of_comment
    (isComment : comment.kind = .comment)
    (above : List SyntaxNode) :
    attachComments (above ++ [comment]) = attachComments above := by
  rw [attachComments, attachCommentsFrom_append above _ ([], none), attachCommentsFrom,
    if_pos isComment]
  dsimp only
  split <;> exact List.append_nil _

/-- The runs that the pass has attached so far, and the comments that it may still attach. -/
structure AreRunsOf (siblings above : List SyntaxNode) (runs : List (List SyntaxNode)) : Prop where
  sameLength : runs.length = (withoutComments above).length
  attached : attachComments above = List.zipWith documentedBy (withoutComments above) runs
  once : (runs.flatten ++ ownLineComments siblings above).Sublist
    (above.filter (isOwnLine siblings))
  isRun : ∀ before node after, above = before ++ node :: after → node.kind ≠ .comment →
    runs[(withoutComments before).length]? = some (runAbove before node)

/-- A sibling in a list is the last one, or it stands among those before. -/
theorem eq_or_exists_of_concat_eq
    {before after : List SyntaxNode}
    (isSplit : above ++ [sibling] = before ++ node :: after) :
    above = before ∧ sibling = node ∨ ∃ others, above = before ++ node :: others := by
  rcases List.eq_nil_or_concat after with rfl | ⟨others, last, rfl⟩
  · obtain ⟨sameAbove, sameLast⟩ := List.append_inj' isSplit rfl
    exact .inl ⟨sameAbove, List.singleton_inj.mp sameLast⟩
  · rw [List.concat_eq_append, ← List.cons_append, ← List.append_assoc] at isSplit
    exact .inr ⟨others, (List.append_inj' isSplit rfl).1⟩

theorem areRunsOf_nil :
    AreRunsOf siblings [] [] :=
  ⟨rfl, rfl, .slnil, fun _ _ _ isSplit => by simp at isSplit⟩

theorem AreRunsOf.concat_of_comment
    {runs : List (List SyntaxNode)}
    (areRuns : AreRunsOf siblings above runs)
    (isComment : comment.kind = .comment) :
    AreRunsOf siblings (above ++ [comment]) runs := by
  have sameNodes : withoutComments (above ++ [comment]) = withoutComments above := by
    simp [withoutComments, isComment]
  refine ⟨?_, ?_, ?_, fun before node after isSplit notComment => ?_⟩
  · rw [sameNodes, areRuns.sameLength]
  · rw [sameNodes, attachComments_concat_of_comment isComment, areRuns.attached]
  · rw [ownLineComments_concat_of_comment isComment, ← List.append_assoc, List.filter_append,
      List.filter_singleton, Bool.cond_eq_ite]
    exact areRuns.once.append (List.Sublist.refl _)
  · rcases eq_or_exists_of_concat_eq isSplit with ⟨-, rfl⟩ | ⟨others, isAbove⟩
    · exact absurd isComment notComment
    · exact areRuns.isRun before node others isAbove notComment

theorem AreRunsOf.concat_of_node
    {runs : List (List SyntaxNode)}
    (areRuns : AreRunsOf siblings above runs)
    (notComment : node.kind ≠ .comment)
    (isRun : IsRunAbove (ownLineComments siblings above) node (runAbove above node)) :
    AreRunsOf siblings (above ++ [node]) (runs ++ [runAbove above node]) := by
  have nodes : withoutComments (above ++ [node]) = withoutComments above ++ [node] := by
    simp [withoutComments, notComment]
  refine ⟨?_, ?_, ?_, fun before other after isSplit notComment => ?_⟩
  · rw [nodes, List.length_append, List.length_append, areRuns.sameLength]
    rfl
  · rw [nodes, attachComments_concat_of_node notComment, areRuns.attached,
      List.zipWith_append areRuns.sameLength.symm]
    rfl
  · have taken := isRun.isSuffix.sublist
    rw [ownLineComments_concat_of_node notComment, List.append_nil, List.flatten_append,
      List.flatten_singleton, List.filter_append]
    exact (((List.Sublist.refl _).append taken).trans areRuns.once).trans
      (List.sublist_append_left _ _)
  · rcases eq_or_exists_of_concat_eq isSplit with ⟨rfl, rfl⟩ | ⟨others, isAbove⟩
    · rw [← areRuns.sameLength, List.getElem?_concat_length]
    · have isRunBefore := areRuns.isRun before other others isAbove notComment
      have isInside := (List.getElem?_eq_some_iff.mp isRunBefore).1
      rwa [List.getElem?_append_left isInside]

/-- Every sibling that the pass goes past keeps or adds a run. -/
theorem AreInSourceOrder.exists_areRunsOf
    (inOrder : AreInSourceOrder siblings)
    (isSplit : siblings = above ++ behind) :
    ∃ runs, AreRunsOf siblings above runs := by
  induction above using List.reverseRecOn generalizing behind with
  | nil =>
      exact ⟨[], areRunsOf_nil⟩
  | append_singleton above sibling inductionHypothesis =>
      have isSplitHere : siblings = above ++ sibling :: behind := by
        rw [isSplit, List.append_assoc, List.singleton_append]
      obtain ⟨runs, areRuns⟩ := inductionHypothesis isSplitHere
      by_cases isComment : sibling.kind = .comment
      · exact ⟨runs, areRuns.concat_of_comment isComment⟩
      · have isRun := inOrder.isRunAbove isSplitHere List.mem_cons_self
        exact ⟨_, areRuns.concat_of_node isComment isRun⟩

end Pass

/--
Among siblings in the order of the source, every node is documented by the longest run of comments
above it, no comment documents two nodes, and nothing else of the nodes is changed.
-/
theorem exists_documentingRuns
    {siblings : List SyntaxNode}
    (inOrder : AreInSourceOrder siblings) :
    ∃ runs, AreDocumentingRuns siblings runs := by
  obtain ⟨runs, areRuns⟩ := inOrder.exists_areRunsOf (List.append_nil siblings).symm
  refine ⟨runs, areRuns.sameLength, areRuns.attached, ?_, fun above node behind isSplit notComment =>
    ⟨_, areRuns.isRun above node behind isSplit notComment, ?_⟩⟩
  · exact (List.sublist_append_left _ _).trans areRuns.once
  · exact inOrder.isRunAbove isSplit List.mem_cons_self

namespace DocumentedMethod

/-- A sibling that begins and ends on given lines. -/
def sibling (kind : NodeKind) (first last : Nat) (text : String) : SyntaxNode :=
  ⟨kind, none, some text, none, ⟨⟨first, 2⟩, ⟨last, 30⟩⟩, []⟩

/-- A comment behind the code of its line. -/
def trailing : SyntaxNode :=
  ⟨.comment, none, some "# not this", none, ⟨⟨0, 31⟩, ⟨0, 41⟩⟩, []⟩

/-- A method under two comments, in a body with comments that document nothing. -/
def siblings : List SyntaxNode :=
  [sibling .assignment 0 0 "", trailing, sibling .comment 1 1 "# nor this",
    sibling .comment 3 3 "# Greets.", sibling .comment 4 4 "# @return [String]",
    sibling .method 5 7 "", sibling .comment 8 9 "=begin\n=end", sibling .method 10 12 ""]

theorem exists_documentingRuns_siblings :
    AreInSourceOrder siblings ∧ (∃ runs, AreDocumentingRuns siblings runs) ∧
      (attachComments siblings).map SyntaxNode.comments =
        [none, some "Greets.\n@return [String]", none] := by
  have inOrder : AreInSourceOrder siblings := by
    decide +kernel
  exact ⟨inOrder, exists_documentingRuns inOrder, by decide +kernel⟩

end DocumentedMethod

end TagCheck.SyntaxNode
