import TagCheck.Check.Basic
import TagCheck.Proofs.Inference.Asking

namespace TagCheck

/-!
# Which pins a check asks about

Checking a file asks about pins of its snapshot only, as inference does: the walk over calls asks
what their receivers, methods and arguments ask, and the passes over methods ask about declarations
of the file.
-/

namespace CallCheck

variable {check : CallCheck}
variable (listed : check.snapshot.index.IsListed)
include listed

/-- Finding out whether a call reaches a method asks about methods of the snapshot. -/
theorem checkResolved_asksOnly
    (receiver : DocUnion)
    (name : String)
    (isExplicit : Bool)
    (node : SyntaxNode) :
    (check.checkResolved receiver name isExplicit node).AsksOnly check.snapshot.Knows := by
  unfold checkResolved
  split
  · exact .bind (Snapshot.callMethod_asksOnly listed receiver name isExplicit) fun _ => .pure _
  · exact .pure _

theorem checkArgument_asksOnly
    (method : Pin)
    (receiver : DocType)
    (context : Pin)
    (binding : ParameterPin × SyntaxNode) :
    (check.checkArgument method receiver context binding).AsksOnly check.snapshot.Knows := by
  unfold checkArgument
  dsimp only
  split
  · exact .pure _
  · refine .bind (Snapshot.evaluateIn_asksOnly listed context binding.2) fun _ => ?_
    split <;> exact .pure _

theorem checkArguments_asksOnly
    (receiver : DocUnion)
    (name : String)
    (isExplicit : Bool)
    (arguments : List SyntaxNode)
    (context : Pin) :
    (check.checkArguments receiver name isExplicit arguments context).AsksOnly
      check.snapshot.Knows := by
  unfold checkArguments
  dsimp only
  split
  · exact .pure _
  · next method type _ =>
      refine .bind (.mapM fun binding _ => ?_) fun _ => .pure _
      exact checkArgument_asksOnly listed method type context binding

theorem checkIdentifier_asksOnly
    (node : SyntaxNode) :
    (check.checkIdentifier node).AsksOnly check.snapshot.Knows := by
  unfold checkIdentifier
  dsimp only
  split
  · exact .pure _
  · exact checkResolved_asksOnly listed _ _ _ _

theorem checkCallOn_asksOnly
    (receiver : DocUnion)
    (name : String)
    (isExplicit : Bool)
    (node : SyntaxNode)
    (arguments : List SyntaxNode)
    (context : Pin) :
    (check.checkCallOn receiver name isExplicit node arguments context).AsksOnly
      check.snapshot.Knows := by
  unfold checkCallOn
  split
  · exact .pure _
  · refine .bind (checkResolved_asksOnly listed _ _ _ _) fun calls => ?_
    split
    · exact .pure _
    · exact .bind (checkArguments_asksOnly listed _ _ _ _ _) fun _ => .pure _

theorem checkCall_asksOnly
    (node : SyntaxNode) :
    (check.checkCall node).AsksOnly check.snapshot.Knows := by
  unfold checkCall
  dsimp only
  split
  · exact .pure _
  · split
    · exact .bind (Snapshot.evaluateIn_asksOnly listed _ _) fun _ =>
        checkCallOn_asksOnly listed _ _ _ _ _ _
    · exact checkCallOn_asksOnly listed _ _ _ _ _ _

theorem checkSetter_asksOnly
    (target : SyntaxNode)
    (value? : Option SyntaxNode) :
    (check.checkSetter target value?).AsksOnly check.snapshot.Knows := by
  unfold checkSetter
  dsimp only
  split
  · exact .bind (Snapshot.evaluateIn_asksOnly listed _ _) fun _ =>
      checkCallOn_asksOnly listed _ _ _ _ _ _
  · exact .pure _

theorem checkIndexAssignment_asksOnly
    (target : SyntaxNode)
    (value? : Option SyntaxNode) :
    (check.checkIndexAssignment target value?).AsksOnly check.snapshot.Knows := by
  unfold checkIndexAssignment
  split
  · refine .bind (Snapshot.evaluateIn_asksOnly listed _ _) fun receiver => ?_
    dsimp only
    split
    · exact .pure _
    · exact checkArguments_asksOnly listed _ _ _ _ _
  · exact .pure _

theorem checkTarget_asksOnly
    (node target : SyntaxNode) :
    (check.checkTarget node target).AsksOnly check.snapshot.Knows := by
  unfold checkTarget
  split
  · split
    · exact checkSetter_asksOnly listed _ _
    · exact checkIndexAssignment_asksOnly listed _ _
    · exact .pure _
  · exact .pure _

set_option linter.unusedSectionVars false in
mutual

/-- The check of a tree asks about pins of the snapshot. -/
theorem checkNode_asksOnly :
    ∀ node, (check.checkNode node).AsksOnly check.snapshot.Knows
  | ⟨kind, field, text?, comments, span, children⟩ => by
      have childrenAsk := checkWhere_asksOnly (fun _ => true) children
      unfold checkNode
      dsimp only
      have rightAsks := checkField_asksOnly .right children
      split
      case h_6 | h_7 =>
        -- Assignments: the target first, then the value.
        split
        · exact .bind (.pure _) fun _ => .bind rightAsks fun _ => .pure _
        · refine .bind (checkTarget_asksOnly listed _ _) fun call => ?_
          refine .bind (checkTargetParts_asksOnly children) fun parts => ?_
          exact .bind (.pure _) fun _ => .bind rightAsks fun _ => .pure _
      case h_8 =>
        split
        · exact .pure _
        · exact checkIdentifier_asksOnly listed _
      case h_9 =>
        exact .bind (checkCall_asksOnly listed _) fun _ => .bind childrenAsk fun _ => .pure _
      case h_10 =>
        exact childrenAsk
      all_goals exact .pure _

theorem checkWhere_asksOnly
    (property : SyntaxNode → Bool) :
    ∀ nodes, (check.checkWhere property nodes).AsksOnly check.snapshot.Knows
  | [] => .pure _
  | node :: rest => by
      have restAsks := checkWhere_asksOnly property rest
      unfold checkWhere
      dsimp only
      split
      · exact .bind (checkNode_asksOnly node) fun _ => .bind restAsks fun _ => .pure _
      · exact .bind (.pure _) fun _ => .bind restAsks fun _ => .pure _

theorem checkField_asksOnly
    (field : NodeField) :
    ∀ nodes, (check.checkField field nodes).AsksOnly check.snapshot.Knows
  | [] => .pure _
  | node :: rest => by
      unfold checkField
      split
      · exact checkNode_asksOnly node
      · exact checkField_asksOnly field rest

theorem checkTargetParts_asksOnly :
    ∀ nodes, (check.checkTargetParts nodes).AsksOnly check.snapshot.Knows
  | [] => .pure _
  | ⟨kind, field, text?, comments, span, children⟩ :: rest => by
      unfold checkTargetParts
      split
      · split
        · exact .pure _
        · split
          · exact checkWhere_asksOnly _ children
          · exact checkNode_asksOnly _
      · exact checkTargetParts_asksOnly rest

end

end CallCheck

namespace Snapshot

variable {snapshot : Snapshot}

theorem mem_pins_of_mem_methodPins
    {outline : Outline}
    {pin : Pin}
    (member : pin ∈ outline.methodPins) :
    pin ∈ outline.pins :=
  (List.mem_filter.mp member).1

theorem mem_outlines_of_parsedOutline?
    {filename : String}
    {outline : Outline}
    (found : snapshot.parsedOutline? filename = some outline) :
    outline ∈ snapshot.outlines :=
  mem_outlines_of_outline? (Option.eq_some_of_filter_eq_some found)

variable (listed : snapshot.index.IsListed)
variable (indexed : ∀ outline ∈ snapshot.outlines, ∀ pin ∈ outline.pins, pin ∈ snapshot.index.pins)

include listed in
theorem checkReturnValue_asksOnly
    (pin : Pin) :
    (snapshot.checkReturnValue pin).AsksOnly snapshot.Knows := by
  unfold checkReturnValue
  split
  · exact .pure _
  · split
    · exact .pure _
    · refine .bind (methodReturn_asksOnly listed pin) fun _ => ?_
      split <;> exact .pure _

theorem checkReturnTag_asksOnly
    {pin : Pin}
    (known : snapshot.Knows pin) :
    (snapshot.checkReturnTag pin).AsksOnly snapshot.Knows := by
  unfold checkReturnTag
  split
  · exact .bind (.typeOf known) fun _ => .pure _
  · split <;> exact .pure _

include indexed in
theorem checkReturnTypes_asksOnly
    (filename : String) :
    (snapshot.checkReturnTypes filename).AsksOnly snapshot.Knows := by
  unfold checkReturnTypes
  split
  · exact .pure _
  · next outline found =>
      refine .bind (.mapM fun pin member => ?_) fun _ => .pure _
      have declared : pin ∈ outline.pins :=
        mem_pins_of_mem_methodPins (List.mem_filter.mp member).1
      have published : outline ∈ snapshot.outlines :=
        mem_outlines_of_parsedOutline? found
      exact checkReturnTag_asksOnly (knows_of_mem_index (indexed outline published pin declared))

include listed in
theorem checkStrictly_asksOnly
    (filename : String) :
    (snapshot.checkStrictly filename).AsksOnly snapshot.Knows := by
  unfold checkStrictly
  split
  · exact .pure _
  · next outline _ =>
      refine .bind (.mapM fun pin _ => checkReturnValue_asksOnly listed pin) fun _ => ?_
      have sameIndex : (CallCheck.mk snapshot outline).snapshot.index.IsListed :=
        listed
      exact .bind (CallCheck.checkNode_asksOnly sameIndex outline.source.root) fun _ => .pure _

include listed indexed in
/-- The check of a file asks about pins of the snapshot. -/
theorem checkFile_asksOnly
    (filename : String)
    (level : CheckLevel) :
    (snapshot.checkFile filename level).AsksOnly snapshot.Knows := by
  refine .bind (checkReturnTypes_asksOnly indexed filename) fun _ => ?_
  cases level with
  | normal =>
      exact .pure _
  | strict =>
      exact .bind (checkStrictly_asksOnly listed filename) fun _ => .pure _

end Snapshot

end TagCheck
