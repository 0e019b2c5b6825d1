import TagCheck.Inference.Chain
import TagCheck.Proofs.Index.Lookup

namespace TagCheck

/-!
# Which pins are asked about

Inferences ask about pins of their snapshot only: declarations that the index finds, and locals of
an outline.  This is shown for every rule of inference, and then for whole expressions along the
syntax tree.
-/

namespace Inquiry

/-- An inquiry asks only about pins with a property, whatever it is answered. -/
def AsksOnly (allowed : Pin → Prop) : Inquiry α → Prop
  | .answer _ => True
  | .ask pin next => allowed pin ∧ ∀ type, (next type).AsksOnly allowed

namespace AsksOnly

variable {allowed : Pin → Prop}

theorem pure
    (result : α) :
    (Pure.pure result : Inquiry α).AsksOnly allowed :=
  trivial

theorem bind
    {inquiry : Inquiry α}
    {rest : α → Inquiry β}
    (first : inquiry.AsksOnly allowed)
    (second : ∀ result, (rest result).AsksOnly allowed) :
    (inquiry >>= rest).AsksOnly allowed := by
  induction inquiry with
  | answer result =>
      exact second result
  | ask pin next inductionHypothesis =>
      exact ⟨first.1, fun type => inductionHypothesis type (first.2 type)⟩

theorem typeOf
    {pin : Pin}
    (asked : allowed pin) :
    (Inquiry.typeOf pin).AsksOnly allowed :=
  ⟨asked, fun _ => trivial⟩

theorem mapM
    {inquire : α → Inquiry β}
    {items : List α}
    (each : ∀ item ∈ items, (inquire item).AsksOnly allowed) :
    (items.mapM inquire).AsksOnly allowed := by
  induction items with
  | nil =>
      exact .pure []
  | cons item rest inductionHypothesis =>
      rw [List.mapM_cons]
      have restAsks : (rest.mapM inquire).AsksOnly allowed :=
        inductionHypothesis fun other member => each other (by simp [member])
      exact .bind (each item (by simp)) fun _ => .bind restAsks fun _ => .pure _

theorem unionOf
    {pins : List Pin}
    (asked : ∀ pin ∈ pins, allowed pin) :
    (Inquiry.unionOf pins).AsksOnly allowed :=
  .bind (.mapM fun pin member => .typeOf (asked pin member)) fun _ => .pure _

end AsksOnly

end Inquiry

namespace Snapshot

/-- All pins of a snapshot: declarations with their parameters, and locals. -/
def pins (snapshot : Snapshot) : List Pin :=
  snapshot.index.pins.flatMap (·.withParameters) ++ snapshot.outlines.flatMap (·.locals)

/-- A pin of the snapshot, or one whose type is declared, such as a receiver's view of a pin. -/
def Knows (snapshot : Snapshot) (pin : Pin) : Prop :=
  pin ∈ snapshot.pins ∨ pin.declared.isDefined = true

variable {snapshot : Snapshot}

/-- A snapshot knows its declarations. -/
theorem knows_of_mem_index
    {pin : Pin}
    (member : pin ∈ snapshot.index.pins) :
    snapshot.Knows pin := by
  refine Or.inl (List.mem_append_left _ (List.mem_flatMap.mpr ⟨pin, member, ?_⟩))
  exact List.mem_cons_self

theorem mem_outlines_of_outline?
    {filename : String}
    {outline : Outline}
    (found : snapshot.outline? filename = some outline) :
    outline ∈ snapshot.outlines :=
  List.mem_reverse.mp (List.mem_of_find?_eq_some found)

/-- An outline is found under its own name. -/
theorem filename_of_outline?
    {filename : String}
    {outline : Outline}
    (found : snapshot.outline? filename = some outline) :
    outline.filename = filename := by
  simpa using List.find?_some found

theorem knows_of_mem_localsAt
    {filename : String}
    {position : Position}
    {pin : Pin}
    (member : pin ∈ snapshot.localsAt filename position) :
    snapshot.Knows pin := by
  unfold localsAt at member
  cases found : snapshot.outline? filename with
  | none =>
      simp [found] at member
  | some outline =>
      simp only [found] at member
      have listed := mem_outlines_of_outline? found
      refine Or.inl (List.mem_append_right _ (List.mem_flatMap.mpr ⟨outline, listed, ?_⟩))
      exact (List.mem_filter.mp member).1

section Names

variable (listed : snapshot.index.IsListed)
include listed

/-- A call reaches a method of the snapshot. -/
theorem knows_of_calledMethod?
    {receiver : DocType}
    {name : String}
    {isExplicit : Bool}
    {pin : Pin}
    (reached : snapshot.calledMethod? receiver name isExplicit = some pin) :
    snapshot.Knows pin := by
  unfold calledMethod? at reached
  split at reached
  · exact knows_of_mem_index (listed.mem_pins_of_publicMethod? reached)
  · exact knows_of_mem_index (listed.mem_pins_of_method? reached)

theorem constant_asksOnly
    (closure : Closure)
    (name : String) :
    (snapshot.constant closure name).AsksOnly snapshot.Knows := by
  unfold constant
  split
  · exact .pure _
  · next path _ =>
      dsimp only
      split
      · exact .pure _
      · refine .bind (.unionOf fun pin member => ?_) fun _ => .pure _
        have atPath : pin ∈ snapshot.index.pathPins path :=
          (List.mem_filter.mp member).1
        exact knows_of_mem_index (listed.mem_pathPins.mp atPath).1

omit listed in
theorem variableOf_asksOnly
    (name : String)
    {pins : List Pin}
    (declared : ∀ pin ∈ pins, pin ∈ snapshot.index.pins) :
    (variableOf name pins).AsksOnly snapshot.Knows := by
  unfold variableOf
  split
  · exact .pure _
  · exact .bind (.unionOf fun pin member => knows_of_mem_index (declared pin member))
      fun _ => .pure _

theorem instanceVariable_asksOnly
    (closure : Closure)
    (name : String) :
    (snapshot.instanceVariable closure name).AsksOnly snapshot.Knows :=
  variableOf_asksOnly name fun _ member =>
    listed.mem_pins_of_mem_instanceVariables (List.mem_filter.mp member).1

theorem classVariable_asksOnly
    (closure : Closure)
    (name : String) :
    (snapshot.classVariable closure name).AsksOnly snapshot.Knows :=
  variableOf_asksOnly name fun _ member =>
    listed.mem_pins_of_mem_classVariables (List.mem_filter.mp member).1

omit listed in
theorem globalVariable_asksOnly
    (name : String) :
    (snapshot.globalVariable name).AsksOnly snapshot.Knows :=
  variableOf_asksOnly name fun _ member =>
    Index.mem_pins_of_mem_globals (List.mem_filter.mp member).1

theorem callAlternative_asksOnly
    (name : String)
    (isExplicit : Bool)
    (receiver : DocType) :
    (snapshot.callAlternative name isExplicit receiver).AsksOnly snapshot.Knows := by
  unfold callAlternative
  split
  · exact .pure _
  · split
    · exact .pure _
    · split
      · next method reached =>
          exact .bind (.typeOf (knows_of_calledMethod? listed reached)) fun _ => .pure _
      · split <;> exact .pure _

/-- Calls ask about the methods that they reach. -/
theorem callMethod_asksOnly
    (receiver : DocUnion)
    (name : String)
    (isExplicit : Bool) :
    (snapshot.callMethod receiver name isExplicit).AsksOnly snapshot.Knows := by
  refine .bind (.mapM fun type _ => callAlternative_asksOnly listed name isExplicit type) ?_
  intro answers
  dsimp only
  split <;> exact .pure _

/-- Bare words ask about the given locals, or about methods. -/
theorem word_asksOnly
    (closure : Closure)
    {locals : List Pin}
    (known : ∀ pin ∈ locals, snapshot.Knows pin)
    (name : String) :
    (snapshot.word closure locals name).AsksOnly snapshot.Knows := by
  unfold word
  split
  · next pin found =>
      have member : pin ∈ locals :=
        List.mem_reverse.mp (List.mem_of_find?_eq_some found)
      exact .bind (.typeOf (known pin member)) fun _ => .pure _
  · exact callMethod_asksOnly listed _ name false

theorem indexAlternative_asksOnly
    (receiver : DocType) :
    (snapshot.indexAlternative receiver).AsksOnly snapshot.Knows := by
  unfold indexAlternative
  split
  · exact .pure _
  · exact .bind (callMethod_asksOnly listed [receiver] "[]" true) fun _ => .pure _

theorem indexInto_asksOnly
    (receiver : DocUnion) :
    (snapshot.indexInto receiver).AsksOnly snapshot.Knows := by
  refine .bind (.mapM fun type _ => indexAlternative_asksOnly listed type) ?_
  intro answers
  dsimp only
  split <;> exact .pure _

theorem callOn_asksOnly
    (receiver : Inference)
    (name : String)
    (isExplicit : Bool) :
    (snapshot.callOn receiver name isExplicit).AsksOnly snapshot.Knows := by
  unfold callOn
  split
  · exact .pure _
  · exact callMethod_asksOnly listed receiver.type name isExplicit

set_option linter.unusedSectionVars false in
mutual

/-- Expressions ask about pins of the snapshot. -/
theorem evaluate_asksOnly
    (site : Site) :
    ∀ node, (snapshot.evaluate site node).AsksOnly snapshot.Knows
  | ⟨kind, field, text?, comments, span, children⟩ => by
      unfold evaluate
      dsimp only
      split
      · exact .pure _
      · have fieldAsks := fun role => evaluateField_asksOnly site role children
        split
        -- Names.
        case h_2 => exact word_asksOnly listed _ (fun _ member => knows_of_mem_localsAt member) _
        case h_3 | h_4 => exact constant_asksOnly listed _ _
        case h_5 => exact instanceVariable_asksOnly listed _ _
        case h_6 => exact classVariable_asksOnly listed _ _
        case h_7 => exact globalVariable_asksOnly _
        -- Calls and index accesses.
        case h_8 =>
          split
          · exact .pure _
          · exact callMethod_asksOnly listed _ _ _
          · exact .bind (fieldAsks .receiver) fun _ => callOn_asksOnly listed _ _ _
        case h_9 =>
          split
          · exact .pure _
          · refine .bind (fieldAsks .object) fun receiver => ?_
            split
            · exact .pure _
            · exact indexInto_asksOnly listed _
        -- Assignments and bodies.
        case h_10 | h_11 => exact fieldAsks .right
        case h_12 | h_13 | h_14 | h_15 => exact evaluateLastValue_asksOnly site children
        -- Branches.
        case h_16 | h_17 | h_18 | h_19 =>
          split <;>
            exact .bind (fieldAsks _) fun _ => .bind (fieldAsks .alternative) fun _ => .pure _
        case h_20 => exact .bind (evaluateBranches_asksOnly site children) fun _ => .pure _
        -- Returned values.
        case h_21 =>
          split
          · exact .pure _
          · exact .bind (evaluateReturned_asksOnly site children) fun _ => .pure _
          · exact .pure _
        -- Operators.
        case h_22 =>
          split
          · exact .pure _
          · refine .bind (fieldAsks .left) fun left => ?_
            split
            · refine .bind (fieldAsks .right) fun right => ?_
              split <;> exact .pure _
            · split
              · exact .pure _
              · exact callMethod_asksOnly listed _ _ _
        case h_23 =>
          split
          case h_4 | h_5 => exact evaluateFirstStatement_asksOnly site children
          all_goals exact .pure _
        all_goals exact .pure _

theorem evaluateField_asksOnly
    (site : Site)
    (field : NodeField) :
    ∀ nodes, (snapshot.evaluateField site field nodes).AsksOnly snapshot.Knows
  | [] => .pure _
  | node :: rest => by
      unfold evaluateField
      split
      · exact evaluate_asksOnly site node
      · exact evaluateField_asksOnly site field rest

theorem evaluateFirstStatement_asksOnly
    (site : Site) :
    ∀ nodes, (snapshot.evaluateFirstStatement site nodes).AsksOnly snapshot.Knows
  | [] => .pure _
  | node :: rest => by
      unfold evaluateFirstStatement
      split
      · exact evaluate_asksOnly site node
      · exact evaluateFirstStatement_asksOnly site rest

theorem evaluateLastValue_asksOnly
    (site : Site) :
    ∀ nodes, (snapshot.evaluateLastValue site nodes).AsksOnly snapshot.Knows
  | [] => .pure _
  | node :: rest => by
      unfold evaluateLastValue
      split
      · exact evaluateLastValue_asksOnly site rest
      · split
        · exact evaluate_asksOnly site node
        · exact .pure _

theorem evaluateBranches_asksOnly
    (site : Site) :
    ∀ nodes, (snapshot.evaluateBranches site nodes).AsksOnly snapshot.Knows
  | [] => .pure _
  | ⟨kind, field, text?, comments, span, children⟩ :: rest => by
      have restAsks := evaluateBranches_asksOnly site rest
      unfold evaluateBranches
      split
      · exact .bind (evaluateField_asksOnly site .body children) fun _ =>
          .bind restAsks fun _ => .pure _
      · exact .bind (evaluate_asksOnly site _) fun _ => .bind restAsks fun _ => .pure _
      · exact restAsks

theorem evaluateReturned_asksOnly
    (site : Site) :
    ∀ nodes, (snapshot.evaluateReturned site nodes).AsksOnly snapshot.Knows
  | [] => .pure _
  | ⟨kind, field, text?, comments, span, children⟩ :: rest => by
      unfold evaluateReturned
      split
      · exact .bind (evaluateFirstStatement_asksOnly site children) fun _ => .pure _
      · split
        · exact evaluateReturned_asksOnly site rest
        · split
          · exact .bind (evaluate_asksOnly site _) fun _ => .pure _
          · exact evaluateReturned_asksOnly site rest

end

theorem methodReturn_asksOnly
    (method : Pin) :
    (snapshot.methodReturn method).AsksOnly snapshot.Knows := by
  unfold methodReturn
  split
  · exact .pure _
  · next definition _ =>
      have returnedAsk := fun statement =>
        evaluate_asksOnly listed ⟨method.innerClosure, method.location.filename⟩ statement
      refine .bind (.mapM fun statement _ => .bind (returnedAsk statement) fun _ => .pure _) ?_
      intro returned
      split
      · exact .pure _
      · exact .bind (evaluate_asksOnly listed _ _) fun _ => .pure _

theorem assignedType_asksOnly
    (pin : Pin) :
    (snapshot.assignedType pin).AsksOnly snapshot.Knows := by
  unfold assignedType
  split
  · exact .pure _
  · exact .bind (evaluate_asksOnly listed _ _) fun _ => .pure _

/-- The inference of a pin asks about pins of the snapshot. -/
theorem inferAnew_asksOnly
    (pin : Pin) :
    (snapshot.inferAnew pin).AsksOnly snapshot.Knows := by
  unfold inferAnew
  split
  · split
    · exact .pure _
    · exact methodReturn_asksOnly listed pin
  · exact .pure _
  all_goals first
    | exact assignedType_asksOnly listed pin
    | exact .pure _

theorem evaluateIn_asksOnly
    (context : Pin)
    (node : SyntaxNode) :
    (snapshot.evaluateIn context node).AsksOnly snapshot.Knows :=
  evaluate_asksOnly listed _ node

theorem resolveHead_asksOnly
    (closure : Closure)
    {locals : List Pin}
    (known : ∀ pin ∈ locals, snapshot.Knows pin)
    (head : Segment) :
    (snapshot.resolveHead closure locals head).AsksOnly snapshot.Knows := by
  cases head with
  | selfReference =>
      exact .pure _
  | literal className =>
      exact .pure _
  | word name =>
      exact word_asksOnly listed closure known name
  | constant name =>
      exact constant_asksOnly listed closure name
  | instanceVariable name =>
      exact instanceVariable_asksOnly listed closure name
  | classVariable name =>
      exact classVariable_asksOnly listed closure name
  | globalVariable name =>
      exact globalVariable_asksOnly name
  | index =>
      exact .pure _

theorem followSegments_asksOnly
    (signature : String)
    (current : Inference)
    (segments : List Segment) :
    (snapshot.followSegments signature current segments).AsksOnly snapshot.Knows := by
  induction segments generalizing current with
  | nil =>
      exact .pure _
  | cons segment rest inductionHypothesis =>
      unfold followSegments
      split
      · exact .pure _
      · split
        · exact .bind (indexInto_asksOnly listed _) fun next => inductionHypothesis next
        · exact .bind (callMethod_asksOnly listed _ _ _) fun next => inductionHypothesis next
        · exact .pure _

/-- A signature asks about the given locals, or about pins of the snapshot. -/
theorem evaluateSignature_asksOnly
    (signature : String)
    (context : Pin)
    {locals : List Pin}
    (known : ∀ pin ∈ locals, snapshot.Knows pin) :
    (snapshot.evaluateSignature signature context locals).AsksOnly snapshot.Knows := by
  unfold evaluateSignature
  split
  · split
    · exact .pure _
    · exact .bind (resolveHead_asksOnly listed _ known _) fun first =>
        followSegments_asksOnly listed signature first _
  · exact .pure _

theorem pinsOfSignature_asksOnly
    (signature : String)
    (context : Pin)
    {locals : List Pin}
    (known : ∀ pin ∈ locals, snapshot.Knows pin) :
    (snapshot.pinsOfSignature signature context locals).AsksOnly snapshot.Knows := by
  refine .bind (evaluateSignature_asksOnly listed signature context known) fun inference => ?_
  split <;> exact .pure _

end Names

end Snapshot

end TagCheck
