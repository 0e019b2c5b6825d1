import TagCheck.Inference.Chain
import TagCheck.Proofs.Inference.CallChain
import TagCheck.Proofs.Inference.Outcome
import TagCheck.Proofs.Outline.HardScope
import TagCheck.Proofs.Outline.Location
import TagCheck.Proofs.Snapshot

namespace TagCheck

/-!
# The type of a chain, by its text and by its tree

A chain of calls is followed along its text, segment by segment, and its tree is evaluated bottom up.
Both ask about the same pins and come to the same type, except where the chain calls a private method
on `self`: the text takes `self` for an explicit receiver, and the tree does not.
-/

namespace Inference

/-- Where a name refers to nothing, no type is known. -/
def IsConsistent (inference : Inference) : Prop :=
  inference.isResolved = false → inference.type = []

theorem isConsistent_ofUnresolved
    (name : String) :
    (ofUnresolved name).IsConsistent :=
  fun _ => rfl

theorem isConsistent_of_unresolved_eq_none
    {inference : Inference}
    (resolved : inference.unresolved = none) :
    inference.IsConsistent := by
  intro unresolved
  simp [isResolved, resolved] at unresolved

end Inference

namespace Snapshot

open Inference

variable {snapshot : Snapshot}

theorem callMethod_isConsistent
    (receiver : DocUnion)
    (name : String)
    (isExplicit : Bool) :
    (snapshot.callMethod receiver name isExplicit).Always IsConsistent := by
  unfold callMethod
  refine .bind (.trivial _) fun answers _ => ?_
  dsimp only
  split
  · exact .pure (isConsistent_ofUnresolved name)
  · exact .pure (isConsistent_of_unresolved_eq_none rfl)

theorem variableOf_isConsistent
    (name : String)
    (pins : List Pin) :
    (variableOf name pins).Always IsConsistent := by
  unfold variableOf
  split
  · exact .pure (isConsistent_ofUnresolved name)
  · exact .bind (.trivial _) fun _ _ => .pure (isConsistent_of_unresolved_eq_none rfl)

theorem constant_isConsistent
    (closure : Closure)
    (name : String) :
    (snapshot.constant closure name).Always IsConsistent := by
  unfold constant
  split
  · exact .pure (isConsistent_ofUnresolved name)
  · dsimp only
    split
    · exact .pure (isConsistent_of_unresolved_eq_none rfl)
    · exact .bind (.trivial _) fun _ _ => .pure (isConsistent_of_unresolved_eq_none rfl)

theorem word_isConsistent
    (closure : Closure)
    (locals : List Pin)
    (name : String) :
    (snapshot.word closure locals name).Always IsConsistent := by
  unfold word
  split
  · exact .bind (.trivial _) fun _ _ => .pure (isConsistent_of_unresolved_eq_none rfl)
  · exact callMethod_isConsistent _ _ _

theorem resolveHead_isConsistent
    (closure : Closure)
    (locals : List Pin)
    (head : Segment) :
    (snapshot.resolveHead closure locals head).Always IsConsistent := by
  cases head with
  | selfReference =>
      exact .pure (isConsistent_of_unresolved_eq_none rfl)
  | literal className =>
      exact .pure (isConsistent_of_unresolved_eq_none rfl)
  | word name =>
      exact word_isConsistent closure locals name
  | constant name =>
      exact constant_isConsistent closure name
  | instanceVariable name =>
      exact variableOf_isConsistent _ _
  | classVariable name =>
      exact variableOf_isConsistent _ _
  | globalVariable name =>
      exact variableOf_isConsistent _ _
  | index =>
      exact .pure (isConsistent_ofUnresolved "[]")

/-- The type of a call on a value of a type; what is undefined answers to nothing. -/
def typeOfCall (snapshot : Snapshot) (isExplicit : Bool) (type : DocUnion) (name : String) :
    Inquiry DocUnion :=
  if type.isUndefined then
    return []
  else
    (·.type) <$> snapshot.callMethod type name isExplicit

/--
The type at the end of calls that follow a value of a type.  Behind the first call every receiver is
explicit.
-/
def typeAlong (snapshot : Snapshot) (isExplicit : Bool) (type : DocUnion) :
    List String → Inquiry DocUnion
  | [] => return type
  | name :: rest => do
      rest.foldlM (snapshot.typeOfCall true) (← snapshot.typeOfCall isExplicit type name)

theorem type_callOn
    (receiver : Inference)
    (name : String)
    (isExplicit : Bool) :
    (·.type) <$> snapshot.callOn receiver name isExplicit =
      snapshot.typeOfCall isExplicit receiver.type name := by
  unfold callOn typeOfCall
  split
  · rfl
  · rfl

/-- Calls on what is undefined lead nowhere. -/
theorem foldlM_typeOfCall_nil
    (isExplicit : Bool)
    (names : List String) :
    names.foldlM (snapshot.typeOfCall isExplicit) [] = pure [] := by
  induction names with
  | nil =>
      rfl
  | cons name rest inductionHypothesis =>
      rw [List.foldlM_cons]
      exact inductionHypothesis

theorem typeAlong_true
    (type : DocUnion)
    (names : List String) :
    snapshot.typeAlong true type names = names.foldlM (snapshot.typeOfCall true) type := by
  cases names <;> rfl

/-- One more call at the end has an explicit receiver, unless it is the first. -/
theorem typeAlong_append
    (isExplicit : Bool)
    (type : DocUnion)
    (names : List String)
    (name : String) :
    snapshot.typeAlong isExplicit type (names ++ [name]) =
      snapshot.typeAlong isExplicit type names >>= fun type =>
        snapshot.typeOfCall (isExplicit || !names.isEmpty) type name := by
  cases names with
  | nil =>
      simp [typeAlong]
  | cons first rest =>
      simp [typeAlong]

/-- The type at the end of a chain that is followed along its text. -/
theorem type_followSegments
    {signature : String}
    {names : List String}
    {current : Inference}
    (consistent : current.IsConsistent) :
    (·.type) <$> snapshot.followSegments signature current (names.map .word) =
      names.foldlM (snapshot.typeOfCall true) current.type := by
  induction names generalizing current with
  | nil =>
      rfl
  | cons name rest inductionHypothesis =>
      rw [List.map_cons, followSegments, List.foldlM_cons, typeOfCall]
      by_cases isUndefined : current.type.isUndefined = true
      · -- The walk along the text ends here; the fold goes on, and stays undefined.
        simp only [isUndefined, Bool.or_true, if_true, pure_bind]
        exact (foldlM_typeOfCall_nil true rest).symm
      · have isResolved : current.isResolved = true := by
          by_contra unresolved
          exact isUndefined (by rw [consistent (Bool.eq_false_iff.mpr unresolved)]; rfl)
        simp only [isUndefined, isResolved, Bool.not_true, Bool.or_self, Bool.false_eq_true,
          if_false, map_bind, bind_map_left]
        exact Inquiry.Always.bind_congr (callMethod_isConsistent _ _ _)
          fun next nextConsistent => inductionHypothesis nextConsistent

end Snapshot

namespace ChainHead

/-- The kinds of the nodes that heads are. -/
def kinds : ChainHead → List NodeKind
  | .selfReference => [.selfReference]
  | .constant _ => [.constant, .scopeResolution]
  | .instanceVariable _ => [.instanceVariable]
  | .classVariable _ => [.classVariable]
  | .globalVariable _ => [.globalVariable]
  | .word _ => [.identifier]

/-- A node is a head that begins at a position. -/
structure IsNodeAt (position : Position) (head : ChainHead) (node : SyntaxNode) : Prop where
  kind : node.kind ∈ head.kinds
  text : node.text = head.text
  start : node.span.start = position

/-- Everything but `self` is an explicit receiver. -/
def isExplicit : ChainHead → Bool
  | .selfReference => false
  | _ => true

/-- A node is `self` exactly if it is the head that is no explicit receiver. -/
theorem IsNodeAt.kind_ne_selfReference
    {position : Position}
    {head : ChainHead}
    {node : SyntaxNode}
    (isNode : head.IsNodeAt position node) :
    (node.kind != .selfReference) = head.isExplicit := by
  have kind := isNode.kind
  cases head <;> simp only [kinds, List.mem_cons, List.not_mem_nil, or_false] at kind
  case constant path =>
    rcases kind with kind | kind <;> rw [kind] <;> rfl
  all_goals
    rw [kind]
    rfl

end ChainHead

/-- A tree is the chain of some calls behind a head that begins at a position. -/
inductive CallChain.IsTreeAt (position : Position) (head : ChainHead) :
    List String → SyntaxNode → Prop
  | head {node : SyntaxNode} (isNode : head.IsNodeAt position node) : IsTreeAt position head [] node
  | call {names : List String} {name : String} {receiver node : SyntaxNode}
      (isChain : IsTreeAt position head names receiver) (isCall : node.kind = .call)
      (isReceiver : node.child? .receiver = some receiver) (isName : node.name? = some name) :
      IsTreeAt position head (names ++ [name]) node

namespace Snapshot

variable {snapshot : Snapshot} {site : Site}

theorem evaluateField_eq
    {field : NodeField}
    {nodes : List SyntaxNode}
    {node : SyntaxNode}
    (found : nodes.find? (·.field = some field) = some node) :
    snapshot.evaluateField site field nodes = snapshot.evaluate site node := by
  induction nodes with
  | nil =>
      cases found
  | cons first rest inductionHypothesis =>
      rw [evaluateField]
      by_cases isField : first.field = some field
      · rw [List.find?_cons_of_pos (by simpa using isField)] at found
        cases found
        rw [if_pos isField]
      · rw [List.find?_cons_of_neg (by simpa using isField)] at found
        rw [if_neg isField, inductionHypothesis found]

/-- The tree of a head is evaluated as the head is resolved. -/
theorem evaluate_head
    {position : Position}
    {head : ChainHead}
    {node : SyntaxNode}
    (isNode : head.IsNodeAt position node) :
    snapshot.evaluate site node =
      snapshot.resolveHead site.closure (snapshot.localsAt site.filename position) head.segment := by
  obtain ⟨kind, text, rfl⟩ := isNode
  obtain ⟨nodeKind, field, text?, comments, span, children⟩ := node
  cases head <;> simp only [ChainHead.kinds, List.mem_cons, List.not_mem_nil, or_false] at kind
  case constant path =>
    rcases kind with rfl | rfl <;>
    · rw [evaluate, ChainHead.segment, ← text]
      rfl
  all_goals
    subst kind
    rw [evaluate, ChainHead.segment]
    first | rfl | (rw [← text]; rfl)

/-- The tree of a call is evaluated as a call on its receiver. -/
theorem evaluate_call
    {node receiver : SyntaxNode}
    {name : String}
    (isCall : node.kind = .call)
    (isReceiver : node.child? .receiver = some receiver)
    (isName : node.name? = some name) :
    snapshot.evaluate site node =
      snapshot.evaluate site receiver >>= fun resolved =>
        snapshot.callOn resolved name (receiver.kind != .selfReference) := by
  obtain ⟨kind, field, text?, comments, span, children⟩ := node
  cases isCall
  rw [evaluate]
  simp only [SyntaxNode.literalType?, SyntaxNode.literalTypeName?, Option.map_none, isName,
    isReceiver]
  rw [evaluateField_eq isReceiver]

/-- The type of a chain that is evaluated bottom up along its tree. -/
theorem type_evaluate
    {position : Position}
    {head : ChainHead}
    {names : List String}
    {tree : SyntaxNode}
    (isTree : CallChain.IsTreeAt position head names tree) :
    (·.type) <$> snapshot.evaluate site tree =
      snapshot.resolveHead site.closure (snapshot.localsAt site.filename position) head.segment >>=
        fun first => snapshot.typeAlong head.isExplicit first.type names := by
  induction isTree with
  | head isNode =>
      rw [evaluate_head isNode, map_eq_pure_bind]
      rfl
  | @call names name receiver node isChain isCall isReceiver isName inductionHypothesis =>
      -- Only the head can be `self`: a receiver with a call in it is itself a call.
      have isExplicit : (receiver.kind != .selfReference) =
          (head.isExplicit || !names.isEmpty) := by
        cases isChain with
        | head isNode =>
            simpa using isNode.kind_ne_selfReference
        | call _ isInnerCall =>
            have ofCall : (NodeKind.call != .selfReference) = true := by decide
            simp [isInnerCall, ofCall]
      calc
        (·.type) <$> snapshot.evaluate site node
          = snapshot.evaluate site receiver >>= fun resolved =>
              snapshot.typeOfCall (head.isExplicit || !names.isEmpty) resolved.type name := by
            simp only [evaluate_call isCall isReceiver isName, map_bind, type_callOn, isExplicit]
        _ = ((·.type) <$> snapshot.evaluate site receiver) >>= fun type =>
              snapshot.typeOfCall (head.isExplicit || !names.isEmpty) type name := by
            rw [bind_map_left]
        _ = _ := by
            simp only [inductionHypothesis, bind_assoc, typeAlong_append]

section Receivers

variable {receiver : DocType} {name : String}

/-- A call reaches a method only without an explicit receiver. -/
def isHidden (snapshot : Snapshot) (receiver : DocType) (name : String) : Bool :=
  !(receiver.isMeta && name = "new") && (snapshot.calledMethod? receiver name false).isSome &&
    (snapshot.calledMethod? receiver name true).isNone

/-- A call that reaches a method with an explicit receiver, too, reaches the same one. -/
theorem calledMethod?_explicit
    (visible : (snapshot.calledMethod? receiver name false).isSome = true →
      (snapshot.calledMethod? receiver name true).isSome = true) :
    snapshot.calledMethod? receiver name true = snapshot.calledMethod? receiver name false := by
  simp only [calledMethod?, if_true, Bool.false_eq_true, if_false, Index.publicMethod?] at visible ⊢
  cases reached : snapshot.index.method? receiver.refersTo name (levelOf receiver) with
  | none =>
      rfl
  | some method =>
      rw [reached, Option.isSome_filter] at visible
      exact if_pos (visible rfl)

/-- An explicit receiver makes no difference to a call of a method that it does not hide. -/
theorem callAlternative_explicit
    (visible : snapshot.isHidden receiver name = false) :
    snapshot.callAlternative name true receiver = snapshot.callAlternative name false receiver := by
  unfold callAlternative
  split
  · rfl
  · split
    · rfl
    · next notConstructed =>
        rw [calledMethod?_explicit]
        simpa [isHidden, notConstructed] using visible

/-- A call of a hidden method is answered with nothing, unless it asks for the class. -/
theorem callAlternative_of_isHidden
    (hidden : snapshot.isHidden receiver name = true)
    (notClass : name ≠ "class") :
    snapshot.callAlternative name true receiver = pure ⟨none, none⟩ := by
  simp only [isHidden, Bool.and_eq_true, Bool.not_eq_true', Option.isNone_iff_eq_none] at hidden
  obtain ⟨⟨notConstructed, -⟩, notReached⟩ := hidden
  simp [callAlternative, notConstructed, notReached, notClass]

end Receivers

section Self

variable {closure : Closure} {name : String}

/-- There is one alternative for `self`. -/
theorem exists_selfType
    (snapshot : Snapshot)
    (closure : Closure) :
    ∃ self, snapshot.selfType closure = [self] := by
  unfold selfType
  split
  · exact ⟨_, rfl⟩
  · split <;> exact ⟨_, rfl⟩

/-- A call on `self` reaches a method only if `self` is no explicit receiver. -/
def hidesFromSelf (snapshot : Snapshot) (closure : Closure) (name : String) : Bool :=
  (snapshot.selfType closure).any (snapshot.isHidden · name)

theorem typeOfCall_self
    (visible : snapshot.hidesFromSelf closure name = false) :
    snapshot.typeOfCall true (snapshot.selfType closure) name =
      snapshot.typeOfCall false (snapshot.selfType closure) name := by
  obtain ⟨self, isSelf⟩ := snapshot.exists_selfType closure
  rw [hidesFromSelf, isSelf, List.any_cons, List.any_nil, Bool.or_false] at visible
  simp only [typeOfCall, callMethod, isSelf, List.mapM_cons, List.mapM_nil,
    callAlternative_explicit visible]

theorem typeOfCall_self_of_hidden
    (hidden : snapshot.hidesFromSelf closure name = true)
    (notClass : name ≠ "class") :
    snapshot.typeOfCall true (snapshot.selfType closure) name = pure [] := by
  obtain ⟨self, isSelf⟩ := snapshot.exists_selfType closure
  rw [hidesFromSelf, isSelf, List.any_cons, List.any_nil, Bool.or_false] at hidden
  simp only [typeOfCall, callMethod, isSelf, List.mapM_cons, List.mapM_nil,
    callAlternative_of_isHidden hidden notClass]
  rfl

/-- A chain calls a method on `self` that an explicit receiver hides. -/
def callsHidden (snapshot : Snapshot) (closure : Closure) (chain : CallChain) : Bool :=
  match chain with
  | ⟨.selfReference, name :: _⟩ => snapshot.hidesFromSelf closure name
  | _ => false

end Self

section Chains

variable {chain : CallChain} {context : Pin} {locals : List Pin}

/-- The type of the text of a chain: every call of it has an explicit receiver. -/
theorem type_evaluateSignature
    (plain : chain.IsPlain)
    (notLong : chain.segments.length ≤ maxSegments)
    (readable : chain.isReadable = true) :
    (·.type) <$> snapshot.evaluateSignature chain.text context locals =
      snapshot.resolveHead context.innerClosure locals chain.head.segment >>= fun first =>
        snapshot.typeAlong true first.type chain.names := by
  have short : ¬maxSegments < (chain.names.map Segment.word).length + 1 :=
    Nat.not_lt.mpr notLong
  have isRead : Signature.read? chain.text = some chain.segments := by
    rw [CallChain.read?_text plain, readable, if_pos rfl]
  rw [evaluateSignature, isRead, CallChain.segments]
  simp only [if_neg short, map_bind]
  refine Inquiry.Always.bind_congr (resolveHead_isConsistent _ _ _) fun first consistent => ?_
  rw [type_followSegments consistent, typeAlong_true]

/-- A text that has an unknown name in it has no type, and no pin is asked about. -/
theorem type_evaluateSignature_of_not_readable
    (plain : chain.IsPlain)
    (unreadable : chain.isReadable = false) :
    (·.type) <$> snapshot.evaluateSignature chain.text context locals = pure [] := by
  have notRead : Signature.read? chain.text = none := by
    rw [CallChain.read?_text plain, unreadable, if_neg Bool.false_ne_true]
  rw [evaluateSignature, notRead]
  rfl

variable {position : Position} {tree : SyntaxNode}

/-- The text and the tree of a chain lead to one type, as long as `self` hides no method from it. -/
theorem type_evaluateSignature_eq_type_evaluateIn
    (plain : chain.IsPlain)
    (notLong : chain.segments.length ≤ maxSegments)
    (readable : chain.isReadable = true)
    (visible : snapshot.callsHidden context.innerClosure chain = false)
    (isTree : CallChain.IsTreeAt position chain.head chain.names tree)
    (sameLocals : snapshot.localsAt context.location.filename position = locals) :
    (·.type) <$> snapshot.evaluateSignature chain.text context locals =
      (·.type) <$> snapshot.evaluateIn context tree := by
  rw [type_evaluateSignature plain notLong readable, evaluateIn, type_evaluate isTree, sameLocals]
  obtain ⟨head, names⟩ := chain
  -- The text and the tree differ only in how they see `self` as the receiver of the first call.
  cases head with
  | selfReference =>
      cases names with
      | nil =>
          rfl
      | cons name rest =>
          exact congrArg (· >>= fun type => rest.foldlM (snapshot.typeOfCall true) type)
            (typeOfCall_self visible)
  | _ =>
      rfl

/-- The text of a chain that calls a hidden method on `self` has no type. -/
theorem type_evaluateSignature_of_callsHidden
    (plain : chain.IsPlain)
    (notLong : chain.segments.length ≤ maxSegments)
    (hidden : snapshot.callsHidden context.innerClosure chain = true)
    (notClass : chain.names.head? ≠ some "class") :
    (·.type) <$> snapshot.evaluateSignature chain.text context locals = pure [] := by
  cases readable : chain.isReadable with
  | false =>
      exact type_evaluateSignature_of_not_readable plain readable
  | true =>
      rw [type_evaluateSignature plain notLong readable]
      unfold callsHidden at hidden
      split at hidden
      · next name rest =>
          have firstUndefined : snapshot.typeOfCall true (snapshot.selfType context.innerClosure)
              name = pure [] :=
            typeOfCall_self_of_hidden hidden fun isClass => notClass (congrArg some isClass)
          calc
            _ = snapshot.typeOfCall true (snapshot.selfType context.innerClosure) name >>=
                  fun type => rest.foldlM (snapshot.typeOfCall true) type := rfl
            _ = pure [] := by
                rw [firstUndefined, pure_bind, foldlM_typeOfCall_nil]
      · cases hidden

end Chains

/-- The result of an inquiry is changed after it is carried out, as well as before. -/
theorem infer_map
    (change : α → β)
    (inquiry : Inquiry α) :
    snapshot.infer (change <$> inquiry) = change <$> snapshot.infer inquiry := by
  rw [map_eq_pure_bind, map_eq_pure_bind, infer, Inquiry.follow_bind]
  rfl

end Snapshot

namespace Outline

/-- Code lies inside of pins of its own file. -/
theorem filename_closureAt
    (number : Nat)
    (source : Source)
    (position : Position) :
    ((ofSource number source).closureAt position).location.filename = source.filename := by
  have located := Survey.isLocatedIn_ofProgram ⟨source.filename, number⟩ source.root
  unfold closureAt
  dsimp only
  cases found : innermost? (·.location.span) ((ofSource number source).pins.filter fun pin =>
      isEnclosing pin && pin.location.span.contains position) with
  | none =>
      rfl
  | some pin =>
      have member := (List.mem_filter.mp (innermost?_spec found).1).1
      rcases List.mem_cons.mp member with rfl | declared
      · rfl
      · exact located.pins pin (List.mem_reverse.mp declared)

end Outline

namespace Snapshot

/-- Code at a position of a published file sees the locals of that file. -/
theorem IsBuilt.localsAt_closureAt
    {snapshot : Snapshot}
    (built : snapshot.IsBuilt)
    {filename : String}
    {outline : Outline}
    (published : snapshot.outline? filename = some outline)
    (position : Position) :
    snapshot.localsAt (outline.closureAt position).location.filename position =
      outline.localsAt position := by
  have named := filename_of_outline? published
  have inFile : (outline.closureAt position).location.filename = filename := by
    cases built with
    | ofOutlines start sources =>
        obtain ⟨⟨source, place⟩, -, rfl⟩ :=
          List.mem_map.mp (mem_outlines_of_outline? published)
        rw [Outline.filename_closureAt, ← named]
        rfl
    | ofPins start sources =>
        cases published
  rw [inFile, localsAt, published]

/--
A chain of calls without arguments stands at a position of a published file.  Its text and its tree
lead to the same type and leave the same memory, if signatures know all names in it and it calls no
method on `self` that explicit receivers do not reach.  Otherwise its text has no type, unless the
hidden method is named `class`, which every object answers to.
-/
theorem IsBuilt.type_resolve_chain
    {snapshot : Snapshot}
    (built : snapshot.IsBuilt)
    {filename : String}
    {outline : Outline}
    (published : snapshot.outline? filename = some outline)
    (position : Position)
    {chain : CallChain}
    (plain : chain.IsPlain)
    (notLong : chain.segments.length ≤ maxSegments)
    {tree : SyntaxNode}
    (isTree : CallChain.IsTreeAt position chain.head chain.names tree) :
    let context := outline.closureAt position
    let ofText := (·.type) <$> snapshot.resolve chain.text context (outline.localsAt position)
    let ofTree := (·.type) <$> snapshot.resolveNode tree context
    (chain.isReadable = true → snapshot.callsHidden context.innerClosure chain = false →
        ofText = ofTree) ∧
      (chain.isReadable = false → ofText = pure []) ∧
      (snapshot.callsHidden context.innerClosure chain = true →
        chain.names.head? ≠ some "class" → ofText = pure []) := by
  simp only [resolve, resolveNode, ← infer_map]
  refine ⟨fun readable visible => ?_, fun unreadable => ?_, fun hidden notClass => ?_⟩
  · rw [type_evaluateSignature_eq_type_evaluateIn plain notLong readable visible isTree
      (built.localsAt_closureAt published position)]
  · rw [type_evaluateSignature_of_not_readable plain unreadable]
    rfl
  · rw [type_evaluateSignature_of_callsHidden plain notLong hidden notClass]
    rfl

end Snapshot

namespace PrivateCall

open Stub.Layout

/-- The call `self.secret`. -/
def call : SyntaxNode :=
  branch .call none ⟨2, 4⟩ ⟨2, 15⟩
    [leaf .selfReference (some .receiver) ⟨2, 4⟩ "self",
      leaf .operator (some .operator) ⟨2, 8⟩ ".",
      leaf .identifier (some .method) ⟨2, 9⟩ "secret"]

/-- The call `Foo.new`. -/
def construction : SyntaxNode :=
  branch .call (some .receiver) ⟨12, 0⟩ ⟨12, 7⟩
    [leaf .constant (some .receiver) ⟨12, 0⟩ "Foo",
      leaf .operator (some .operator) ⟨12, 3⟩ ".",
      leaf .identifier (some .method) ⟨12, 4⟩ "new"]

/-- The calls `Foo.new.open`. -/
def calls : SyntaxNode :=
  branch .call none ⟨12, 0⟩ ⟨12, 12⟩
    [construction, leaf .operator (some .operator) ⟨12, 7⟩ ".",
      leaf .identifier (some .method) ⟨12, 8⟩ "open"]

/-- A class whose public method calls a private one on `self`, and a call of the public method. -/
def source : Source where
  filename := "foo.rb"
  root :=
    branch .program none ⟨0, 0⟩ ⟨13, 0⟩
      [branch .classDefinition none ⟨0, 0⟩ ⟨10, 3⟩
        [leaf .constant (some .name) ⟨0, 6⟩ "Foo",
          branch .method none ⟨1, 2⟩ ⟨3, 5⟩ [leaf .identifier (some .name) ⟨1, 6⟩ "open", call],
          leaf .identifier none ⟨5, 2⟩ "private",
          branch .method none ⟨7, 2⟩ ⟨9, 5⟩
            [leaf .identifier (some .name) ⟨7, 6⟩ "secret", leaf .string none ⟨8, 4⟩ "'x'"]],
        calls]
  isParsed := true

def snapshot : Snapshot :=
  .ofSources [source]

def outline : Outline :=
  .ofSource 1 source

theorem built : snapshot.IsBuilt :=
  .ofSources [source]

theorem published : snapshot.outline? "foo.rb" = some outline :=
  rfl

theorem isCallName {name : String} (member : name ∈ ["new", "open", "secret"]) :
    Signature.IsCallName name.toList := by
  simp only [List.mem_cons, List.not_mem_nil, or_false] at member
  rcases member with rfl | rfl | rfl <;> exact ⟨⟨by decide, by decide⟩, by decide⟩

/-- The chain of public calls has the type of the private method that it ends in. -/
theorem type_resolve_calls :
    let context := outline.closureAt ⟨12, 0⟩
    let ofText := (·.type) <$>
      snapshot.resolve "Foo.new.open" context (outline.localsAt ⟨12, 0⟩)
    ofText = (·.type) <$> snapshot.resolveNode calls context ∧
      (ofText.runOn []).1 = .named "String" := by
  have plain : CallChain.IsPlain ⟨.constant "Foo", ["new", "open"]⟩ :=
    ⟨⟨⟨by decide, by decide⟩, .inl (by decide)⟩,
      fun name member => isCallName (List.mem_append_left ["secret"] member)⟩
  have isReceiver : CallChain.IsTreeAt ⟨12, 0⟩ (.constant "Foo") ["new"] construction :=
    @CallChain.IsTreeAt.call _ _ [] "new" _ _ (.head ⟨List.mem_cons_self, rfl, rfl⟩) rfl rfl
      (by decide +kernel)
  have isTree : CallChain.IsTreeAt ⟨12, 0⟩ (.constant "Foo") ["new", "open"] calls :=
    @CallChain.IsTreeAt.call _ _ ["new"] "open" _ _ isReceiver rfl rfl (by decide +kernel)
  refine ⟨(built.type_resolve_chain published ⟨12, 0⟩ plain (by decide) isTree).1
    (by decide +kernel) rfl, ?_⟩
  rw [snapshot, Snapshot.ofSources_eq_ofList]
  decide +kernel

/-- The private method is called on `self` in the class, but the text of the call has no type. -/
theorem type_resolve_call_ne :
    ¬∀ (snapshot : Snapshot) (filename : String) (outline : Outline) (position : Position)
        (chain : CallChain) (tree : SyntaxNode),
      snapshot.IsBuilt → snapshot.outline? filename = some outline → chain.IsPlain →
        chain.segments.length ≤ Snapshot.maxSegments →
          CallChain.IsTreeAt position chain.head chain.names tree →
            ((snapshot.resolve chain.text (outline.closureAt position)
                (outline.localsAt position)).runOn []).1.type =
              ((snapshot.resolveNode tree (outline.closureAt position)).runOn []).1.type := by
  intro agree
  have plain : CallChain.IsPlain ⟨.selfReference, ["secret"]⟩ :=
    ⟨trivial, fun name member => isCallName (List.mem_append_right ["new", "open"] member)⟩
  have isTree : CallChain.IsTreeAt ⟨2, 4⟩ .selfReference ["secret"] call :=
    @CallChain.IsTreeAt.call _ _ [] "secret" _ _ (.head ⟨List.mem_cons_self, rfl, rfl⟩) rfl rfl
      (by decide +kernel)
  have same := agree snapshot "foo.rb" outline ⟨2, 4⟩ ⟨.selfReference, ["secret"]⟩ call built
    published plain (by decide) isTree
  have differ :
      ((snapshot.resolve (CallChain.text ⟨.selfReference, ["secret"]⟩) (outline.closureAt ⟨2, 4⟩)
          (outline.localsAt ⟨2, 4⟩)).runOn []).1.type ≠
        ((snapshot.resolveNode call (outline.closureAt ⟨2, 4⟩)).runOn []).1.type := by
    rw [snapshot, Snapshot.ofSources_eq_ofList]
    decide +kernel
  exact differ same

end PrivateCall

end TagCheck
