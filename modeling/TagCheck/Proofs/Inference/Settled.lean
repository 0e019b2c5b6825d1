import TagCheck.Proofs.Snapshot

namespace TagCheck

/-!
# Settled types

What an inquiry leads to is settled if it follows from declarations, by opening pins again and
again, without giving up on any of them.  The same can be asked about what follows from a memory:
then remembered types are known from the start, and only pins that are never remembered are opened.
-/

/-- The type that a pin declares. -/
def PinOf.declaredType? (pin : Pin) : Option DocUnion :=
  if pin.declared.isDefined then some pin.declared else none

/-- The type of a pin that is declared or remembered. -/
def Memo.knownType? (memo : Memo) (pin : Pin) : Option DocUnion :=
  match pin.declaredType? with
  | some type => some type
  | none => memo.lookup pin.id

namespace Snapshot

/--
The result of an inquiry follows from known types, where some unknown pins may be opened, nested so
deeply at most.
-/
inductive DerivesWithin (snapshot : Snapshot) (known : Pin → Option DocUnion) (isOpened : Pin → Bool) :
    (depth : Nat) → {α : Type} → Inquiry α → α → Prop
  | answer {α : Type} (depth : Nat) (result : α) :
      DerivesWithin snapshot known isOpened depth (.answer result) result
  | known {α : Type} {depth : Nat} {pin : Pin} {type : DocUnion} {next : DocUnion → Inquiry α}
      {result : α} (isKnown : known pin = some type)
      (rest : DerivesWithin snapshot known isOpened depth (next type) result) :
      DerivesWithin snapshot known isOpened depth (.ask pin next) result
  | opened {α : Type} {depth : Nat} {pin : Pin} {type : DocUnion} {next : DocUnion → Inquiry α}
      {result : α} (unknown : known pin = none) (opens : isOpened pin = true)
      (inside : DerivesWithin snapshot known isOpened depth (snapshot.inferAnew pin) type)
      (rest : DerivesWithin snapshot known isOpened (depth + 1) (next type) result) :
      DerivesWithin snapshot known isOpened (depth + 1) (.ask pin next) result

namespace DerivesWithin

variable {snapshot : Snapshot} {known : Pin → Option DocUnion} {isOpened : Pin → Bool}
variable {depth : Nat} {inquiry : Inquiry α} {result : α}

/-- A greater depth leads to the same results. -/
theorem mono
    (derived : snapshot.DerivesWithin known isOpened depth inquiry result)
    {greater : Nat}
    (le : depth ≤ greater) :
    snapshot.DerivesWithin known isOpened greater inquiry result := by
  induction derived generalizing greater with
  | answer depth result =>
      exact .answer greater result
  | known isKnown _ restHypothesis =>
      exact .known isKnown (restHypothesis le)
  | opened unknown opens _ _ insideHypothesis restHypothesis =>
      cases greater with
      | zero =>
          exact absurd le (Nat.not_succ_le_zero _)
      | succ greater =>
          exact .opened unknown opens (insideHypothesis (Nat.le_of_succ_le_succ le))
            (restHypothesis le)

/-- An inquiry leads to one result only, at whatever depth. -/
theorem unique
    (derived : snapshot.DerivesWithin known isOpened depth inquiry result)
    {otherDepth : Nat}
    {other : α}
    (otherDerived : snapshot.DerivesWithin known isOpened otherDepth inquiry other) :
    result = other := by
  induction derived generalizing otherDepth with
  | answer depth result =>
      cases otherDerived
      rfl
  | known isKnown _ restHypothesis =>
      cases otherDerived with
      | known otherKnown otherRest =>
          cases isKnown.symm.trans otherKnown
          exact restHypothesis otherRest
      | opened unknown _ _ _ =>
          cases isKnown.symm.trans unknown
  | opened unknown _ _ _ insideHypothesis restHypothesis =>
      cases otherDerived with
      | known otherKnown _ =>
          cases otherKnown.symm.trans unknown
      | opened _ _ otherInside otherRest =>
          cases insideHypothesis otherInside
          exact restHypothesis otherRest

theorem typeOf_known
    {pin : Pin}
    {type : DocUnion}
    (isKnown : known pin = some type) :
    snapshot.DerivesWithin known isOpened depth (.typeOf pin) type :=
  .known isKnown (.answer depth type)

theorem typeOf_opened
    {pin : Pin}
    {type : DocUnion}
    (unknown : known pin = none)
    (opens : isOpened pin = true)
    (inside : snapshot.DerivesWithin known isOpened depth (snapshot.inferAnew pin) type) :
    snapshot.DerivesWithin known isOpened (depth + 1) (.typeOf pin) type :=
  .opened unknown opens inside (.answer (depth + 1) type)

/-- A question is answered first, and then the inquiry goes on. -/
theorem ask
    {pin : Pin}
    {type : DocUnion}
    {next : DocUnion → Inquiry α}
    (asked : snapshot.DerivesWithin known isOpened depth (.typeOf pin) type)
    (rest : snapshot.DerivesWithin known isOpened depth (next type) result) :
    snapshot.DerivesWithin known isOpened depth (.ask pin next) result := by
  cases asked with
  | known isKnown answered =>
      cases answered
      exact .known isKnown rest
  | opened unknown opens inside answered =>
      cases answered
      exact .opened unknown opens inside rest

theorem of_ask
    {pin : Pin}
    {next : DocUnion → Inquiry α}
    (derived : snapshot.DerivesWithin known isOpened depth (.ask pin next) result) :
    ∃ type, snapshot.DerivesWithin known isOpened depth (.typeOf pin) type ∧
      snapshot.DerivesWithin known isOpened depth (next type) result := by
  cases derived with
  | known isKnown rest =>
      exact ⟨_, typeOf_known isKnown, rest⟩
  | opened unknown opens inside rest =>
      exact ⟨_, typeOf_opened unknown opens inside, rest⟩

theorem of_typeOf
    {pin : Pin}
    {type : DocUnion}
    (derived : snapshot.DerivesWithin known isOpened depth (.typeOf pin) type) :
    known pin = some type ∨
      known pin = none ∧ isOpened pin = true ∧
        ∃ inner, depth = inner + 1 ∧
          snapshot.DerivesWithin known isOpened inner (snapshot.inferAnew pin) type := by
  cases derived with
  | known isKnown answered =>
      cases answered
      exact .inl isKnown
  | opened unknown opens inside answered =>
      cases answered
      exact .inr ⟨unknown, opens, _, rfl, inside⟩

end DerivesWithin

/-- The result of an inquiry follows from known types, at some depth. -/
def Derives (snapshot : Snapshot) (known : Pin → Option DocUnion) (isOpened : Pin → Bool)
    (inquiry : Inquiry α) (result : α) : Prop :=
  ∃ depth, snapshot.DerivesWithin known isOpened depth inquiry result

namespace Derives

variable {snapshot : Snapshot} {known : Pin → Option DocUnion} {isOpened : Pin → Bool}
variable {pin : Pin} {type : DocUnion}

/-- An inquiry leads to one result only. -/
theorem unique
    {inquiry : Inquiry α}
    {result other : α}
    (derived : snapshot.Derives known isOpened inquiry result)
    (otherDerived : snapshot.Derives known isOpened inquiry other) :
    result = other := by
  obtain ⟨_, derived⟩ := derived
  obtain ⟨_, otherDerived⟩ := otherDerived
  exact derived.unique otherDerived

/-- A result follows from nothing. -/
theorem answer
    (result : α) :
    snapshot.Derives known isOpened (.answer result) result :=
  ⟨0, .answer 0 result⟩

/-- A question is answered first, and then the inquiry goes on. -/
theorem ask
    {next : DocUnion → Inquiry α}
    {result : α}
    (asked : snapshot.Derives known isOpened (.typeOf pin) type)
    (rest : snapshot.Derives known isOpened (next type) result) :
    snapshot.Derives known isOpened (.ask pin next) result := by
  obtain ⟨askedDepth, asked⟩ := asked
  obtain ⟨restDepth, rest⟩ := rest
  refine ⟨max askedDepth restDepth, .ask (asked.mono ?_) (rest.mono ?_)⟩
  · exact Nat.le_max_left askedDepth restDepth
  · exact Nat.le_max_right askedDepth restDepth

theorem of_ask
    {next : DocUnion → Inquiry α}
    {result : α}
    (derived : snapshot.Derives known isOpened (.ask pin next) result) :
    ∃ type, snapshot.Derives known isOpened (.typeOf pin) type ∧
      snapshot.Derives known isOpened (next type) result := by
  obtain ⟨depth, derived⟩ := derived
  obtain ⟨type, asked, rest⟩ := derived.of_ask
  exact ⟨type, ⟨depth, asked⟩, ⟨depth, rest⟩⟩

theorem typeOf_known
    (isKnown : known pin = some type) :
    snapshot.Derives known isOpened (.typeOf pin) type :=
  ⟨0, .typeOf_known isKnown⟩

theorem typeOf_opened
    (unknown : known pin = none)
    (opens : isOpened pin = true)
    (inside : snapshot.Derives known isOpened (snapshot.inferAnew pin) type) :
    snapshot.Derives known isOpened (.typeOf pin) type := by
  obtain ⟨depth, inside⟩ := inside
  exact ⟨depth + 1, .typeOf_opened unknown opens inside⟩

theorem of_typeOf
    (derived : snapshot.Derives known isOpened (.typeOf pin) type) :
    known pin = some type ∨
      known pin = none ∧ isOpened pin = true ∧
        snapshot.Derives known isOpened (snapshot.inferAnew pin) type := by
  obtain ⟨depth, derived⟩ := derived
  rcases derived.of_typeOf with isKnown | ⟨unknown, opens, inner, -, inside⟩
  · exact .inl isKnown
  · exact .inr ⟨unknown, opens, inner, inside⟩

end Derives

/-- The result of an inquiry follows from declarations, by opening pins to a depth. -/
abbrev SettlesWithin (snapshot : Snapshot) (depth : Nat) (inquiry : Inquiry α) (result : α) :
    Prop :=
  snapshot.DerivesWithin PinOf.declaredType? (fun _ => true) depth inquiry result

/-- The result of an inquiry follows from declarations. -/
abbrev Settles (snapshot : Snapshot) (inquiry : Inquiry α) (result : α) : Prop :=
  snapshot.Derives PinOf.declaredType? (fun _ => true) inquiry result

/-- The result of an inquiry follows from a memory, if only pins without one are opened. -/
abbrev Recalls (snapshot : Snapshot) (memo : Memo) (inquiry : Inquiry α) (result : α) : Prop :=
  snapshot.Derives memo.knownType? (fun pin => !pin.isRemembered) inquiry result

end Snapshot

end TagCheck
