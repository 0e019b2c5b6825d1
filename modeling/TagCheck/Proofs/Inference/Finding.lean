import Mathlib.Data.Nat.Find
import TagCheck.Proofs.Inference.Runs

namespace TagCheck.Snapshot

/-!
# Settled types are found

A run for a settled type finds it, unless it is nested too deeply: it cannot come back to a pin
under way, because the types of all pins under way take longer to settle.  What it remembers is no
more than every memory has from which the type follows.
-/

variable {snapshot : Snapshot}

/-- The types of all pins under way take more than a depth to settle. -/
def IsApart (snapshot : Snapshot) (active : List PinId) (depth : Nat) : Prop :=
  ∀ pin ∈ snapshot.pins, pin.id ∈ active → ∀ type,
    ¬ snapshot.SettlesWithin depth (.typeOf pin) type

theorem isApart_nil
    (snapshot : Snapshot)
    (depth : Nat) :
    snapshot.IsApart [] depth :=
  nofun

theorem IsApart.mono
    {active : List PinId}
    {depth smaller : Nat}
    (apart : snapshot.IsApart active depth)
    (le : smaller ≤ depth) :
    snapshot.IsApart active smaller :=
  fun pin member isActive type settles => apart pin member isActive type (settles.mono le)

/-- A settled pin settles at a least depth; below it, its own type is not settled. -/
theorem exists_least_settlesWithin
    {depth : Nat}
    {pin : Pin}
    {type : DocUnion}
    (settles : snapshot.SettlesWithin depth (.typeOf pin) type) :
    ∃ least, least ≤ depth ∧ snapshot.SettlesWithin least (.typeOf pin) type ∧
      ∀ smaller, smaller < least → ∀ other,
        ¬ snapshot.SettlesWithin smaller (.typeOf pin) other := by
  classical
  have reached : ∃ depth, snapshot.SettlesWithin depth (.typeOf pin) type :=
    ⟨depth, settles⟩
  refine ⟨Nat.find reached, Nat.find_min' reached settles, Nat.find_spec reached, ?_⟩
  intro smaller below other otherSettles
  have same : other = type :=
    otherSettles.unique settles
  rw [same] at otherSettles
  exact Nat.find_min reached below otherSettles

/-- What a run for a settled result leads to if it is not nested too deeply. -/
structure Finds (snapshot : Snapshot) (inquiry : Inquiry α) (result : α)
    (before : InferenceState) (found : α) (after : InferenceState) : Prop where
  found_eq : found = result
  cycles_eq : after.cycles = before.cycles
  overruns_eq : after.overruns = before.overruns
  within : ∀ memo, snapshot.IsExact memo → before.memo.IsWithin memo →
    (∃ recalled, snapshot.Recalls memo inquiry recalled) → after.memo.IsWithin memo

/-- A settled result is found, or the run is nested more deeply than a limit. -/
def FindsOrOverruns (snapshot : Snapshot) (limit depth : Nat) (inquiry : Inquiry α) (result : α)
    (before : InferenceState) (found : α) (after : InferenceState) : Prop :=
  snapshot.Finds inquiry result before found after ∨
    limit < depth ∧ before.overruns < after.overruns

/-- A run without questions finds its result. -/
theorem Finds.answer
    (result : α)
    (before : InferenceState) :
    snapshot.Finds (.answer result) result before result before where
  found_eq := rfl
  cycles_eq := rfl
  overruns_eq := rfl
  within _ _ within _ := within

/-- A known type is found. -/
theorem Finds.known
    {pin : Pin}
    (asked : snapshot.Knows pin)
    {before : InferenceState}
    (isExact : snapshot.IsExact before.memo)
    {type found : DocUnion}
    (settles : snapshot.Settles (.typeOf pin) type)
    (isKnown : before.memo.knownType? pin = some found) :
    snapshot.Finds (.typeOf pin) type before found before where
  found_eq := (isExact.settled.settles_known asked isKnown).unique settles
  cycles_eq := rfl
  overruns_eq := rfl
  within _ _ within _ := within

/-- A memory that recalls a pin recalls what the inference of the pin asks about. -/
theorem IsExact.recalls_inferAnew
    {memo : Memo}
    (isExact : snapshot.IsExact memo)
    {pin : Pin}
    (member : pin ∈ snapshot.pins)
    (undeclared : pin.declaredType? = none)
    {type : DocUnion}
    (recalled : snapshot.Recalls memo (.typeOf pin) type) :
    snapshot.Recalls memo (snapshot.inferAnew pin) type := by
  rcases recalled.of_typeOf with isKnown | ⟨-, -, inside⟩
  · rw [Memo.knownType?_of_undeclared undeclared] at isKnown
    exact isExact.closed pin member type isKnown
  · exact inside

/-- A pin is found if the result of its inference is found. -/
theorem Finds.forgotten
    {pin : Pin}
    (asked : snapshot.Knows pin)
    {before after : InferenceState}
    {type found : DocUnion}
    (undeclared : pin.declaredType? = none)
    (inside : snapshot.Finds (snapshot.inferAnew pin) type before found after) :
    snapshot.Finds (.typeOf pin) type before found after where
  found_eq := inside.found_eq
  cycles_eq := inside.cycles_eq
  overruns_eq := inside.overruns_eq
  within memo isExact within := fun ⟨other, recalled⟩ =>
    inside.within memo isExact within
      ⟨other, isExact.recalls_inferAnew (asked.mem_pins undeclared) undeclared recalled⟩

/-- Remembering a pin adds nothing to a memory that recalls the pin. -/
theorem Finds.remembered
    {pin : Pin}
    (asked : snapshot.Knows pin)
    {before after : InferenceState}
    {type found : DocUnion}
    (undeclared : pin.declaredType? = none)
    (isRemembered : pin.isRemembered = true)
    (inside : snapshot.Finds (snapshot.inferAnew pin) type before found after) :
    snapshot.Finds (.typeOf pin) type before found
      { after with memo := (pin.id, found) :: after.memo } where
  found_eq := inside.found_eq
  cycles_eq := inside.cycles_eq
  overruns_eq := inside.overruns_eq
  within memo isExact within := by
    rintro ⟨other, recalled⟩
    have insideWithin := (Finds.forgotten asked undeclared inside).within memo isExact within
      ⟨other, recalled⟩
    refine Memo.cons_isWithin insideWithin ?_ found
    rcases recalled.of_typeOf with isKnown | ⟨-, opens, -⟩
    · rw [Memo.knownType?_of_undeclared undeclared] at isKnown
      rw [isKnown]
      rfl
    · rw [isRemembered] at opens
      cases opens

section Built

variable (built : snapshot.IsBuilt)
include built

/-- The question and the rest are found one after the other. -/
theorem Finds.ask
    {pin : Pin}
    (asked : snapshot.Knows pin)
    {next : DocUnion → Inquiry α}
    {before middle after : InferenceState}
    {type answered : DocUnion}
    {result found : α}
    (settles : snapshot.Settles (.typeOf pin) type)
    (first : snapshot.Finds (.typeOf pin) type before answered middle)
    (rest : snapshot.Finds (next answered) result middle found after) :
    snapshot.Finds (.ask pin next) result before found after where
  found_eq := rest.found_eq
  cycles_eq := rest.cycles_eq.trans first.cycles_eq
  overruns_eq := rest.overruns_eq.trans first.overruns_eq
  within memo isExact within := by
    rintro ⟨recalled, derived⟩
    obtain ⟨other, askedRecalls, restRecalls⟩ := derived.of_ask
    have otherSettles :=
      IsSettled.settles_of_recalls built isExact.settled (.typeOf asked) askedRecalls
    have same : other = answered :=
      (otherSettles.unique settles).trans first.found_eq.symm
    rw [same] at restRecalls
    exact rest.within memo isExact (first.within memo isExact within ⟨other, askedRecalls⟩)
      ⟨recalled, restRecalls⟩

/-- If single questions find settled types, inquiries find settled results. -/
theorem findsOrOverruns_follow
    {limit depth : Nat}
    {source : Pin → Inferring DocUnion}
    (advancing : snapshot.IsAdvancing source)
    (each : ∀ pin, snapshot.Knows pin → ∀ before : InferenceState,
      snapshot.IsExact before.memo → ∀ type, snapshot.SettlesWithin depth (.typeOf pin) type →
        snapshot.FindsOrOverruns limit depth (.typeOf pin) type before
          ((source pin).run before).1 ((source pin).run before).2)
    {inquiry : Inquiry α}
    (asks : inquiry.AsksOnly snapshot.Knows)
    {before : InferenceState}
    (isExact : snapshot.IsExact before.memo)
    {result : α}
    (settles : snapshot.SettlesWithin depth inquiry result) :
    snapshot.FindsOrOverruns limit depth inquiry result before
      ((inquiry.follow source).run before).1 ((inquiry.follow source).run before).2 := by
  induction inquiry generalizing before with
  | answer found =>
      cases settles
      exact .inl (.answer result before)
  | ask pin next inductionHypothesis =>
      obtain ⟨type, askedSettles, restSettles⟩ := settles.of_ask
      have advances := advancing pin asks.1 before isExact
      have restAdvances :=
        advancing.follow built (asks.2 ((source pin).run before).1) advances.isExact
      rcases each pin asks.1 before isExact type askedSettles with first | ⟨tooDeep, overrun⟩
      · rw [← first.found_eq] at restSettles
        rcases inductionHypothesis _ (asks.2 _) advances.isExact restSettles with
          rest | ⟨tooDeep, overrun⟩
        · exact .inl (.ask built asks.1 ⟨depth, askedSettles⟩ first rest)
        · exact .inr ⟨tooDeep, first.overruns_eq ▸ overrun⟩
      · exact .inr ⟨tooDeep, Nat.lt_of_lt_of_le overrun restAdvances.overruns_le⟩

/-- Below the least depth of a pin, the pin itself is unsettled. -/
theorem IsApart.cons
    {active : List PinId}
    {depth : Nat}
    (apart : snapshot.IsApart active depth)
    {pin : Pin}
    (member : pin ∈ snapshot.pins)
    (unsettled : ∀ type, ¬ snapshot.SettlesWithin depth (.typeOf pin) type) :
    snapshot.IsApart (pin.id :: active) depth := by
  intro other otherMember isActive type
  rcases List.mem_cons.mp isActive with same | isActive
  · cases built.eq_of_id_eq otherMember member same
    exact unsettled type
  · exact apart other otherMember isActive type

/-- The inference of a settled pin settles at a smaller depth, at which the pin does not. -/
theorem exists_inferAnew_settlesWithin
    {active : List PinId}
    {depth : Nat}
    (apart : snapshot.IsApart active depth)
    {pin : Pin}
    (member : pin ∈ snapshot.pins)
    (undeclared : pin.declaredType? = none)
    {type : DocUnion}
    (settles : snapshot.SettlesWithin depth (.typeOf pin) type) :
    ∃ inner, inner < depth ∧ snapshot.SettlesWithin inner (snapshot.inferAnew pin) type ∧
      snapshot.IsApart (pin.id :: active) inner := by
  obtain ⟨least, le, leastSettles, below⟩ := exists_least_settlesWithin settles
  rcases leastSettles.of_typeOf with isKnown | ⟨-, -, inner, rfl, innerSettles⟩
  · rw [undeclared] at isKnown
    cases isKnown
  · refine ⟨inner, le, innerSettles, ?_⟩
    exact (apart.mono (Nat.le_of_succ_le le)).cons built member (below inner (Nat.lt_succ_self inner))

/-- A settled type is found, unless it is nested too deeply. -/
theorem findsOrOverruns_typeOfPinWithin
    (limit : Nat)
    {active : List PinId}
    {depth : Nat}
    (apart : snapshot.IsApart active depth)
    {pin : Pin}
    (asked : snapshot.Knows pin)
    {before : InferenceState}
    (isExact : snapshot.IsExact before.memo)
    {type : DocUnion}
    (settles : snapshot.SettlesWithin depth (.typeOf pin) type) :
    snapshot.FindsOrOverruns limit depth (.typeOf pin) type before
      ((snapshot.typeOfPinWithin limit active pin).run before).1
      ((snapshot.typeOfPinWithin limit active pin).run before).2 := by
  induction limit generalizing active depth pin before type with
  | zero =>
      obtain ⟨found, after, outcome, run⟩ := snapshot.exists_pinRun 0 active pin before
      rw [outcome]
      cases run with
      | known isKnown =>
          exact .inl (.known asked isExact ⟨depth, settles⟩ isKnown)
      | tooDeep unknown =>
          have undeclared := Memo.undeclared_of_unknown unknown
          rcases settles.of_typeOf with isKnown | ⟨-, -, inner, rfl, -⟩
          · rw [undeclared] at isKnown
            cases isKnown
          · exact .inr ⟨Nat.succ_pos inner, Nat.lt_succ_self before.overruns⟩
  | succ limit inductionHypothesis =>
      obtain ⟨found, after, outcome, run⟩ := snapshot.exists_pinRun (limit + 1) active pin before
      rw [outcome]
      have inside :
          pin.declaredType? = none → ∃ inner, inner < depth ∧
            snapshot.FindsOrOverruns limit inner (snapshot.inferAnew pin) type before
              (((snapshot.inferAnew pin).follow
                (snapshot.typeOfPinWithin limit (pin.id :: active))).run before).1
              (((snapshot.inferAnew pin).follow
                (snapshot.typeOfPinWithin limit (pin.id :: active))).run before).2 := by
        intro undeclared
        obtain ⟨inner, below, innerSettles, innerApart⟩ :=
          exists_inferAnew_settlesWithin built apart (asked.mem_pins undeclared) undeclared settles
        refine ⟨inner, below, ?_⟩
        exact findsOrOverruns_follow built
          (isAdvancing_typeOfPinWithin built limit (pin.id :: active))
          (fun other otherAsked _ otherExact _ otherSettles =>
            inductionHypothesis innerApart otherAsked otherExact otherSettles)
          (inferAnew_asksOnly built.listed pin) isExact innerSettles
      cases run with
      | known isKnown =>
          exact .inl (.known asked isExact ⟨depth, settles⟩ isKnown)
      | cyclic unknown isActive =>
          have member := asked.mem_pins (Memo.undeclared_of_unknown unknown)
          exact absurd settles (apart pin member isActive type)
      | remembered unknown _ ran _ isRemembered =>
          have undeclared := Memo.undeclared_of_unknown unknown
          obtain ⟨inner, below, insideOutcome⟩ := inside undeclared
          rw [ran] at insideOutcome
          rcases insideOutcome with finds | ⟨tooDeep, overrun⟩
          · exact .inl (.remembered asked undeclared isRemembered finds)
          · exact .inr ⟨Nat.lt_of_le_of_lt tooDeep below, overrun⟩
      | forgotten unknown _ ran _ =>
          have undeclared := Memo.undeclared_of_unknown unknown
          obtain ⟨inner, below, insideOutcome⟩ := inside undeclared
          rw [ran] at insideOutcome
          rcases insideOutcome with finds | ⟨tooDeep, overrun⟩
          · exact .inl (.forgotten asked undeclared finds)
          · exact .inr ⟨Nat.lt_of_le_of_lt tooDeep below, overrun⟩

end Built

end TagCheck.Snapshot
