import TagCheck.Proofs.Inference.Finding

namespace TagCheck.Snapshot

/-!
# Runs from different memories

Two runs of one inquiry are compared, where the second one starts from a greater memory.  Unless the
first run is nested too deeply, both have the same result: what only the second one remembers is
settled, and the first one finds it.  Inferences that come back to a pin under way are cut off by
both, since no memory ever has the type of such a pin.
-/

variable {snapshot : Snapshot}

/-- Pins under way take longer to settle than an inquiry, or never settle. -/
def Fits (snapshot : Snapshot) (active : List PinId) (inquiry : Inquiry α) : Prop :=
  (∃ depth result, snapshot.SettlesWithin depth inquiry result ∧ snapshot.IsApart active depth) ∨
    ∀ depth, snapshot.IsApart active depth

/-- Both memories are exact, and the second one is greater. -/
structure AreComparable (snapshot : Snapshot) (first second : InferenceState) : Prop where
  first_exact : snapshot.IsExact first.memo
  second_exact : snapshot.IsExact second.memo
  within : first.memo.IsWithin second.memo

/-- Two runs of a computation, the second one from a greater memory, have the same result. -/
structure RunsAlike (computation : Inferring α) (first second : InferenceState) : Prop where
  result_eq : (computation.run first).1 = (computation.run second).1
  within : (computation.run first).2.memo.IsWithin (computation.run second).2.memo
  /-- Both runs come back to pins under way equally often. -/
  cycles_eq :
    (computation.run first).2.cycles + second.cycles =
      (computation.run second).2.cycles + first.cycles
  overruns_eq : (computation.run second).2.overruns = second.overruns

/-- Runs that are alike one after the other are alike together. -/
theorem RunsAlike.bind
    {computation : Inferring α}
    {rest : α → Inferring β}
    {first second : InferenceState}
    (alike : RunsAlike computation first second)
    (restAlike :
      RunsAlike (rest (computation.run first).1) (computation.run first).2
        (computation.run second).2) :
    RunsAlike (computation >>= rest) first second := by
  have firstRun :
      (computation >>= rest).run first =
        (rest (computation.run first).1).run (computation.run first).2 :=
    rfl
  have secondRun :
      (computation >>= rest).run second =
        (rest (computation.run first).1).run (computation.run second).2 := by
    rw [alike.result_eq]
    rfl
  have cycles_eq := alike.cycles_eq
  have restCycles_eq := restAlike.cycles_eq
  constructor
  · rw [firstRun, secondRun]
    exact restAlike.result_eq
  · rw [firstRun, secondRun]
    exact restAlike.within
  · rw [firstRun, secondRun]
    omega
  · rw [secondRun]
    exact restAlike.overruns_eq.trans alike.overruns_eq

section Built

variable (built : snapshot.IsBuilt)
include built

/-- An opened pin fits as well as the question about it. -/
theorem Fits.inferAnew
    {active : List PinId}
    {pin : Pin}
    (fits : snapshot.Fits active (.typeOf pin))
    (member : pin ∈ snapshot.pins)
    (undeclared : pin.declaredType? = none) :
    snapshot.Fits (pin.id :: active) (snapshot.inferAnew pin) := by
  have ofSettled :
      ∀ depth type, snapshot.SettlesWithin depth (.typeOf pin) type →
        snapshot.IsApart active depth →
          snapshot.Fits (pin.id :: active) (snapshot.inferAnew pin) := by
    intro depth type settles apart
    obtain ⟨inner, -, innerSettles, innerApart⟩ :=
      exists_inferAnew_settlesWithin built apart member undeclared settles
    exact .inl ⟨inner, type, innerSettles, innerApart⟩
  rcases fits with ⟨depth, type, settles, apart⟩ | neverSettle
  · exact ofSettled depth type settles apart
  · by_cases settled : ∃ depth type, snapshot.SettlesWithin depth (.typeOf pin) type
    · obtain ⟨depth, type, settles⟩ := settled
      exact ofSettled depth type settles (neverSettle depth)
    · refine .inr fun depth => (neverSettle depth).cons built member ?_
      intro type settles
      exact settled ⟨depth, type, settles⟩

omit built in
/-- A question fits as well as the inquiry that begins with it. -/
theorem Fits.typeOf
    {active : List PinId}
    {pin : Pin}
    {next : DocUnion → Inquiry α}
    (fits : snapshot.Fits active (.ask pin next)) :
    snapshot.Fits active (.typeOf pin) := by
  rcases fits with ⟨depth, result, settles, apart⟩ | neverSettle
  · obtain ⟨type, askedSettles, -⟩ := settles.of_ask
    exact .inl ⟨depth, type, askedSettles, apart⟩
  · exact .inr neverSettle

/-- If a pin settles and fits, a run for it finds its type or is nested too deeply. -/
theorem Fits.finds
    {limit : Nat}
    {active : List PinId}
    {pin : Pin}
    (fits : snapshot.Fits active (.typeOf pin))
    (asked : snapshot.Knows pin)
    {type : DocUnion}
    (settles : snapshot.Settles (.typeOf pin) type)
    {before : InferenceState}
    (isExact : snapshot.IsExact before.memo)
    (noOverrun :
      ((snapshot.typeOfPinWithin limit active pin).run before).2.overruns = before.overruns) :
    snapshot.Finds (.typeOf pin) type before
      ((snapshot.typeOfPinWithin limit active pin).run before).1
      ((snapshot.typeOfPinWithin limit active pin).run before).2 := by
  have apartAtDepth :
      ∃ depth, snapshot.SettlesWithin depth (.typeOf pin) type ∧ snapshot.IsApart active depth := by
    rcases fits with ⟨depth, other, otherSettles, apart⟩ | neverSettle
    · have same : other = type :=
        Derives.unique ⟨depth, otherSettles⟩ settles
      exact ⟨depth, same ▸ otherSettles, apart⟩
    · obtain ⟨depth, settles⟩ := settles
      exact ⟨depth, settles, neverSettle depth⟩
  obtain ⟨depth, settles, apart⟩ := apartAtDepth
  rcases findsOrOverruns_typeOfPinWithin built limit apart asked isExact settles with
    finds | ⟨-, overrun⟩
  · exact finds
  · exact absurd noOverrun (Nat.ne_of_gt overrun)

/-- What follows a question fits as well, after a run that is not nested too deeply. -/
theorem Fits.rest
    {limit : Nat}
    {active : List PinId}
    {pin : Pin}
    {next : DocUnion → Inquiry α}
    (fits : snapshot.Fits active (.ask pin next))
    (asked : snapshot.Knows pin)
    {before : InferenceState}
    (isExact : snapshot.IsExact before.memo)
    (noOverrun :
      ((snapshot.typeOfPinWithin limit active pin).run before).2.overruns = before.overruns) :
    snapshot.Fits active (next ((snapshot.typeOfPinWithin limit active pin).run before).1) := by
  have askedFits := fits.typeOf
  rcases fits with ⟨depth, result, settles, apart⟩ | neverSettle
  · obtain ⟨type, askedSettles, restSettles⟩ := settles.of_ask
    have finds := askedFits.finds built asked ⟨depth, askedSettles⟩ isExact noOverrun
    rw [finds.found_eq]
    exact .inl ⟨depth, result, restSettles, apart⟩
  · exact .inr neverSettle

/-- If the runs of single questions are alike, so are the runs of inquiries. -/
theorem runsAlike_follow
    {limit : Nat}
    {active : List PinId}
    (each : ∀ pin, snapshot.Knows pin → snapshot.Fits active (.typeOf pin) →
      ∀ first second, snapshot.AreComparable first second →
        ((snapshot.typeOfPinWithin limit active pin).run first).2.overruns = first.overruns →
          RunsAlike (snapshot.typeOfPinWithin limit active pin) first second)
    {inquiry : Inquiry α}
    (asks : inquiry.AsksOnly snapshot.Knows)
    (fits : snapshot.Fits active inquiry)
    {first second : InferenceState}
    (comparable : snapshot.AreComparable first second)
    (noOverrun :
      ((inquiry.follow (snapshot.typeOfPinWithin limit active)).run first).2.overruns =
        first.overruns) :
    RunsAlike (inquiry.follow (snapshot.typeOfPinWithin limit active)) first second := by
  induction inquiry generalizing first second with
  | answer result =>
      exact ⟨rfl, comparable.within, Nat.add_comm _ _, rfl⟩
  | ask pin next inductionHypothesis =>
      have advancing := isAdvancing_typeOfPinWithin built limit active
      have firstAdvances := advancing pin asks.1 first comparable.first_exact
      have secondAdvances := advancing pin asks.1 second comparable.second_exact
      have restAdvances :=
        advancing.follow built (asks.2 ((snapshot.typeOfPinWithin limit active pin).run first).1)
          firstAdvances.isExact
      -- Overruns are never taken back, and so neither part of the first run has one.
      have askedNoOverrun :
          ((snapshot.typeOfPinWithin limit active pin).run first).2.overruns = first.overruns :=
        Nat.le_antisymm (Nat.le_trans restAdvances.overruns_le (Nat.le_of_eq noOverrun))
          firstAdvances.overruns_le
      have asked := each pin asks.1 fits.typeOf first second comparable askedNoOverrun
      have rest :=
        inductionHypothesis _ (asks.2 _)
          (fits.rest built asks.1 comparable.first_exact askedNoOverrun)
          ⟨firstAdvances.isExact, secondAdvances.isExact, asked.within⟩
          (noOverrun.trans askedNoOverrun.symm)
      exact asked.bind rest

/-- A pin that the greater memory knows is found by the first run as well. -/
theorem RunsAlike.found
    {limit : Nat}
    {active : List PinId}
    {pin : Pin}
    (asked : snapshot.Knows pin)
    (fits : snapshot.Fits active (.typeOf pin))
    {first second : InferenceState}
    (comparable : snapshot.AreComparable first second)
    {type : DocUnion}
    (secondKnows : second.memo.knownType? pin = some type)
    (noOverrun :
      ((snapshot.typeOfPinWithin limit active pin).run first).2.overruns = first.overruns) :
    RunsAlike (snapshot.typeOfPinWithin limit active pin) first second := by
  have settles := comparable.second_exact.settled.settles_known asked secondKnows
  have finds := fits.finds built asked settles comparable.first_exact noOverrun
  refine ⟨?_, ?_, ?_, ?_⟩ <;> rw [run_of_known secondKnows]
  · exact finds.found_eq
  · exact finds.within second.memo comparable.second_exact comparable.within
      ⟨type, .typeOf_known secondKnows⟩
  · rw [finds.cycles_eq]
    exact Nat.add_comm _ _

omit built in
/-- A pin under way that no memory knows is given up by both runs. -/
theorem RunsAlike.cyclic
    {limit : Nat}
    {active : List PinId}
    {pin : Pin}
    (isActive : pin.id ∈ active)
    {first second : InferenceState}
    (within : first.memo.IsWithin second.memo)
    (firstUnknown : first.memo.knownType? pin = none)
    (secondUnknown : second.memo.knownType? pin = none) :
    RunsAlike (snapshot.typeOfPinWithin (limit + 1) active pin) first second := by
  refine ⟨?_, ?_, ?_, ?_⟩ <;> rw [run_of_cyclic secondUnknown isActive]
  · rw [run_of_cyclic firstUnknown isActive]
  · rw [run_of_cyclic firstUnknown isActive]
    exact within
  · rw [run_of_cyclic firstUnknown isActive]
    dsimp only
    omega

omit built in
/-- A pin that no memory knows is opened by both runs, and remembered by both or by none. -/
theorem RunsAlike.opened
    {limit : Nat}
    {active : List PinId}
    {pin : Pin}
    (notActive : pin.id ∉ active)
    {first second : InferenceState}
    (firstUnknown : first.memo.knownType? pin = none)
    (secondUnknown : second.memo.knownType? pin = none)
    (inside :
      RunsAlike
        ((snapshot.inferAnew pin).follow (snapshot.typeOfPinWithin limit (pin.id :: active)))
        first second)
    (noOverrun :
      (((snapshot.inferAnew pin).follow
        (snapshot.typeOfPinWithin limit (pin.id :: active))).run first).2.overruns =
          first.overruns) :
    RunsAlike (snapshot.typeOfPinWithin (limit + 1) active pin) first second := by
  obtain ⟨result_eq, within, cycles_eq, overruns_eq⟩ := inside
  generalize firstRan :
    ((snapshot.inferAnew pin).follow
      (snapshot.typeOfPinWithin limit (pin.id :: active))).run first = firstOutcome at *
  generalize secondRan :
    ((snapshot.inferAnew pin).follow
      (snapshot.typeOfPinWithin limit (pin.id :: active))).run second = secondOutcome at *
  obtain ⟨type, firstAfter⟩ := firstOutcome
  obtain ⟨other, secondAfter⟩ := secondOutcome
  dsimp only at result_eq within cycles_eq overruns_eq noOverrun
  have uncut_iff : firstAfter.cutOffs = first.cutOffs ↔ secondAfter.cutOffs = second.cutOffs := by
    simp only [InferenceState.cutOffs]
    omega
  refine ⟨?_, ?_, ?_, ?_⟩ <;> rw [run_of_opened secondUnknown notActive secondRan]
  · rw [run_of_opened firstUnknown notActive firstRan]
    exact result_eq
  · rw [run_of_opened firstUnknown notActive firstRan]
    simp only [uncut_iff]
    split
    · refine Memo.cons_isWithin (within.trans (Memo.isWithin_cons _ _ _)) ?_ type
      rw [List.lookup_cons_self]
      rfl
    · exact within
  · rw [run_of_opened firstUnknown notActive firstRan]
    simp only [uncut_iff]
    split <;> exact cycles_eq
  · split <;> exact overruns_eq

/-- The runs for a pin that fits are alike, unless the first one is nested too deeply. -/
theorem runsAlike_typeOfPinWithin
    (limit : Nat)
    {active : List PinId}
    {pin : Pin}
    (asked : snapshot.Knows pin)
    (fits : snapshot.Fits active (.typeOf pin))
    {first second : InferenceState}
    (comparable : snapshot.AreComparable first second)
    (noOverrun :
      ((snapshot.typeOfPinWithin limit active pin).run first).2.overruns = first.overruns) :
    RunsAlike (snapshot.typeOfPinWithin limit active pin) first second := by
  induction limit generalizing active pin first second with
  | zero =>
      cases secondKnows : second.memo.knownType? pin with
      | some type =>
          exact .found built asked fits comparable secondKnows noOverrun
      | none =>
          have firstUnknown := comparable.within.unknown secondKnows
          rw [run_of_tooDeep firstUnknown] at noOverrun
          exact absurd noOverrun (Nat.succ_ne_self first.overruns)
  | succ limit inductionHypothesis =>
      cases secondKnows : second.memo.knownType? pin with
      | some type =>
          exact .found built asked fits comparable secondKnows noOverrun
      | none =>
          have firstUnknown := comparable.within.unknown secondKnows
          by_cases isActive : pin.id ∈ active
          · exact .cyclic isActive comparable.within firstUnknown secondKnows
          · have undeclared := Memo.undeclared_of_unknown secondKnows
            have insideNoOverrun :
                (((snapshot.inferAnew pin).follow
                  (snapshot.typeOfPinWithin limit (pin.id :: active))).run first).2.overruns =
                    first.overruns := by
              rw [run_of_opened firstUnknown isActive (Prod.eta _).symm] at noOverrun
              split at noOverrun <;> exact noOverrun
            refine .opened isActive firstUnknown secondKnows ?_ insideNoOverrun
            exact runsAlike_follow built
              (fun _ otherAsked otherFits _ _ otherComparable otherNoOverrun =>
                inductionHypothesis otherAsked otherFits otherComparable otherNoOverrun)
              (inferAnew_asksOnly built.listed pin)
              (fits.inferAnew built (asked.mem_pins undeclared) undeclared) comparable
              insideNoOverrun

/-- Whatever is remembered, an inquiry that is not nested too deeply has the same result. -/
theorem infer_eq_of_noOverrun
    {inquiry : Inquiry α}
    (asks : inquiry.AsksOnly snapshot.Knows)
    {memo : Memo}
    (isExact : snapshot.IsExact memo)
    (noOverrun : ((snapshot.infer inquiry).run (.ofMemo [])).2.overruns = 0) :
    ((snapshot.infer inquiry).runOn memo).1 = ((snapshot.infer inquiry).runOn []).1 := by
  have comparable : snapshot.AreComparable (.ofMemo []) (.ofMemo memo) :=
    ⟨isExact_nil snapshot, isExact, nofun⟩
  have alike :=
    runsAlike_follow built
      (fun _ asked fits _ _ comparable noOverrun =>
        runsAlike_typeOfPinWithin built maxInferenceDepth asked fits comparable noOverrun)
      asks (.inr fun depth => isApart_nil snapshot depth) comparable noOverrun
  exact alike.result_eq.symm

end Built

end TagCheck.Snapshot
