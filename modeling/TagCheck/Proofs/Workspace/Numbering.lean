import TagCheck.Proofs.Inference.Exact
import TagCheck.Workspace

namespace TagCheck

/-!
# Numbers of pins in a workspace

A snapshot numbers its sources from one, and a workspace numbers all sources that it ever surveyed.
So a pin has an identity in its snapshot and one in the workspace, and a memory is read and left by
the numbers of the snapshot that is asked.
-/

namespace PinId

@[simp] theorem isShared_shift
    (start : Nat)
    (id : PinId) :
    (id.shift start).isShared = id.isShared := by
  unfold shift
  split
  · rfl
  · next notShared =>
      simp only [isShared, decide_eq_true_eq] at notShared
      simp [isShared, notShared]

theorem shift_of_isShared
    {id : PinId}
    (isShared : id.isShared = true)
    (start : Nat) :
    id.shift start = id :=
  if_pos isShared

theorem source_shift
    {id : PinId}
    (notShared : id.isShared = false)
    (start : Nat) :
    (id.shift start).source = start + id.source := by
  simp [shift, notShared]

/-- Every identity in a snapshot is found again. -/
@[simp] theorem unshift?_shift
    (start : Nat)
    (id : PinId) :
    (id.shift start).unshift? start = some id := by
  unfold unshift?
  rw [isShared_shift]
  split
  · next isShared =>
      rw [shift_of_isShared isShared]
  · next notShared =>
      simp only [Bool.not_eq_true] at notShared
      have positive : 0 < id.source := by
        simpa [isShared, Nat.pos_iff_ne_zero] using notShared
      simp [shift, notShared, positive]

/-- What is found is the identity in the snapshot. -/
theorem shift_of_unshift?
    {start : Nat}
    {id inner : PinId}
    (found : id.unshift? start = some inner) :
    inner.shift start = id := by
  unfold unshift? at found
  split at found
  · next isShared =>
      cases found
      exact shift_of_isShared isShared start
  · split at found
    · next notShared isBehind =>
        cases found
        have notFirst : id.source - start ≠ 0 := by
          omega
        simp [shift, isShared, notFirst, Nat.add_sub_cancel' (Nat.le_of_lt isBehind)]
    · cases found

theorem shift_inj
    {start : Nat}
    {id other : PinId} :
    id.shift start = other.shift start ↔ id = other := by
  refine ⟨fun same => ?_, fun same => same ▸ rfl⟩
  have sameInner := congrArg (PinId.unshift? start) same
  simpa using sameInner

end PinId

namespace Memo

variable {start : Nat}

/-- A snapshot sees what is remembered under the number that its workspace gave a pin. -/
@[simp] theorem lookup_seenFrom
    (memo : Memo)
    (id : PinId) :
    (memo.seenFrom start).lookup id = memo.lookup (id.shift start) := by
  induction memo with
  | nil =>
      rfl
  | cons entry rest inductionHypothesis =>
      obtain ⟨other, type⟩ := entry
      cases found : other.unshift? start with
      | none =>
          have isElse : id.shift start ≠ other := by
            rintro rfl
            simp at found
          have isUnseen : seenFrom ((other, type) :: rest) start = seenFrom rest start := by
            simp [seenFrom, found]
          rw [isUnseen, inductionHypothesis, lookup_cons_of_ne rest isElse]
      | some inner =>
          have isSeen :
              seenFrom ((other, type) :: rest) start = (inner, type) :: seenFrom rest start := by
            simp [seenFrom, found]
          rw [isSeen, ← PinId.shift_of_unshift? found]
          by_cases same : id = inner
          · rw [same, List.lookup_cons_self, List.lookup_cons_self]
          · rw [lookup_cons_of_ne _ same, lookup_cons_of_ne _ (mt PinId.shift_inj.mp same),
              inductionHypothesis]

/-- What a question has left for a pin of its snapshot is remembered by the workspace. -/
theorem lookup_map_shift
    (seen : Memo)
    (id : PinId) :
    List.lookup (id.shift start) (seen.map fun (id, type) => (id.shift start, type)) =
      seen.lookup id := by
  induction seen with
  | nil =>
      rfl
  | cons entry rest inductionHypothesis =>
      obtain ⟨other, type⟩ := entry
      rw [List.map_cons]
      by_cases same : id = other
      · rw [same, List.lookup_cons_self, List.lookup_cons_self]
      · rw [lookup_cons_of_ne _ same, ← inductionHypothesis]
        exact lookup_cons_of_ne _ (mt PinId.shift_inj.mp same) type

/-- Identities outside of the snapshot stay as they are. -/
theorem lookup_map_shift_of_unseen
    (seen : Memo)
    {id : PinId}
    (isUnseen : id.unshift? start = none) :
    List.lookup id (seen.map fun (id, type) => (id.shift start, type)) = none := by
  refine List.lookup_eq_none_iff.mpr fun entry member => ?_
  obtain ⟨⟨inner, type⟩, -, rfl⟩ := List.mem_map.mp member
  by_contra same
  have isInner : id = inner.shift start := by
    simpa using same
  rw [isInner, PinId.unshift?_shift] at isUnseen
  cases isUnseen

theorem lookup_filter
    (memo : Memo)
    (keeps : PinId → Bool)
    (id : PinId) :
    List.lookup id (memo.filter fun (id, _) => keeps id) =
      if keeps id then memo.lookup id else none := by
  induction memo with
  | nil =>
      simp
  | cons entry rest inductionHypothesis =>
      obtain ⟨other, type⟩ := entry
      by_cases same : id = other
      · rw [same] at inductionHypothesis ⊢
        cases isKept : keeps other with
        | false =>
            simpa [isKept] using inductionHypothesis
        | true =>
            simp [isKept]
      · rw [lookup_cons_of_ne rest same, ← inductionHypothesis]
        cases isKept : keeps other with
        | false =>
            simp [isKept]
        | true =>
            simp [isKept, lookup_cons_of_ne _ same]

/-- The workspace remembers for a pin of a snapshot what a question to the snapshot has left. -/
@[simp] theorem lookup_replaceFrom_shift
    (memo seen : Memo)
    (id : PinId) :
    (memo.replaceFrom start seen).lookup (id.shift start) = seen.lookup id := by
  rw [replaceFrom, List.lookup_append, lookup_map_shift,
    lookup_filter memo fun id => (id.unshift? start).isNone]
  simp

/-- What the snapshot does not see stays as it is. -/
theorem lookup_replaceFrom_of_unseen
    (memo seen : Memo)
    {id : PinId}
    (isUnseen : id.unshift? start = none) :
    (memo.replaceFrom start seen).lookup id = memo.lookup id := by
  rw [replaceFrom, List.lookup_append, lookup_map_shift_of_unseen seen isUnseen,
    lookup_filter memo fun id => (id.unshift? start).isNone]
  simp [isUnseen]

end Memo

end TagCheck
