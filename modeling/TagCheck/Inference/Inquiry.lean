import TagCheck.Snapshot

namespace TagCheck

/-!
# Inquiries

Whatever is inferred about code follows from the index and from the types of some pins.  An inquiry
says which pins it asks about, one after the other, and how it goes on with each answer; it leaves
open where the answers come from.
-/

/-- A computation that may ask for the types of pins. -/
inductive Inquiry (α : Type) where
  | answer (result : α)
  | ask (pin : Pin) (next : DocUnion → Inquiry α)

namespace Inquiry

/-- Go on with the result of an inquiry. -/
def bind : Inquiry α → (α → Inquiry β) → Inquiry β
  | .answer result, rest => rest result
  | .ask pin next, rest => .ask pin fun type => (next type).bind rest

instance : Monad Inquiry where
  pure := .answer
  bind := .bind

/-- Going on with the result alone changes nothing. -/
theorem bind_answer
    (inquiry : Inquiry α) :
    inquiry.bind .answer = inquiry := by
  induction inquiry with
  | answer result =>
      rfl
  | ask pin next inductionHypothesis =>
      exact congrArg (ask pin) (funext inductionHypothesis)

/-- Steps that follow an inquiry may be taken together. -/
theorem bind_bind
    (inquiry : Inquiry α)
    (first : α → Inquiry β)
    (second : β → Inquiry γ) :
    (inquiry.bind first).bind second =
      inquiry.bind fun result => (first result).bind second := by
  induction inquiry with
  | answer result =>
      rfl
  | ask pin next inductionHypothesis =>
      exact congrArg (ask pin) (funext inductionHypothesis)

instance : LawfulMonad Inquiry :=
  LawfulMonad.mk' Inquiry bind_answer (fun _ _ => rfl) bind_bind

/-- Ask for the type of a pin. -/
def typeOf (pin : Pin) : Inquiry DocUnion :=
  .ask pin .answer

/-- The union of the types of several pins. -/
def unionOf (pins : List Pin) : Inquiry DocUnion := do
  return .join (← pins.mapM typeOf)

/-- Carry an inquiry out, given where the types of pins come from. -/
def follow {m : Type → Type} [Monad m] (source : Pin → m DocUnion) : Inquiry α → m α
  | .answer result => pure result
  | .ask pin next => do (next (← source pin)).follow source

/-- Steps of an inquiry are carried out one after the other. -/
theorem follow_bind
    {m : Type → Type}
    [Monad m]
    [LawfulMonad m]
    (source : Pin → m DocUnion)
    (inquiry : Inquiry α)
    (rest : α → Inquiry β) :
    (inquiry >>= rest).follow source =
      inquiry.follow source >>= fun result => (rest result).follow source := by
  induction inquiry with
  | answer result =>
      exact (pure_bind result fun result => (rest result).follow source).symm
  | ask pin next inductionHypothesis =>
      calc
        ((ask pin next) >>= rest).follow source
          = (source pin >>= fun type => (next type >>= rest).follow source) := rfl
        _ = (source pin >>= fun type =>
              (next type).follow source >>= fun result => (rest result).follow source) := by
            simp only [inductionHypothesis]
        _ = ((ask pin next).follow source >>= fun result => (rest result).follow source) :=
            (bind_assoc (source pin) _ _).symm

end Inquiry

end TagCheck
