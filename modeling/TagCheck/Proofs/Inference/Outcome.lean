import TagCheck.Inference.Memo

namespace TagCheck

/-!
# What inquiries come to

A property that the result of an inquiry has, wherever the types of pins come from, is shown without
carrying the inquiry out.
-/

namespace Inquiry

/-- An inquiry comes to a result with a property, whatever it is answered. -/
def Always (property : α → Prop) : Inquiry α → Prop
  | .answer result => property result
  | .ask _ next => ∀ type, (next type).Always property

namespace Always

variable {property : α → Prop}

theorem pure
    {result : α}
    (holds : property result) :
    (Pure.pure result : Inquiry α).Always property :=
  holds

theorem bind
    {other : β → Prop}
    {inquiry : Inquiry α}
    {rest : α → Inquiry β}
    (first : inquiry.Always property)
    (second : ∀ result, property result → (rest result).Always other) :
    (inquiry >>= rest).Always other := by
  induction inquiry with
  | answer result =>
      exact second result first
  | ask pin next inductionHypothesis =>
      exact fun type => inductionHypothesis type (first type)

theorem mono
    {other : α → Prop}
    {inquiry : Inquiry α}
    (always : inquiry.Always property)
    (weaker : ∀ result, property result → other result) :
    inquiry.Always other := by
  induction inquiry with
  | answer result =>
      exact weaker result always
  | ask pin next inductionHypothesis =>
      exact fun type => inductionHypothesis type (always type)

/-- Every inquiry comes to some result. -/
theorem trivial
    (inquiry : Inquiry α) :
    inquiry.Always fun _ => True := by
  induction inquiry with
  | answer result =>
      exact True.intro
  | ask pin next inductionHypothesis =>
      exact inductionHypothesis

theorem mapM
    {inquire : β → Inquiry α}
    {items : List β}
    (each : ∀ item ∈ items, (inquire item).Always property) :
    (items.mapM inquire).Always fun results => ∀ result ∈ results, property result := by
  induction items with
  | nil =>
      exact .pure nofun
  | cons item rest inductionHypothesis =>
      rw [List.mapM_cons]
      refine .bind (each item List.mem_cons_self) fun first isFirst => ?_
      refine .bind (inductionHypothesis fun other member =>
        each other (List.mem_cons_of_mem _ member)) fun others areOthers => ?_
      refine .pure fun result member => ?_
      rcases List.mem_cons.mp member with rfl | isOther
      · exact isFirst
      · exact areOthers result isOther

/-- What follows an inquiry matters only for the results that it can come to. -/
theorem bind_congr
    {inquiry : Inquiry α}
    {first second : α → Inquiry β}
    (always : inquiry.Always property)
    (same : ∀ result, property result → first result = second result) :
    inquiry >>= first = inquiry >>= second := by
  induction inquiry with
  | answer result =>
      exact same result always
  | ask pin next inductionHypothesis =>
      exact congrArg (ask pin) (funext fun type => inductionHypothesis type (always type))

/-- An inquiry that is carried out comes to such a result. -/
theorem follow
    {inquiry : Inquiry α}
    (always : inquiry.Always property)
    (source : Pin → Inferring DocUnion)
    (state : InferenceState) :
    property ((inquiry.follow source).run state).1 := by
  induction inquiry generalizing state with
  | answer result =>
      exact always
  | ask pin next inductionHypothesis =>
      exact inductionHypothesis _ (always _) _

end Always

end Inquiry

end TagCheck
