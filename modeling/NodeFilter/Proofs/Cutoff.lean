/-!
What a limit makes of a run. Where nothing ends it too early a run comes to some places, one after
another. A limit that allows all of them makes no difference to the run. Any other limit ends the
run at the first place that it does not allow.
-/

namespace NodeFilter

/-- A run under a limit, by the places that the whole run comes to: it is the whole run if the limit
allows them all, and else it is a cut of it. -/
structure Cuts {Place Result : Type} (Allowed : Place → Prop) (IsCut : Result → Result → Prop)
    (places : List Place) (run whole : Result) : Prop where
  spared : (∀ place ∈ places, Allowed place) → run = whole
  cut : ∀ place ∈ places, ¬ Allowed place → IsCut run whole

namespace Cuts

variable {Place Result : Type} {Allowed : Place → Prop} {IsCut : Result → Result → Prop}
variable {before after : List Place} {run whole : Result}

theorem nowhere (run : Result) : Cuts Allowed IsCut [] run run :=
  ⟨fun _ => rfl, fun _ member => nomatch member⟩

/-- What is made of a run comes to the same places. -/
theorem through {wrap : Result → Result} (keeps : IsCut run whole → IsCut (wrap run) (wrap whole))
    (cuts : Cuts Allowed IsCut before run whole) :
    Cuts Allowed IsCut before (wrap run) (wrap whole) where
  spared allowed := congrArg wrap (cuts.spared allowed)
  cut place member refused := keeps (cuts.cut place member refused)

/-- What a run comes to later counts only if the limit allows all that it comes to first. -/
theorem append (first : ∀ place ∈ before, ¬ Allowed place → IsCut run whole)
    (rest : (∀ place ∈ before, Allowed place) → Cuts Allowed IsCut after run whole) :
    Cuts Allowed IsCut (before ++ after) run whole := by
  by_cases refused : ∃ place ∈ before, ¬ Allowed place
  · obtain ⟨place, member, beyond⟩ := refused
    constructor
    · intro allowed
      exact absurd (allowed place (List.mem_append_left after member)) beyond
    · intro _ _ _
      exact first place member beyond
  · have allowed : ∀ place ∈ before, Allowed place := by
      intro place member
      exact Classical.byContradiction fun beyond => refused ⟨place, member, beyond⟩
    have cuts := rest allowed
    constructor
    · intro all
      exact cuts.spared fun place member => all place (List.mem_append_right before member)
    · intro place member beyond
      rcases List.mem_append.mp member with early | late
      · exact absurd (allowed place early) beyond
      · exact cuts.cut place late beyond

theorem cons {place : Place} (first : ¬ Allowed place → IsCut run whole)
    (rest : Allowed place → Cuts Allowed IsCut after run whole) :
    Cuts Allowed IsCut (place :: after) run whole := by
  rw [← List.singleton_append]
  apply append
  · intro only member beyond
    rw [List.mem_singleton] at member
    exact first (member ▸ beyond)
  · intro allowed
    exact rest (allowed place List.mem_cons_self)

end Cuts

end NodeFilter
