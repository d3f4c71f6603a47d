import Mathlib.Data.List.Induction

/-!
# Logs of events

`Since opens closes log`: an event that opens something has happened and none that closes it has happened after it.
-/

namespace Trace

variable {ω : Type*}

def Since (opens closes : ω → Prop) (log : List ω) : Prop :=
  ∃ before event after, log = before ++ event :: after ∧ opens event ∧ ∀ later ∈ after, ¬ closes later

variable {opens closes : ω → Prop} {log more : List ω}

theorem not_since_nil : ¬ Since opens closes [] := by
  rintro ⟨before, event, after, split, _⟩
  simp at split

theorem since_append :
    Since opens closes (log ++ more) ↔
      Since opens closes more ∨ Since opens closes log ∧ ∀ event ∈ more, ¬ closes event := by
  constructor
  · rintro ⟨before, event, after, split, opened, kept⟩
    rcases List.append_eq_append_iff.mp split with ⟨between, rfl, rest⟩ | ⟨between, rfl, rest⟩
    · exact .inl ⟨between, event, after, rest, opened, kept⟩
    cases between with
    | nil => exact .inl ⟨[], event, after, rest.symm, opened, kept⟩
    | cons first between =>
      obtain ⟨rfl, rfl⟩ := List.cons.inj rest
      refine .inr ⟨⟨before, event, between, rfl, opened, ?_⟩, ?_⟩
      · exact fun later member => kept later (List.mem_append_left _ member)
      · exact fun later member => kept later (List.mem_append_right _ member)
  · rintro (⟨before, event, after, rfl, opened, kept⟩ | ⟨⟨before, event, after, rfl, opened, kept⟩, quiet⟩)
    · exact ⟨log ++ before, event, after, by simp, opened, kept⟩
    · refine ⟨before, event, after ++ more, by simp, opened, fun later member => ?_⟩
      rcases List.mem_append.mp member with old | fresh
      · exact kept later old
      · exact quiet later fresh

theorem since_concat {event : ω} :
    Since opens closes (log ++ [event]) ↔ opens event ∨ Since opens closes log ∧ ¬ closes event := by
  have single : Since opens closes [event] ↔ opens event := by
    constructor
    · rintro ⟨before, first, after, split, opened, _⟩
      rcases List.append_eq_singleton_iff.mp split.symm with ⟨_, same⟩ | ⟨_, none⟩
      · rw [← (List.cons.inj same).1]
        exact opened
      · cases none
    · exact fun opened => ⟨[], event, [], rfl, opened, by simp⟩
  rw [since_append, single]
  simp

theorem since_keep (held : Since opens closes log) (quiet : ∀ event ∈ more, ¬ closes event) :
    Since opens closes (log ++ more) := since_append.mpr (.inr ⟨held, quiet⟩)

/-- After a closing event something has to open again. -/
theorem since_reopened {event : ω} {after : List ω} (held : Since opens closes (log ++ event :: after))
    (closed : closes event) : opens event ∨ ∃ later ∈ after, opens later := by
  rcases since_append.mp held with ⟨before, first, rest, split, opened, _⟩ | ⟨_, quiet⟩
  · cases before with
    | nil =>
      rw [(List.cons.inj split).1]
      exact .inl opened
    | cons head before =>
      refine .inr ⟨first, ?_, opened⟩
      rw [(List.cons.inj split).2]
      simp
  · exact (quiet event (List.mem_cons_self ..) closed).elim

end Trace
