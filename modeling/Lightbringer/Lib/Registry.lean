import Mathlib.Logic.Function.Basic

/-!
# A registry of holders

A holder has at most one key, and several may have the same one. The registry names one holder for each key that is
held: the first to come keeps the entry until it leaves.
-/

namespace Registry

variable {κ α : Type}

structure Complete (index : κ → Option α) (holds : α → Option κ) : Prop where
  sound : ∀ key holder, index key = some holder → holds holder = some key
  total : ∀ holder key, holds holder = some key → index key ≠ none

variable {index : κ → Option α} {holds : α → Option κ} {holder : α} {key : κ}

theorem Complete.registered_iff (held : Complete index holds) (key : κ) :
    index key ≠ none ↔ ∃ holder, holds holder = some key := by
  constructor
  · intro registered
    obtain ⟨holder, found⟩ := Option.ne_none_iff_exists'.mp registered
    exact ⟨holder, held.sound key holder found⟩
  · rintro ⟨holder, has⟩
    exact held.total holder key has

variable [DecidableEq α]

/-- A holder loses its key while the registry stays: right exactly when no entry names it. -/
theorem complete_forget_iff (held : Complete index holds) :
    Complete index (Function.update holds holder none) ↔ ∀ key, index key ≠ some holder := by
  constructor
  · intro after key registered
    have has := after.sound key holder registered
    rw [Function.update_self] at has
    cases has
  · intro unnamed
    refine ⟨fun key found registered => ?_, fun other key also => ?_⟩
    · have apart : found ≠ holder := by
        rintro rfl
        exact unnamed key registered
      rw [Function.update_of_ne apart]
      exact held.sound key found registered
    · by_cases self : other = holder
      · subst self
        rw [Function.update_self] at also
        cases also
      · rw [Function.update_of_ne self] at also
        exact held.total other key also

variable [DecidableEq κ]

/-- The entry a newcomer makes, unless there is one. -/
def join (index : κ → Option α) (key : κ) (holder : α) : κ → Option α :=
  Function.update index key ((index key).or (some holder))

theorem complete_join (held : Complete index holds) (free : ∀ other, holds holder = some other → other = key) :
    Complete (join index key holder) (Function.update holds holder (some key)) := by
  refine ⟨fun wanted found registered => ?_, fun other wanted has => ?_⟩
  · -- An entry that was there is of another holder, or of this one under the same key.
    have old : index wanted = some found → Function.update holds holder (some key) found = some wanted := by
      intro before
      have has := held.sound wanted found before
      by_cases same : found = holder
      · subst same
        rw [Function.update_self, free wanted has]
      · rw [Function.update_of_ne same, has]
    unfold join at registered
    by_cases same : wanted = key
    · subst same
      rw [Function.update_self] at registered
      cases before : index wanted with
      | some first =>
        rw [before] at registered
        exact old (before.trans registered)
      | none =>
        rw [before] at registered
        cases registered
        exact Function.update_self ..
    · rw [Function.update_of_ne same] at registered
      exact old registered
  · unfold join
    by_cases same : wanted = key
    · subst same
      rw [Function.update_self]
      cases index wanted with
      | some first => simp
      | none => simp
    · rw [Function.update_of_ne same]
      by_cases self : other = holder
      · subst self
        rw [Function.update_self] at has
        exact (same (Option.some.inj has).symm).elim
      · rw [Function.update_of_ne self] at has
        exact held.total other wanted has

/-- A holder takes its own entry along. -/
def leave (index : κ → Option α) (key : κ) (holder : α) : κ → Option α :=
  if index key = some holder then Function.update index key none else index

/-- Leaving keeps the registry complete exactly when no other holder needs the entry. -/
theorem complete_leave_iff (held : Complete index holds) (has : holds holder = some key) :
    Complete (leave index key holder) (Function.update holds holder none) ↔
      (index key = some holder → ∀ other, holds other = some key → other = holder) := by
  unfold leave
  constructor
  · intro after registered other also
    by_contra apart
    rw [if_pos registered] at after
    refine after.total other key ?_ (Function.update_self ..)
    rw [Function.update_of_ne apart, also]
  · intro sole
    split
    next registered =>
      refine ⟨fun wanted found entry => ?_, fun other wanted also => ?_⟩
      · by_cases same : wanted = key
        · subst same
          rw [Function.update_self] at entry
          cases entry
        · rw [Function.update_of_ne same] at entry
          have before := held.sound wanted found entry
          have apart : found ≠ holder := by
            rintro rfl
            rw [has] at before
            exact same (Option.some.inj before).symm
          rw [Function.update_of_ne apart, before]
      · by_cases self : other = holder
        · subst self
          rw [Function.update_self] at also
          cases also
        · rw [Function.update_of_ne self] at also
          have apart : wanted ≠ key := by
            rintro rfl
            exact self (sole registered other also)
          rw [Function.update_of_ne apart]
          exact held.total other wanted also
    next unregistered =>
      refine (complete_forget_iff held).mpr (fun wanted entry => ?_)
      have before := held.sound wanted holder entry
      rw [has] at before
      cases before
      exact unregistered entry

end Registry
