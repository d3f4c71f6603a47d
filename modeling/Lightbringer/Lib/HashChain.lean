import Mathlib.Data.List.Induction

/-!
# Hash chains

A chain starts from a value of fixed width and hashes each message behind the value before. Two chains that end alike
were fed alike, or they show a collision of the hash or an input that it takes to the start.
-/

namespace HashChain

variable {α : Type*} (hash : List α → List α) (start : List α)

/-- The value after the messages. -/
def value (messages : List (List α)) : List α := messages.foldl (fun value message => hash (value ++ message)) start

/-- All that was hashed on the way. -/
def hashed : List α → List (List α) → List (List α)
  | _, [] => []
  | value, message :: rest => (value ++ message) :: hashed (hash (value ++ message)) rest

/-- Two inputs with one hash, or one that is taken to the start. -/
def Broken (first second : List (List α)) : Prop :=
  (∃ a ∈ first, ∃ b ∈ second, a ≠ b ∧ hash a = hash b) ∨ ∃ a ∈ first ++ second, hash a = start

variable {hash start} {first second : List (List α)} {message : List α}

theorem value_concat : value hash start (first ++ [message]) = hash (value hash start first ++ message) := by
  rw [value, List.foldl_append]
  rfl

theorem hashed_concat : hashed hash start (first ++ [message]) =
    hashed hash start first ++ [value hash start first ++ message] := by
  induction first generalizing start with
  | nil => rfl
  | cons head rest ih =>
    rw [List.cons_append, hashed, ih]
    rfl

theorem length_value (long : ∀ input, (hash input).length = start.length) (messages : List (List α)) :
    (value hash start messages).length = start.length := by
  induction messages using List.reverseRecOn with
  | nil => rfl
  | append_singleton messages message _ =>
    rw [value_concat]
    exact long _

theorem Broken.mono {more more' : List (List α)} (broken : Broken hash start first second) :
    Broken hash start (first ++ more) (second ++ more') := by
  rcases broken with ⟨a, inA, b, inB, different, same⟩ | ⟨a, member, taken⟩
  · exact .inl ⟨a, List.mem_append_left _ inA, b, List.mem_append_left _ inB, different, same⟩
  · refine .inr ⟨a, ?_, taken⟩
    rcases List.mem_append.mp member with left | right
    · exact List.mem_append_left _ (List.mem_append_left _ left)
    · exact List.mem_append_right _ (List.mem_append_left _ right)

/-- Both chains are followed back from their ends. -/
theorem eq_or_broken (long : ∀ input, (hash input).length = start.length)
    (same : value hash start first = value hash start second) :
    first = second ∨ Broken hash start (hashed hash start first) (hashed hash start second) := by
  induction first using List.reverseRecOn generalizing second with
  | nil =>
    rcases List.eq_nil_or_concat second with rfl | ⟨before, last, rfl⟩
    · exact .inl rfl
    · rw [List.concat_eq_append, value_concat] at same
      rw [List.concat_eq_append]
      refine .inr (.inr ⟨value hash start before ++ last, ?_, same.symm⟩)
      rw [hashed_concat]
      exact List.mem_append_right _ (List.mem_append_right _ (List.mem_singleton_self _))
  | append_singleton earlier message ih =>
    rcases List.eq_nil_or_concat second with rfl | ⟨before, last, rfl⟩
    · rw [value_concat] at same
      refine .inr (.inr ⟨value hash start earlier ++ message, ?_, same⟩)
      rw [hashed_concat]
      exact List.mem_append_left _ (List.mem_append_right _ (List.mem_singleton_self _))
    · rw [List.concat_eq_append, value_concat, value_concat] at same
      rw [List.concat_eq_append, hashed_concat, hashed_concat]
      by_cases equal : value hash start earlier ++ message = value hash start before ++ last
      · obtain ⟨values, rfl⟩ := List.append_inj equal (by rw [length_value long, length_value long])
        exact (ih values).imp (fun lists => by rw [lists]) Broken.mono
      · refine .inr (.inl ⟨_, List.mem_append_right _ (List.mem_singleton_self _), _,
          List.mem_append_right _ (List.mem_singleton_self _), equal, same⟩)

end HashChain
