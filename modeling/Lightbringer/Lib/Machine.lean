import Mathlib.Data.List.Induction

/-!
# Runs of a machine with inputs and outputs

A machine is a function `step : σ → ι → σ × List ω`. `run` feeds it a list of inputs and collects
what it emits. `Meets` says that every step of a run is taken from a state and with an input that
satisfy a given condition; `run_history` is the induction rule for such runs.
-/

namespace Machine

variable {σ ι ω : Type*}

/-- The state after a list of inputs, with everything emitted on the way. -/
def run (step : σ → ι → σ × List ω) (s : σ) : List ι → σ × List ω
  | [] => (s, [])
  | i :: rest =>
    let (next, out) := step s i
    let (final, tail) := run step next rest
    (final, out ++ tail)

/-- Every step of the run meets `ok`, a condition on the state before the step and its input. -/
def Meets (step : σ → ι → σ × List ω) (ok : σ → ι → Prop) (s : σ) : List ι → Prop
  | [] => True
  | i :: rest => ok s i ∧ Meets step ok (step s i).1 rest

variable {step : σ → ι → σ × List ω} {ok : σ → ι → Prop} {s : σ}

instance decidableMeets [∀ s i, Decidable (ok s i)] : ∀ s xs, Decidable (Meets step ok s xs)
  | _, [] => .isTrue trivial
  | s, i :: rest => @instDecidableAnd _ _ _ (decidableMeets (step s i).1 rest)

@[simp] theorem run_nil : run step s [] = (s, []) := rfl

@[simp] theorem run_cons (i : ι) (rest : List ι) :
    run step s (i :: rest) =
      ((run step (step s i).1 rest).1, (step s i).2 ++ (run step (step s i).1 rest).2) := rfl

@[simp] theorem meets_nil : Meets step ok s [] := trivial

@[simp] theorem meets_cons (i : ι) (rest : List ι) :
    Meets step ok s (i :: rest) ↔ ok s i ∧ Meets step ok (step s i).1 rest := Iff.rfl

theorem run_append (xs ys : List ι) :
    run step s (xs ++ ys) =
      ((run step (run step s xs).1 ys).1, (run step s xs).2 ++ (run step (run step s xs).1 ys).2) := by
  induction xs generalizing s with
  | nil => simp
  | cons i rest ih => simp [ih]

theorem run_concat (xs : List ι) (i : ι) :
    run step s (xs ++ [i]) =
      ((step (run step s xs).1 i).1, (run step s xs).2 ++ (step (run step s xs).1 i).2) := by
  simp [run_append]

theorem meets_append (xs ys : List ι) :
    Meets step ok s (xs ++ ys) ↔ Meets step ok s xs ∧ Meets step ok (run step s xs).1 ys := by
  induction xs generalizing s with
  | nil => simp
  | cons i rest ih => simp [ih, and_assoc]

theorem meets_concat (xs : List ι) (i : ι) :
    Meets step ok s (xs ++ [i]) ↔ Meets step ok s xs ∧ ok (run step s xs).1 i := by
  simp [meets_append]

theorem meets_congr {good : σ → ι → Prop} (same : ∀ s i, ok s i ↔ good s i) (xs : List ι) :
    Meets step ok s xs ↔ Meets step good s xs := by
  induction xs generalizing s with
  | nil => exact Iff.rfl
  | cons i rest ih => rw [meets_cons, meets_cons, same, ih]

/-- The same, where the two conditions agree only in states that meet an invariant which the first one keeps. -/
theorem meets_congr_of_invariant {good : σ → ι → Prop} {P : σ → Prop} (start : P s)
    (same : ∀ s i, P s → (ok s i ↔ good s i)) (keep : ∀ s i, P s → ok s i → P (step s i).1) (xs : List ι) :
    Meets step ok s xs ↔ Meets step good s xs := by
  induction xs generalizing s with
  | nil => exact Iff.rfl
  | cons i rest ih =>
    rw [meets_cons, meets_cons, ← same s i start]
    exact and_congr_right (fun here => ih (keep s i start here))

theorem meets_and {good : σ → ι → Prop} (xs : List ι) :
    Meets step (fun s i => ok s i ∧ good s i) s xs ↔ Meets step ok s xs ∧ Meets step good s xs := by
  induction xs generalizing s with
  | nil => simp
  | cons i rest ih =>
    rw [meets_cons, meets_cons, meets_cons, ih]
    exact and_and_and_comm

/-- The condition holds at every step, found by what came before it. -/
theorem meets_iff_prefixes (xs : List ι) :
    Meets step ok s xs ↔ ∀ pre i post, xs = pre ++ i :: post → ok (run step s pre).1 i := by
  constructor
  · rintro met pre i post rfl
    exact ((meets_append pre (i :: post)).mp met).2.1
  · intro each
    induction xs generalizing s with
    | nil => trivial
    | cons x rest ih =>
      refine ⟨each [] x rest rfl, ih (fun pre i post split => ?_)⟩
      exact each (x :: pre) i post (by rw [split, List.cons_append])

/-- A condition on the inputs alone. -/
theorem meets_of_forall {xs : List ι} {good : ι → Prop} (each : ∀ i ∈ xs, good i) :
    Meets step (fun _ i => good i) s xs := by
  induction xs generalizing s with
  | nil => trivial
  | cons i rest ih =>
    exact ⟨each i (List.mem_cons_self ..), ih (fun j later => each j (List.mem_cons_of_mem _ later))⟩

theorem meets_true (xs : List ι) : Meets step (fun _ _ => True) s xs := meets_of_forall (fun _ _ => trivial)

/-- Induction over a run: a property of the inputs so far, the state reached and the outputs so far
holds of every run whose steps meet `ok`, when each such step carries it on. -/
theorem run_history {P : List ι → σ → List ω → Prop} (start : P [] s [])
    (carry : ∀ xs current out i, P xs current out → ok current i →
      P (xs ++ [i]) (step current i).1 (out ++ (step current i).2))
    (xs : List ι) (met : Meets step ok s xs) : P xs (run step s xs).1 (run step s xs).2 := by
  induction xs using List.reverseRecOn with
  | nil => exact start
  | append_singleton xs i ih =>
    obtain ⟨before, here⟩ := (meets_concat xs i).mp met
    rw [run_concat]
    exact carry xs _ _ i (ih before) here

/-- A state invariant kept by every step that meets `ok` holds after every run that meets it. -/
theorem run_invariant {P : σ → Prop} (start : P s)
    (carry : ∀ current i, P current → ok current i → P (step current i).1)
    (xs : List ι) (met : Meets step ok s xs) : P (run step s xs).1 :=
  run_history (P := fun _ current _ => P current) start (fun _ current _ i => carry current i) xs met

/-- A part of the state that no step touches. -/
theorem run_frame {β : Type*} {f : σ → β} (each : ∀ current i, f (step current i).1 = f current)
    (xs : List ι) (s : σ) : f (run step s xs).1 = f s := by
  induction xs generalizing s with
  | nil => rfl
  | cons i rest ih => exact (ih (step s i).1).trans (each s i)

/-- A state invariant that also vouches for whatever a step emits. -/
theorem run_safe {P : σ → Prop} {Q : ω → Prop} (start : P s)
    (carry : ∀ current i, P current → ok current i →
      P (step current i).1 ∧ ∀ o ∈ (step current i).2, Q o)
    (xs : List ι) (met : Meets step ok s xs) : P (run step s xs).1 ∧ ∀ o ∈ (run step s xs).2, Q o :=
  run_history (P := fun _ current out => P current ∧ ∀ o ∈ out, Q o) ⟨start, by simp⟩
    (fun _ current out i held here => by
      obtain ⟨next, emitted⟩ := carry current i held.1 here
      refine ⟨next, fun o member => ?_⟩
      rcases List.mem_append.mp member with old | fresh
      · exact held.2 o old
      · exact emitted o fresh) xs met

/-- Every output of a run has a property exactly if the outputs of each step do. -/
theorem forall_outputs_iff {Q : ω → Prop} (xs : List ι) :
    (∀ o ∈ (run step s xs).2, Q o) ↔ Meets step (fun current i => ∀ o ∈ (step current i).2, Q o) s xs := by
  induction xs generalizing s with
  | nil => simp
  | cons i rest ih =>
    rw [run_cons, meets_cons, ← ih]
    exact List.forall_mem_append

/-! ### Steps that can fail -/

/-- The run of a machine whose steps can fail, as far as the first that does. -/
def runExcept {ε : Type*} (checked : σ → ι → Except ε (σ × List ω)) (s : σ) : List ι → Except ε (σ × List ω)
  | [] => .ok (s, [])
  | i :: rest =>
    match checked s i with
    | .error e => .error e
    | .ok (next, out) =>
      match runExcept checked next rest with
      | .error e => .error e
      | .ok (final, tail) => .ok (final, out ++ tail)

/-- A step that fails exactly where the condition does not hold. What it keeps may count the steps. -/
theorem runExcept_ok_iff {ε : Type*} {checked : σ → ι → Except ε (σ × List ω)} {P : ℕ → σ → Prop} {xs : List ι} {n : ℕ}
    (start : P n s)
    (agrees : ∀ k current, ∀ i ∈ xs, k < n + xs.length → P k current → ok current i →
      checked current i = .ok (step current i) ∧ P (k + 1) (step current i).1)
    (fails : ∀ current, ∀ i ∈ xs, ¬ ok current i → ∃ e, checked current i = .error e) :
    (∀ e, runExcept checked s xs ≠ .error e) ↔ Meets step ok s xs := by
  induction xs generalizing s n with
  | nil => exact ⟨fun _ => trivial, nofun⟩
  | cons i rest ih =>
    by_cases here : ok s i
    · obtain ⟨same, next⟩ := agrees n s i (List.mem_cons_self ..) (by simp) start here
      have later := ih next
        (fun k current j member few => agrees k current j (List.mem_cons_of_mem _ member) (by simp; omega))
        (fun current j member => fails current j (List.mem_cons_of_mem _ member))
      rw [meets_cons, ← later, runExcept, same]
      dsimp only
      cases runExcept checked (step s i).1 rest with
      | error e => exact ⟨fun safe => (safe e rfl).elim, fun safe => (safe.2 e rfl).elim⟩
      | ok result => exact ⟨fun _ => ⟨here, nofun⟩, fun _ => nofun⟩
    · obtain ⟨e, broken⟩ := fails s i (List.mem_cons_self ..) here
      rw [meets_cons, runExcept, broken]
      exact ⟨fun safe => (safe e rfl).elim, fun met => (here met.1).elim⟩

/-! ### Outputs seen one after another -/

/-- Every output is related to the outputs before it. -/
def Prefixwise (P : List ω → ω → Prop) (out : List ω) : Prop :=
  ∀ pre o post, out = pre ++ o :: post → P pre o

variable {P : List ω → ω → Prop}

theorem prefixwise_nil : Prefixwise P [] := by
  intro pre o post h
  simp at h

theorem prefixwise_concat {out : List ω} {o : ω} (before : Prefixwise P out) (last : P out o) :
    Prefixwise P (out ++ [o]) := by
  intro pre p post h
  rcases List.eq_nil_or_concat post with rfl | ⟨rest, q, rfl⟩
  · obtain ⟨rfl, same⟩ := List.append_inj' h rfl
    cases same
    exact last
  · have split : out ++ [o] = (pre ++ p :: rest) ++ [q] := by simpa using h
    obtain ⟨same, _⟩ := List.append_inj' split rfl
    exact before pre p rest same

theorem prefixwise_append {out more : List ω} (before : Prefixwise P out)
    (fresh : ∀ pre o post, more = pre ++ o :: post → P (out ++ pre) o) : Prefixwise P (out ++ more) := by
  induction more using List.reverseRecOn with
  | nil =>
    rw [List.append_nil]
    exact before
  | append_singleton more o ih =>
    rw [← List.append_assoc]
    refine prefixwise_concat (ih (fun pre p post split => ?_)) (fresh more o [] rfl)
    exact fresh pre p (post ++ [o]) (by rw [split, List.append_assoc, List.cons_append])

end Machine
