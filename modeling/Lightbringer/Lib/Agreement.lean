import Mathlib.Data.List.Perm.Basic
import Mathlib.Data.List.Forall2

/-!
# Computations that agree

Two fallible computations agree when both fail, or both succeed with related results. Which error they fail with does
not matter. Sequencing, traversals and folds of computations that agree agree.
-/

namespace Agreement

variable {ε ε' α β γ δ : Type}

def Agree (R : α → β → Prop) (a : Except ε α) (b : Except ε' β) : Prop :=
  match a, b with
  | .ok x, .ok y => R x y
  | .error _, .error _ => True
  | _, _ => False

variable {R : α → β → Prop} {S : γ → δ → Prop} {a : Except ε α} {b : Except ε' β}

/-- Both fail, or both succeed. -/
theorem agree_elim {motive : Except ε α → Except ε' β → Prop} (agree : Agree R a b)
    (errors : ∀ e e', motive (.error e) (.error e')) (oks : ∀ x y, R x y → motive (.ok x) (.ok y)) : motive a b := by
  cases a with
  | error e =>
    cases b with
    | error e' => exact errors e e'
    | ok y => exact agree.elim
  | ok x =>
    cases b with
    | error e' => exact agree.elim
    | ok y => exact oks x y agree

theorem agree_ok {x : α} {y : β} (related : R x y) : Agree R (.ok x : Except ε α) (.ok y : Except ε' β) := related

theorem agree_refl {R : α → α → Prop} (refl : ∀ x, R x x) (a : Except ε α) : Agree R a a := by
  cases a with
  | error e => exact trivial
  | ok x => exact refl x

/-- What is known of a result may be used from there on. -/
theorem agree_and {p : α → Prop} (first : Agree R a b) (known : ∀ x, a = .ok x → p x) :
    Agree (fun x y => R x y ∧ p x) a b := by
  refine agree_elim (motive := fun a b => (∀ x, a = .ok x → p x) → Agree (fun x y => R x y ∧ p x) a b) first ?_ ?_ known
  · exact fun _ _ _ => trivial
  · exact fun x y related known => ⟨related, known x rfl⟩

theorem agree_trans {R : α → α → Prop} {a b c : Except ε α} (trans : ∀ x y z, R x y → R y z → R x z)
    (first : Agree R a b) (second : Agree R b c) : Agree R a c := by
  refine agree_elim (motive := fun a b => Agree R b c → Agree R a c) first (fun e e' failed => ?_) ?_ second
  · cases c with
    | error e'' => exact trivial
    | ok z => exact failed.elim
  · intro x y here second
    cases c with
    | error e => exact second
    | ok z => exact trans x y z here second

theorem agree_bind {f : α → Except ε γ} {g : β → Except ε' δ} (first : Agree R a b)
    (next : ∀ x y, R x y → Agree S (f x) (g y)) : Agree S (a >>= f) (b >>= g) :=
  agree_elim (motive := fun a b => Agree S (a >>= f) (b >>= g)) first (fun _ _ => trivial) next

theorem agree_mapError {ζ ζ' : Type} (f : ε → ζ) (g : ε' → ζ') (first : Agree R a b) :
    Agree R (a.mapError f) (b.mapError g) :=
  agree_elim (motive := fun a b => Agree R (a.mapError f) (b.mapError g)) first (fun _ _ => trivial) (fun _ _ => id)

theorem agree_map {f : α → γ} {g : β → δ} (first : Agree R a b) (next : ∀ x y, R x y → S (f x) (g y)) :
    Agree S (a.map f) (b.map g) :=
  agree_elim (motive := fun a b => Agree S (a.map f) (b.map g)) first (fun _ _ => trivial) next

theorem agree_mapM {f : α → Except ε γ} {g : β → Except ε' δ} {xs : List α} {ys : List β}
    (each : List.Forall₂ (fun x y => Agree S (f x) (g y)) xs ys) :
    Agree (List.Forall₂ S) (xs.mapM f) (ys.mapM g) := by
  induction each with
  | nil => exact .nil
  | cons here _ ih =>
    rw [List.mapM_cons, List.mapM_cons]
    refine agree_bind here (fun x y related => ?_)
    exact agree_bind ih (fun _ _ rest => agree_ok (.cons related rest))

theorem agree_foldlM {f : α → γ → Except ε α} {g : β → γ → Except ε' β}
    (step : ∀ x y z, R x y → Agree R (f x z) (g y z)) (zs : List γ) {x : α} {y : β} (start : R x y) :
    Agree R (zs.foldlM f x) (zs.foldlM g y) := by
  induction zs generalizing x y with
  | nil => exact agree_ok start
  | cons z rest ih =>
    rw [List.foldlM_cons, List.foldlM_cons]
    exact agree_bind (step x y z start) (fun _ _ related => ih related)

theorem agree_eq_iff {a : Except ε α} {b : Except ε' α} : Agree Eq a b ↔ a.toOption = b.toOption := by
  cases a with
  | error e =>
    cases b with
    | error e' => exact ⟨fun _ => rfl, fun _ => trivial⟩
    | ok y => exact ⟨False.elim, fun same => by cases same⟩
  | ok x =>
    cases b with
    | error e' => exact ⟨False.elim, fun same => by cases same⟩
    | ok y => exact ⟨fun same => congrArg some same, fun same => Option.some.inj same⟩

/-- A traversal in another order. -/
theorem agree_perm (f : α → Except ε γ) {xs ys : List α} (perm : xs.Perm ys) :
    Agree List.Perm (xs.mapM f) (ys.mapM f) := by
  induction perm with
  | nil => exact .nil
  | cons x _ ih =>
    rw [List.mapM_cons, List.mapM_cons]
    refine agree_bind (agree_refl (R := Eq) (fun _ => rfl) (f x)) (fun y y' same => ?_)
    exact agree_bind ih (fun _ _ rest => agree_ok (same ▸ rest.cons y))
  | swap x y rest =>
    simp only [List.mapM_cons]
    cases f x with
    | error e =>
      cases f y with
      | error e' => exact trivial
      | ok w => exact trivial
    | ok v =>
      cases f y with
      | error e' => exact trivial
      | ok w =>
        cases rest.mapM f with
        | error e => exact trivial
        | ok vs => exact List.Perm.swap v w vs
  | trans _ _ first second => exact agree_trans (fun _ _ _ => List.Perm.trans) first second

theorem mapM_congr {f g : α → Except ε β} {xs : List α} (same : ∀ x ∈ xs, f x = g x) : xs.mapM f = xs.mapM g := by
  induction xs with
  | nil => rfl
  | cons x rest ih =>
    rw [List.mapM_cons, List.mapM_cons, same x (List.mem_cons_self ..), ih (fun y later => same y (List.mem_cons_of_mem _ later))]

/-- Traversals one after another are a traversal of the whole. -/
theorem mapM_flatten (f : α → Except ε β) (xss : List (List α)) :
    (do
      let yss ← xss.mapM (fun xs => xs.mapM f)
      return yss.flatten) = xss.flatten.mapM f := by
  induction xss with
  | nil => rfl
  | cons xs rest ih =>
    rw [List.flatten_cons, List.mapM_append, List.mapM_cons, ← ih]
    cases xs.mapM f with
    | error e => rfl
    | ok ys =>
      cases rest.mapM (fun xs => xs.mapM f) with
      | error e => rfl
      | ok yss => rfl

/-- A traversal succeeds element by element. -/
theorem mapM_ok_iff {f : α → Except ε β} {xs : List α} {ys : List β} :
    xs.mapM f = .ok ys ↔ List.Forall₂ (fun x y => f x = .ok y) xs ys := by
  induction xs generalizing ys with
  | nil =>
    constructor
    · intro done
      cases done
      exact .nil
    · intro each
      cases each
      rfl
  | cons x rest ih =>
    rw [List.mapM_cons]
    constructor
    · intro done
      cases here : f x with
      | error e =>
        rw [here] at done
        cases done
      | ok z =>
        cases others : rest.mapM f with
        | error e =>
          rw [here, others] at done
          cases done
        | ok zs =>
          rw [here, others] at done
          cases done
          exact .cons here (ih.mp others)
    · intro each
      cases each with
      | cons here others =>
        rw [here, ih.mpr others]
        rfl

/-- What a traversal yields comes from an element it visits. -/
theorem exists_of_mapM {f : α → Except ε β} {xs : List α} {ys : List β} (done : xs.mapM f = .ok ys) {x : α} (member : x ∈ xs) :
    ∃ y ∈ ys, f x = .ok y := by
  have each := mapM_ok_iff.mp done
  induction each with
  | nil => cases member
  | @cons x' y _ _ here rest ih =>
    rcases List.mem_cons.mp member with rfl | later
    · exact ⟨y, List.mem_cons_self, here⟩
    · obtain ⟨y', held, same⟩ := ih (mapM_ok_iff.mpr rest) later
      exact ⟨y', List.mem_cons_of_mem _ held, same⟩

theorem mem_of_mapM {f : α → Except ε β} {xs : List α} {ys : List β} (done : xs.mapM f = .ok ys) {y : β} (member : y ∈ ys) :
    ∃ x ∈ xs, f x = .ok y := by
  have each := mapM_ok_iff.mp done
  induction each with
  | nil => cases member
  | @cons x z xs zs here others ih =>
    rcases List.mem_cons.mp member with rfl | later
    · exact ⟨x, List.mem_cons_self .., here⟩
    · obtain ⟨x', inside, there⟩ := ih (mapM_ok_iff.mpr others) later
      exact ⟨x', List.mem_cons_of_mem _ inside, there⟩

/-- A fold whose steps are a reading that can fail and then a plain step. -/
theorem foldlM_read {f : γ → Except ε α} {g : β → α → β} (zs : List γ) (b : β) :
    zs.foldlM (fun b z => do
      let x ← f z
      return g b x) b = (zs.mapM f).map (fun xs => xs.foldl g b) := by
  induction zs generalizing b with
  | nil => rfl
  | cons z rest ih =>
    rw [List.foldlM_cons, List.mapM_cons]
    cases f z with
    | error e => rfl
    | ok x =>
      refine (ih (g b x)).trans ?_
      cases rest.mapM f with
      | error e => rfl
      | ok xs => rfl

end Agreement
