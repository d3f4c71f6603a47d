import Mathlib.Logic.Relation

/-!
# Flooding along a relation

A node that hears a message for the first time passes it on to its successors; later copies are dropped. Whatever
the order of deliveries, once nothing is in flight the nodes that heard it are those reachable from the origin.
-/

namespace Flood
open Relation

variable {α : Type*} {edge : α → α → Prop} {origin : α}

/-- What holds between deliveries. `inFlight` holds the copies under way, each with its sender and receiver. -/
structure Flooded (edge : α → α → Prop) (origin : α) (reached : α → Prop) (inFlight : List (α × α)) : Prop where
  source : reached origin
  edges : ∀ s d, (s, d) ∈ inFlight → edge s d ∧ reached s
  sound : ∀ v, reached v → ReflTransGen edge origin v
  live : ∀ s d, reached s → edge s d → reached d ∨ ∃ r, (r, d) ∈ inFlight

theorem flooded_congr {reached reached' : α → Prop} {inFlight : List (α × α)}
    (held : Flooded edge origin reached inFlight) (same : ∀ v, reached v ↔ reached' v) :
    Flooded edge origin reached' inFlight := by
  have equal : reached = reached' := funext (fun v => propext (same v))
  rwa [← equal]

theorem flooded_start {inFlight : List (α × α)}
    (sent : ∀ s d, (s, d) ∈ inFlight ↔ s = origin ∧ edge origin d) :
    Flooded edge origin (· = origin) inFlight where
  source := rfl
  edges s d member := by
    obtain ⟨rfl, next⟩ := (sent s d).mp member
    exact ⟨next, rfl⟩
  sound v same := same ▸ .refl
  live s d same next := by
    subst same
    exact .inr ⟨s, (sent s d).mpr ⟨rfl, next⟩⟩

variable {reached : α → Prop} {inFlight rest : List (α × α)} {s d : α}

/-- A copy that reaches a node a second time is dropped. -/
theorem flooded_drop (held : Flooded edge origin reached inFlight) (known : reached d)
    (taken : ∀ copy, copy ∈ inFlight → copy = (s, d) ∨ copy ∈ rest) (left : rest ⊆ inFlight) :
    Flooded edge origin reached rest where
  source := held.source
  edges r e member := held.edges r e (left member)
  sound := held.sound
  live r e from' next := by
    rcases held.live r e from' next with here | ⟨t, copy⟩
    · exact .inl here
    · rcases taken _ copy with same | kept
      · cases same
        exact .inl known
      · exact .inr ⟨t, kept⟩

/-- The first copy at a node is passed on to its successors. -/
theorem flooded_spread {sent : List (α × α)} (held : Flooded edge origin reached inFlight)
    (copy : (s, d) ∈ inFlight) (taken : ∀ copy, copy ∈ inFlight → copy = (s, d) ∨ copy ∈ rest)
    (left : rest ⊆ inFlight) (onward : ∀ r e, (r, e) ∈ sent ↔ r = d ∧ edge d e) :
    Flooded edge origin (fun v => reached v ∨ v = d) (rest ++ sent) where
  source := .inl held.source
  edges r e member := by
    rcases List.mem_append.mp member with old | fresh
    · obtain ⟨next, known⟩ := held.edges r e (left old)
      exact ⟨next, .inl known⟩
    · obtain ⟨rfl, next⟩ := (onward r e).mp fresh
      exact ⟨next, .inr rfl⟩
  sound v known := by
    rcases known with old | rfl
    · exact held.sound v old
    · obtain ⟨next, known⟩ := held.edges s v copy
      exact (held.sound s known).tail next
  live r e known next := by
    rcases known with old | rfl
    · rcases held.live r e old next with here | ⟨t, waiting⟩
      · exact .inl (.inl here)
      · rcases taken _ waiting with same | kept
        · cases same
          exact .inl (.inr rfl)
        · exact .inr ⟨t, List.mem_append_left _ kept⟩
    · exact .inr ⟨r, List.mem_append_right _ ((onward r e).mpr ⟨rfl, next⟩)⟩

/-- Once nothing is in flight, the nodes reached are those reachable. -/
theorem reached_iff_reachable (held : Flooded edge origin reached []) (v : α) :
    reached v ↔ ReflTransGen edge origin v := by
  refine ⟨held.sound v, ?_⟩
  intro path
  induction path with
  | refl => exact held.source
  | tail _ next known =>
    rcases held.live _ _ known next with here | ⟨r, waiting⟩
    · exact here
    · cases waiting

end Flood
