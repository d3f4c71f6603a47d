import Mathlib.Data.Multiset.DershowitzManna
import Mathlib.Data.List.Sort
import Mathlib.Data.Prod.Lex

/-!
# The agenda of a discrete-event simulation

Entries are due at a time and are numbered in the order they are made. The loop takes the first entry that is due,
moves the clock to it and acts on it, which may make more entries. If none is made behind the clock, entries are
taken in order, each once. If each is made ahead of the clock, the loop up to a given time ends.
-/

structure Agenda.Entry (τ ε : Type*) where
  due : τ
  seq : Nat
  event : ε

structure Agenda (τ ε : Type*) where
  now : τ
  seq : Nat
  entries : List (Agenda.Entry τ ε)

namespace Agenda

variable {τ ε : Type*} [LinearOrder τ]

/-- Entries of one time come in the order they were made. -/
def Entry.key (entry : Entry τ ε) : τ ×ₗ ℕ := toLex (entry.due, entry.seq)

theorem Entry.key_lt {a b : Entry τ ε} : a.key < b.key ↔ a.due < b.due ∨ a.due = b.due ∧ a.seq < b.seq :=
  Prod.Lex.toLex_lt_toLex

def push (agenda : Agenda τ ε) (due : τ) (event : ε) : Agenda τ ε :=
  { agenda with
    seq := agenda.seq + 1
    entries := agenda.entries.orderedInsert (fun a b => a.key ≤ b.key) ⟨due, agenda.seq + 1, event⟩ }

/-- The first entry, if it is due by `target`. The clock moves to it, and never back. -/
def pop (agenda : Agenda τ ε) (target : τ) : Option (Entry τ ε × Agenda τ ε) :=
  match agenda.entries with
  | [] => none
  | entry :: rest =>
    if entry.due ≤ target then some (entry, { agenda with now := max entry.due agenda.now, entries := rest }) else none

section
variable {agenda later : Agenda τ ε} {taken : List (Entry τ ε)} {entry : Entry τ ε} {due target : τ} {event : ε}

@[simp] theorem push_now : (agenda.push due event).now = agenda.now := rfl

@[simp] theorem push_seq : (agenda.push due event).seq = agenda.seq + 1 := rfl

theorem mem_push : entry ∈ (agenda.push due event).entries ↔
    entry = ⟨due, agenda.seq + 1, event⟩ ∨ entry ∈ agenda.entries :=
  List.mem_orderedInsert _

theorem push_perm : (agenda.push due event).entries.Perm (⟨due, agenda.seq + 1, event⟩ :: agenda.entries) :=
  List.perm_orderedInsert _ _ _

theorem pop_eq_some (h : agenda.pop target = some (entry, later)) : ∃ rest, agenda.entries = entry :: rest ∧
    entry.due ≤ target ∧ later = { agenda with now := max entry.due agenda.now, entries := rest } := by
  unfold pop at h
  split at h
  · cases h
  next first rest found =>
    split at h
    next reached =>
      obtain ⟨rfl, rfl⟩ := Prod.mk.inj (Option.some.inj h)
      exact ⟨rest, found, reached, rfl⟩
    · cases h

theorem pop_eq_none : agenda.pop target = none ↔ ∀ entry ∈ agenda.entries.head?, target < entry.due := by
  unfold pop
  split
  next none_ => simp [none_]
  next first rest found =>
    rw [found]
    simp

theorem mem_of_pop (h : agenda.pop target = some (entry, later)) {other : Entry τ ε} (member : other ∈ later.entries) :
    other ∈ agenda.entries := by
  obtain ⟨rest, found, -, rfl⟩ := pop_eq_some h
  rw [found]
  exact List.mem_cons_of_mem _ member

/-! ### In order, each once -/

/-- The agenda, beside the entries taken from it so far. -/
structure Kept (agenda : Agenda τ ε) (taken : List (Entry τ ε)) : Prop where
  ahead : ∀ entry ∈ agenda.entries, agenda.now ≤ entry.due
  past : ∀ entry ∈ taken, entry.due ≤ agenda.now
  ordered : (taken ++ agenda.entries).Pairwise (fun a b => a.key < b.key)
  numbered : ((taken ++ agenda.entries).map (·.seq)).Perm (List.range' 1 agenda.seq)

theorem kept_fresh (now : τ) : Kept (⟨now, 0, []⟩ : Agenda τ ε) [] :=
  ⟨fun _ member => absurd member List.not_mem_nil, fun _ member => absurd member List.not_mem_nil, .nil, .nil⟩

theorem Kept.seq_le (kept : Kept agenda taken) (member : entry ∈ taken ++ agenda.entries) : entry.seq ≤ agenda.seq := by
  have named := kept.numbered.subset (List.mem_map_of_mem member)
  have bounds := List.mem_range'_1.mp named
  omega

/-- The first entry comes before every other. -/
theorem Kept.first (kept : Kept agenda taken) (h : agenda.pop target = some (entry, later)) {other : Entry τ ε}
    (member : other ∈ later.entries) : entry.key < other.key := by
  obtain ⟨rest, found, -, rfl⟩ := pop_eq_some h
  have sorted := (List.pairwise_append.mp kept.ordered).2.1
  rw [found, List.pairwise_cons] at sorted
  exact sorted.1 other member

/-- No number is given twice. -/
theorem Kept.seq_ne (kept : Kept agenda taken) (h : agenda.pop target = some (entry, later)) {other : Entry τ ε}
    (member : other ∈ later.entries) : other.seq ≠ entry.seq := by
  obtain ⟨rest, found, -, rfl⟩ := pop_eq_some h
  have distinct := kept.numbered.nodup_iff.mpr List.nodup_range'
  rw [found, List.map_append, List.map_cons] at distinct
  have apart := (List.nodup_cons.mp (List.nodup_append.mp distinct).2.1).1
  intro same
  exact apart (same ▸ List.mem_map_of_mem member)

/-- The clock moves to the entry that is taken. -/
theorem Kept.pop_now (kept : Kept agenda taken) (h : agenda.pop target = some (entry, later)) :
    later.now = entry.due := by
  obtain ⟨rest, found, -, rfl⟩ := pop_eq_some h
  exact max_eq_left (kept.ahead entry (by rw [found]; exact List.mem_cons_self))

theorem sorted_orderedInsert {entries : List (Entry τ ε)} (sorted : entries.Pairwise (fun a b => a.key < b.key))
    (fresh : ∀ other ∈ entries, other.key ≠ entry.key) :
    (entries.orderedInsert (fun a b => a.key ≤ b.key) entry).Pairwise (fun a b => a.key < b.key) := by
  induction entries with
  | nil => exact List.pairwise_singleton _ _
  | cons first rest ih =>
    obtain ⟨least, tail⟩ := List.pairwise_cons.mp sorted
    rw [List.orderedInsert_cons]
    split
    next below =>
      have before : entry.key < first.key := lt_of_le_of_ne below (fresh first List.mem_cons_self).symm
      refine List.pairwise_cons.mpr ⟨fun other member => ?_, sorted⟩
      rcases List.mem_cons.mp member with rfl | inside
      · exact before
      · exact before.trans (least other inside)
    next above =>
      refine List.pairwise_cons.mpr ⟨fun other member => ?_, ih tail (fun other inside => fresh other (.tail _ inside))⟩
      rcases (List.mem_orderedInsert _).mp member with rfl | inside
      · exact not_le.mp above
      · exact least other inside

theorem Kept.push (kept : Kept agenda taken) (reached : agenda.now ≤ due) : Kept (agenda.push due event) taken := by
  have newest : ∀ other ∈ taken ++ agenda.entries, other.seq < agenda.seq + 1 :=
    fun other member => Nat.lt_succ_of_le (kept.seq_le member)
  obtain ⟨before, sorted, across⟩ := List.pairwise_append.mp kept.ordered
  refine ⟨fun other member => ?_, kept.past, ?_, ?_⟩
  · rcases mem_push.mp member with rfl | old
    · exact reached
    · exact kept.ahead other old
  · refine List.pairwise_append.mpr ⟨before, sorted_orderedInsert sorted (fun other member same => ?_), ?_⟩
    · have smaller := newest other (List.mem_append_right _ member)
      have equal : other.seq = agenda.seq + 1 := congrArg (fun key => (ofLex key).2) same
      omega
    · intro earlier taken_ other member
      rcases mem_push.mp member with rfl | old
      · refine Entry.key_lt.mpr ((kept.past earlier taken_).trans reached |>.lt_or_eq.imp_right (fun same => ⟨same, ?_⟩))
        exact newest earlier (List.mem_append_left _ taken_)
      · exact across earlier taken_ other old
  · have moved : (taken ++ (agenda.push due event).entries).Perm
        (⟨due, agenda.seq + 1, event⟩ :: (taken ++ agenda.entries)) :=
      (push_perm.append_left taken).trans List.perm_middle
    refine (moved.map (·.seq)).trans ?_
    rw [List.map_cons, push_seq, List.range'_1_concat, Nat.add_comm 1 agenda.seq]
    exact (kept.numbered.cons _).trans (List.perm_append_singleton _ _).symm

theorem Kept.pop (kept : Kept agenda taken) (h : agenda.pop target = some (entry, later)) :
    Kept later (taken ++ [entry]) := by
  have reached := kept.pop_now h
  have first : ∀ other ∈ later.entries, entry.key < other.key := fun other member => kept.first h member
  obtain ⟨rest, found, -, rfl⟩ := pop_eq_some h
  have same : taken ++ [entry] ++ rest = taken ++ agenda.entries := by
    rw [found, List.append_assoc, List.singleton_append]
  refine ⟨fun other member => ?_, fun other member => ?_, ?_, ?_⟩
  · rw [reached]
    exact (Entry.key_lt.mp (first other member)).elim le_of_lt (fun tie => tie.1.le)
  · rcases List.mem_append.mp member with old | last
    · exact (kept.past other old).trans (le_max_right _ _)
    · rw [List.mem_singleton.mp last]
      exact le_max_left _ _
  · show (taken ++ [entry] ++ rest).Pairwise _
    rw [same]
    exact kept.ordered
  · show ((taken ++ [entry] ++ rest).map _).Perm _
    rw [same]
    exact kept.numbered

/-- Nothing is due by `target`. -/
theorem Kept.not_due (kept : Kept agenda taken) (h : agenda.pop target = none) (member : entry ∈ agenda.entries) :
    target < entry.due := by
  have sorted := (List.pairwise_append.mp kept.ordered).2.1
  cases found : agenda.entries with
  | nil =>
    rw [found] at member
    cases member
  | cons first rest =>
    rw [found] at sorted member
    have ahead : target < first.due := pop_eq_none.mp h first (by rw [found]; rfl)
    rcases List.mem_cons.mp member with rfl | inside
    · exact ahead
    · have after := (List.pairwise_cons.mp sorted).1 entry inside
      exact (Entry.key_lt.mp after).elim ahead.trans (fun tie => tie.1 ▸ ahead)

/-- The clock moves on, up to where nothing is due. -/
theorem Kept.advance (kept : Kept agenda taken) (forward : agenda.now ≤ target) (h : agenda.pop target = none) :
    Kept { agenda with now := target } taken :=
  ⟨fun _ member => (kept.not_due h member).le, fun entry member => (kept.past entry member).trans forward,
    kept.ordered, kept.numbered⟩

/-! ### Entries made by one action -/

/-- `later` is the agenda with entries added that meet `ok`. -/
inductive Grown (ok : τ → ε → Prop) (agenda : Agenda τ ε) : Agenda τ ε → Prop
  | refl : Grown ok agenda agenda
  | push {later : Agenda τ ε} {due : τ} {event : ε} (grown : Grown ok agenda later) (fits : ok due event) :
      Grown ok agenda (later.push due event)

variable {ok : τ → ε → Prop}

theorem Grown.trans {mid : Agenda τ ε} (first : Grown ok agenda mid) (second : Grown ok mid later) :
    Grown ok agenda later := by
  induction second with
  | refl => exact first
  | push _ fits ih => exact ih.push fits

theorem Grown.mono {wider : τ → ε → Prop} (grown : Grown ok agenda later)
    (wide : ∀ due event, ok due event → wider due event) : Grown wider agenda later := by
  induction grown with
  | refl => exact .refl
  | push _ fits ih => exact ih.push (wide _ _ fits)

theorem Grown.now (grown : Grown ok agenda later) : later.now = agenda.now := by
  induction grown with
  | refl => rfl
  | push _ _ ih => exact ih

theorem Grown.kept (grown : Grown ok agenda later) (ahead : ∀ due event, ok due event → agenda.now ≤ due)
    (kept : Kept agenda taken) : Kept later taken := by
  induction grown with
  | refl => exact kept
  | push grown fits ih => exact ih.push (by rw [grown.now]; exact ahead _ _ fits)

theorem Grown.subset (grown : Grown ok agenda later) (member : entry ∈ agenda.entries) : entry ∈ later.entries := by
  induction grown with
  | refl => exact member
  | push _ _ ih => exact mem_push.mpr (.inr ih)

theorem Grown.entries (grown : Grown ok agenda later) : ∃ made : List (Entry τ ε),
    later.entries.Perm (made ++ agenda.entries) ∧ ∀ entry ∈ made, ok entry.due entry.event := by
  induction grown with
  | refl => exact ⟨[], .refl _, fun _ member => absurd member List.not_mem_nil⟩
  | push _ fits ih =>
    obtain ⟨made, all, within⟩ := ih
    exact ⟨_, push_perm.trans (all.cons _), List.forall_mem_cons.mpr ⟨fits, within⟩⟩

end

/-! ### The loop -/

section Loop
variable {σ : Type*} (agendaOf : σ → Agenda τ ε) (put : σ → Agenda τ ε → σ) (act : σ → ε → σ) (target : τ)

/-- One round: the entry that is taken and the state after it. -/
def tick (s : σ) : Option (Entry τ ε × σ) :=
  ((agendaOf s).pop target).map (fun (entry, rest) => (entry, act (put s rest) entry.event))

/-- The loop up to `target`, which it ends at. -/
def runFor : Nat → σ → Option σ
  | 0, _ => none
  | fuel + 1, s =>
    match tick agendaOf put act target s with
    | none => some (put s { agendaOf s with now := target })
    | some (_, next) => runFor fuel next

variable {agendaOf put act target}

/-- The loop ends where each entry is made ahead of the clock: an entry is taken away for each that are added, and
these are due later. -/
theorem runFor_ends [WellFoundedGT τ] {P : σ → Prop}
    (keep : ∀ s entry rest, P s → (agendaOf s).pop target = some (entry, rest) → P (act (put s rest) entry.event))
    (ahead : ∀ s entry rest, P s → (agendaOf s).pop target = some (entry, rest) →
      Grown (fun due _ => rest.now < due) rest (agendaOf (act (put s rest) entry.event)))
    (s : σ) (start : P s) : ∃ fuel final, runFor agendaOf put act target fuel s = some final := by
  have descent := InvImage.wf (fun s => (((agendaOf s).entries.map (fun entry => OrderDual.toDual entry.due) :
    List τᵒᵈ) : Multiset τᵒᵈ)) Multiset.wellFounded_isDershowitzMannaLT
  induction s using descent.induction with
  | _ s ih =>
    cases taken : (agendaOf s).pop target with
    | none =>
      refine ⟨1, put s { agendaOf s with now := target }, ?_⟩
      rw [runFor, tick, taken, Option.map_none]
    | some popped =>
      obtain ⟨entry, rest⟩ := popped
      obtain ⟨fuel, final, ends⟩ : ∃ fuel final,
          runFor agendaOf put act target fuel (act (put s rest) entry.event) = some final := by
        refine ih _ ?_ (keep s entry rest start taken)
        obtain ⟨made, all, beyond⟩ := (ahead s entry rest start taken).entries
        obtain ⟨tail, found, -, rfl⟩ := pop_eq_some taken
        refine ⟨(tail.map (fun entry => OrderDual.toDual entry.due) : List τᵒᵈ),
          (made.map (fun entry => OrderDual.toDual entry.due) : List τᵒᵈ), {OrderDual.toDual entry.due},
          Multiset.singleton_ne_zero _, ?_, ?_, fun y member => ?_⟩
        · refine (Multiset.coe_eq_coe.mpr (all.map _)).trans ?_
          rw [List.map_append, ← Multiset.coe_add, add_comm]
        · show (((agendaOf s).entries.map (fun entry => OrderDual.toDual entry.due) : List τᵒᵈ) : Multiset τᵒᵈ) = _
          rw [found, List.map_cons, ← Multiset.cons_coe, ← Multiset.singleton_add, add_comm]
        · obtain ⟨new, inside, rfl⟩ := List.mem_map.mp (Multiset.mem_coe.mp member)
          have later : entry.due < new.due := lt_of_le_of_lt (le_max_left _ _) (beyond new inside)
          exact ⟨_, Multiset.mem_singleton_self _, OrderDual.toDual_lt_toDual.mpr later⟩
      refine ⟨fuel + 1, final, ?_⟩
      rw [runFor, tick, taken, Option.map_some]
      exact ends

end Loop

end Agenda
