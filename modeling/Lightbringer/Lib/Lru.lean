import Mathlib.Data.List.Basic
import Mathlib.Data.List.Induction
import Mathlib.Data.List.Nodup
import Mathlib.Data.List.Perm.Subperm
import Mathlib.Data.Finset.Dedup
import Mathlib.Data.Finset.Card

/-!
# A bounded map that forgets the least recently used entry

Entries are kept most recent first. Looking an entry up moves it to the front; pushing one past the capacity
drops the last.
-/

structure Lru (κ ν : Type*) where
  capacity : Nat
  entries : List (κ × ν)
  distinct : (entries.map (·.1)).Nodup
  bounded : entries.length ≤ capacity

namespace Lru

variable {κ ν : Type*} [DecidableEq κ]

def new (capacity : Nat) : Lru κ ν := ⟨capacity, [], List.nodup_nil, Nat.zero_le _⟩

def peek (m : Lru κ ν) (k : κ) : Option ν := (m.entries.find? (fun entry => entry.1 = k)).map (·.2)

/-- The entries of all keys but `k`. -/
def others (m : Lru κ ν) (k : κ) : List (κ × ν) := m.entries.filter (fun entry => entry.1 ≠ k)

theorem others_distinct (m : Lru κ ν) (k : κ) : ((m.others k).map (·.1)).Nodup :=
  m.distinct.sublist (List.filter_sublist.map _)

theorem notMem_others (m : Lru κ ν) (k : κ) : k ∉ (m.others k).map (·.1) := by
  simp [others]

def push (m : Lru κ ν) (k : κ) (v : ν) : Lru κ ν where
  capacity := m.capacity
  entries := ((k, v) :: m.others k).take m.capacity
  distinct := by
    have front : (((k, v) :: m.others k).map (·.1)).Nodup :=
      List.nodup_cons.mpr ⟨m.notMem_others k, m.others_distinct k⟩
    exact front.sublist ((List.take_sublist _ _).map _)
  bounded := List.length_take_le _ _

/-- Takes an entry out, if it is there. -/
def remove (m : Lru κ ν) (k : κ) : Lru κ ν where
  capacity := m.capacity
  entries := m.others k
  distinct := m.others_distinct k
  bounded := Nat.le_trans (List.length_filter_le _ _) m.bounded

theorem mem_of_mem_remove {m : Lru κ ν} {k : κ} {entry : κ × ν} (member : entry ∈ (m.remove k).entries) :
    entry ∈ m.entries := List.mem_of_mem_filter member

theorem mem_of_mem_push {m : Lru κ ν} {k : κ} {v : ν} {entry : κ × ν} (member : entry ∈ (m.push k v).entries) :
    entry = (k, v) ∨ entry ∈ m.entries := by
  rcases List.mem_cons.mp (List.mem_of_mem_take member) with new | old
  · exact .inl new
  · exact .inr (List.mem_of_mem_filter old)

/-- A lookup that counts as a use. -/
def get (m : Lru κ ν) (k : κ) : Lru κ ν × Option ν :=
  match m.peek k with
  | some v => (m.push k v, some v)
  | none => (m, none)

@[simp] theorem get_value (m : Lru κ ν) (k : κ) : (m.get k).2 = m.peek k := by
  unfold get
  split
  next found => exact found.symm
  next missing => exact missing.symm

@[simp] theorem push_capacity (m : Lru κ ν) (k : κ) (v : ν) : (m.push k v).capacity = m.capacity := rfl

theorem peek_push_self {m : Lru κ ν} (room : 0 < m.capacity) (k : κ) (v : ν) : (m.push k v).peek k = some v := by
  obtain ⟨n, size⟩ := Nat.exists_eq_succ_of_ne_zero (Nat.ne_of_gt room)
  simp [peek, push, size]

theorem mem_of_peek {m : Lru κ ν} {k : κ} {v : ν} (found : m.peek k = some v) : (k, v) ∈ m.entries := by
  obtain ⟨⟨key, value⟩, entry, rfl⟩ := Option.map_eq_some_iff.mp found
  have same : key = k := by simpa using List.find?_some entry
  subst same
  exact List.mem_of_find?_eq_some entry

theorem peek_of_mem {m : Lru κ ν} {k : κ} {v : ν} (member : (k, v) ∈ m.entries) : m.peek k = some v := by
  have distinct := m.distinct
  unfold peek
  generalize m.entries = entries at member distinct
  induction entries with
  | nil => cases member
  | cons entry rest ih =>
    obtain ⟨fresh, distinct⟩ := List.nodup_cons.mp distinct
    rcases List.mem_cons.mp member with rfl | later
    · simp
    · have apart : entry.1 ≠ k := by
        rintro rfl
        exact fresh (List.mem_map.mpr ⟨(entry.1, v), later, rfl⟩)
      rw [List.find?_cons_of_neg (by simpa using apart)]
      exact ih later distinct

theorem mem_of_mem_get {m : Lru κ ν} {k : κ} {entry : κ × ν} (member : entry ∈ (m.get k).1.entries) :
    entry ∈ m.entries := by
  unfold get at member
  split at member
  next v found =>
    obtain rfl | old := mem_of_mem_push member
    · exact mem_of_peek found
    · exact old
  next => exact member

theorem peek_eq_some_iff {m : Lru κ ν} {k : κ} {v : ν} : m.peek k = some v ↔ (k, v) ∈ m.entries :=
  ⟨mem_of_peek, peek_of_mem⟩

/-- Nothing is forgotten while there is room for one more. -/
theorem peek_push_other {m : Lru κ ν} {k j : κ} (v : ν) (room : (m.others k).length < m.capacity) (apart : j ≠ k) :
    (m.push k v).peek j = m.peek j := by
  have whole : (m.push k v).entries = (k, v) :: m.others k := List.take_of_length_le room
  refine Option.ext (fun w => ?_)
  rw [peek_eq_some_iff, peek_eq_some_iff, whole]
  simp [others, apart]

theorem length_others_lt {m : Lru κ ν} {k : κ} {v : ν} (found : m.peek k = some v) : (m.others k).length < m.capacity :=
  Nat.lt_of_lt_of_le
    (List.length_filter_lt_length_iff_exists.mpr ⟨(k, v), mem_of_peek found, by simp⟩) m.bounded

theorem length_le_others (m : Lru κ ν) (k : κ) : m.entries.length ≤ (m.others k).length + 1 := by
  have once : m.entries.countP (fun entry => entry.1 = k) ≤ 1 := by
    have count := List.nodup_iff_count_le_one.mp m.distinct k
    rwa [List.count, List.countP_map] at count
  have split := List.length_eq_countP_add_countP (fun entry : κ × ν => decide (entry.1 = k)) (l := m.entries)
  have rest : (m.others k).length = m.entries.countP (fun entry => ¬ decide (entry.1 = k) = true) := by
    rw [others, ← List.countP_eq_length_filter]
    simp
  omega

/-- Behind what is pushed stand the entries there were, but for one at most. -/
theorem push_eq_cons {m : Lru κ ν} (room : 0 < m.capacity) (k : κ) (v : ν) :
    ∃ rest, (m.push k v).entries = (k, v) :: rest ∧ rest.Sublist m.entries ∧ m.entries.length ≤ rest.length + 1 := by
  obtain ⟨n, size⟩ := Nat.exists_eq_succ_of_ne_zero (Nat.ne_of_gt room)
  refine ⟨(m.others k).take n, ?_, (List.take_sublist ..).trans List.filter_sublist, ?_⟩
  · show ((k, v) :: m.others k).take m.capacity = _
    rw [size]
    rfl
  · have few := m.length_le_others k
    have bounded := m.bounded
    rw [List.length_take]
    omega

/-- A lookup forgets nothing. -/
theorem peek_get (m : Lru κ ν) (k j : κ) : (m.get k).1.peek j = m.peek j := by
  unfold get
  split
  next v found =>
    have room := length_others_lt found
    by_cases same : j = k
    · rw [same, peek_push_self (Nat.zero_lt_of_lt room), found]
    · exact peek_push_other v room same
  next => rfl

theorem get_capacity (m : Lru κ ν) (k : κ) : (m.get k).1.capacity = m.capacity := by
  unfold get
  split
  · rfl
  · rfl

/-- The key that a push of `k` would forget. -/
def victim (m : Lru κ ν) (k : κ) : Option κ := ((m.others k)[m.capacity - 1]?).map (·.1)

theorem peek_push_kept {m : Lru κ ν} {k j : κ} {w : ν} (v : ν) (found : m.peek j = some w) (apart : j ≠ k)
    (spared : m.victim k ≠ some j) : (m.push k v).peek j = some w := by
  have member : (j, w) ∈ m.others k := List.mem_filter.mpr ⟨mem_of_peek found, by simpa using apart⟩
  obtain ⟨i, small, entry⟩ := List.mem_iff_getElem.mp member
  have fits : (m.others k).length ≤ m.capacity := Nat.le_trans (List.length_filter_le _ _) m.bounded
  have place : i ≠ m.capacity - 1 := by
    rintro rfl
    refine spared ?_
    rw [victim, List.getElem?_eq_getElem small, entry]
    rfl
  apply peek_of_mem
  show (j, w) ∈ ((k, v) :: m.others k).take m.capacity
  have inside : i + 1 < (((k, v) :: m.others k).take m.capacity).length := by
    rw [List.length_take, List.length_cons]
    omega
  have there : (((k, v) :: m.others k).take m.capacity)[i + 1] = (j, w) := by
    rw [List.getElem_take, List.getElem_cons_succ, entry]
  rw [← there]
  exact List.getElem_mem inside

/-! ### Which keys are left -/

def keys (m : Lru κ ν) : List κ := m.entries.map (·.1)

theorem keys_push (m : Lru κ ν) (k : κ) (v : ν) :
    (m.push k v).keys = (k :: m.keys.filter (fun key => key ≠ k)).take m.capacity := by
  have filtered : (m.others k).map (·.1) = m.keys.filter (fun key => key ≠ k) := by
    rw [others, keys, List.filter_map]
    rfl
  rw [keys, push, List.map_take, List.map_cons, filtered]

theorem peek_isSome_iff (m : Lru κ ν) (k : κ) : (m.peek k).isSome ↔ k ∈ m.keys := by
  rw [keys, List.mem_map, Option.isSome_iff_exists]
  constructor
  · rintro ⟨v, found⟩
    exact ⟨(k, v), mem_of_peek found, rfl⟩
  · rintro ⟨⟨key, v⟩, member, rfl⟩
    exact ⟨v, peek_of_mem member⟩

/-- The keys of a history of pushes, the last one first and each once. -/
def recent (history : List κ) : List κ := history.foldl (fun keys k => k :: keys.filter (fun key => key ≠ k)) []

theorem recent_concat (history : List κ) (k : κ) :
    recent (history ++ [k]) = k :: (recent history).filter (fun key => key ≠ k) := by
  simp [recent]

theorem recent_nodup (history : List κ) : (recent history).Nodup := by
  induction history using List.reverseRecOn with
  | nil => exact List.nodup_nil
  | append_singleton rest k ih =>
    rw [recent_concat]
    exact List.nodup_cons.mpr ⟨by simp, ih.filter _⟩

/-- A bound on the keys loses nothing that a bound after the next push would keep. -/
theorem take_filter_take {keys : List κ} (distinct : keys.Nodup) (k : κ) (n : Nat) :
    ((keys.take (n + 1)).filter (fun key => key ≠ k)).take n = (keys.filter (fun key => key ≠ k)).take n := by
  induction keys generalizing n with
  | nil => rfl
  | cons key rest ih =>
    obtain ⟨fresh, distinct⟩ := List.nodup_cons.mp distinct
    rw [List.take_succ_cons]
    by_cases same : key = k
    · subst same
      have whole : ∀ part : List κ, part.Sublist rest → part.filter (fun other => other ≠ key) = part := by
        intro part sub
        refine List.filter_eq_self.mpr (fun other member => decide_eq_true ?_)
        rintro rfl
        exact fresh (sub.subset member)
      rw [List.filter_cons_of_neg (by simp), List.filter_cons_of_neg (by simp), whole rest (List.Sublist.refl rest),
        whole _ (List.take_sublist n rest), List.take_take, Nat.min_self]
    · rw [List.filter_cons_of_pos (by simpa using same), List.filter_cons_of_pos (by simpa using same)]
      cases n with
      | zero => rfl
      | succ n => rw [List.take_succ_cons, List.take_succ_cons, ih distinct]

/-- The map holds the most recent keys of the history, as many as fit. -/
structure Tracks (m : Lru κ ν) (size : Nat) (history : List κ) : Prop where
  capacity : m.capacity = size
  keys : m.keys = (recent history).take size

theorem tracks_new (capacity : Nat) : (Lru.new capacity : Lru κ ν).Tracks capacity [] := by
  refine ⟨rfl, ?_⟩
  simp [Lru.new, Lru.keys, recent]

theorem tracks_push {m : Lru κ ν} {size : Nat} {history : List κ} (held : m.Tracks size history) (k : κ) (v : ν) :
    (m.push k v).Tracks size (history ++ [k]) := by
  refine ⟨held.capacity, ?_⟩
  rw [keys_push, held.capacity, held.keys, recent_concat]
  cases size with
  | zero => rfl
  | succ n => rw [List.take_succ_cons, List.take_succ_cons, take_filter_take (recent_nodup history)]

/-! ### What came after a key -/

/-- The key is held, and whatever was used after its last use is among the given keys. -/
def Behind (m : Lru κ ν) (k : κ) (since : List κ) : Prop :=
  ∃ newer older, m.keys = newer ++ k :: older ∧ ∀ j ∈ newer, j ∈ since

theorem behind_isSome {m : Lru κ ν} {k : κ} {since : List κ} (held : m.Behind k since) : (m.peek k).isSome := by
  obtain ⟨newer, older, keys, _⟩ := held
  rw [peek_isSome_iff, keys]
  exact List.mem_append_right _ (List.mem_cons_self ..)

theorem behind_push_self {m : Lru κ ν} (room : 0 < m.capacity) (k : κ) (v : ν) : (m.push k v).Behind k [] := by
  obtain ⟨n, size⟩ := Nat.exists_eq_succ_of_ne_zero (Nat.ne_of_gt room)
  refine ⟨[], (m.keys.filter (fun key => key ≠ k)).take n, ?_, ?_⟩
  · rw [keys_push, size, List.take_succ_cons]
    rfl
  · exact fun j member => (List.not_mem_nil member).elim

omit [DecidableEq κ] in
theorem behind_mono {m : Lru κ ν} {k : κ} {since later : List κ} (held : m.Behind k since)
    (more : ∀ j ∈ since, j ∈ later) : m.Behind k later := by
  obtain ⟨newer, older, keys, among⟩ := held
  exact ⟨newer, older, keys, fun j member => more j (among j member)⟩

/-- Another key takes at most one more place in front. -/
theorem behind_push {m : Lru κ ν} {k j : κ} {since : List κ} (v : ν) (held : m.Behind k since) (apart : j ≠ k)
    (among : j ∈ since) (few : since.toFinset.card < m.capacity) : (m.push j v).Behind k since := by
  obtain ⟨newer, older, keys, within⟩ := held
  have distinct : (newer ++ k :: older).Nodup := keys ▸ m.distinct
  let front := j :: newer.filter (fun key => key ≠ j)
  have frontWithin : ∀ key ∈ front, key ∈ since := by
    intro key member
    cases List.mem_cons.mp member with
    | inl same => exact same ▸ among
    | inr old => exact within key (List.mem_of_mem_filter old)
  have frontDistinct : front.Nodup :=
    List.nodup_cons.mpr ⟨by simp, (List.nodup_append.mp distinct).1.filter _⟩
  have short : front.length < m.capacity := by
    have bound := Finset.card_le_card (fun key member => List.mem_toFinset.mpr (frontWithin key (List.mem_toFinset.mp member)))
    rw [List.toFinset_card_of_nodup frontDistinct] at bound
    omega
  refine ⟨front, (older.filter (fun key => key ≠ j)).take (m.capacity - front.length - 1), ?_, frontWithin⟩
  have split : j :: m.keys.filter (fun key => key ≠ j) = front ++ k :: older.filter (fun key => key ≠ j) := by
    rw [keys, List.filter_append, List.filter_cons_of_pos (by simpa using apart.symm)]
    rfl
  obtain ⟨n, size⟩ : ∃ n, m.capacity - front.length = n + 1 := ⟨m.capacity - front.length - 1, by omega⟩
  rw [keys_push, split, List.take_append, List.take_of_length_le (Nat.le_of_lt short), size, List.take_succ_cons]
  rfl

/-! ### Many pushes -/

def pushAll (m : Lru κ ν) (items : List (κ × ν)) : Lru κ ν := items.foldl (fun m item => m.push item.1 item.2) m

@[simp] theorem pushAll_nil (m : Lru κ ν) : m.pushAll [] = m := rfl

theorem pushAll_append (m : Lru κ ν) (items more : List (κ × ν)) :
    m.pushAll (items ++ more) = (m.pushAll items).pushAll more := by
  rw [pushAll, List.foldl_append]
  rfl

@[simp] theorem pushAll_capacity (m : Lru κ ν) (items : List (κ × ν)) : (m.pushAll items).capacity = m.capacity := by
  induction items generalizing m with
  | nil => rfl
  | cons item rest ih => exact ih (m.push item.1 item.2)

theorem mem_keys_push {m : Lru κ ν} {k j : κ} {v : ν} (member : j ∈ (m.push k v).keys) : j = k ∨ j ∈ m.keys := by
  obtain ⟨entry, pushed, rfl⟩ := List.mem_map.mp member
  rcases mem_of_mem_push pushed with rfl | old
  · exact .inl rfl
  · exact .inr (List.mem_map_of_mem old)

/-- What has just been pushed leads, and the rest moves back by one place at most. -/
theorem mem_take_keys_push {m : Lru κ ν} {k j : κ} {v : ν} {n : Nat} (short : n < m.capacity) (member : j ∈ m.keys.take n) :
    j ∈ (m.push k v).keys.take (n + 1) := by
  rw [keys_push, List.take_take, Nat.min_eq_left short, List.take_succ_cons, List.mem_cons]
  by_cases same : j = k
  · exact .inl same
  · right
    generalize m.keys = listed at member
    induction listed generalizing n with
    | nil => simp at member
    | cons key rest ih =>
      cases n with
      | zero => simp at member
      | succ n =>
        rw [List.take_succ_cons, List.mem_cons] at member
        by_cases skipped : key = k
        · rw [List.filter_cons_of_neg (by simpa using skipped)]
          have later := member.resolve_left (fun here => same (here.trans skipped))
          exact List.take_subset_take_left _ (Nat.le_succ n) (ih (by omega) later)
        · rw [List.filter_cons_of_pos (by simpa using skipped), List.take_succ_cons, List.mem_cons]
          exact member.imp_right (ih (by omega))

/-- No more pushes than there is room for push nothing out of what they push. -/
theorem mem_keys_pushAll {m : Lru κ ν} {items : List (κ × ν)} (short : items.length ≤ m.capacity) {k : κ}
    (member : k ∈ items.map (·.1)) : k ∈ (m.pushAll items).keys := by
  suffices lead : k ∈ (m.pushAll items).keys.take items.length from List.mem_of_mem_take lead
  induction items using List.reverseRecOn with
  | nil => cases member
  | append_singleton items item ih =>
    rw [List.length_append, List.length_singleton] at short ⊢
    have pushed : m.pushAll (items ++ [item]) = (m.pushAll items).push item.1 item.2 := m.pushAll_append items [item]
    rw [pushed]
    rw [List.map_append, List.mem_append] at member
    rcases member with early | last
    · exact mem_take_keys_push (by rw [pushAll_capacity]; omega) (ih (by omega) early)
    · obtain rfl := List.mem_singleton.mp last
      have room : 0 < (m.pushAll items).capacity := by rw [pushAll_capacity]; omega
      have front : ((m.pushAll items).push item.1 item.2).keys.head? = some item.1 := by
        rw [keys, push, List.map_take, List.map_cons]
        cases size : (m.pushAll items).capacity with
        | zero => omega
        | succ n => rfl
      cases whole : ((m.pushAll items).push item.1 item.2).keys with
      | nil => simp [whole] at front
      | cons key rest =>
        rw [whole, List.head?_cons, Option.some.injEq] at front
        rw [List.take_succ_cons, front]
        exact List.mem_cons_self

/-- While all keys together fit nothing is forgotten. -/
theorem peek_push_within {m : Lru κ ν} {all : List κ} (fit : all.length ≤ m.capacity) (known : ∀ j ∈ m.keys, j ∈ all)
    {k : κ} (new : k ∈ all) (v : ν) (j : κ) : (m.push k v).peek j = if j = k then some v else m.peek j := by
  have distinct : (k :: (m.others k).map (·.1)).Nodup := List.nodup_cons.mpr ⟨m.notMem_others k, m.others_distinct k⟩
  have subset : ∀ key ∈ k :: (m.others k).map (·.1), key ∈ all := by
    intro key member
    rcases List.mem_cons.mp member with rfl | other
    · exact new
    · obtain ⟨entry, kept, rfl⟩ := List.mem_map.mp other
      exact known _ (List.mem_map_of_mem (List.mem_of_mem_filter kept))
  have room : (m.others k).length < m.capacity := by
    have bound := (distinct.subperm subset).length_le
    rw [List.length_cons, List.length_map] at bound
    omega
  split
  next same =>
    rw [same]
    exact peek_push_self (by omega) k v
  next apart => exact peek_push_other v room apart

/-- What is known of a key before such pushes and of what is pushed under it is known of it after them. -/
theorem peek_pushAll_of {m : Lru κ ν} {all : List κ} (fit : all.length ≤ m.capacity) (known : ∀ j ∈ m.keys, j ∈ all)
    {items : List (κ × ν)} (new : ∀ item ∈ items, item.1 ∈ all) {P : Option ν → Prop} {j : κ}
    (start : P (m.peek j) ∨ j ∈ items.map (·.1)) (each : ∀ item ∈ items, item.1 = j → P (some item.2)) :
    P ((m.pushAll items).peek j) := by
  induction items generalizing m with
  | nil => exact start.resolve_right List.not_mem_nil
  | cons item rest ih =>
    have here := new item List.mem_cons_self
    refine ih (m := m.push item.1 item.2) fit (fun k member => ?_)
      (fun later member => new later (List.mem_cons_of_mem _ member)) ?_
      (fun later member => each later (List.mem_cons_of_mem _ member))
    · rcases mem_keys_push member with rfl | old
      · exact here
      · exact known k old
    · rw [peek_push_within fit known here]
      split
      next same => exact .inl (each item List.mem_cons_self same.symm)
      next apart => exact start.imp_right (fun member => (List.mem_cons.mp member).resolve_left apart)

/-- While all keys together fit, a key holds what was pushed under it last. -/
theorem peek_pushAll_within {m : Lru κ ν} {all : List κ} (fit : all.length ≤ m.capacity) (known : ∀ j ∈ m.keys, j ∈ all)
    {items : List (κ × ν)} (new : ∀ item ∈ items, item.1 ∈ all) (j : κ) :
    (m.pushAll items).peek j = ((items.reverse.find? (fun item => item.1 = j)).map (·.2)).or (m.peek j) := by
  induction items generalizing m with
  | nil => rfl
  | cons item rest ih =>
    have here := new item List.mem_cons_self
    have later := ih (m := m.push item.1 item.2) fit (fun k member => ?_)
      (fun other member => new other (List.mem_cons_of_mem _ member))
    · rw [List.reverse_cons, List.find?_append, List.find?_singleton]
      refine later.trans ?_
      rw [peek_push_within fit known here]
      cases rest.reverse.find? (fun item => item.1 = j) with
      | some found => rfl
      | none =>
        by_cases same : item.1 = j
        · simp [same]
        · simp [same, Ne.symm same]
    · rcases mem_keys_push member with rfl | old
      · exact here
      · exact known k old

/-- The entries are known from what is held under each key, but for their order. -/
theorem entries_perm {m m' : Lru κ ν} (same : ∀ k, m.peek k = m'.peek k) : m.entries.Perm m'.entries := by
  refine (List.perm_ext_iff_of_nodup m.distinct.of_map m'.distinct.of_map).mpr (fun entry => ?_)
  obtain ⟨k, v⟩ := entry
  rw [← peek_eq_some_iff, ← peek_eq_some_iff, same]

end Lru
