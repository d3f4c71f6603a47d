import Lightbringer.GrpcSlotStream.ShredSource
import Lightbringer.Lib.Machine

/-!
# Each confirmed slot once

Whichever of a slot and its confirmation comes first, the slot goes downstream once and with the shreds that were
inserted, as long as it has not been pushed out of the cache: by slots inserted after it, or confirmed after it.
-/

namespace Lightbringer.GrpcSlotStream
open Machine Store BlockConf

def insertedIn (events : List WaiterEvent) : List SlotRaw :=
  events.filterMap (fun event => match event with | .insert slot => some slot | _ => none)

def calledIn (events : List WaiterEvent) : List BlockConfUpdate :=
  events.filterMap (fun event => match event with | .sendSlotShreds _ update => some update | _ => none)

def slotsInserted (events : List WaiterEvent) : List UInt64 := (insertedIn events).map (·.slot)

def slotsCalled (events : List WaiterEvent) : List UInt64 := (calledIn events).map (·.slot)

/-- The slots inserted or confirmed. -/
def touched (events : List WaiterEvent) : Finset UInt64 := (slotsInserted events ++ slotsCalled events).toFinset

/-- Slots are inserted once and confirmed once, the confirmation with few events between by the given measure. -/
structure Orderly (between : List WaiterEvent → Nat) (events : List WaiterEvent) : Prop where
  insertedOnce : (slotsInserted events).Nodup
  calledOnce : (slotsCalled events).Nodup
  recent : ∀ pre slot mid store update post, events = pre ++ .insert slot :: mid ++ .sendSlotShreds store update :: post →
    update.slot = slot.slot → between mid < slotCacheSize

/-- A call starts when the one before it has ended. -/
def Single (s : Runner) : WaiterEvent → Prop
  | .sendSlotShreds _ _ => s.call = .idle
  | _ => True

namespace Call

/-- What is in the channel of the call and goes downstream when it goes on. -/
def underway : Call → List (SlotForGrpc ShredInfoView)
  | .waiting update (some shreds) => [confirmedSlot update shreds]
  | _ => []

/-- The slot without which the call does not go on. -/
def blocked : Call → Option UInt64
  | .waiting update none => some update.slot
  | _ => none

end Call

/-- Slots both inserted and confirmed have gone downstream once, or are about to, as inserted. -/
def DeliveredOnce (events : List WaiterEvent) (s : Runner) (sent : List (SlotForGrpc ShredInfoView)) : Prop :=
  ∀ slot ∈ insertedIn events, ∀ update ∈ calledIn events, update.slot = slot.slot →
    (sent ++ s.call.underway).filter (fun item => item.slot = slot.slot) = [confirmedSlot update (slotBytes slot)]

/-- No call waits for a slot that is there. -/
def WaitsForAbsent (events : List WaiterEvent) (s : Runner) : Prop :=
  ∀ slot, s.call.blocked = some slot → slot ∉ slotsInserted events

/-! ### Logs -/

section

variable (events : List WaiterEvent) (slot : SlotRaw) (store : ShredStore) (update : BlockConfUpdate)

@[simp] theorem insertedIn_insert : insertedIn (events ++ [.insert slot]) = insertedIn events ++ [slot] := by
  simp [insertedIn]

@[simp] theorem insertedIn_call : insertedIn (events ++ [.sendSlotShreds store update]) = insertedIn events := by
  simp [insertedIn]

@[simp] theorem insertedIn_resume : insertedIn (events ++ [.resume]) = insertedIn events := by
  simp [insertedIn]

@[simp] theorem calledIn_insert : calledIn (events ++ [.insert slot]) = calledIn events := by
  simp [calledIn]

@[simp] theorem calledIn_call : calledIn (events ++ [.sendSlotShreds store update]) = calledIn events ++ [update] := by
  simp [calledIn]

@[simp] theorem calledIn_resume : calledIn (events ++ [.resume]) = calledIn events := by
  simp [calledIn]

@[simp] theorem slotsInserted_insert : slotsInserted (events ++ [.insert slot]) = slotsInserted events ++ [slot.slot] := by
  simp [slotsInserted]

@[simp] theorem slotsInserted_call : slotsInserted (events ++ [.sendSlotShreds store update]) = slotsInserted events := by
  simp [slotsInserted]

@[simp] theorem slotsInserted_resume : slotsInserted (events ++ [.resume]) = slotsInserted events := by
  simp [slotsInserted]

@[simp] theorem slotsCalled_insert : slotsCalled (events ++ [.insert slot]) = slotsCalled events := by
  simp [slotsCalled]

@[simp] theorem slotsCalled_call : slotsCalled (events ++ [.sendSlotShreds store update]) = slotsCalled events ++ [update.slot] := by
  simp [slotsCalled]

@[simp] theorem slotsCalled_resume : slotsCalled (events ++ [.resume]) = slotsCalled events := by
  simp [slotsCalled]

end

theorem touched_subset_concat (events : List WaiterEvent) (event : WaiterEvent) : touched events ⊆ touched (events ++ [event]) := by
  intro slot member
  cases event <;> simp [touched] at member ⊢ <;> tauto

/-- An event of a log is its last one or was there before. -/
theorem split_concat {events pre mid : List WaiterEvent} {event earlier : WaiterEvent}
    (split : events ++ [event] = pre ++ earlier :: mid) :
    (mid = [] ∧ earlier = event) ∨ ∃ mid', mid = mid' ++ [event] ∧ events = pre ++ earlier :: mid' := by
  rcases List.eq_nil_or_concat mid with rfl | ⟨mid', last, rfl⟩
  · obtain ⟨_, same⟩ := List.append_inj' split rfl
    cases same
    exact .inl ⟨rfl, rfl⟩
  · have regrouped : events ++ [event] = (pre ++ earlier :: mid') ++ [last] := by simpa using split
    obtain ⟨before, same⟩ := List.append_inj' regrouped rfl
    cases same
    exact .inr ⟨mid', List.concat_eq_append, before⟩

theorem Orderly.before {between : List WaiterEvent → Nat} {events : List WaiterEvent} {event : WaiterEvent}
    (orderly : Orderly between (events ++ [event])) : Orderly between events where
  insertedOnce := by
    have once := orderly.insertedOnce
    cases event with
    | insert slot => exact (List.nodup_append.mp (slotsInserted_insert events slot ▸ once)).1
    | sendSlotShreds store update => exact slotsInserted_call events store update ▸ once
    | resume => exact slotsInserted_resume events ▸ once
  calledOnce := by
    have once := orderly.calledOnce
    cases event with
    | insert slot => exact slotsCalled_insert events slot ▸ once
    | sendSlotShreds store update => exact (List.nodup_append.mp (slotsCalled_call events store update ▸ once)).1
    | resume => exact slotsCalled_resume events ▸ once
  recent pre slot mid store update post split same :=
    orderly.recent pre slot mid store update (post ++ [event]) (by rw [split]; simp) same

theorem filter_own {update : BlockConfUpdate} {n : UInt64} (shreds : List ShredInfoView) (same : update.slot = n) :
    [confirmedSlot update shreds].filter (fun item => item.slot = n) = [confirmedSlot update shreds] := by
  simp [confirmedSlot, same]

theorem filter_other {update : BlockConfUpdate} {n : UInt64} (shreds : List ShredInfoView) (apart : update.slot ≠ n) :
    [confirmedSlot update shreds].filter (fun item => item.slot = n) = [] := by
  simp [confirmedSlot, apart]

/-! ### What a run keeps -/

/-- After the events so far: what the waiter holds, what the call is at, and what has gone downstream. -/
structure Kept (events : List WaiterEvent) (s : Runner) (sent : List (SlotForGrpc ShredInfoView)) : Prop where
  finished : ∀ n, n ∈ s.waiter.finishedSlots ↔ n ∈ slotsInserted events ∧ n ∉ slotsCalled events
  notif : s.waiter.blockNotif = s.call.blocked
  blocked : ∀ n, s.call.blocked = some n ↔ n ∈ slotsCalled events ∧ n ∉ slotsInserted events
  current : ∀ update received, s.call = .waiting update received → update ∈ calledIn events
  distinct : RecentList.Distinct s.waiter.slotCache
  cached : ∀ entry ∈ s.waiter.slotCache, entry.1 ∈ slotsInserted events
  behind : ∀ pre slot mid, events = pre ++ .insert slot :: mid → slot.slot ∉ slotsCalled events →
    (touched mid).card < slotCacheSize → RecentList.Behind s.waiter.slotCache (slot.slot, slotBytes slot) (touched mid)
  both : ∀ item ∈ sent ++ s.call.underway, item.slot ∈ slotsInserted events ∧ item.slot ∈ slotsCalled events
  delivered : DeliveredOnce events s sent

theorem kept_start : Kept [] .start [] where
  finished n := by simp [Runner.start, SlotShredsWaiter.new, slotsInserted, insertedIn]
  notif := rfl
  blocked n := by simp [Runner.start, Call.blocked, slotsCalled, calledIn]
  current := nofun
  distinct := List.nodup_nil
  cached := nofun
  behind pre slot mid split := by simp at split
  both := nofun
  delivered := nofun

section

variable {events : List WaiterEvent} {s : Runner} {sent : List (SlotForGrpc ShredInfoView)}

/-- A slot that is both inserted and confirmed with one event was not sent before. -/
theorem Kept.unsent (kept : Kept events s sent) {n : UInt64} (missing : n ∉ slotsInserted events ∨ n ∉ slotsCalled events) :
    (sent ++ s.call.underway).filter (fun item => item.slot = n) = [] := by
  refine List.filter_eq_nil_iff.mpr (fun item member same => ?_)
  obtain ⟨inserted, called⟩ := kept.both item member
  rw [of_decide_eq_true same] at inserted called
  rcases missing with absent | absent
  · exact absent inserted
  · exact absent called

/-- What was behind a slot stays there when one event more is counted. -/
theorem Kept.behind_concat (kept : Kept events s sent) {pre mid : List WaiterEvent} {slot : SlotRaw} (event : WaiterEvent)
    (split : events = pre ++ .insert slot :: mid) (uncalled : slot.slot ∉ slotsCalled events)
    (few : (touched (mid ++ [event])).card < slotCacheSize) :
    RecentList.Behind s.waiter.slotCache (slot.slot, slotBytes slot) (touched (mid ++ [event])) := by
  have more := touched_subset_concat mid event
  have less := Finset.card_le_card more
  exact (kept.behind pre slot mid split uncalled (by omega)).mono more

/-- Between calls every slot that was confirmed is there. -/
theorem Kept.inserted_of_called (kept : Kept events s sent) (idle : s.call = .idle) :
    ∀ n, n ∈ slotsCalled events → n ∈ slotsInserted events := by
  intro n called
  by_contra unknown
  have waits := (kept.blocked n).mpr ⟨called, unknown⟩
  rw [idle] at waits
  cases waits

theorem eq_of_slot {slot other : SlotRaw} (once : (slotsInserted events).Nodup) (here : slot ∈ insertedIn events)
    (there : other ∈ insertedIn events) (same : slot.slot = other.slot) : slot = other :=
  List.inj_on_of_nodup_map once here there same

theorem eq_of_called {update other : BlockConfUpdate} (once : (slotsCalled events).Nodup) (here : update ∈ calledIn events)
    (there : other ∈ calledIn events) (same : update.slot = other.slot) : update = other :=
  List.inj_on_of_nodup_map once here there same

theorem kept_resume (kept : Kept events s sent) : Kept (events ++ [.resume]) (s.step .resume).1 (sent ++ (s.step .resume).2) := by
  have behind : ∀ pre slot mid, events ++ [.resume] = pre ++ .insert slot :: mid → slot.slot ∉ slotsCalled events →
      (touched mid).card < slotCacheSize →
      RecentList.Behind s.waiter.slotCache (slot.slot, slotBytes slot) (touched mid) := by
    intro pre slot mid split uncalled few
    rcases split_concat split with ⟨_, same⟩ | ⟨mid', rfl, before⟩
    · cases same
    · exact kept.behind_concat .resume before uncalled few
  have same : (s.step .resume).1.waiter = s.waiter ∧ (s.step .resume).1.call.blocked = s.call.blocked ∧
      sent ++ (s.step .resume).2 ++ (s.step .resume).1.call.underway = sent ++ s.call.underway ∧
      (∀ update received, (s.step .resume).1.call = .waiting update received → s.call = .waiting update received) := by
    unfold Runner.step
    cases call : s.call with
    | idle => simp [call, Call.underway]
    | waiting update received =>
      cases received with
      | none => simp [call, Call.underway]
      | some shreds => simp [Call.blocked, Call.underway]
  obtain ⟨waiter, blocked, flow, current⟩ := same
  refine ⟨?_, ?_, ?_, ?_, ?_, ?_, ?_, ?_, ?_⟩
  · rw [waiter]
    simpa using kept.finished
  · rw [waiter, blocked, kept.notif]
  · rw [blocked]
    simpa using kept.blocked
  · intro update received waiting
    rw [calledIn_resume]
    exact kept.current update received (current update received waiting)
  · rw [waiter]
    exact kept.distinct
  · rw [waiter]
    simpa using kept.cached
  · rw [waiter, slotsCalled_resume]
    exact behind
  · rw [flow]
    simpa using kept.both
  · intro slot inserted update called match'
    rw [flow]
    rw [insertedIn_resume] at inserted
    rw [calledIn_resume] at called
    exact kept.delivered slot inserted update called match'

/-- The slot a call waits for comes: it goes into the call's channel. -/
theorem kept_handed (kept : Kept events s sent) {slot : SlotRaw} {between : List WaiterEvent → Nat}
    (orderly : Orderly between (events ++ [.insert slot])) {update : BlockConfUpdate} (call : s.call = .waiting update none)
    (same : update.slot = slot.slot) :
    Kept (events ++ [.insert slot]) ⟨{ s.waiter with blockNotif := none }, .waiting update (some (slotBytes slot))⟩ sent := by
  have calledNow := kept.current update none call
  have inCalled : slot.slot ∈ slotsCalled events := same ▸ List.mem_map_of_mem calledNow
  have blocked : ∀ n, n ∈ slotsCalled events ∧ n ∉ slotsInserted events ↔ n = slot.slot := by
    intro n
    rw [← kept.blocked, call, Call.blocked, Option.some.injEq, same]
    exact eq_comm
  have absent : slot.slot ∉ slotsInserted events := ((blocked slot.slot).mpr rfl).2
  have before : (sent ++ s.call.underway) = sent := by
    rw [call]
    exact List.append_nil sent
  refine ⟨?_, rfl, ?_, ?_, kept.distinct, ?_, ?_, ?_, ?_⟩
  · intro n
    rw [kept.finished, slotsInserted_insert, slotsCalled_insert, List.mem_append, List.mem_singleton]
    constructor
    · exact fun held => ⟨.inl held.1, held.2⟩
    · rintro ⟨held | rfl, uncalled⟩
      · exact ⟨held, uncalled⟩
      · exact absurd inCalled uncalled
  · intro n
    refine iff_of_false (by simp [Call.blocked]) ?_
    rw [slotsInserted_insert, slotsCalled_insert, List.mem_append, List.mem_singleton]
    rintro ⟨called, missing⟩
    exact missing (.inr ((blocked n).mp ⟨called, fun there => missing (.inl there)⟩))
  · intro update' received waiting
    cases waiting
    rw [calledIn_insert]
    exact calledNow
  · intro entry member
    rw [slotsInserted_insert]
    exact List.mem_append_left _ (kept.cached entry member)
  · intro pre slot' mid split uncalled few
    rw [slotsCalled_insert] at uncalled
    rcases split_concat split with ⟨_, last⟩ | ⟨mid', rfl, earlier⟩
    · cases last
      exact absurd inCalled uncalled
    · exact kept.behind_concat (.insert slot) earlier uncalled few
  · intro item member
    rw [slotsInserted_insert, slotsCalled_insert]
    rcases List.mem_append.mp member with old | new
    · obtain ⟨inserted, called⟩ := kept.both item (List.mem_append_left _ old)
      exact ⟨List.mem_append_left _ inserted, called⟩
    · rw [List.mem_singleton.mp new, show (confirmedSlot update (slotBytes slot)).slot = slot.slot from same]
      exact ⟨List.mem_append_right _ List.mem_cons_self, inCalled⟩
  · intro slot' inserted update' called match'
    rw [calledIn_insert] at called
    rw [insertedIn_insert] at inserted
    show (sent ++ [confirmedSlot update (slotBytes slot)]).filter _ = _
    rcases List.mem_append.mp inserted with old | new
    · have apart : update.slot ≠ slot'.slot := fun equal => absent (same ▸ equal ▸ List.mem_map_of_mem old)
      have given := kept.delivered slot' old update' called match'
      rw [before] at given
      rw [List.filter_append, given, filter_other _ apart, List.append_nil]
    · cases List.mem_singleton.mp new
      have unsent := kept.unsent (.inl absent)
      rw [before] at unsent
      have once : (slotsCalled events).Nodup := slotsCalled_insert events slot ▸ orderly.calledOnce
      cases eq_of_called once called calledNow (match'.trans same.symm)
      rw [List.filter_append, unsent, filter_own _ same, List.nil_append]

/-- Any other slot is cached. -/
theorem kept_finished (kept : Kept events s sent) {slot : SlotRaw} {between : List WaiterEvent → Nat}
    (orderly : Orderly between (events ++ [.insert slot])) (free : s.call.blocked ≠ some slot.slot) :
    Kept (events ++ [.insert slot]) ⟨s.waiter.finish slot, s.call⟩ sent := by
  have absent : slot.slot ∉ slotsInserted events := by
    have once := orderly.insertedOnce
    rw [slotsInserted_insert] at once
    exact fun member => (List.nodup_append.mp once).2.2 _ member _ List.mem_cons_self rfl
  have uncalled : slot.slot ∉ slotsCalled events := fun called => free ((kept.blocked slot.slot).mpr ⟨called, absent⟩)
  have fresh : ∀ entry ∈ s.waiter.slotCache, entry.1 ≠ slot.slot :=
    fun entry member same => absent (same ▸ kept.cached entry member)
  refine ⟨?_, kept.notif, ?_, ?_, RecentList.distinct_insert kept.distinct fresh, ?_, ?_, ?_, ?_⟩
  · intro n
    rw [slotsInserted_insert, slotsCalled_insert, List.mem_append, List.mem_singleton]
    show n ∈ insert slot.slot s.waiter.finishedSlots ↔ _
    rw [Finset.mem_insert, kept.finished]
    constructor
    · rintro (rfl | held)
      · exact ⟨.inr rfl, uncalled⟩
      · exact ⟨.inl held.1, held.2⟩
    · rintro ⟨held | rfl, missing⟩
      · exact .inr ⟨held, missing⟩
      · exact .inl rfl
  · intro n
    rw [kept.blocked, slotsInserted_insert, slotsCalled_insert, List.mem_append, List.mem_singleton]
    constructor
    · rintro ⟨called, missing⟩
      refine ⟨called, ?_⟩
      rintro (there | rfl)
      · exact missing there
      · exact uncalled called
    · exact fun ⟨called, missing⟩ => ⟨called, fun there => missing (.inl there)⟩
  · intro update received waiting
    rw [calledIn_insert]
    exact kept.current update received waiting
  · intro entry member
    rw [slotsInserted_insert]
    rcases RecentList.mem_of_mem_insert member with rfl | old
    · exact List.mem_append_right _ List.mem_cons_self
    · exact List.mem_append_left _ (kept.cached entry old)
  · intro pre slot' mid split missing few
    rw [slotsCalled_insert] at missing
    rcases split_concat split with ⟨rfl, last⟩ | ⟨mid', rfl, earlier⟩
    · cases last
      exact (RecentList.behind_self (by decide)).mono (Finset.empty_subset _)
    · refine RecentList.behind_insert (kept.behind_concat (.insert slot) earlier missing few) ?_ ?_ few
      · refine List.nodup_cons.mpr ⟨?_, kept.distinct⟩
        intro member
        obtain ⟨entry, held, same⟩ := List.mem_map.mp member
        exact fresh entry held same
      · simp [touched]
  · intro item member
    rw [slotsInserted_insert, slotsCalled_insert]
    obtain ⟨inserted, called⟩ := kept.both item member
    exact ⟨List.mem_append_left _ inserted, called⟩
  · intro slot' inserted update called match'
    rw [calledIn_insert] at called
    rw [insertedIn_insert] at inserted
    rcases List.mem_append.mp inserted with old | new
    · exact kept.delivered slot' old update called match'
    · cases List.mem_singleton.mp new
      exact absurd (match' ▸ List.mem_map_of_mem called) uncalled

theorem kept_insert (kept : Kept events s sent) {slot : SlotRaw} {between : List WaiterEvent → Nat}
    (orderly : Orderly between (events ++ [.insert slot])) :
    Kept (events ++ [.insert slot]) (s.step (.insert slot)).1 (sent ++ (s.step (.insert slot)).2) := by
  unfold Runner.step SlotShredsWaiter.insert
  dsimp only
  rw [List.append_nil, kept.notif]
  cases waits : s.call.blocked with
  | none => exact kept_finished kept orderly (by rw [waits]; nofun)
  | some n =>
    dsimp only
    split
    next other =>
      refine kept_finished kept orderly ?_
      rw [waits]
      exact fun same => other (Option.some.inj same).symm
    next same =>
      have here : slot.slot = n := not_not.mp same
      cases call : s.call with
      | idle =>
        rw [call] at waits
        cases waits
      | waiting update received =>
        rw [call] at waits
        cases received with
        | some shreds => cases waits
        | none => exact kept_handed kept orderly call ((Option.some.inj waits).trans here.symm)

/-- A call for a slot that is not there waits for it. -/
theorem kept_waiting (kept : Kept events s sent) {store : ShredStore} {update : BlockConfUpdate} (idle : s.call = .idle)
    (uncalled : update.slot ∉ slotsCalled events) (missing : update.slot ∉ s.waiter.finishedSlots) :
    Kept (events ++ [.sendSlotShreds store update])
      ⟨{ s.waiter with blockNotif := some update.slot }, .waiting update none⟩ sent := by
  have absent : update.slot ∉ slotsInserted events := fun there => missing ((kept.finished _).mpr ⟨there, uncalled⟩)
  have before : (sent ++ s.call.underway) = sent := by
    rw [idle]
    exact List.append_nil sent
  have none := kept.inserted_of_called idle
  refine ⟨?_, rfl, ?_, ?_, kept.distinct, ?_, ?_, ?_, ?_⟩
  · intro n
    rw [kept.finished, slotsInserted_call, slotsCalled_call, List.mem_append, List.mem_singleton]
    constructor
    · rintro ⟨inserted, unasked⟩
      refine ⟨inserted, ?_⟩
      rintro (called | rfl)
      · exact unasked called
      · exact absent inserted
    · exact fun ⟨inserted, unasked⟩ => ⟨inserted, fun called => unasked (.inl called)⟩
  · intro n
    rw [slotsInserted_call, slotsCalled_call, List.mem_append, List.mem_singleton, Call.blocked, Option.some.injEq]
    constructor
    · rintro rfl
      exact ⟨.inr rfl, absent⟩
    · rintro ⟨called | same, unknown⟩
      · exact absurd (none n called) unknown
      · exact same.symm
  · intro update' received waiting
    cases waiting
    rw [calledIn_call]
    exact List.mem_append_right _ List.mem_cons_self
  · intro entry member
    rw [slotsInserted_call]
    exact kept.cached entry member
  · intro pre slot mid split unasked few
    rw [slotsCalled_call] at unasked
    rcases split_concat split with ⟨_, last⟩ | ⟨mid', rfl, earlier⟩
    · cases last
    · exact kept.behind_concat (.sendSlotShreds store update) earlier
        (fun called => unasked (List.mem_append_left _ called)) few
  · intro item member
    rw [slotsInserted_call, slotsCalled_call]
    rcases List.mem_append.mp member with old | new
    · obtain ⟨inserted, called⟩ := kept.both item (List.mem_append_left _ old)
      exact ⟨inserted, List.mem_append_left _ called⟩
    · exact absurd new List.not_mem_nil
  · intro slot inserted update' called match'
    rw [insertedIn_call] at inserted
    rw [calledIn_call] at called
    show (sent ++ []).filter _ = _
    rw [List.append_nil]
    rcases List.mem_append.mp called with old | new
    · have given := kept.delivered slot inserted update' old match'
      rwa [before] at given
    · cases List.mem_singleton.mp new
      exact absurd (match' ▸ List.mem_map_of_mem inserted) absent

/-- A call for a slot that is there finds it in the cache. -/
theorem kept_served (kept : Kept events s sent) {store : ShredStore} {update : BlockConfUpdate} {slot : SlotRaw}
    {slotCache : List (UInt64 × List ShredInfoView)} {between : List WaiterEvent → Nat}
    (orderly : Orderly between (events ++ [.sendSlotShreds store update])) (idle : s.call = .idle)
    (uncalled : update.slot ∉ slotsCalled events) (inserted : slot ∈ insertedIn events) (same : update.slot = slot.slot)
    (found : RecentList.find s.waiter.slotCache update.slot = some ((slot.slot, slotBytes slot), slotCache)) :
    Kept (events ++ [.sendSlotShreds store update])
      ⟨{ s.waiter with finishedSlots := s.waiter.finishedSlots.erase update.slot, slotCache := slotCache }, .idle⟩
      (sent ++ [confirmedSlot update (slotBytes slot)]) := by
  have before : (sent ++ s.call.underway) = sent := by
    rw [idle]
    exact List.append_nil sent
  have there : update.slot ∈ slotsInserted events := same ▸ List.mem_map_of_mem inserted
  have none := kept.inserted_of_called idle
  have unsent := kept.unsent (.inr uncalled)
  rw [before] at unsent
  refine ⟨?_, ?_, ?_, nofun, RecentList.distinct_find kept.distinct found, ?_, ?_, ?_, ?_⟩
  · intro n
    show n ∈ s.waiter.finishedSlots.erase update.slot ↔ _
    rw [Finset.mem_erase, kept.finished, slotsInserted_call, slotsCalled_call, List.mem_append, List.mem_singleton]
    tauto
  · show s.waiter.blockNotif = _
    rw [kept.notif, idle]
  · intro n
    refine iff_of_false nofun ?_
    rw [slotsInserted_call, slotsCalled_call, List.mem_append, List.mem_singleton]
    rintro ⟨called | rfl, unknown⟩
    · exact unknown (none n called)
    · exact unknown there
  · intro entry member
    rw [slotsInserted_call]
    exact kept.cached entry ((RecentList.find_perm found).1.mem_iff.mp member)
  · intro pre slot' mid split unasked few
    rw [slotsCalled_call] at unasked
    rcases split_concat split with ⟨_, last⟩ | ⟨mid', rfl, earlier⟩
    · cases last
    · have held := kept.behind_concat (.sendSlotShreds store update) earlier
        (fun called => unasked (List.mem_append_left _ called)) few
      refine RecentList.behind_find held found ?_ (by simp [touched])
      exact fun equal => unasked (List.mem_append_right _ (List.mem_singleton.mpr equal.symm))
  · intro item member
    rw [slotsInserted_call, slotsCalled_call]
    rcases List.mem_append.mp (List.append_nil (sent ++ _) ▸ member) with old | new
    · obtain ⟨inserted, called⟩ := kept.both item (List.mem_append_left _ old)
      exact ⟨inserted, List.mem_append_left _ called⟩
    · rw [List.mem_singleton.mp new]
      exact ⟨there, List.mem_append_right _ List.mem_cons_self⟩
  · intro slot' inserted' update' called match'
    rw [insertedIn_call] at inserted'
    rw [calledIn_call] at called
    show (sent ++ [confirmedSlot update (slotBytes slot)] ++ []).filter _ = _
    rw [List.append_nil, List.filter_append]
    rcases List.mem_append.mp called with old | new
    · have given := kept.delivered slot' inserted' update' old match'
      rw [before] at given
      have apart : update.slot ≠ slot'.slot := by
        intro equal
        exact uncalled (equal ▸ match' ▸ List.mem_map_of_mem old)
      rw [given, filter_other _ apart, List.append_nil]
    · cases List.mem_singleton.mp new
      have once : (slotsInserted events).Nodup := slotsInserted_call events store update ▸ orderly.insertedOnce
      cases eq_of_slot once inserted inserted' (same.symm.trans match')
      rw [← same, unsent, filter_own _ rfl, List.nil_append]

theorem kept_call (kept : Kept events s sent) {store : ShredStore} {update : BlockConfUpdate}
    (orderly : Orderly (fun mid => (touched mid).card) (events ++ [.sendSlotShreds store update])) (idle : s.call = .idle) :
    Kept (events ++ [.sendSlotShreds store update]) (s.step (.sendSlotShreds store update)).1
      (sent ++ (s.step (.sendSlotShreds store update)).2) := by
  have uncalled : update.slot ∉ slotsCalled events := by
    have once := orderly.calledOnce
    rw [slotsCalled_call] at once
    exact fun member => (List.nodup_append.mp once).2.2 _ member _ List.mem_cons_self rfl
  unfold Runner.step SlotShredsWaiter.sendSlotShreds
  rw [idle]
  dsimp only
  by_cases there : update.slot ∈ s.waiter.finishedSlots
  · rw [if_pos there]
    obtain ⟨slot, inserted, same⟩ := List.mem_map.mp ((kept.finished _).mp there).1
    obtain ⟨event, member, given⟩ := List.mem_filterMap.mp inserted
    cases event with
    | sendSlotShreds store' update' => cases given
    | resume => cases given
    | insert other =>
      cases given
      obtain ⟨pre, mid, split⟩ := List.append_of_mem member
      have few := orderly.recent pre slot mid store update [] (by rw [split]) same.symm
      have held := kept.behind pre slot mid split (same ▸ uncalled) few
      obtain ⟨slotCache, hit⟩ := RecentList.find_of_behind kept.distinct held
      have found : RecentList.find s.waiter.slotCache update.slot = some ((slot.slot, slotBytes slot), slotCache) := by
        rw [← same]
        exact hit
      rw [found]
      exact kept_served kept orderly idle uncalled inserted same.symm found
  · rw [if_neg there]
    dsimp only
    rw [List.append_nil]
    exact kept_waiting kept idle uncalled there

theorem kept_step (kept : Kept events s sent) {event : WaiterEvent}
    (orderly : Orderly (fun mid => (touched mid).card) (events ++ [event])) (single : Single s event) :
    Kept (events ++ [event]) (s.step event).1 (sent ++ (s.step event).2) := by
  cases event with
  | insert slot => exact kept_insert kept orderly
  | sendSlotShreds store update => exact kept_call kept orderly single
  | resume => exact kept_resume kept

end

theorem kept_run (events : List WaiterEvent) (orderly : Orderly (fun mid => (touched mid).card) events)
    (single : Meets Runner.step Single .start events) :
    Kept events (run Runner.step .start events).1 (run Runner.step .start events).2 :=
  run_history (P := fun events s sent => Orderly (fun mid => (touched mid).card) events → Kept events s sent)
    (fun _ => kept_start)
    (fun _ _ _ _ held here orderly => kept_step (held orderly.before) orderly here) events single orderly

/-- What a call has received goes downstream when it goes on. -/
theorem resume_sends (s : Runner) : (s.step .resume).2 = s.call.underway ∧ (s.step .resume).1.call.underway = [] := by
  unfold Runner.step
  cases call : s.call with
  | idle => simp [call, Call.underway]
  | waiting update received => cases received <;> simp [call, Call.underway]

/-- In every run, with fewer than 300 other slots inserted or confirmed between a slot and its confirmation, each slot that
is inserted and confirmed goes downstream once, as inserted, and no call waits for a slot that was inserted. -/
theorem confirmed_slots_sent_once (events : List WaiterEvent) (orderly : Orderly (fun mid => (touched mid).card) events)
    (single : Meets Runner.step Single .start events) :
    DeliveredOnce events (run Runner.step .start events).1 (run Runner.step .start events).2 ∧
      WaitsForAbsent events (run Runner.step .start events).1 ∧
      ((run Runner.step .start events).1.step .resume).2 = (run Runner.step .start events).1.call.underway := by
  have kept := kept_run events orderly single
  exact ⟨kept.delivered, fun slot waits => ((kept.blocked slot).mp waits).2, (resume_sends _).1⟩

/-! ### Short runs -/

theorem length_logs_le (events : List WaiterEvent) :
    (insertedIn events).length + (calledIn events).length ≤ events.length := by
  induction events using List.reverseRecOn with
  | nil => rfl
  | append_singleton events event ih => cases event <;> simp <;> omega

theorem card_touched_le (events : List WaiterEvent) : (touched events).card ≤ events.length := by
  refine (List.toFinset_card_le _).trans ?_
  rw [List.length_append, slotsInserted, slotsCalled, List.length_map, List.length_map]
  exact length_logs_le events

/-- In a run of at most 300 events nothing is pushed out. -/
theorem orderly_short {events : List WaiterEvent} (insertedOnce : (slotsInserted events).Nodup)
    (calledOnce : (slotsCalled events).Nodup) (short : events.length ≤ slotCacheSize) :
    Orderly (fun mid => (touched mid).card) events where
  insertedOnce := insertedOnce
  calledOnce := calledOnce
  recent pre slot mid store update post split same := by
    have whole := congrArg List.length split
    rw [List.length_append, List.length_append, List.length_cons, List.length_cons] at whole
    have few := card_touched_le mid
    omega

def emptyStore : ShredStore := ⟨.ok ∅⟩

def bareSlot (slot : UInt64) : SlotRaw := ⟨[], slot⟩

/-- A slot with a shred. -/
def shreddedSlot (slot : UInt64) : SlotRaw := ⟨[wireShred ⟨.data, slot, 0, 0, 0⟩ 0xc0], slot⟩

/-- Slot 1 comes before its confirmation, slot 2 after it. -/
def bothOrders : List WaiterEvent :=
  [.insert (shreddedSlot 1), .sendSlotShreds emptyStore ⟨1, 11⟩, .sendSlotShreds emptyStore ⟨2, 22⟩, .insert (bareSlot 3),
    .insert (shreddedSlot 2), .resume]

theorem confirmed_slots_sent_once_bothOrders :
    DeliveredOnce bothOrders (run Runner.step .start bothOrders).1 (run Runner.step .start bothOrders).2 ∧
      WaitsForAbsent bothOrders (run Runner.step .start bothOrders).1 ∧
      ((run Runner.step .start bothOrders).1.step .resume).2 = (run Runner.step .start bothOrders).1.call.underway :=
  confirmed_slots_sent_once bothOrders (orderly_short (by decide) (by decide) (by decide))
    ⟨trivial, rfl, rfl, trivial, trivial, trivial, trivial⟩

/-! ### A slot pushed out by a confirmation -/

/-- Slots inserted while no call waits go to the cache. -/
theorem run_inserts (slots : List SlotRaw) {waiter : SlotShredsWaiter} (free : waiter.blockNotif = none) :
    run Runner.step ⟨waiter, .idle⟩ (slots.map .insert) = (⟨slots.foldl SlotShredsWaiter.finish waiter, .idle⟩, []) := by
  induction slots generalizing waiter with
  | nil => rfl
  | cons slot rest ih =>
    have first : Runner.step ⟨waiter, .idle⟩ (.insert slot) = (⟨waiter.finish slot, .idle⟩, []) := by
      simp [Runner.step, SlotShredsWaiter.insert, free]
    rw [List.map_cons, run_cons, first, ih (show (waiter.finish slot).blockNotif = none from free)]
    rfl

theorem slotCache_foldl (slots : List SlotRaw) (waiter : SlotShredsWaiter) (fits : waiter.slotCache.length ≤ slotCacheSize) :
    (slots.foldl SlotShredsWaiter.finish waiter).slotCache =
      (slots.reverse.map (fun slot => (slot.slot, slotBytes slot)) ++ waiter.slotCache).take slotCacheSize := by
  induction slots using List.reverseRecOn with
  | nil => exact (List.take_of_length_le fits).symm
  | append_singleton slots last ih =>
    rw [List.foldl_append, List.reverse_append]
    show RecentList.insert slotCacheSize (slots.foldl SlotShredsWaiter.finish waiter).slotCache (last.slot, slotBytes last) = _
    rw [ih, RecentList.insert]
    show ((last.slot, slotBytes last) :: List.take (299 + 1) _).take (299 + 1) = List.take (299 + 1) (_ :: _)
    rw [List.take_succ_cons, List.take_succ_cons, List.take_take, Nat.min_eq_left (Nat.le_succ 299)]
    rfl

theorem finishedSlots_foldl (slots : List SlotRaw) {waiter : SlotShredsWaiter} {n : UInt64} (there : n ∈ waiter.finishedSlots) :
    n ∈ (slots.foldl SlotShredsWaiter.finish waiter).finishedSlots := by
  induction slots generalizing waiter with
  | nil => exact there
  | cons slot rest ih => exact ih (Finset.mem_insert_of_mem there)

/-- Slots 1 and 2, and the confirmation of slot 1. -/
def firstTwo : List WaiterEvent :=
  [.insert (bareSlot 1), .insert (shreddedSlot 2), .sendSlotShreds emptyStore ⟨1, 11⟩]

def others : List SlotRaw := (List.range 299).map (fun i => bareSlot (UInt64.ofNat (i + 3)))

/-- The other slots, and the confirmation of slot 2. -/
def crowding (slots : List SlotRaw) : List WaiterEvent :=
  firstTwo ++ slots.map .insert ++ [.sendSlotShreds emptyStore ⟨2, 22⟩]

def afterFirstTwo : SlotShredsWaiter := (run Runner.step .start firstTwo).1.waiter

theorem crowding_sent {slots : List SlotRaw}
    (missed : RecentList.find (slots.foldl SlotShredsWaiter.finish afterFirstTwo).slotCache 2 = none) :
    (run Runner.step .start (crowding slots)).2 = [confirmedSlot ⟨1, 11⟩ [], confirmedSlot ⟨2, 22⟩ []] := by
  have served : run Runner.step .start firstTwo = (⟨afterFirstTwo, .idle⟩, [confirmedSlot ⟨1, 11⟩ []]) := rfl
  have there : 2 ∈ (slots.foldl SlotShredsWaiter.finish afterFirstTwo).finishedSlots :=
    finishedSlots_foldl slots (show 2 ∈ afterFirstTwo.finishedSlots by decide)
  have last : (Runner.step ⟨slots.foldl SlotShredsWaiter.finish afterFirstTwo, .idle⟩
      (.sendSlotShreds emptyStore ⟨2, 22⟩)).2 = [confirmedSlot ⟨2, 22⟩ []] := by
    unfold Runner.step SlotShredsWaiter.sendSlotShreds
    dsimp only
    rw [if_pos there, missed]
    rfl
  rw [crowding, run_append, run_append, served]
  dsimp only
  rw [run_inserts slots (show afterFirstTwo.blockNotif = none from rfl), run_cons, last]
  rfl

theorem inserts_single (slots : List SlotRaw) (s : Runner) : Meets Runner.step Single s (slots.map .insert) := by
  induction slots generalizing s with
  | nil => trivial
  | cons slot rest ih => exact ⟨trivial, ih _⟩

theorem crowding_single (slots : List SlotRaw) : Meets Runner.step Single .start (crowding slots) := by
  have served : run Runner.step .start firstTwo = (⟨afterFirstTwo, .idle⟩, [confirmedSlot ⟨1, 11⟩ []]) := rfl
  rw [crowding, meets_append, meets_append, run_append, served]
  dsimp only
  rw [run_inserts slots (show afterFirstTwo.blockNotif = none from rfl)]
  exact ⟨⟨⟨trivial, trivial, rfl, trivial⟩, inserts_single slots _⟩, rfl, trivial⟩

theorem insertedIn_append (events more : List WaiterEvent) : insertedIn (events ++ more) = insertedIn events ++ insertedIn more :=
  List.filterMap_append

theorem insertedIn_inserts (slots : List SlotRaw) : insertedIn (slots.map .insert) = slots := by
  rw [insertedIn, List.filterMap_map]
  exact List.filterMap_some

theorem insertedIn_crowding (slots : List SlotRaw) : insertedIn (crowding slots) = bareSlot 1 :: shreddedSlot 2 :: slots := by
  rw [crowding, insertedIn_append, insertedIn_append, insertedIn_inserts]
  simp [insertedIn, firstTwo]

theorem calledIn_crowding (slots : List SlotRaw) : calledIn (crowding slots) = [⟨1, 11⟩, ⟨2, 22⟩] := by
  have none : calledIn (slots.map .insert) = [] := by
    rw [calledIn, List.filterMap_map]
    exact List.filterMap_none slots
  rw [crowding, calledIn, List.filterMap_append, List.filterMap_append]
  show _ ++ calledIn (slots.map .insert) ++ _ = _
  rw [none]
  rfl

/-- Between a slot and its confirmation there are at most as many other slots as follow the first two. -/
theorem crowding_recent {before : List SlotRaw} {final : SlotRaw} (few : before.length + 1 < slotCacheSize)
    {pre mid post : List WaiterEvent} {slot : SlotRaw} {store : ShredStore} {update : BlockConfUpdate}
    (split : crowding (before ++ [final]) = pre ++ .insert slot :: mid ++ .sendSlotShreds store update :: post)
    (same : update.slot = slot.slot) : (insertedIn mid).length < slotCacheSize := by
  by_contra many
  have inserted : bareSlot 1 :: shreddedSlot 2 :: (before ++ [final]) =
      insertedIn pre ++ slot :: (insertedIn mid ++ insertedIn post) := by
    have logs := congrArg insertedIn split
    rw [insertedIn_crowding, insertedIn_append, insertedIn_append] at logs
    simpa [insertedIn] using logs
  have count := congrArg List.length inserted
  simp only [List.length_cons, List.length_append, List.length_nil] at count
  have first : insertedIn pre = [] := List.eq_nil_of_length_eq_zero (by omega)
  have none : insertedIn post = [] := List.eq_nil_of_length_eq_zero (by omega)
  rw [first, List.nil_append, List.cons.injEq] at inserted
  rw [← inserted.1] at same
  rcases List.eq_nil_or_concat post with rfl | ⟨rest, last, rfl⟩
  · obtain ⟨_, call⟩ := List.append_inj' split rfl
    cases call
    cases same
  · rw [List.concat_eq_append] at split none
    have regrouped : firstTwo ++ before.map .insert ++ [.insert final] ++ [.sendSlotShreds emptyStore ⟨2, 22⟩] =
        (pre ++ .insert slot :: mid ++ .sendSlotShreds store update :: rest) ++ [last] := by
      simpa [crowding] using split
    obtain ⟨earlier, _⟩ := List.append_inj' regrouped rfl
    rcases List.eq_nil_or_concat rest with rfl | ⟨rest', last', rfl⟩
    · obtain ⟨_, call⟩ := List.append_inj' earlier rfl
      cases call
    · have regrouped' : firstTwo ++ before.map .insert ++ [.insert final] =
          (pre ++ .insert slot :: mid ++ .sendSlotShreds store update :: rest') ++ [last'] := by
        simpa using earlier
      obtain ⟨_, here⟩ := List.append_inj' regrouped' rfl
      cases here
      simp [insertedIn] at none

def crowdedRun : List WaiterEvent := crowding others

theorem pushed_out_missed : RecentList.find (others.foldl SlotShredsWaiter.finish afterFirstTwo).slotCache 2 = none := by
  rw [slotCache_foldl others _ (by decide)]
  decide +kernel

theorem slotsInserted_crowdedRun : slotsInserted crowdedRun = (List.range 301).map (fun i => UInt64.ofNat (i + 1)) := by
  decide +kernel

theorem nodup_numbers {n : Nat} (small : n < 2 ^ 64) : ((List.range n).map (fun i => UInt64.ofNat (i + 1))).Nodup := by
  refine List.Nodup.map_on ?_ List.nodup_range
  intro i here j there same
  have numbers := congrArg UInt64.toNat same
  have below := List.mem_range.mp here
  have below' := List.mem_range.mp there
  have size : UInt64.size = 2 ^ 64 := rfl
  rw [UInt64.toNat_ofNat_of_lt' (by omega), UInt64.toNat_ofNat_of_lt' (by omega)] at numbers
  omega

/-- Slot 2 is confirmed with 299 slots inserted in between. What goes downstream for it is not what was inserted: the
confirmation of slot 1 had moved that slot ahead of it in the cache. -/
theorem confirmed_slot_pushed_out :
    Orderly (fun mid => (insertedIn mid).length) crowdedRun ∧
    Meets Runner.step Single .start crowdedRun ∧
    ¬ DeliveredOnce crowdedRun (run Runner.step .start crowdedRun).1 (run Runner.step .start crowdedRun).2 := by
  have last : others = (List.range 298).map (fun i => bareSlot (UInt64.ofNat (i + 3))) ++ [bareSlot 301] := by
    rw [others, List.range_succ, List.map_append]
    rfl
  refine ⟨⟨?_, ?_, ?_⟩, crowding_single others, ?_⟩
  · rw [slotsInserted_crowdedRun]
    exact nodup_numbers (by decide)
  · rw [slotsCalled, crowdedRun, calledIn_crowding]
    decide
  · intro pre slot mid store update post split same
    rw [crowdedRun, last] at split
    exact crowding_recent (by simp [slotCacheSize]) split same
  · intro delivered
    have inserted : shreddedSlot 2 ∈ insertedIn crowdedRun := by
      rw [crowdedRun, insertedIn_crowding]
      exact List.mem_cons_of_mem _ List.mem_cons_self
    have called : ⟨2, 22⟩ ∈ calledIn crowdedRun := by
      rw [crowdedRun, calledIn_crowding]
      exact List.mem_cons_of_mem _ List.mem_cons_self
    have once := delivered (shreddedSlot 2) inserted ⟨2, 22⟩ called rfl
    have served : [confirmedSlot ⟨1, 11⟩ [], confirmedSlot ⟨2, 22⟩ []].filter (fun item => item.slot = (shreddedSlot 2).slot) =
        [confirmedSlot ⟨2, 22⟩ []] := rfl
    rw [crowdedRun, crowding_sent pushed_out_missed, List.filter_append, served, List.singleton_append,
      List.cons.injEq] at once
    exact absurd (congrArg SlotForGrpc.shreds once.1) (by decide)

end Lightbringer.GrpcSlotStream
