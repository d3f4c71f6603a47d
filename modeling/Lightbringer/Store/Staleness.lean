import Lightbringer.Store.SlotRun

/-!
# The metadata task and the staleness monitor

The two tasks of `packet_listener_loop` in `store/slot_meta.rs`, over the cache of slots they share: one records
shreds and tells the other, which watches for slots that stall and asks for their missing shreds.
-/

namespace Lightbringer.Store
open Std Repair

inductive SlotTimerMsg where
  | insertion (slot : UInt64)
  | completion (slot : UInt64)
  | timeout (slot : UInt64)
  deriving DecidableEq

structure SlotMonitor where
  version : UInt16
  /-- The cache of `SlotMetadataStore`. What it evicts, and when, is up to the cache. -/
  inner : TreeMap UInt64 SlotMetadata
  /-- `timer_rx`. -/
  timerMsgs : List SlotTimerMsg
  /-- `timers`, with whether each is still to fire. -/
  timers : TreeMap UInt64 Bool
  /-- Timers that were removed from `timers` without being destroyed, so that they may still fire. -/
  loose : List UInt64

namespace SlotMonitor

def new (version : UInt16) : SlotMonitor := ⟨version, ∅, [], ∅, []⟩

section
variable [ShredLayout] (monitor : SlotMonitor)

/-! ### The metadata task -/

/-- `SlotMetadataStore::store_shred`. -/
def storeShred (timestampMs : Nat) (hdr : ShredCommonHeader) (shred : PacketInfo) : SlotMonitor × SlotMetaStoreRes :=
  let entry := (monitor.inner[hdr.slot]?).getD (SlotMetadata.new hdr.slot timestampMs)
  let (entry, result) := entry.storeShred timestampMs hdr shred
  ({ monitor with inner := monitor.inner.insert hdr.slot entry }, result)

/-- The metadata task on one packet. A packet it skips counts as ignored. -/
def handlePacket (timestampMs : Nat) (shred : PacketInfo) : SlotMonitor × SlotMetaStoreRes :=
  match (ShredLayout.commonHeader shred).filter (fun hdr => hdr.version = monitor.version),
      ShredLayout.getSlot shred with
  | some hdr, some slot =>
    let (monitor, result) := monitor.storeShred timestampMs hdr shred
    match result with
    | .ignored => (monitor, .ignored)
    | .complete _ _ => ({ monitor with timerMsgs := monitor.timerMsgs ++ [.completion slot] }, result)
    | .batchComplete _ | .incomplete =>
      ({ monitor with timerMsgs := monitor.timerMsgs ++ [.insertion slot] }, result)
  | _, _ => (monitor, .ignored)

end

/-! ### The staleness monitor -/

variable (monitor : SlotMonitor)

/-- The monitor on one message; `none` if it panics. A timer that has fired is not armed again. -/
def handleTimerMsg : SlotTimerMsg → Option (SlotMonitor × List RepairReq)
  | .insertion slot => some ({ monitor with timers := monitor.timers.insertIfNew slot true }, [])
  | .completion slot =>
    let cancel := (monitor.inner[slot]?).any (·.timedOut)
    some ({ monitor with timers := monitor.timers.erase slot }, if cancel then [.cancelRepair slot] else [])
  | .timeout slot =>
    let monitor := { monitor with
      timers := monitor.timers.erase slot
      loose := if monitor.timers[slot]? = some true then slot :: monitor.loose else monitor.loose }
    match monitor.inner[slot]? with
    | none => some (monitor, [])
    | some entry =>
      if entry.isComplete then some (monitor, [])
      else
        let entry := { entry with timedOut := true }
        entry.calculateMissingShreds.map (fun request =>
          ({ monitor with inner := monitor.inner.insert slot entry }, [request]))

def monitorStep : Option (SlotMonitor × List RepairReq) :=
  match monitor.timerMsgs with
  | [] => some (monitor, [])
  | message :: rest => { monitor with timerMsgs := rest }.handleTimerMsg message

/-- A timer fires. -/
def fire (slot : UInt64) : SlotMonitor :=
  if monitor.timers[slot]? = some true then
    { monitor with
      timers := monitor.timers.insert slot false
      timerMsgs := monitor.timerMsgs ++ [.timeout slot] }
  else if slot ∈ monitor.loose then
    { monitor with
      loose := monitor.loose.erase slot
      timerMsgs := monitor.timerMsgs ++ [.timeout slot] }
  else monitor

def evict (slot : UInt64) : SlotMonitor := { monitor with inner := monitor.inner.erase slot }

/-- The slot has an entry and is not complete. -/
def Stalls (slot : UInt64) : Prop := ∃ entry, monitor.inner[slot]? = some entry ∧ entry.isComplete = false

end SlotMonitor

/-! ### What storing a shred means for the slot -/

section
variable [ShredLayout]

namespace SlotMetadata

variable {m : SlotMetadata} {timestampMs : Nat} {hdr : ShredCommonHeader} {shred : PacketInfo}

theorem storeShred_slotNum : (m.storeShred timestampMs hdr shred).1.slotNum = m.slotNum := by
  have learned : (m.learnRequired hdr shred).slotNum = m.slotNum := by
    unfold learnRequired
    split <;> rfl
  have recorded : ((m.learnRequired hdr shred).record timestampMs hdr shred).slotNum = m.slotNum := by
    rw [← learned]
    unfold record
    cases hdr.shredVariant <;> rfl
  unfold storeShred
  dsimp only
  split
  · rfl
  split
  · split
    · exact learned
    · exact learned
  split
  · exact learned
  split
  · split
    · exact recorded
    · exact recorded
  split
  · exact recorded
  · exact recorded

/-- An ignored shred never reopens a slot, and the first shred of a slot is not ignored. -/
theorem storeShred_ignored (ignored : (m.storeShred timestampMs hdr shred).2 = .ignored) :
    ((m.storeShred timestampMs hdr shred).1.isComplete = false → m.isComplete = false) ∧
    m ≠ SlotMetadata.new hdr.slot timestampMs := by
  let a : Arrival := ⟨timestampMs, hdr, shred⟩
  constructor
  · intro open'
    cases done : m.isComplete with
    | false => rfl
    | true =>
      have frozen : m.storeShred timestampMs hdr shred = (m, .ignored) := @storeShred_frozen _ m a done
      rw [frozen, done] at open'
      exact open'
  · rintro rfl
    have fresh : (SlotMetadata.new hdr.slot timestampMs).Fresh a := by
      constructor
      · simp [SlotMetadata.new]
      · simp [SlotMetadata.new, shredIds, fecSet, fecMap]
    have stored : (SlotMetadata.new hdr.slot timestampMs).storeShred timestampMs hdr shred = _ :=
      @storeShred_fresh _ _ a rfl fresh
    rw [stored] at ignored
    split at ignored
    · cases ignored
    split at ignored
    · cases ignored
    · cases ignored

theorem storeShred_complete {storeBatch : BatchRaw} {grpcSlot : SlotRaw}
    (complete : (m.storeShred timestampMs hdr shred).2 = .complete storeBatch grpcSlot) :
    (m.storeShred timestampMs hdr shred).1.isComplete = true := by
  unfold storeShred at complete ⊢
  dsimp only at complete ⊢
  split at complete
  · cases complete
  next unfinished =>
    rw [if_neg unfinished]
    split at complete
    next late =>
      rw [if_pos late]
      split at complete
      next done =>
        rw [if_pos done]
        exact done
      next => cases complete
    next early =>
      rw [if_neg early]
      split at complete
      · cases complete
      next unseen =>
        rw [if_neg unseen]
        split at complete
        next full =>
          rw [if_pos full]
          split at complete
          next done =>
            rw [if_pos done]
            exact done
          next => cases complete
        next more =>
          rw [if_neg more]
          split at complete
          next done =>
            rw [if_pos done]
            exact done
          next => cases complete

end SlotMetadata

namespace SlotMonitor

variable {monitor : SlotMonitor} {timestampMs : Nat} {packet : PacketInfo} {slot other : UInt64}

/-- Entries carry their own slot, and of a timer that fired the message is still queued. -/
structure Sound (monitor : SlotMonitor) : Prop where
  numbered : ∀ (slot : UInt64) entry, monitor.inner[slot]? = some entry → entry.slotNum = slot
  fired : ∀ slot : UInt64, monitor.timers[slot]? = some false → .timeout slot ∈ monitor.timerMsgs

theorem storeShred_other {hdr : ShredCommonHeader} (apart : other ≠ hdr.slot) :
    (monitor.storeShred timestampMs hdr packet).1.inner[other]? = monitor.inner[other]? := by
  unfold storeShred
  dsimp only
  rw [TreeMap.getElem?_insert, if_neg (fun same => apart (LawfulEqOrd.compare_eq_iff_eq.mp same).symm)]

theorem storeShred_self {hdr : ShredCommonHeader} :
    (monitor.storeShred timestampMs hdr packet).1.inner[hdr.slot]? =
      some (((monitor.inner[hdr.slot]?).getD (SlotMetadata.new hdr.slot timestampMs)).storeShred
        timestampMs hdr packet).1 := by
  unfold storeShred
  dsimp only
  rw [TreeMap.getElem?_insert_self]

theorem storeShred_numbered {hdr : ShredCommonHeader}
    (numbered : ∀ (slot : UInt64) entry, monitor.inner[slot]? = some entry → entry.slotNum = slot)
    (slot : UInt64) (entry : SlotMetadata)
    (found : (monitor.storeShred timestampMs hdr packet).1.inner[slot]? = some entry) : entry.slotNum = slot := by
  by_cases here : slot = hdr.slot
  · subst here
    rw [storeShred_self] at found
    cases found
    rw [SlotMetadata.storeShred_slotNum]
    cases old : monitor.inner[hdr.slot]? with
    | none => rfl
    | some before => exact numbered _ before old
  · rw [storeShred_other here] at found
    exact numbered slot entry found

/-- An ignored shred leaves no slot behind that was not open before. -/
theorem storeShred_ignored {hdr : ShredCommonHeader}
    (ignored : (monitor.storeShred timestampMs hdr packet).2 = .ignored)
    (stalls : (monitor.storeShred timestampMs hdr packet).1.Stalls slot) : monitor.Stalls slot := by
  obtain ⟨entry, found, unfinished⟩ := stalls
  by_cases here : slot = hdr.slot
  · subst here
    rw [storeShred_self] at found
    cases found
    obtain ⟨open', known⟩ := SlotMetadata.storeShred_ignored ignored
    cases old : monitor.inner[hdr.slot]? with
    | none => exact absurd (by rw [old]; rfl) known
    | some before =>
      rw [old] at open' unfinished
      exact ⟨before, old, open' unfinished⟩
  · rw [storeShred_other here] at found
    exact ⟨entry, found, unfinished⟩

/-- What the metadata task does with a packet. -/
inductive Handles (monitor next : SlotMonitor) (packet : PacketInfo) : SlotMetaStoreRes → Prop where
  | ignored (msgs : next.timerMsgs = monitor.timerMsgs) (stalls : ∀ slot, next.Stalls slot → monitor.Stalls slot) :
    Handles monitor next packet .ignored
  | inserted {result : SlotMetaStoreRes} (slot : UInt64) (read : ShredLayout.getSlot packet = some slot)
    (kept : result ≠ .ignored) (msgs : next.timerMsgs = monitor.timerMsgs ++ [.insertion slot])
    (stalls : ∀ other ≠ slot, next.Stalls other → monitor.Stalls other) : Handles monitor next packet result
  | completed {result : SlotMetaStoreRes} (slot : UInt64) (read : ShredLayout.getSlot packet = some slot)
    (kept : result ≠ .ignored) (msgs : next.timerMsgs = monitor.timerMsgs ++ [.completion slot])
    (done : ¬ next.Stalls slot) (stalls : ∀ other ≠ slot, next.Stalls other → monitor.Stalls other) :
    Handles monitor next packet result

theorem handlePacket_handles (agrees : ShredLayout.SlotAgrees) (monitor : SlotMonitor) (timestampMs : Nat)
    (packet : PacketInfo) :
    Handles monitor (monitor.handlePacket timestampMs packet).1 packet (monitor.handlePacket timestampMs packet).2 := by
  unfold handlePacket
  split
  next hdr slot header read =>
    have same : hdr.slot = slot := agrees packet hdr slot (Option.filter_eq_some_iff.mp header).1 read
    have others : ∀ other ≠ slot, (monitor.storeShred timestampMs hdr packet).1.Stalls other → monitor.Stalls other := by
      rintro other apart ⟨entry, found, unfinished⟩
      rw [storeShred_other (same ▸ apart)] at found
      exact ⟨entry, found, unfinished⟩
    have msgs : (monitor.storeShred timestampMs hdr packet).1.timerMsgs = monitor.timerMsgs := rfl
    dsimp only
    split
    next ignored => exact .ignored msgs (fun other stalls => storeShred_ignored ignored stalls)
    next storeBatch grpcSlot complete =>
      refine .completed slot read (by simp [complete]) (by rw [msgs]) ?_ others
      rintro ⟨entry, found, unfinished⟩
      have stored : (monitor.storeShred timestampMs hdr packet).1.inner[slot]? = some entry := found
      rw [← same, storeShred_self] at stored
      cases stored
      rw [SlotMetadata.storeShred_complete complete] at unfinished
      cases unfinished
    next batch complete => exact .inserted slot read (by simp [complete]) (by rw [msgs]) others
    next incomplete => exact .inserted slot read (by simp [incomplete]) (by rw [msgs]) others
  next => exact .ignored rfl (fun _ stalls => stalls)

theorem handlePacket_timers : (monitor.handlePacket timestampMs packet).1.timers = monitor.timers := by
  unfold handlePacket
  split
  · dsimp only
    split <;> rfl
  · rfl

theorem handlePacket_msgs (message : SlotTimerMsg) (member : message ∈ monitor.timerMsgs) :
    message ∈ (monitor.handlePacket timestampMs packet).1.timerMsgs := by
  unfold handlePacket
  split
  · dsimp only
    split
    · exact member
    · exact List.mem_append_left _ member
    · exact List.mem_append_left _ member
    · exact List.mem_append_left _ member
  · exact member

theorem sound_handlePacket (sound : monitor.Sound) : (monitor.handlePacket timestampMs packet).1.Sound where
  numbered := by
    unfold handlePacket
    split
    next hdr _ _ _ =>
      have numbered := @storeShred_numbered _ monitor timestampMs packet hdr sound.numbered
      dsimp only
      split
      · exact numbered
      · exact numbered
      · exact numbered
      · exact numbered
    · exact sound.numbered
  fired slot fired := by
    rw [handlePacket_timers] at fired
    exact handlePacket_msgs _ (sound.fired slot fired)

end SlotMonitor

end

/-! ### What the monitor leaves -/

namespace SlotMonitor

variable {monitor next : SlotMonitor} {requests : List RepairReq} {rest : List SlotTimerMsg} {slot other : UInt64}

theorem sound_evict (sound : monitor.Sound) (slot : UInt64) : (monitor.evict slot).Sound where
  numbered other entry found := by
    rw [evict, TreeMap.getElem?_erase] at found
    split at found
    · cases found
    · exact sound.numbered other entry found
  fired := sound.fired

theorem stalls_evict (stalls : (monitor.evict other).Stalls slot) : monitor.Stalls slot := by
  obtain ⟨entry, found, unfinished⟩ := stalls
  rw [evict, TreeMap.getElem?_erase] at found
  split at found
  · cases found
  · exact ⟨entry, found, unfinished⟩

theorem sound_fire (sound : monitor.Sound) (slot : UInt64) : (monitor.fire slot).Sound := by
  unfold fire
  split
  · refine ⟨sound.numbered, fun other fired => ?_⟩
    rw [TreeMap.getElem?_insert] at fired
    split at fired
    next here =>
      rw [← LawfulEqOrd.compare_eq_iff_eq.mp here]
      exact List.mem_append_right _ (List.mem_singleton.mpr rfl)
    next => exact List.mem_append_left _ (sound.fired other fired)
  split
  · exact ⟨sound.numbered, fun other fired => List.mem_append_left _ (sound.fired other fired)⟩
  · exact sound

end SlotMonitor

end Lightbringer.Store
