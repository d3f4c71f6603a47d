import Lightbringer.Repair.Cancellation
import Lightbringer.Repair.Custody

/-!
# Slots that are over

The metadata task, the staleness monitor and the loops of the repair manager, with every order of their turns. A slot is
over when it is complete or the cache has evicted it; whether it is still asked for depends on what is outstanding.
-/

namespace Lightbringer.Repair
open Std Store Machine

structure SlotRepair where
  monitor : SlotMonitor
  tasks : Tasks
  /-- Answers on their way past the packet filter to the metadata task. -/
  responses : List PacketInfo
  /-- The staleness monitor panicked. -/
  halted : Bool

namespace SlotRepair

def new (version : UInt16) : SlotRepair := ⟨SlotMonitor.new version, Tasks.new, [], false⟩

inductive Input where
  /-- A shred from turbine or the overlay reaches the metadata task. -/
  | shred (timestampMs : Nat) (packet : PacketInfo)
  /-- The answer at `index` passes the packet filter and reaches the metadata task. -/
  | response (timestampMs : Nat) (index : Nat)
  | filterDrops (index : Nat)
  | evict (slot : UInt64)
  | monitor
  | staleTimer (slot : UInt64)
  /-- A step of the repair manager. Its requests come from the monitor only. -/
  | repair (input : Tasks.Input)

/-- The turns of the executor that the metadata task and the staleness monitor share. -/
def Input.ofMonitor : Input → Bool
  | .shred .. | .response .. | .evict _ | .monitor | .staleTimer _ => true
  | _ => false

def forwardedOf (out : List TaskEvent) : List PacketInfo :=
  out.filterMap (fun event => match event with | .forwarded packet => some packet | _ => none)

variable [ShredLayout]

/-- One turn of a task that runs. -/
def turn (p : SlotRepair) : Input → SlotRepair × List TaskEvent
  | .shred timestampMs packet => ({ p with monitor := (p.monitor.handlePacket timestampMs packet).1 }, [])
  | .response timestampMs index =>
    match p.responses[index]? with
    | none => (p, [])
    | some packet =>
      ({ p with
          monitor := (p.monitor.handlePacket timestampMs packet).1
          responses := p.responses.eraseIdx index }, [])
  | .filterDrops index => ({ p with responses := p.responses.eraseIdx index }, [])
  | .evict slot => ({ p with monitor := p.monitor.evict slot }, [])
  | .monitor =>
    match p.monitor.monitorStep with
    | none => ({ p with halted := true }, [])
    | some (monitor, requests) =>
      ({ p with
          monitor := monitor
          tasks := { p.tasks with
            manager := { p.tasks.manager with requests := p.tasks.manager.requests ++ requests } } }, [])
  | .staleTimer slot => ({ p with monitor := p.monitor.fire slot }, [])
  | .repair (.request _) => (p, [])
  | .repair input =>
    let (tasks, out) := p.tasks.step input
    ({ p with tasks := tasks, responses := p.responses ++ forwardedOf out }, out)

/-- A panic stops the executor it happens on. The loops of the repair manager have another one, and go on. -/
def step (p : SlotRepair) (input : Input) : SlotRepair × List TaskEvent :=
  if p.halted && input.ofMonitor then (p, []) else p.turn input

/-! ### The slot -/

section

variable (slot : UInt64) (p : SlotRepair)

/-- The slot has completed, or has no entry. -/
def Over (monitor : SlotMonitor) : Prop :=
  ∀ entry, monitor.inner[slot]? = some entry → entry.isComplete = true

/-- A shred creates an entry for the slot. -/
def Recreates (input : Input) : Prop :=
  p.monitor.inner[slot]? = none ∧ ((p.step input).1.monitor.inner[slot]?).isSome

/-- The messages about the slot have been processed: no channel holds one, and no loop is suspended with one. -/
structure Processed : Prop where
  requests : ∀ request ∈ p.tasks.manager.requests, request.asksFor slot = false ∧ request ≠ .cancelRepair slot
  messages : ∀ request, .new request ∈ p.tasks.manager.messages ∨ .timeout request ∈ p.tasks.manager.messages →
    request.slot ≠ slot
  timers : ∀ message ∈ p.monitor.timerMsgs, message ≠ .insertion slot ∧ message ≠ .completion slot ∧ message ≠ .timeout slot
  processor : ¬ Tasks.Offers slot p.tasks.processor
  retry : ¬ Tasks.Retries slot p.tasks
  retrySends : ¬ Tasks.Offers slot p.tasks.retry
  answer : ¬ Tasks.Offers slot p.tasks.answer

/-- Whatever happens, no request for the slot is handed to the socket before a shred creates its entry anew. -/
def RepairEnds : Prop :=
  ∀ later, Meets step (fun p input => ¬ Recreates slot p input) p later →
    ∀ request, .sent request ∈ (run step p later).2 → request.slot ≠ slot

end

variable {slot : UInt64} {p : SlotRepair}

/-! ### The monitor on a slot that is over -/

theorem over_handlePacket {monitor : SlotMonitor} {timestampMs : Nat} {packet : PacketInfo} (settled : Over slot monitor)
    (kept : monitor.inner[slot]? = none → (monitor.handlePacket timestampMs packet).1.inner[slot]? = none) :
    Over slot (monitor.handlePacket timestampMs packet).1 := by
  cases before : monitor.inner[slot]? with
  | none =>
    intro entry found
    rw [kept before] at found
    cases found
  | some entry =>
    have done := settled entry before
    have stored : ∀ hdr, (monitor.storeShred timestampMs hdr packet).1.inner[slot]? = some entry := by
      intro hdr
      by_cases same : hdr.slot = slot
      · subst same
        have frozen : entry.storeShred timestampMs hdr packet = (entry, .ignored) :=
          @SlotMetadata.storeShred_frozen _ entry ⟨timestampMs, hdr, packet⟩ done
        rw [SlotMonitor.storeShred_self, before, Option.getD_some, frozen]
      · rw [SlotMonitor.storeShred_other (Ne.symm same)]
        exact before
    have same : (monitor.handlePacket timestampMs packet).1.inner[slot]? = some entry := by
      unfold SlotMonitor.handlePacket
      split
      · dsimp only
        split
        · exact stored _
        · exact stored _
        · exact stored _
        · exact stored _
      · exact before
    intro later found
    rw [same] at found
    cases found
    exact done

omit [ShredLayout] in
theorem asksFor_other {request : RepairReq} {asked : UInt64} (asks : request.asksFor asked = true) (apart : asked ≠ slot) :
    request.asksFor slot = false := by
  cases request with
  | missingBoundedShreds named shreds =>
    obtain rfl : named = asked := of_decide_eq_true asks
    exact decide_eq_false apart
  | missingUnboundedShreds named shreds max =>
    obtain rfl : named = asked := of_decide_eq_true asks
    exact decide_eq_false apart
  | cancelRepair named => rfl

omit [ShredLayout] in
theorem sound_monitorStep {monitor next : SlotMonitor} {requests : List RepairReq} (sound : monitor.Sound)
    (served : monitor.monitorStep = some (next, requests)) : next.Sound := by
  unfold SlotMonitor.monitorStep at served
  split at served
  · cases served
    exact sound
  next queue => exact Pipeline.sound_handle sound queue served

omit [ShredLayout] in
/-- The monitor asks for no shred of such a slot. -/
theorem over_monitorStep {monitor next : SlotMonitor} {requests : List RepairReq} (sound : monitor.Sound)
    (settled : Over slot monitor) (served : monitor.monitorStep = some (next, requests)) :
    Over slot next ∧ ∀ request ∈ requests, request.asksFor slot = false := by
  have nothing : ∀ request ∈ ([] : List RepairReq), request.asksFor slot = false :=
    fun request member => (List.not_mem_nil member).elim
  unfold SlotMonitor.monitorStep at served
  split at served
  · cases served
    exact ⟨settled, nothing⟩
  next message rest _ =>
    cases message with
    | insertion asked =>
      cases served
      exact ⟨settled, nothing⟩
    | completion asked =>
      cases served
      refine ⟨settled, fun request member => ?_⟩
      dsimp only at member
      split at member
      · cases List.mem_singleton.mp member
        rfl
      · cases member
    | timeout asked =>
      dsimp only [SlotMonitor.handleTimerMsg] at served
      split at served
      · cases served
        exact ⟨settled, nothing⟩
      next entry found =>
        split at served
        · cases served
          exact ⟨settled, nothing⟩
        next unfinished =>
          obtain ⟨request, calculated, same⟩ := Option.map_eq_some_iff.mp served
          cases same
          have apart : asked ≠ slot := by
            rintro rfl
            exact unfinished (settled entry found)
          constructor
          · intro other there
            rw [TreeMap.getElem?_insert, if_neg (fun same => apart (LawfulEqOrd.compare_eq_iff_eq.mp same))] at there
            exact settled other there
          · intro other member
            obtain rfl := List.mem_singleton.mp member
            have named : entry.slotNum = asked := sound.numbered asked entry found
            exact asksFor_other (SlotMetadata.asksFor_calculateMissingShreds calculated) (named ▸ apart)

/-! ### A slot nothing is outstanding of -/

/-- Nothing of the slot is left anywhere, and the monitor has no reason to ask for it. -/
structure Quiet (slot : UInt64) (p : SlotRepair) : Prop where
  sound : p.monitor.Sound
  settled : Over slot p.monitor
  requests : ∀ request ∈ p.tasks.manager.requests, request.asksFor slot = false
  clear : Tasks.Clear slot p.tasks

/-- The manager takes requests off its channel and puts none on it. -/
theorem requests_step (t : Tasks) {input : Tasks.Input} (own : ∀ request, input ≠ .request request) :
    ∀ request ∈ (t.step input).1.manager.requests, request ∈ t.manager.requests := by
  have fewer : ∀ {head : RepairReq} {rest}, t.manager.requests = head :: rest → ∀ request ∈ rest,
      request ∈ t.manager.requests := by
    intro head rest queue request member
    rw [queue]
    exact List.mem_cons_of_mem _ member
  cases input with
  | request request => exact (own request rfl).elim
  | arrive route packet => exact fun _ member => member
  | process draws =>
    dsimp only [Tasks.step, Tasks.process]
    split
    next queue => exact fewer queue
    next queue =>
      split
      · exact fewer queue
      · exact fewer queue
    · exact fun _ member => member
  | outstanding draw =>
    dsimp only [Tasks.step, Tasks.outstanding]
    split
    · exact fun _ member => member
    · split
      · exact fun _ member => member
      · split <;> exact fun _ member => member
    · exact fun _ member => member
  | receive draws =>
    dsimp only [Tasks.step, Tasks.receive]
    split
    · split
      · split
        · exact fun _ member => member
        · split
          · split <;> exact fun _ member => member
          · exact fun _ member => member
      · exact fun _ member => member
    · exact fun _ member => member
  | requestTimer key =>
    dsimp only [Tasks.step, RepairManager.fire]
    split
    · exact fun _ member => member
    · split <;> exact fun _ member => member
  | looseRequestTimer index =>
    dsimp only [Tasks.step, RepairManager.fireLoose]
    split <;> exact fun _ member => member
  | take loop => cases loop <;> dsimp only [Tasks.step, Tasks.take] <;> split <;> exact fun _ member => member
  | refuse loop => cases loop <;> dsimp only [Tasks.step, Tasks.refuse] <;> split <;> exact fun _ member => member
  | wake loop => cases loop <;> dsimp only [Tasks.step, Tasks.wake] <;> split <;> exact fun _ member => member

theorem turn_repair {input : Tasks.Input} (own : ∀ request, input ≠ .request request) :
    p.turn (.repair input) =
      ({ p with
          tasks := (p.tasks.step input).1
          responses := p.responses ++ forwardedOf (p.tasks.step input).2 }, (p.tasks.step input).2) := by
  cases input with
  | request request => exact (own request rfl).elim
  | _ => rfl

theorem quiet_step (quiet : Quiet slot p) {input : Input} (kept : ¬ Recreates slot p input) :
    Quiet slot (p.step input).1 ∧ ∀ request, .sent request ∈ (p.step input).2 → request.slot ≠ slot := by
  have silent : ∀ request, TaskEvent.sent request ∈ [] → request.slot ≠ slot :=
    fun request member => (List.not_mem_nil member).elim
  have packet_over : ∀ timestampMs packet, (p.step input).1.monitor = (p.monitor.handlePacket timestampMs packet).1 →
      Over slot (p.monitor.handlePacket timestampMs packet).1 := by
    intro timestampMs packet same
    refine over_handlePacket quiet.settled (fun missing => ?_)
    rw [← same]
    exact Option.not_isSome_iff_eq_none.mp (fun there => kept ⟨missing, there⟩)
  unfold step at packet_over ⊢
  split
  · exact ⟨quiet, silent⟩
  next running =>
    rw [if_neg running] at packet_over
    cases input with
    | shred timestampMs packet =>
      exact ⟨{ quiet with
        sound := SlotMonitor.sound_handlePacket quiet.sound
        settled := packet_over timestampMs packet rfl }, silent⟩
    | response timestampMs index =>
      dsimp only [turn] at packet_over ⊢
      split
      · exact ⟨quiet, silent⟩
      next packet found =>
        simp only [found] at packet_over
        exact ⟨{ quiet with
          sound := SlotMonitor.sound_handlePacket quiet.sound
          settled := packet_over timestampMs packet rfl }, silent⟩
    | filterDrops index => exact ⟨{ quiet with }, silent⟩
    | evict gone =>
      refine ⟨{ quiet with sound := SlotMonitor.sound_evict quiet.sound gone, settled := ?_ }, silent⟩
      intro entry found
      dsimp only [turn, SlotMonitor.evict] at found
      rw [TreeMap.getElem?_erase] at found
      split at found
      · cases found
      · exact quiet.settled entry found
    | monitor =>
      dsimp only [turn]
      split
      · exact ⟨{ quiet with }, silent⟩
      next monitor requests served =>
        obtain ⟨settled, none_asks⟩ := over_monitorStep quiet.sound quiet.settled served
        refine ⟨{ sound := sound_monitorStep quiet.sound served, settled, requests := ?_, clear := { quiet.clear with } },
          silent⟩
        intro request member
        cases List.mem_append.mp member with
        | inl before => exact quiet.requests request before
        | inr new => exact none_asks request new
    | staleTimer fired =>
      refine ⟨{ quiet with sound := SlotMonitor.sound_fire quiet.sound fired, settled := ?_ }, silent⟩
      have same : (p.monitor.fire fired).inner = p.monitor.inner := by
        unfold SlotMonitor.fire
        split
        · rfl
        · split <;> rfl
      intro entry found
      dsimp only [turn] at found
      rw [same] at found
      exact quiet.settled entry found
    | repair input =>
      by_cases asked : ∃ request, input = .request request
      · obtain ⟨request, rfl⟩ := asked
        exact ⟨quiet, silent⟩
      have own := not_exists.mp asked
      have unasked : Tasks.Unasked slot p.tasks input := by
        cases input with
        | process draws =>
          dsimp only [Tasks.Unasked, Tasks.unasked]
          rw [Bool.or_eq_true]
          right
          rw [Option.all_eq_true]
          intro request first
          simp [quiet.requests request (List.mem_of_mem_head? first)]
        | _ => rfl
      obtain ⟨clear, sends⟩ := Tasks.keepsOut_step quiet.clear unasked
      rw [turn_repair own]
      exact ⟨{ quiet with
        requests := fun request member => quiet.requests request (requests_step p.tasks own request member)
        clear }, sends⟩

theorem repairEnds_of_quiet (quiet : Quiet slot p) : RepairEnds slot p := by
  intro later kept
  induction later generalizing p with
  | nil => exact fun request member => (List.not_mem_nil member).elim
  | cons input rest ih =>
    obtain ⟨here, later⟩ := kept
    obtain ⟨still, sends⟩ := quiet_step quiet here
    rw [run_cons]
    intro request member
    cases List.mem_append.mp member with
    | inl now => exact sends request now
    | inr after => exact ih still later request after

/-! ### A slot something is outstanding of -/

/-- The message of a timer that fired is still queued while its entry is there. -/
def Timely (t : Tasks) : Prop :=
  t.manager.outstanding.Each (fun key entry => key = entry.timer.request.key ∧
    (entry.timer.armed = false → .timeout entry.timer.request ∈ t.manager.messages))

omit [ShredLayout] in
theorem timely_more {t : Tasks} (timely : Timely t) {manager : RepairManager}
    (store : manager.outstanding = t.manager.outstanding)
    (more : ∀ message ∈ t.manager.messages, message ∈ manager.messages) :
    manager.outstanding.Each (fun key entry => key = entry.timer.request.key ∧
      (entry.timer.armed = false → .timeout entry.timer.request ∈ manager.messages)) := by
  rw [store]
  exact fun key entry found => ⟨(timely key entry found).1, fun fired => more _ ((timely key entry found).2 fired)⟩

theorem timely_step {t : Tasks} (timely : Timely t) (input : Tasks.Input) : Timely (t.step input).1 := by
  have removed : ∀ {slot nonce route store} {entry : Option Outstanding} {messages : List OutstandingRequestMsg},
      t.manager.outstanding.remove slot nonce route = (store, entry) →
      (∀ request, .timeout request ∈ t.manager.messages → request.key ≠ repairKey slot nonce route →
        .timeout request ∈ messages) →
      store.Each (fun key entry => key = entry.timer.request.key ∧
        (entry.timer.armed = false → .timeout entry.timer.request ∈ messages)) := by
    intro slot nonce route store entry messages removed kept
    have stores : store = (t.manager.outstanding.remove slot nonce route).1 := by
      rw [removed]
    rw [stores]
    refine OutstandingTimerStore.each_remove timely (fun key entry apart held => ⟨held.1, fun fired => ?_⟩)
    exact kept _ (held.2 fired) (held.1 ▸ apart)
  have tracked : ∀ (request : OutstandingRequest) {messages : List OutstandingRequestMsg},
      (∀ request, .timeout request ∈ t.manager.messages → .timeout request ∈ messages) →
      (t.manager.outstanding.insert request).Each (fun key entry => key = entry.timer.request.key ∧
        (entry.timer.armed = false → .timeout entry.timer.request ∈ messages)) := by
    intro request messages kept
    exact OutstandingTimerStore.each_insert timely request
      (fun key entry _ held => ⟨held.1, fun fired => kept _ (held.2 fired)⟩) ⟨rfl, fun fired => by cases fired⟩
  cases input with
  | request request => exact timely
  | arrive route packet => exact timely
  | process draws =>
    dsimp only [Tasks.step, Tasks.process]
    split
    · exact OutstandingTimerStore.each_removeSlot timely (fun _ _ _ held => held)
    · split
      · exact timely
      · exact timely_more timely rfl (fun message member => List.mem_append_left _ member)
    · exact timely
  | outstanding draw =>
    dsimp only [Tasks.step, Tasks.outstanding]
    split
    next request rest _ queue =>
      refine tracked request (fun other member => ?_)
      rw [queue] at member
      exact (List.mem_cons.mp member).resolve_left (by simp)
    next request rest _ queue =>
      have behind : ∀ other, .timeout other ∈ t.manager.messages → other.key ≠ request.key → .timeout other ∈ rest := by
        intro other member apart
        rw [queue] at member
        refine (List.mem_cons.mp member).resolve_left (fun same => apart ?_)
        cases same
        rfl
      split
      next store gone =>
        have absent : t.manager.outstanding.entries[request.key]? = none := congrArg Prod.snd gone
        intro key entry found
        refine ⟨(timely key entry found).1, fun fired => behind _ ((timely key entry found).2 fired) ?_⟩
        intro same
        rw [← same, ← (timely key entry found).1, found] at absent
        cases absent
      next store entry gone =>
        split
        · exact removed gone behind
        · exact removed gone behind
    · exact timely
  | receive draws =>
    dsimp only [Tasks.step, Tasks.receive]
    split
    · split
      · split
        · exact timely
        next gone =>
          split
          · split
            · exact removed gone (fun _ member _ => member)
            · exact removed gone (fun _ member _ => List.mem_append_left _ member)
          · exact removed gone (fun _ member _ => member)
      · exact timely
    · exact timely
  | requestTimer key =>
    dsimp only [Tasks.step, RepairManager.fire]
    split
    · exact timely
    next entry found =>
      split
      · intro other held kept
        rw [TreeMap.getElem?_insert] at kept
        split at kept
        next here =>
          cases kept
          have same := LawfulEqOrd.compare_eq_iff_eq.mp here
          exact ⟨same ▸ (timely key entry found).1, fun _ => List.mem_append_right _ (List.mem_singleton.mpr rfl)⟩
        next =>
          exact ⟨(timely other held kept).1, fun fired => List.mem_append_left _ ((timely other held kept).2 fired)⟩
      · exact timely
  | looseRequestTimer index =>
    dsimp only [Tasks.step, RepairManager.fireLoose]
    split
    · exact timely
    · exact timely_more timely rfl (fun message member => List.mem_append_left _ member)
  | take loop => cases loop <;> dsimp only [Tasks.step, Tasks.take] <;> split <;> exact timely
  | refuse loop => cases loop <;> dsimp only [Tasks.step, Tasks.refuse] <;> split <;> exact timely
  | wake loop =>
    cases loop with
    | processor => dsimp only [Tasks.step, Tasks.wake]; split <;> exact timely
    | outstanding =>
      dsimp only [Tasks.step, Tasks.wake]
      split
      · exact tracked _ (fun _ member => member)
      · exact timely
    | receiver => dsimp only [Tasks.step, Tasks.wake]; split <;> exact timely

/-- The outstanding loop waits for messages, none of which is about the slot of this entry. -/
structure Ready (slot : UInt64) (entry : Outstanding) (t : Tasks) : Prop where
  idle : t.retry = none
  found : t.manager.outstanding.entries[entry.timer.request.key]? = some entry
  others : ∀ request, .new request ∈ t.manager.messages ∨ .timeout request ∈ t.manager.messages → request.slot ≠ slot

omit [ShredLayout] in
theorem found_insert_other {store : OutstandingTimerStore} {entry : Outstanding} {request : OutstandingRequest}
    (found : store.entries[entry.timer.request.key]? = some entry) (apart : request.slot ≠ entry.timer.request.slot) :
    (store.insert request).entries[entry.timer.request.key]? = some entry := by
  rw [OutstandingTimerStore.insert, TreeMap.getElem?_insert, if_neg]
  · exact found
  · exact fun same => apart (slot_of_repairKey (LawfulEqOrd.compare_eq_iff_eq.mp same))

/-- A retry that is under way comes to its end. -/
theorem ready_retry {t : Tasks} {entry : Outstanding} (own : entry.timer.request.slot = slot)
    (found : t.manager.outstanding.entries[entry.timer.request.key]? = some entry)
    (others : ∀ request, .new request ∈ t.manager.messages ∨ .timeout request ∈ t.manager.messages → request.slot ≠ slot)
    (free : ¬ Tasks.Retries slot t) :
    Ready slot entry (run Tasks.step t [.take .outstanding, .wake .outstanding]).1 := by
  obtain ⟨manager, arrivals, processor, retry, answer⟩ := t
  cases retry with
  | none => exact ⟨rfl, found, others⟩
  | some sending =>
    obtain ⟨batch, taken, next⟩ := sending
    have apart : next.slot ≠ entry.timer.request.slot := fun same => free ⟨_, rfl, same.trans own⟩
    cases taken with
    | false => exact ⟨rfl, found_insert_other found apart, others⟩
    | true => exact ⟨rfl, found_insert_other found apart, others⟩

/-- A message about another slot leaves the entry where it is. -/
theorem ready_message {t : Tasks} {entry : Outstanding} {message : OutstandingRequestMsg}
    {rest : List OutstandingRequestMsg} (own : entry.timer.request.slot = slot) (ready : Ready slot entry t)
    (queue : t.manager.messages = message :: rest) :
    Ready slot entry (t.step (.outstanding none)).1 ∧ (t.step (.outstanding none)).1.manager.messages = rest := by
  obtain ⟨⟨requests, outstanding, messages, loose⟩, arrivals, processor, retry, answer⟩ := t
  obtain ⟨idle, found, others⟩ := ready
  cases idle
  cases queue
  have later : ∀ request, .new request ∈ rest ∨ .timeout request ∈ rest → request.slot ≠ slot :=
    fun request member => others request (member.imp (List.mem_cons_of_mem _) (List.mem_cons_of_mem _))
  cases message with
  | new request =>
    have apart := others request (.inl (List.mem_cons_self ..))
    exact ⟨⟨rfl, found_insert_other found (own ▸ apart), later⟩, rfl⟩
  | timeout request =>
    have apart := others request (.inr (List.mem_cons_self ..))
    dsimp only [Tasks.step, Tasks.outstanding]
    split
    · exact ⟨⟨rfl, found, later⟩, rfl⟩
    next store gone removed =>
      refine ⟨⟨rfl, ?_, later⟩, rfl⟩
      have stores : store = (outstanding.remove request.slot request.nonce request.target.route).1 := by
        rw [removed]
      show store.entries[entry.timer.request.key]? = some entry
      rw [stores, OutstandingTimerStore.remove, TreeMap.getElem?_erase, if_neg]
      · exact found
      · intro same
        have slots := slot_of_repairKey (LawfulEqOrd.compare_eq_iff_eq.mp same)
        exact apart (slots.trans own)

theorem ready_drained {t : Tasks} {entry : Outstanding} (own : entry.timer.request.slot = slot)
    (ready : Ready slot entry t) :
    Ready slot entry (run Tasks.step t (List.replicate t.manager.messages.length (.outstanding none))).1 ∧
      (run Tasks.step t (List.replicate t.manager.messages.length (.outstanding none))).1.manager.messages = [] := by
  generalize queue : t.manager.messages = messages
  induction messages generalizing t with
  | nil => exact ⟨ready, queue⟩
  | cons message rest ih =>
    obtain ⟨still, shorter⟩ := ready_message own ready queue
    rw [List.length_cons, List.replicate_succ, run_cons]
    exact ih still shorter

/-- The timer of the entry fires, and there is a peer to ask. -/
def askAgain (key : Nat) : List Tasks.Input :=
  [.requestTimer key, .outstanding (some (Tasks.somePeer, 0)), .take .outstanding]

theorem ready_sends {t : Tasks} {entry : Outstanding} (ready : Ready slot entry t) (empty : t.manager.messages = [])
    (armed : entry.timer.armed = true) :
    .sent ⟨Tasks.somePeer, 0, entry.timer.request.kind, entry.timer.request.slot, entry.timer.request.shred⟩ ∈
      (run Tasks.step t (askAgain entry.timer.request.key)).2 := by
  obtain ⟨⟨requests, outstanding, messages, loose⟩, arrivals, processor, retry, answer⟩ := t
  obtain ⟨idle, found, others⟩ := ready
  cases idle
  cases empty
  have fired : RepairManager.fire ⟨requests, outstanding, [], loose⟩ entry.timer.request.key =
      ⟨requests, ⟨outstanding.entries.insert entry.timer.request.key
        { entry with timer := { entry.timer with armed := false } }⟩, [.timeout entry.timer.request], loose⟩ := by
    simp only [RepairManager.fire, found, armed, if_true]
    rfl
  simp only [askAgain, run_cons, run_nil, Tasks.step, fired]
  have there : (outstanding.entries.insert entry.timer.request.key
      { entry with timer := { entry.timer with armed := false } })[entry.timer.request.key]? =
        some { entry with timer := { entry.timer with armed := false } } := TreeMap.getElem?_insert_self
  have removed : OutstandingTimerStore.remove ⟨outstanding.entries.insert entry.timer.request.key
      { entry with timer := { entry.timer with armed := false } }⟩ entry.timer.request.slot entry.timer.request.nonce
        entry.timer.request.target.route = (_, some { entry with timer := { entry.timer with armed := false } }) :=
    Prod.ext rfl there
  dsimp only [Tasks.outstanding]
  rw [removed]
  exact List.mem_cons_of_mem _ (List.mem_cons_of_mem _ (List.mem_cons_self ..))

/-- Steps of the manager move nothing else, and create no entry. -/
theorem run_repair {inputs : List Tasks.Input} (own : ∀ input ∈ inputs, ∀ request, input ≠ .request request) :
    (run step p (inputs.map .repair)).2 = (run Tasks.step p.tasks inputs).2 ∧
      Meets step (fun p input => ¬ Recreates slot p input) p (inputs.map .repair) := by
  induction inputs generalizing p with
  | nil => exact ⟨rfl, trivial⟩
  | cons input rest ih =>
    have here : p.step (.repair input) = ({ p with
        tasks := (p.tasks.step input).1
        responses := p.responses ++ forwardedOf (p.tasks.step input).2 }, (p.tasks.step input).2) := by
      rw [step, if_neg (by simp [Input.ofMonitor]), turn_repair (own input (List.mem_cons_self ..))]
    have later : ∀ other ∈ rest, ∀ request, other ≠ .request request :=
      fun other member => own other (List.mem_cons_of_mem _ member)
    rw [List.map_cons, run_cons, run_cons, meets_cons, here]
    obtain ⟨out, kept⟩ := @ih { p with
      tasks := (p.tasks.step input).1
      responses := p.responses ++ forwardedOf (p.tasks.step input).2 } later
    refine ⟨congrArg _ out, ?_, kept⟩
    rintro ⟨missing, there⟩
    rw [here] at there
    rw [missing] at there
    cases there

theorem not_repairEnds_of_waits (timely : Timely p.tasks) (processed : Processed slot p)
    (waits : p.tasks.manager.outstanding.Waits slot) : ¬ RepairEnds slot p := by
  obtain ⟨key, entry, found, own⟩ := waits
  obtain ⟨keyed, fired⟩ := timely key entry found
  have armed : entry.timer.armed = true := by
    cases disarmed : entry.timer.armed with
    | true => rfl
    | false => exact (processed.messages _ (.inr (fired disarmed)) own).elim
  rw [keyed] at found
  let t := (run Tasks.step p.tasks [.take .outstanding, .wake .outstanding]).1
  let drain : List Tasks.Input := List.replicate t.manager.messages.length (.outstanding none)
  let inputs := [.take .outstanding, .wake .outstanding] ++ (drain ++ askAgain entry.timer.request.key)
  have ready : Ready slot entry t := ready_retry own found processed.messages processed.retry
  obtain ⟨drained, empty⟩ := ready_drained own ready
  have sent := ready_sends drained empty armed
  have inside : .sent ⟨Tasks.somePeer, 0, entry.timer.request.kind, entry.timer.request.slot, entry.timer.request.shred⟩ ∈
      (run Tasks.step p.tasks inputs).2 := by
    rw [run_append, run_append]
    exact List.mem_append_right _ (List.mem_append_right _ sent)
  have owned : ∀ input ∈ inputs, ∀ request, input ≠ .request request := by
    intro input member request same
    subst same
    simp [inputs, drain, askAgain] at member
  obtain ⟨out, kept⟩ := @run_repair _ slot p inputs owned
  intro ends
  exact ends _ kept _ (out ▸ inside) own

/-! ### Runs -/

/-- The monitor and the manager keep their own books. -/
structure Sound (p : SlotRepair) : Prop where
  monitor : p.monitor.Sound
  timely : Timely p.tasks

theorem sound_step (sound : Sound p) (input : Input) : Sound (p.step input).1 := by
  unfold step
  split
  · exact sound
  cases input with
  | shred timestampMs packet => exact ⟨SlotMonitor.sound_handlePacket sound.monitor, sound.timely⟩
  | response timestampMs index =>
    dsimp only [turn]
    split
    · exact sound
    · exact ⟨SlotMonitor.sound_handlePacket sound.monitor, sound.timely⟩
  | filterDrops index => exact ⟨sound.monitor, sound.timely⟩
  | evict gone => exact ⟨SlotMonitor.sound_evict sound.monitor gone, sound.timely⟩
  | monitor =>
    dsimp only [turn]
    split
    · exact ⟨sound.monitor, sound.timely⟩
    next served => exact ⟨sound_monitorStep sound.monitor served, sound.timely⟩
  | staleTimer fired => exact ⟨SlotMonitor.sound_fire sound.monitor fired, sound.timely⟩
  | repair input =>
    by_cases asked : ∃ request, input = .request request
    · obtain ⟨request, rfl⟩ := asked
      exact sound
    · rw [turn_repair (not_exists.mp asked)]
      exact ⟨sound.monitor, timely_step sound.timely input⟩

theorem sound_run (version : UInt16) (inputs : List Input) : Sound (run step (new version) inputs).1 := by
  refine run_invariant (P := Sound) ⟨⟨fun slot entry found => ?_, fun slot fired => ?_⟩, ?_⟩
    (fun _ input sound _ => sound_step sound input) inputs (meets_true inputs)
  · simp [new, SlotMonitor.new] at found
  · simp [new, SlotMonitor.new] at fired
  · exact OutstandingTimerStore.each_empty

omit [ShredLayout] in
theorem quiet_of_not_waits (sound : Sound p) (settled : Over slot p.monitor) (processed : Processed slot p)
    (none_waits : ¬ p.tasks.manager.outstanding.Waits slot) : Quiet slot p where
  sound := sound.monitor
  settled := settled
  requests request member := (processed.requests request member).1
  clear :=
    { announced := fun request member => processed.messages request (.inl member)
      retry := processed.retry
      retrySends := processed.retrySends
      answer := processed.answer
      processor := processed.processor
      entries := fun key entry found =>
        ⟨(sound.timely key entry found).1, fun own => none_waits ⟨key, entry, found, own⟩⟩ }

/-- Once a slot has completed or been evicted and the messages about it have been processed, it is never asked for again
exactly when no request of it is outstanding: its timers send it again and again, and nothing else brings it back. -/
theorem repair_ends_iff (version : UInt16) (inputs : List Input) (slot : UInt64)
    (settled : Over slot (run step (new version) inputs).1.monitor)
    (processed : Processed slot (run step (new version) inputs).1) :
    RepairEnds slot (run step (new version) inputs).1 ↔
      ¬ (run step (new version) inputs).1.tasks.manager.outstanding.Waits slot := by
  have sound := sound_run version inputs
  constructor
  · exact fun ends waits => not_repairEnds_of_waits sound.timely processed waits ends
  · exact fun none_waits => repairEnds_of_quiet (quiet_of_not_waits sound settled processed none_waits)

omit [ShredLayout]

theorem processed_idle (requests : p.tasks.manager.requests = []) (messages : p.tasks.manager.messages = [])
    (timers : p.monitor.timerMsgs = []) (processor : p.tasks.processor = none) (retry : p.tasks.retry = none)
    (answer : p.tasks.answer = none) : Processed slot p where
  requests := by simp [requests]
  messages := by simp [messages]
  timers := by simp [timers]
  processor := processor ▸ Tasks.not_offers_none
  retry := by simp [Tasks.Retries, retry]
  retrySends := retry ▸ Tasks.not_offers_none
  answer := answer ▸ Tasks.not_offers_none

def codingShredOf7 : PacketInfo := wireShred ⟨.code, 7, 31, 1, 0⟩ 0

/-- A shred of slot 7 comes, and the cache evicts the slot before it times out. -/
def evictedEarly : List Input := [.shred 0 codingShredOf7, .monitor, .evict 7]

/-- Slot 7 times out, its highest shred is asked for, and the cache evicts it. -/
def evictedAsked : List Input :=
  [.shred 0 codingShredOf7, .monitor, .staleTimer 7, .monitor, .repair (.process (fun _ => some (Tasks.somePeer, 5))),
    .repair (.take .processor), .repair (.wake .processor), .repair (.outstanding none), .evict 7]

def after (inputs : List Input) : SlotRepair := (run (@step wireLayout) (new 1) inputs).1

/-- No message is left, and the slot has no entry. -/
structure Idle (slot : UInt64) (p : SlotRepair) : Prop where
  gone : (p.monitor.inner[slot]?).isNone = true
  requests : p.tasks.manager.requests = []
  messages : p.tasks.manager.messages = []
  timers : p.monitor.timerMsgs = []
  loops : p.tasks.processor.isNone = true ∧ p.tasks.retry.isNone = true ∧ p.tasks.answer.isNone = true

instance (slot : UInt64) (p : SlotRepair) : Decidable (Idle slot p) :=
  decidable_of_iff ((p.monitor.inner[slot]?).isNone = true ∧ p.tasks.manager.requests = [] ∧
      p.tasks.manager.messages = [] ∧ p.monitor.timerMsgs = [] ∧
      p.tasks.processor.isNone = true ∧ p.tasks.retry.isNone = true ∧ p.tasks.answer.isNone = true)
    ⟨fun ⟨a, b, c, d, e⟩ => ⟨a, b, c, d, e⟩, fun ⟨a, b, c, d, e⟩ => ⟨a, b, c, d, e⟩⟩

theorem Idle.settled (idle : Idle slot p) : Over slot p.monitor := by
  intro entry found
  have gone := idle.gone
  rw [found] at gone
  cases gone

theorem Idle.processed (idle : Idle slot p) : Processed slot p :=
  processed_idle idle.requests idle.messages idle.timers (Option.isNone_iff_eq_none.mp idle.loops.1)
    (Option.isNone_iff_eq_none.mp idle.loops.2.1) (Option.isNone_iff_eq_none.mp idle.loops.2.2)

theorem repair_ends_iff_evicted :
    @RepairEnds wireLayout 7 (after evictedEarly) ↔ ¬ (after evictedEarly).tasks.manager.outstanding.Waits 7 := by
  have idle : Idle 7 (after evictedEarly) := by decide +kernel
  exact @repair_ends_iff wireLayout 1 evictedEarly 7 idle.settled idle.processed

/-- The evicted slot is asked for again. -/
theorem evicted_slot_asked_for :
    Over 7 (after evictedAsked).monitor ∧ Processed 7 (after evictedAsked) ∧
      ¬ @RepairEnds wireLayout 7 (after evictedAsked) := by
  have idle : Idle 7 (after evictedAsked) := by decide +kernel
  refine ⟨idle.settled, idle.processed, fun ends => ?_⟩
  let later := askAgain (repairKey 7 5 Tasks.somePeer.route)
  obtain ⟨out, kept⟩ := @run_repair wireLayout 7 (after evictedAsked) later (by simp [later, askAgain])
  have sent : .sent ⟨Tasks.somePeer, 0, .highestWindowIndex, 7, 31⟩ ∈
      (run (@Tasks.step wireLayout) (after evictedAsked).tasks later).2 := by decide +kernel
  exact ends _ kept _ (out ▸ sent) rfl

end SlotRepair

end Lightbringer.Repair
