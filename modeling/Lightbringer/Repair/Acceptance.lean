import Lightbringer.Repair.Tasks

/-!
# Which answers are let through

Every answer that goes on to the packet filter has taken an entry of the store, and an entry is taken once.
-/

namespace Lightbringer.Repair
open Std Machine Trace

def TaskEvent.forwardedPacket : TaskEvent → Option PacketInfo
  | .forwarded packet => some packet
  | _ => none

def TaskEvent.matchedPacket : TaskEvent → Option PacketInfo
  | .matched _ _ packet => some packet
  | _ => none

/-- What an answer must have to be forwarded. -/
def OutstandingRequest.accepts [ShredLayout] (request : OutstandingRequest) (packet : PacketInfo) : Bool :=
  request.kind = .windowIndex ||
    (ShredLayout.getFlags packet).isSome && (ShredLayout.getIndex packet).isSome && (ShredLayout.getSlot packet).isSome

def TaskEvent.validMatch [ShredLayout] : TaskEvent → Option PacketInfo
  | .matched request _ packet => if request.accepts packet then some packet else none
  | _ => none

/-- Events that say nothing about entries or answers. -/
def TaskEvent.Background : TaskEvent → Prop
  | .created _ | .sent _ | .cancelled _ | .arrived _ _ | .unmatched _ _ => True
  | _ => False

namespace Tasks

/-- An entry under the key is created, or comes to its end. -/
def Ends (key : Nat) : TaskEvent → Prop
  | .tracked request | .timedOut request | .dropped request | .matched request _ _ => request.key = key
  | _ => False

/-- The request was entered into the store, and its entry is still there. -/
def EntryOpen (request : OutstandingRequest) (log : List TaskEvent) : Prop :=
  Since (· = .tracked request) (Ends request.key) log

section

variable [ShredLayout]

/-- The packet has the slot, the nonce and the route of the request. -/
def Carries (route : RepairRoute) (packet : PacketInfo) (request : OutstandingRequest) : Prop :=
  ShredLayout.getSlot packet = some request.slot ∧ repairNonce packet = some request.nonce ∧
    route = request.target.route

structure AtMostOnce (log : List TaskEvent) : Prop where
  /-- Whatever is forwarded was matched, and each time anew. -/
  forwarded : (log.filterMap TaskEvent.forwardedPacket).Sublist (log.filterMap TaskEvent.matchedPacket)
  /-- What is matched takes an entry that is there, of a request it carries the data of. -/
  matched : ∀ before request route packet after, log = before ++ .matched request route packet :: after →
    Carries route packet request ∧ EntryOpen request before
  /-- After an entry was taken, timed out, cancelled or replaced, only a new one can be taken. -/
  ended : ∀ before event between request route packet after,
    log = before ++ event :: between ++ .matched request route packet :: after → Ends request.key event →
    event = .tracked request ∨ .tracked request ∈ between

/-- The answer taken up does not come from the other family's twin of the address its key leads to. -/
def OwnFamily (t : Tasks) : Input → Prop
  | .receive _ =>
    match t.answer, t.arrivals with
    | none, (route, packet) :: _ =>
      match repairNonce packet, ShredLayout.getSlot packet with
      | some nonce, some slot =>
        ∀ entry ∈ t.manager.outstanding.entries[repairKey slot nonce route]?,
          ¬ Twins route entry.timer.request.target.route
      | _, _ => True
    | _, _ => True
  | _ => True

instance (t : Tasks) : DecidablePred (OwnFamily t) := by
  intro input
  unfold OwnFamily
  repeat' split
  all_goals infer_instance

/-! ### What the steps leave of the log -/

/-- A match of an open entry by a packet that carries its data. -/
def Sound (log : List TaskEvent) (event : TaskEvent) : Prop :=
  ∀ request route packet, event = .matched request route packet → Carries route packet request ∧ EntryOpen request log

structure Accounted (log : List TaskEvent) (t : Tasks) : Prop where
  entries : t.manager.outstanding.Each (fun key entry => Recorded key entry ∧ EntryOpen entry.timer.request log)
  /-- What was matched and is valid is forwarded, or held until its follow-ups are sent. -/
  answers : log.filterMap TaskEvent.validMatch =
    log.filterMap TaskEvent.forwardedPacket ++ (t.answer.map Sending.next).toList

variable {log out : List TaskEvent} {t : Tasks}

/-- Neither a match nor a packet forwarded. -/
def Plain (out : List TaskEvent) : Prop := ∀ event ∈ out, event.matchedPacket = none ∧ event.forwardedPacket = none

def Background (out : List TaskEvent) : Prop := ∀ event ∈ out, event.Background

/-- Steps that leave the answers alone. -/
theorem accounted_plain (held : Accounted log t) {t' : Tasks}
    (entries : t'.manager.outstanding.Each (fun key entry => Recorded key entry ∧
      EntryOpen entry.timer.request (log ++ out)))
    (answer : t'.answer.map Sending.next = t.answer.map Sending.next) (plain : Plain out) :
    Accounted (log ++ out) t' where
  entries := entries
  answers := by
    have unmatched : out.filterMap TaskEvent.validMatch = [] := by
      refine List.filterMap_eq_nil_iff.mpr (fun event member => ?_)
      have other := (plain event member).1
      cases event <;> first | rfl | cases other
    have unforwarded : out.filterMap TaskEvent.forwardedPacket = [] :=
      List.filterMap_eq_nil_iff.mpr (fun event member => (plain event member).2)
    rw [List.filterMap_append, List.filterMap_append, unmatched, unforwarded, answer, List.append_nil, List.append_nil]
    exact held.answers

omit [ShredLayout] in
theorem not_ends_background {event : TaskEvent} (background : event.Background) (key : Nat) : ¬ Ends key event := by
  cases event <;> first | exact id | exact background.elim

omit [ShredLayout] in
theorem plain_background (background : Background out) : Plain out := by
  intro event member
  have quiet := background event member
  cases event <;> first | exact ⟨rfl, rfl⟩ | exact quiet.elim

/-- Steps that touch neither the entries nor the answers. -/
theorem accounted_background (held : Accounted log t) {t' : Tasks}
    (entries : t'.manager.outstanding = t.manager.outstanding)
    (answer : t'.answer.map Sending.next = t.answer.map Sending.next) (background : Background out) :
    Accounted (log ++ out) t' := by
  refine accounted_plain held ?_ answer (plain_background background)
  rw [entries]
  intro key entry found
  obtain ⟨recorded, opened⟩ := held.entries key entry found
  exact ⟨recorded, since_keep opened (fun event member => not_ends_background (background event member) _)⟩

omit [ShredLayout] in
theorem background_created (requests : List OutstandingRequest) : Background (requests.map TaskEvent.created) := by
  intro event member
  obtain ⟨request, _, rfl⟩ := List.mem_map.mp member
  trivial

omit [ShredLayout] in
theorem background_sent (batch : List SocketRequest) : Background (batch.map TaskEvent.sent) := by
  intro event member
  obtain ⟨request, _, rfl⟩ := List.mem_map.mp member
  trivial

omit [ShredLayout] in
theorem background_cons {event : TaskEvent} (first : event.Background) (rest : Background out) :
    Background (event :: out) := by
  intro other member
  rcases List.mem_cons.mp member with rfl | later
  · exact first
  · exact rest other later

omit [ShredLayout] in
theorem background_nil : Background [] := by
  intro event member
  cases member

theorem accounted_idle (held : Accounted log t) : Accounted (log ++ []) t :=
  accounted_background held rfl rfl background_nil

theorem accounted_track (held : Accounted log t) (request : OutstandingRequest) {t' : Tasks}
    (entries : t'.manager.outstanding = t.manager.outstanding.insert request)
    (answer : t'.answer.map Sending.next = t.answer.map Sending.next) :
    Accounted (log ++ [.tracked request]) t' := by
  refine accounted_plain held ?_ answer (by simp [Plain, TaskEvent.matchedPacket, TaskEvent.forwardedPacket])
  rw [entries]
  refine OutstandingTimerStore.each_insert held.entries request (fun key entry apart ⟨recorded, opened⟩ => ?_) ?_
  · refine ⟨recorded, since_keep opened (fun event member => ?_)⟩
    rw [List.mem_singleton.mp member]
    intro same
    exact apart (recorded.1.trans same.symm)
  · exact ⟨⟨rfl, rfl⟩, since_concat.mpr (.inl rfl)⟩

/-- The entry under a key is taken out, and the log says so. -/
theorem entries_removed (held : Accounted log t) {slot : UInt64} {nonce : Nonce} {route : RepairRoute}
    {store : OutstandingTimerStore} {found : Option Outstanding}
    (removed : t.manager.outstanding.remove slot nonce route = (store, found))
    (own : ∀ event ∈ out, ∀ key, Ends key event → key = repairKey slot nonce route) :
    store.Each (fun key entry => Recorded key entry ∧ EntryOpen entry.timer.request (log ++ out)) := by
  have stores : store = (t.manager.outstanding.remove slot nonce route).1 := by
    rw [removed]
  rw [stores]
  refine OutstandingTimerStore.each_remove held.entries (fun key entry apart ⟨recorded, opened⟩ => ?_)
  refine ⟨recorded, since_keep opened (fun event member ends => apart ?_)⟩
  rw [recorded.1]
  exact own event member _ ends

/-- What a removal finds is recorded under the key asked for. -/
theorem found_entry (held : Accounted log t) {slot : UInt64} {nonce : Nonce} {route : RepairRoute}
    {store : OutstandingTimerStore} {entry : Outstanding}
    (removed : t.manager.outstanding.remove slot nonce route = (store, some entry)) :
    repairKey slot nonce route = entry.timer.request.key ∧ entry.kind = entry.timer.request.kind ∧
      EntryOpen entry.timer.request log := by
  have found : t.manager.outstanding.entries[repairKey slot nonce route]? = some entry := congrArg Prod.snd removed
  obtain ⟨⟨keyed, kind⟩, opened⟩ := held.entries _ entry found
  exact ⟨keyed, kind, opened⟩

omit [ShredLayout] in
theorem mem_swept {store : OutstandingTimerStore} {slot : UInt64} {request : OutstandingRequest} :
    request ∈ store.swept slot ↔
      ∃ (key : Nat) (entry : Outstanding), store.entries[key]? = some entry ∧ inSlotRange slot key = true ∧
        entry.timer.request = request := by
  constructor
  · intro member
    obtain ⟨⟨key, entry⟩, listed, same⟩ := List.mem_map.mp member
    obtain ⟨stored, within⟩ := List.mem_filter.mp listed
    exact ⟨key, entry, TreeMap.mem_toList_iff_getElem?_eq_some.mp stored, within, same⟩
  · rintro ⟨key, entry, found, within, same⟩
    have stored := TreeMap.mem_toList_iff_getElem?_eq_some.mpr found
    exact List.mem_map.mpr ⟨(key, entry), List.mem_filter.mpr ⟨stored, within⟩, same⟩

theorem accounted_process (held : Accounted log t) (draws : Nat → Draw) :
    Accounted (log ++ (t.process draws).2) (t.process draws).1 := by
  unfold process
  split
  next slot rest _ _ =>
    refine accounted_plain held ?_ rfl ?_
    · refine OutstandingTimerStore.each_removeSlot held.entries (fun key entry outside ⟨recorded, opened⟩ => ?_)
      refine ⟨recorded, since_keep opened (fun event member ends => ?_)⟩
      rcases List.mem_cons.mp member with rfl | drops
      · exact ends
      obtain ⟨request, swept, rfl⟩ := List.mem_map.mp drops
      obtain ⟨other, gone, found, within, rfl⟩ := mem_swept.mp swept
      have keyed := (held.entries other gone found).1.1
      have same : other = key := keyed.trans (ends.trans recorded.1.symm)
      rw [same, outside] at within
      cases within
    · intro event member
      rcases List.mem_cons.mp member with rfl | drops
      · exact ⟨rfl, rfl⟩
      obtain ⟨request, _, rfl⟩ := List.mem_map.mp drops
      exact ⟨rfl, rfl⟩
  next =>
    split
    · exact accounted_idle { held with }
    · exact accounted_background held rfl rfl (background_created _)
  next => exact accounted_idle held

theorem accounted_outstanding (held : Accounted log t) (draw : Draw) :
    Accounted (log ++ (t.outstanding draw).2) (t.outstanding draw).1 := by
  unfold outstanding
  split
  next request rest _ _ => exact accounted_track held request rfl rfl
  next request rest _ _ =>
    split
    · exact accounted_idle { held with }
    next store entry removed =>
      obtain ⟨keyed, _, _⟩ := found_entry held removed
      have plain : Plain [.timedOut entry.timer.request] := by
        simp [Plain, TaskEvent.matchedPacket, TaskEvent.forwardedPacket]
      have left := @entries_removed _ log [.timedOut entry.timer.request] t held _ _ _ _ _ removed
        (fun event member key ends => by
          rw [List.mem_singleton.mp member] at ends
          exact ends.symm.trans keyed.symm)
      dsimp only
      split
      · exact accounted_plain held left rfl plain
      · exact accounted_plain held left rfl plain
  next => exact accounted_idle held

/-- A match takes the entry it found; `sent` is what the answer has the loop do next. -/
theorem accounted_match (held : Accounted log t) (idle : t.answer = none) {slot : UInt64} {nonce : Nonce}
    {route : RepairRoute} {packet : PacketInfo} {store : OutstandingTimerStore} {entry : Outstanding}
    (removed : t.manager.outstanding.remove slot nonce route = (store, some entry)) {sent : List TaskEvent} {t' : Tasks}
    (entries : t'.manager.outstanding = store) (unmatched : ∀ event ∈ sent, event.matchedPacket = none)
    (unended : ∀ event ∈ sent, ∀ key, ¬ Ends key event)
    (answers : (if entry.timer.request.accepts packet then [packet] else []) =
      sent.filterMap TaskEvent.forwardedPacket ++ (t'.answer.map Sending.next).toList) :
    Accounted (log ++ .matched entry.timer.request route packet :: sent) t' := by
  obtain ⟨keyed, _, _⟩ := found_entry held removed
  refine ⟨?_, ?_⟩
  · rw [entries]
    refine entries_removed held removed (fun event member key ends => ?_)
    rcases List.mem_cons.mp member with rfl | later
    · exact ends.symm.trans keyed.symm
    · exact (unended event later key ends).elim
  · have before := held.answers
    rw [idle] at before
    have rest : sent.filterMap TaskEvent.validMatch = [] := by
      refine List.filterMap_eq_nil_iff.mpr (fun event member => ?_)
      have other := unmatched event member
      cases event <;> first | rfl | cases other
    have first : [TaskEvent.matched entry.timer.request route packet].filterMap TaskEvent.validMatch =
        if entry.timer.request.accepts packet then [packet] else [] := by
      cases accepted : entry.timer.request.accepts packet <;> simp [TaskEvent.validMatch, accepted]
    have taken : (log ++ .matched entry.timer.request route packet :: sent).filterMap TaskEvent.validMatch =
        log.filterMap TaskEvent.forwardedPacket ++ if entry.timer.request.accepts packet then [packet] else [] := by
      rw [List.append_cons, List.filterMap_append, List.filterMap_append, before, rest, first]
      simp
    rw [taken, answers, List.filterMap_append, List.filterMap_cons_none rfl, List.append_assoc]

theorem accepts_iff {request : OutstandingRequest} {packet : PacketInfo} {draws : Nat → Draw} {reqShredIndex : UInt32}
    (highest : request.kind = .highestWindowIndex) :
    request.accepts packet = (handleUnboundedPacketResponse draws packet reqShredIndex).isSome := by
  unfold OutstandingRequest.accepts handleUnboundedPacketResponse
  rw [highest]
  cases ShredLayout.getFlags packet <;> cases ShredLayout.getIndex packet <;> cases ShredLayout.getSlot packet <;> rfl

theorem accounted_receive (held : Accounted log t) (draws : Nat → Draw) :
    Accounted (log ++ (t.receive draws).2) (t.receive draws).1 := by
  unfold receive
  split
  next route packet rest idle queue =>
    dsimp only
    split
    next nonce slot nonceRead slotRead =>
      split
      · refine accounted_background held rfl rfl (background_cons trivial background_nil)
      next store entry removed =>
        obtain ⟨_, kind, _⟩ := found_entry held removed
        split
        next highest =>
          have accepted := @accepts_iff _ entry.timer.request packet draws entry.shredIndex (kind ▸ highest)
          split
          next refused =>
            refine accounted_match held idle removed rfl (by simp) (by simp) ?_
            rw [accepted, refused, idle]
            rfl
          next announced batch followed =>
            refine accounted_match held idle removed rfl ?_ ?_ ?_
            · exact fun event member => (plain_background (background_created _) event member).1
            · exact fun event member => not_ends_background (background_created _ event member)
            · rw [accepted, followed, List.filterMap_eq_nil_iff.mpr
                (fun event member => (plain_background (background_created _) event member).2)]
              rfl
        next bounded =>
          have accepted : entry.timer.request.accepts packet = true := by
            rw [OutstandingRequest.accepts]
            cases same : entry.timer.request.kind with
            | windowIndex => rfl
            | highestWindowIndex => exact (bounded (kind.trans same)).elim
          refine accounted_match held idle removed rfl ?_ ?_ ?_
          · simp [TaskEvent.matchedPacket]
          · simp [Ends]
          · rw [accepted, idle]
            rfl
    next => exact accounted_idle { held with }
  next => exact accounted_idle held

theorem accounted_take (held : Accounted log t) (loop : Loop) :
    Accounted (log ++ (t.take loop).2) (t.take loop).1 := by
  cases loop with
  | processor =>
    dsimp only [take]
    split
    · exact accounted_background held rfl rfl (background_sent _)
    · exact accounted_idle held
  | outstanding =>
    dsimp only [take]
    split
    · exact accounted_background held rfl rfl (background_cons trivial (background_sent _))
    · exact accounted_idle held
  | receiver =>
    dsimp only [take]
    split
    next batch packet waiting =>
      exact accounted_background held rfl (by rw [waiting]; rfl) (background_sent _)
    next => exact accounted_idle held

/-- The answer that is held goes on. -/
theorem accounted_forward (held : Accounted log t) {waiting : Sending PacketInfo} (answer : t.answer = some waiting) :
    Accounted (log ++ [.forwarded waiting.next]) { t with answer := none } where
  entries := by
    intro key entry found
    obtain ⟨recorded, opened⟩ := held.entries key entry found
    exact ⟨recorded, since_keep opened (by simp [Ends])⟩
  answers := by
    have before := held.answers
    rw [answer] at before
    rw [List.filterMap_append, List.filterMap_append, before]
    simp [TaskEvent.validMatch, TaskEvent.forwardedPacket]

theorem accounted_refuse (held : Accounted log t) (loop : Loop) :
    Accounted (log ++ (t.refuse loop).2) (t.refuse loop).1 := by
  cases loop with
  | processor => dsimp only [refuse]; split <;> exact accounted_idle { held with }
  | outstanding => dsimp only [refuse]; split <;> exact accounted_idle { held with }
  | receiver =>
    dsimp only [refuse]
    split
    next batch packet waiting => exact accounted_forward held waiting
    next => exact accounted_idle held

theorem accounted_wake (held : Accounted log t) (loop : Loop) :
    Accounted (log ++ (t.wake loop).2) (t.wake loop).1 := by
  cases loop with
  | processor => dsimp only [wake]; split <;> exact accounted_idle { held with }
  | outstanding =>
    dsimp only [wake]
    split
    next batch request waiting => exact accounted_track held request rfl rfl
    next => exact accounted_idle held
  | receiver =>
    dsimp only [wake]
    split
    next batch packet waiting => exact accounted_forward held waiting
    next => exact accounted_idle held

theorem accounted_step (held : Accounted log t) (input : Input) :
    Accounted (log ++ (t.step input).2) (t.step input).1 := by
  cases input with
  | request request => exact accounted_idle { held with }
  | arrive route packet => exact accounted_background held rfl rfl (background_cons trivial background_nil)
  | process draws => exact accounted_process held draws
  | outstanding draw => exact accounted_outstanding held draw
  | receive draws => exact accounted_receive held draws
  | requestTimer key =>
    dsimp only [step]
    rw [List.append_nil]
    exact { held with entries := RepairManager.each_fire held.entries (fun _ _ _ kept => kept) key }
  | looseRequestTimer index =>
    exact accounted_background held (RepairManager.fireLoose_outstanding index) rfl background_nil
  | take loop => exact accounted_take held loop
  | refuse loop => exact accounted_refuse held loop
  | wake loop => exact accounted_wake held loop

theorem accounted_run (inputs : List Input) : Accounted (run step new inputs).2 (run step new inputs).1 := by
  refine run_history (P := fun _ t log => Accounted log t) ?_ (fun _ _ _ input held _ => accounted_step held input)
    inputs (meets_true inputs)
  exact ⟨OutstandingTimerStore.each_empty, rfl⟩

/-! ### Matches -/

theorem receive_matched {draws : Nat → Draw} {route : RepairRoute} {packet : PacketInfo}
    {rest : List (RepairRoute × PacketInfo)} {nonce : Nonce} {slot : UInt64} {entry : Outstanding}
    (idle : t.answer = none) (queue : t.arrivals = (route, packet) :: rest) (nonceRead : repairNonce packet = some nonce)
    (slotRead : ShredLayout.getSlot packet = some slot)
    (found : t.manager.outstanding.entries[repairKey slot nonce route]? = some entry) :
    ∃ sent, (t.receive draws).2 = .matched entry.timer.request route packet :: sent ∧
      ∀ event ∈ sent, event.matchedPacket = none := by
  have removed : t.manager.outstanding.remove slot nonce route = (_, some entry) := Prod.ext rfl found
  unfold receive
  rw [idle, queue]
  dsimp only
  rw [nonceRead, slotRead]
  dsimp only
  rw [removed]
  dsimp only
  split
  · split
    · exact ⟨_, rfl, by simp⟩
    · exact ⟨_, rfl, fun event member => (plain_background (background_created _) event member).1⟩
  · exact ⟨_, rfl, by simp [TaskEvent.matchedPacket]⟩

/-- What the receive loop matches is the packet it takes up, with the entry under its key. -/
theorem match_inv {input : Input} {pre post : List TaskEvent} {request : OutstandingRequest} {route : RepairRoute}
    {packet : PacketInfo} (emitted : (t.step input).2 = pre ++ .matched request route packet :: post) :
    pre = [] ∧ ∃ draws rest nonce slot entry, input = .receive draws ∧ t.answer = none ∧
      t.arrivals = (route, packet) :: rest ∧ repairNonce packet = some nonce ∧ ShredLayout.getSlot packet = some slot ∧
      t.manager.outstanding.entries[repairKey slot nonce route]? = some entry ∧ entry.timer.request = request := by
  have member : .matched request route packet ∈ (t.step input).2 := by
    rw [emitted]
    simp
  by_cases receives : ∃ draws, input = .receive draws
  · obtain ⟨draws, rfl⟩ := receives
    dsimp only [step] at emitted member
    cases idle : t.answer with
    | some waiting => simp [receive, idle] at member
    | none =>
      cases queue : t.arrivals with
      | nil => simp [receive, idle, queue] at member
      | cons first rest =>
        obtain ⟨from', taken⟩ := first
        cases nonceRead : repairNonce taken with
        | none => simp [receive, idle, queue, nonceRead] at member
        | some nonce =>
          cases slotRead : ShredLayout.getSlot taken with
          | none => simp [receive, idle, queue, nonceRead, slotRead] at member
          | some slot =>
            cases found : t.manager.outstanding.entries[repairKey slot nonce from']? with
            | none =>
              simp [receive, idle, queue, nonceRead, slotRead, OutstandingTimerStore.remove, found] at member
            | some entry =>
              obtain ⟨sent, all, rest'⟩ := @receive_matched _ t draws _ _ _ _ _ _ idle queue nonceRead slotRead found
              rw [all] at emitted
              cases pre with
              | nil =>
                obtain ⟨same, _⟩ := List.cons.inj emitted
                cases same
                exact ⟨rfl, draws, rest, nonce, slot, entry, rfl, rfl, rfl, nonceRead, slotRead, found, rfl⟩
              | cons head pre =>
                have later : .matched request route packet ∈ sent := by
                  rw [(List.cons.inj emitted).2]
                  simp
                cases rest' _ later
  · have reported := reports_step input _ member
    cases input with
    | receive draws => exact (receives ⟨draws, rfl⟩).elim
    | _ => simp [Input.mayReport] at reported

/-- A match under the condition is of an open entry, by its own data. -/
theorem sound_step (held : Accounted log t) {input : Input} (own : OwnFamily t input) :
    ∀ pre event post, (t.step input).2 = pre ++ event :: post → Sound (log ++ pre) event := by
  rintro pre event post emitted request route packet rfl
  obtain ⟨rfl, draws, rest, nonce, slot, entry, rfl, idle, queue, nonceRead, slotRead, found, rfl⟩ := match_inv emitted
  obtain ⟨⟨keyed, _⟩, opened⟩ := held.entries _ entry found
  rw [List.append_nil]
  refine ⟨?_, opened⟩
  dsimp only [OwnFamily] at own
  rw [idle, queue] at own
  dsimp only at own
  rw [nonceRead, slotRead] at own
  obtain ⟨rfl, rfl, rfl | twins⟩ := repairKey_inj keyed
  · exact ⟨slotRead, nonceRead, rfl⟩
  · exact (own entry found twins).elim

theorem sound_run {inputs : List Input} (own : Meets step OwnFamily new inputs) :
    Prefixwise Sound (run step new inputs).2 := by
  refine (run_history (P := fun _ t log => Accounted log t ∧ Prefixwise Sound log) ?_ ?_ inputs own).2
  · exact ⟨⟨OutstandingTimerStore.each_empty, rfl⟩, prefixwise_nil⟩
  · intro _ t log input held here
    exact ⟨accounted_step held.1 input, prefixwise_append held.2 (sound_step held.1 here)⟩

theorem validMatch_sublist (log : List TaskEvent) :
    (log.filterMap TaskEvent.validMatch).Sublist (log.filterMap TaskEvent.matchedPacket) := by
  induction log with
  | nil => exact List.Sublist.slnil
  | cons event log ih =>
    cases event with
    | matched request route packet =>
      rw [List.filterMap_cons_some (show (TaskEvent.matched request route packet).matchedPacket = some packet from rfl)]
      cases accepted : request.accepts packet with
      | false =>
        rw [List.filterMap_cons_none (by simp [TaskEvent.validMatch, accepted])]
        exact ih.cons _
      | true =>
        rw [List.filterMap_cons_some (show (TaskEvent.matched request route packet).validMatch = some packet by
          simp [TaskEvent.validMatch, accepted])]
        exact ih.cons_cons _
    | _ => exact ih

theorem atMostOnce_of_sound (held : Accounted log t) (sound : Prefixwise Sound log) : AtMostOnce log := by
  have matched : ∀ before request route packet after, log = before ++ .matched request route packet :: after →
      Carries route packet request ∧ EntryOpen request before :=
    fun before request route packet after split => sound before _ after split request route packet rfl
  refine ⟨?_, matched, ?_⟩
  · refine List.Sublist.trans ?_ (validMatch_sublist log)
    rw [held.answers]
    exact List.sublist_append_left _ _
  · intro before event between request route packet after split ends
    obtain ⟨_, opened⟩ := matched _ request route packet after split
    rcases since_reopened opened ends with same | ⟨later, member, same⟩
    · exact .inl same
    · exact .inr (same ▸ member)

/-- Whatever the order of answers, timeouts, retries and cancellations, answers are let through at most once for each
entry and only by its data, exactly as long as none comes from the other family's twin of the address asked. -/
theorem at_most_once_iff (inputs : List Input) :
    AtMostOnce (run step new inputs).2 ↔ Meets step OwnFamily new inputs := by
  constructor
  · intro once
    refine (meets_iff_prefixes inputs).mpr (fun pre input post split => ?_)
    cases input with
    | receive draws =>
      unfold OwnFamily
      dsimp only
      split
      next route packet rest idle queue =>
        split
        next nonce slot nonceRead slotRead =>
          intro entry found twins
          obtain ⟨sent, emitted, _⟩ := @receive_matched _ _ draws _ _ _ _ _ _ idle queue nonceRead slotRead found
          have whole : (run step new inputs).2 = (run step new pre).2 ++ .matched entry.timer.request route packet ::
              (sent ++ (run step ((run step new pre).1.step (.receive draws)).1 post).2) := by
            rw [split, run_append, run_cons]
            dsimp only [step]
            rw [emitted, List.cons_append]
          obtain ⟨⟨_, _, same⟩, _⟩ := once.matched _ _ _ _ _ whole
          rw [← same] at twins
          exact not_twins_self route twins
        next => trivial
      next => trivial
    | _ => trivial
  · exact fun own => atMostOnce_of_sound (accounted_run inputs) (sound_run own)

end

/-! ### An answer from elsewhere -/

/-- 44.1.2.3:8008. -/
def askedPeer : RepairTarget := .udp ⟨.v4 0x2c010203, 8008⟩ 3

/-- [2c01:203::]:8008, whose first four bytes are those of the address asked. -/
def otherPeer : RepairRoute := .addr ⟨.v6 0x2c010203000000000000000000000000, 8008⟩

/-- A last shred of slot 7. Its last four bytes are read as the nonce. -/
def otherAnswer : PacketInfo := wireShred ⟨.data, 7, 0, 1, 0⟩ 0xc0

def askAndHearOther : List Input :=
  .request (.missingUnboundedShreds 7 [] 0) :: turnOf .processor (.process (fun _ => some (askedPeer, 0x58c000))) ++
    .outstanding none :: .arrive otherPeer otherAnswer :: turnOf .receiver (.receive (fun _ => none))

theorem other_family_accepted :
    .forwarded otherAnswer ∈ (run (@step wireLayout) new askAndHearOther).2 ∧
    ¬ @AtMostOnce wireLayout (run (@step wireLayout) new askAndHearOther).2 := by
  have log : (run (@step wireLayout) new askAndHearOther).2 =
      [.created ⟨.highestWindowIndex, 0x58c000, 7, 0, askedPeer⟩,
        .sent ⟨askedPeer, 0x58c000, .highestWindowIndex, 7, 0⟩,
        .tracked ⟨.highestWindowIndex, 0x58c000, 7, 0, askedPeer⟩, .arrived otherPeer otherAnswer] ++
      .matched ⟨.highestWindowIndex, 0x58c000, 7, 0, askedPeer⟩ otherPeer otherAnswer ::
        [.forwarded otherAnswer] := by
    decide +kernel
  refine ⟨by rw [log]; simp, fun once => ?_⟩
  obtain ⟨⟨_, _, same⟩, _⟩ := @AtMostOnce.matched wireLayout _ once _ _ _ _ _ log
  cases same

end Tasks

end Lightbringer.Repair
