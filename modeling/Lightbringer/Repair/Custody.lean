import Lightbringer.Repair.Pipeline
import Lightbringer.Lib.Queue

/-!
# No slot is abandoned silently

Responsibility for a stalled slot goes from the staleness timers through the request channel to the outstanding
requests and back with their answers. Completions and cancellations of an earlier life of the slot may still be in
the channels, so what counts is what stands behind them.
-/

namespace Lightbringer.Repair.Pipeline
open Std Store Machine Queue

variable {slot : UInt64} {p q : Pipeline} {out : List Event}

/-! ### What will still be done -/

/-- The slot waits in the monitor or in the request channel, and nothing behind it undoes that. -/
inductive Pending (slot : UInt64) (monitor : SlotMonitor) (requests : List RepairReq) : Prop where
  | watched (stands : Standing (fun message => message = .insertion slot ∨ message = .timeout slot)
      (fun message => message = .completion slot) monitor.timerMsgs)
  | armed (timer : monitor.timers[slot]? = some true) (open' : .completion slot ∉ monitor.timerMsgs)
  | requested (stands : Standing (fun request => request.asksFor slot = true)
      (fun request => request = .cancelRepair slot) requests) (open' : .completion slot ∉ monitor.timerMsgs)

/-- No completion or cancellation of the slot is under way. -/
structure Clear (slot : UInt64) (monitor : SlotMonitor) (requests : List RepairReq) : Prop where
  messages : .completion slot ∉ monitor.timerMsgs
  requests : .cancelRepair slot ∉ requests

section
variable [ShredLayout]

def Busy (slot : UInt64) (p : Pipeline) : Prop := p.manager.Engaged slot ∨ Answered slot p

def Alive (slot : UInt64) (p : Pipeline) : Prop :=
  Pending slot p.monitor p.manager.requests ∨ Busy slot p ∧ Clear slot p.monitor p.manager.requests

theorem held_of_alive (alive : Alive slot p) : Held slot p := by
  rcases alive with pending | ⟨engaged | answered, _⟩
  · cases pending with
    | watched stands =>
      obtain ⟨message, member, rfl | rfl⟩ := exists_of_standing stands
      · exact .inl (.inl member)
      · exact .inl (.inr (.inl member))
    | armed timer _ => exact .inl (.inr (.inr timer))
    | requested stands _ =>
      obtain ⟨request, member, asks⟩ := exists_of_standing stands
      exact .inr (.inl ⟨request, member, asks⟩)
  · exact .inr (.inr (.inl engaged))
  · exact .inr (.inr (.inr answered))

theorem alive_of_held (held : Held slot p) (clear : Clear slot p.monitor p.manager.requests) : Alive slot p := by
  have open' : ∀ message ∈ p.monitor.timerMsgs, message ≠ .completion slot :=
    fun message member same => clear.messages (same ▸ member)
  rcases held with (inserted | timedOut | timer) | ⟨request, member, asks⟩ | engaged | answered
  · exact .inl (.watched (standing_of_mem inserted (.inl rfl) open'))
  · exact .inl (.watched (standing_of_mem timedOut (.inr rfl) open'))
  · exact .inl (.armed timer clear.messages)
  · exact .inl (.requested (standing_of_mem member asks (fun other there same => clear.requests (same ▸ there)))
      clear.messages)
  · exact .inr ⟨.inl engaged, clear⟩
  · exact .inr ⟨.inr answered, clear⟩

end

variable {monitor next : SlotMonitor} {requests more : List RepairReq}

/-- The channels grow at their ends by what does not concern the slot. -/
theorem pending_grow {added : List SlotTimerMsg} (pending : Pending slot monitor requests)
    (messages : next.timerMsgs = monitor.timerMsgs ++ added) (harmless : .completion slot ∉ added)
    (timers : monitor.timers[slot]? = some true → next.timers[slot]? = some true)
    (quiet : .cancelRepair slot ∉ more) : Pending slot next (requests ++ more) := by
  have open' : .completion slot ∉ monitor.timerMsgs → .completion slot ∉ next.timerMsgs := by
    rw [messages]
    exact fun absent member => (List.mem_append.mp member).elim absent harmless
  cases pending with
  | watched stands =>
    refine .watched ?_
    rw [messages]
    exact standing_append stands (fun message member same => harmless (same ▸ member))
  | armed timer absent => exact .armed (timers timer) (open' absent)
  | requested stands absent =>
    exact .requested (standing_append stands (fun request member same => quiet (same ▸ member))) (open' absent)

theorem clear_grow {added : List SlotTimerMsg} (clear : Clear slot monitor requests)
    (messages : next.timerMsgs = monitor.timerMsgs ++ added) (harmless : .completion slot ∉ added)
    (quiet : .cancelRepair slot ∉ more) : Clear slot next (requests ++ more) := by
  refine ⟨?_, fun member => (List.mem_append.mp member).elim clear.requests quiet⟩
  rw [messages]
  exact fun member => (List.mem_append.mp member).elim clear.messages harmless

/-! ### The monitor -/

/-- A stale slot is asked for as soon as its timeout is handled. -/
theorem handleTimeout_asks (handled : monitor.handleTimerMsg (.timeout slot) = some (next, more))
    (numbered : ∀ (slot : UInt64) entry, monitor.inner[slot]? = some entry → entry.slotNum = slot)
    (stalls : next.Stalls slot) : ∃ request, more = [request] ∧ request.asksFor slot = true := by
  dsimp only [SlotMonitor.handleTimerMsg] at handled
  cases found : monitor.inner[slot]? with
  | none =>
    rw [found] at handled
    cases handled
    obtain ⟨entry, present, _⟩ := stalls
    rw [found] at present
    cases present
  | some entry =>
    rw [found] at handled
    dsimp only at handled
    split at handled
    next done =>
      cases handled
      obtain ⟨same, present, unfinished⟩ := stalls
      rw [found] at present
      cases present
      rw [done] at unfinished
      cases unfinished
    · obtain ⟨request, calculated, same⟩ := Option.map_eq_some_iff.mp handled
      cases same
      refine ⟨request, rfl, ?_⟩
      rw [← numbered slot entry found]
      exact SlotMetadata.asksFor_calculateMissingShreds calculated

/-- A timeout asks for the slot or does nothing; either way its timer is gone. -/
theorem handleTimeout_serves {asked : UInt64} (handled : monitor.handleTimerMsg (.timeout asked) = some (next, more)) :
    (∀ slot, next.Stalls slot → monitor.Stalls slot) ∧ next.timerMsgs = monitor.timerMsgs ∧
    next.timers = monitor.timers.erase asked ∧ ∀ slot, .cancelRepair slot ∉ more := by
  dsimp only [SlotMonitor.handleTimerMsg] at handled
  split at handled
  · cases handled
    exact ⟨fun slot stalls => stalls, rfl, rfl, fun slot => List.not_mem_nil⟩
  next entry found =>
    split at handled
    · cases handled
      exact ⟨fun slot stalls => stalls, rfl, rfl, fun slot => List.not_mem_nil⟩
    next unfinished =>
      obtain ⟨request, calculated, same⟩ := Option.map_eq_some_iff.mp handled
      cases same
      refine ⟨?_, rfl, rfl, fun slot member => ?_⟩
      · rintro slot ⟨held, present, open'⟩
        rw [TreeMap.getElem?_insert] at present
        split at present
        next here =>
          rw [← LawfulEqOrd.compare_eq_iff_eq.mp here]
          exact ⟨entry, found, Bool.not_eq_true _ ▸ unfinished⟩
        next => exact ⟨held, present, open'⟩
      · have asks := SlotMetadata.asksFor_calculateMissingShreds calculated
        rw [← List.mem_singleton.mp member] at asks
        cases asks

theorem insertIfNew_armed {timers : TreeMap UInt64 Bool} {asked : UInt64}
    (timer : timers[slot]? = some true ∨ asked = slot ∧ timers[slot]? = none) :
    (timers.insertIfNew asked true)[slot]? = some true := by
  rw [TreeMap.getElem?_insertIfNew]
  split
  · rfl
  next kept =>
    rcases timer with armed | ⟨rfl, absent⟩
    · exact armed
    · refine absurd ⟨ReflOrd.compare_self, fun present => ?_⟩ kept
      rw [TreeMap.mem_iff_isSome_getElem?, absent] at present
      cases present

theorem pending_insertion (sound : monitor.Sound) {asked : UInt64} {rest : List SlotTimerMsg}
    (queue : monitor.timerMsgs = .insertion asked :: rest) (pending : Pending slot monitor requests) :
    Pending slot { monitor with timerMsgs := rest, timers := monitor.timers.insertIfNew asked true } requests := by
  have shorter : .completion slot ∉ monitor.timerMsgs → .completion slot ∉ rest :=
    fun absent member => absent (queue ▸ List.mem_cons_of_mem _ member)
  cases pending with
  | watched stands =>
    rw [queue] at stands
    rcases stands with ⟨mine, quiet⟩ | later
    · have same : asked = slot := by simpa using mine
      subst same
      have open' : .completion asked ∉ rest := fun member => quiet _ member rfl
      cases timer : monitor.timers[asked]? with
      | none => exact .armed (insertIfNew_armed (.inr ⟨rfl, timer⟩)) open'
      | some charged =>
        cases charged with
        | true => exact .armed (insertIfNew_armed (.inl timer)) open'
        | false =>
          -- The timer has fired: its message is behind the insertion.
          have queued := sound.fired asked timer
          rw [queue] at queued
          rcases List.mem_cons.mp queued with same | behind
          · cases same
          · exact .watched (standing_of_mem behind (.inr rfl) quiet)
    · exact .watched later
  | armed timer absent => exact .armed (insertIfNew_armed (.inl timer)) (shorter absent)
  | requested stands absent => exact .requested stands (shorter absent)

theorem pending_completion {asked : UInt64} {rest : List SlotTimerMsg} (cancels : ∀ request ∈ more, request = .cancelRepair asked)
    (queue : monitor.timerMsgs = .completion asked :: rest) (pending : Pending slot monitor requests) :
    Pending slot { monitor with timerMsgs := rest, timers := monitor.timers.erase asked } (requests ++ more) := by
  cases pending with
  | watched stands =>
    rw [queue] at stands
    exact .watched (standing_tail stands (by simp))
  | armed timer absent =>
    rw [queue, List.mem_cons, not_or] at absent
    have apart : asked ≠ slot := fun same => absent.1 (by rw [same])
    refine .armed ?_ absent.2
    rw [TreeMap.getElem?_erase, if_neg (fun same => apart (LawfulEqOrd.compare_eq_iff_eq.mp same))]
    exact timer
  | requested stands absent =>
    rw [queue, List.mem_cons, not_or] at absent
    have apart : asked ≠ slot := fun same => absent.1 (by rw [same])
    refine .requested (standing_append stands (fun request member same => apart ?_)) absent.2
    have cancelled := (cancels request member).symm.trans same
    injection cancelled

/-- A timeout of another slot. -/
theorem pending_timeout_other {asked : UInt64} {rest : List SlotTimerMsg} (apart : asked ≠ slot)
    (queue : monitor.timerMsgs = .timeout asked :: rest) (messages : next.timerMsgs = rest)
    (timers : next.timers = monitor.timers.erase asked) (quiet : .cancelRepair slot ∉ more)
    (pending : Pending slot monitor requests) : Pending slot next (requests ++ more) := by
  have shorter : .completion slot ∉ monitor.timerMsgs → .completion slot ∉ next.timerMsgs :=
    fun absent member => absent (queue ▸ List.mem_cons_of_mem _ (messages ▸ member))
  cases pending with
  | watched stands =>
    rw [queue] at stands
    rw [← messages] at stands
    exact .watched (standing_tail stands (by simp [apart]))
  | armed timer absent =>
    refine .armed ?_ (shorter absent)
    rw [timers, TreeMap.getElem?_erase, if_neg (fun same => apart (LawfulEqOrd.compare_eq_iff_eq.mp same))]
    exact timer
  | requested stands absent =>
    exact .requested (standing_append stands (fun request member same => quiet (same ▸ member))) (shorter absent)

/-- The timeout of the slot itself passes it on to the request channel. -/
theorem pending_timeout_self {rest : List SlotTimerMsg} {request : RepairReq} (asks : request.asksFor slot = true)
    (queue : monitor.timerMsgs = .timeout slot :: rest) (messages : next.timerMsgs = rest)
    (pending : Pending slot monitor requests) : Pending slot next (requests ++ [request]) := by
  have shorter : .completion slot ∉ monitor.timerMsgs → .completion slot ∉ next.timerMsgs :=
    fun absent member => absent (queue ▸ List.mem_cons_of_mem _ (messages ▸ member))
  cases pending with
  | watched stands =>
    rw [queue] at stands
    rcases stands with ⟨_, quiet⟩ | later
    · exact .requested (standing_concat asks) (messages ▸ fun member => quiet _ member rfl)
    · exact .watched (messages ▸ later)
  | armed _ absent => exact .requested (standing_concat asks) (shorter absent)
  | requested _ absent => exact .requested (standing_concat asks) (shorter absent)

/-- Whatever the monitor serves, a slot that stalls afterwards is passed on. -/
theorem pending_handle (sound : monitor.Sound) {message : SlotTimerMsg} {rest : List SlotTimerMsg}
    (queue : monitor.timerMsgs = message :: rest)
    (handled : SlotMonitor.handleTimerMsg { monitor with timerMsgs := rest } message = some (next, more))
    (stalls : next.Stalls slot) :
    (Pending slot monitor requests → Pending slot next (requests ++ more)) ∧
    (Clear slot monitor requests → Clear slot next (requests ++ more)) ∧ monitor.Stalls slot := by
  have shorter : ∀ unwanted, unwanted ∉ monitor.timerMsgs → unwanted ∉ rest :=
    fun unwanted absent member => absent (queue ▸ List.mem_cons_of_mem _ member)
  cases message with
  | insertion asked =>
    cases handled
    rw [List.append_nil]
    exact ⟨pending_insertion sound queue, fun clear => ⟨shorter _ clear.messages, clear.requests⟩, stalls⟩
  | completion asked =>
    cases handled
    refine ⟨pending_completion (fun request member => ?_) queue, fun clear => ⟨shorter _ clear.messages, fun member => ?_⟩,
      stalls⟩
    · split at member
      · exact List.mem_singleton.mp member
      · cases member
    · rcases List.mem_append.mp member with old | fresh
      · exact clear.requests old
      · split at fresh
        · have same := List.mem_singleton.mp fresh
          injection same with same
          exact clear.messages (by rw [queue, same]; exact List.mem_cons_self ..)
        · cases fresh
  | timeout asked =>
    obtain ⟨served, same, timers, quiet⟩ := handleTimeout_serves handled
    have messages : next.timerMsgs = rest := same
    have before := served slot stalls
    refine ⟨fun pending => ?_, fun clear => ⟨fun member => shorter _ clear.messages (messages ▸ member), fun member => ?_⟩,
      before⟩
    · by_cases here : asked = slot
      · subst here
        obtain ⟨request, rfl, asks⟩ := handleTimeout_asks handled sound.numbered stalls
        exact pending_timeout_self asks queue messages pending
      · exact pending_timeout_other here queue messages timers (quiet slot) pending
    · exact (List.mem_append.mp member).elim clear.requests (quiet slot)

theorem sound_handle (sound : monitor.Sound) {message : SlotTimerMsg} {rest : List SlotTimerMsg}
    (queue : monitor.timerMsgs = message :: rest)
    (handled : SlotMonitor.handleTimerMsg { monitor with timerMsgs := rest } message = some (next, more)) :
    next.Sound := by
  have queued : ∀ slot : UInt64, monitor.timers[slot]? = some false → message ≠ .timeout slot → .timeout slot ∈ rest := by
    intro slot fired other
    have member := sound.fired slot fired
    rw [queue] at member
    exact (List.mem_cons.mp member).resolve_left (fun same => other same.symm)
  have erased : ∀ {asked slot : UInt64}, (monitor.timers.erase asked)[slot]? = some false →
      asked ≠ slot ∧ monitor.timers[slot]? = some false := by
    intro asked slot fired
    rw [TreeMap.getElem?_erase] at fired
    split at fired
    · cases fired
    next apart => exact ⟨fun same => apart (by rw [same]; exact ReflOrd.compare_self), fired⟩
  cases message with
  | insertion asked =>
    cases handled
    refine ⟨sound.numbered, fun slot fired => queued slot ?_ (by simp)⟩
    rw [TreeMap.getElem?_insertIfNew] at fired
    split at fired
    · cases fired
    · exact fired
  | completion asked =>
    cases handled
    exact ⟨sound.numbered, fun slot fired => queued slot (erased fired).2 (by simp)⟩
  | timeout asked =>
    obtain ⟨_, messages, timers, _⟩ := handleTimeout_serves handled
    refine ⟨?_, fun slot fired => ?_⟩
    · dsimp only [SlotMonitor.handleTimerMsg] at handled
      split at handled
      · cases handled
        exact sound.numbered
      next entry found =>
        split at handled
        · cases handled
          exact sound.numbered
        · obtain ⟨request, _, same⟩ := Option.map_eq_some_iff.mp handled
          cases same
          intro slot held present
          rw [TreeMap.getElem?_insert] at present
          split at present
          next here =>
            cases present
            rw [← LawfulEqOrd.compare_eq_iff_eq.mp here]
            exact sound.numbered asked entry found
          next => exact sound.numbered slot held present
    · rw [messages]
      rw [timers] at fired
      obtain ⟨apart, before⟩ := erased fired
      exact queued slot before (fun same => apart (by injection same))

/-! ### Steps -/

section
variable [ShredLayout]

/-- Either somebody holds the slot after the step, or the slot was open before, none of its shreds was accepted, and
if somebody held it then an exit took the last hold. -/
def Handed (slot : UInt64) (p q : Pipeline) (out : List Event) : Prop :=
  Alive slot q ∨ p.monitor.Stalls slot ∧ .accepted slot ∉ out ∧
    (Alive slot p → (∃ exit, .gaveUp slot exit ∈ out) ∧ ¬ Held slot q)

theorem handed_of_keeps (stalls : p.monitor.Stalls slot) (quiet : .accepted slot ∉ out)
    (keeps : Alive slot p → Alive slot q ∨ (∃ exit, .gaveUp slot exit ∈ out) ∧ ¬ Held slot q) :
    Handed slot p q out := by
  by_cases after : Alive slot q
  · exact .inl after
  · exact .inr ⟨stalls, quiet, fun before => (keeps before).resolve_left after⟩

/-- The channels stay as they are, and whoever was busy with the slot still is, or took an exit. -/
theorem alive_settle (messages : q.monitor.timerMsgs = p.monitor.timerMsgs) (timers : q.monitor.timers = p.monitor.timers)
    (requests : q.manager.requests = p.manager.requests)
    (busy : Busy slot p → Busy slot q ∨ ∃ exit, .gaveUp slot exit ∈ out) (alive : Alive slot p) :
    Alive slot q ∨ (∃ exit, .gaveUp slot exit ∈ out) ∧ ¬ Held slot q := by
  have grown : q.manager.requests = p.manager.requests ++ [] := by rw [requests, List.append_nil]
  have unchanged : q.monitor.timerMsgs = p.monitor.timerMsgs ++ [] := by rw [messages, List.append_nil]
  rcases alive with pending | ⟨engaged, clear⟩
  · refine .inl (.inl ?_)
    rw [grown]
    exact pending_grow pending unchanged List.not_mem_nil (fun timer => timers ▸ timer) List.not_mem_nil
  · have still : Clear slot q.monitor q.manager.requests := by
      rw [grown]
      exact clear_grow clear unchanged List.not_mem_nil List.not_mem_nil
    rcases busy engaged with on | gone
    · exact .inl (.inr ⟨on, still⟩)
    · by_cases held : Held slot q
      · exact .inl (alive_of_held held still)
      · exact .inr ⟨gone, held⟩

/-- The queue of messages grows by one that does not undo the slot. -/
theorem alive_message {message : SlotTimerMsg} (messages : q.monitor.timerMsgs = p.monitor.timerMsgs ++ [message])
    (timers : p.monitor.timers[slot]? = some true → q.monitor.timers[slot]? = some true)
    (requests : q.manager.requests = p.manager.requests) (other : message ≠ .completion slot) (busy : Busy slot p → Busy slot q) (alive : Alive slot p) : Alive slot q := by
  have harmless : .completion slot ∉ [message] := fun member => other (List.mem_singleton.mp member).symm
  have grown : q.manager.requests = p.manager.requests ++ [] := by rw [requests, List.append_nil]
  rcases alive with pending | ⟨engaged, clear⟩
  · refine .inl ?_
    rw [grown]
    exact pending_grow pending messages harmless timers List.not_mem_nil
  · refine .inr ⟨busy engaged, ?_⟩
    rw [grown]
    exact clear_grow clear messages harmless List.not_mem_nil

/-- A packet reaches the metadata task; `kept` are the answers still on their way. -/
theorem handed_packet {packet : PacketInfo} {result : SlotMetaStoreRes} {kept : List PacketInfo}
    (handles : SlotMonitor.Handles p.monitor next packet result) (timers : next.timers = p.monitor.timers)
    (others : ∀ answer ∈ p.responses, ShredLayout.getSlot answer ≠ ShredLayout.getSlot packet → answer ∈ kept)
    (ignored : result = .ignored → .accepted slot ∉ out ∧ (Answered slot p →
      Answered slot { p with monitor := next, responses := kept } ∨ ∃ exit, .gaveUp slot exit ∈ out))
    (accepted : ∀ read, ShredLayout.getSlot packet = some read → result ≠ .ignored → out = [.accepted read])
    (stalls : next.Stalls slot) : Handed slot p { p with monitor := next, responses := kept } out := by
  have busy : ∀ read, ShredLayout.getSlot packet = some read → slot ≠ read → Busy slot p →
      Busy slot { p with monitor := next, responses := kept } := by
    rintro read same apart (engaged | ⟨answer, member, about⟩)
    · exact .inl engaged
    · refine .inr ⟨answer, others answer member (fun equal => apart ?_), about⟩
      rw [about, same] at equal
      exact Option.some.inj equal
  have charged : p.monitor.timers[slot]? = some true → next.timers[slot]? = some true := fun timer => timers ▸ timer
  cases handles with
  | ignored messages before =>
    obtain ⟨quiet, answered⟩ := ignored rfl
    refine handed_of_keeps (before slot stalls) quiet (alive_settle messages timers rfl ?_)
    rintro (engaged | answer)
    · exact .inl (.inl engaged)
    · exact (answered answer).imp_left .inr
  | inserted read same recorded messages before =>
    by_cases here : slot = read
    · subst here
      refine .inl (.inl (.watched ?_))
      rw [messages]
      exact standing_concat (.inl rfl)
    · refine handed_of_keeps (before slot here stalls) ?_ (fun alive => .inl ?_)
      · rw [accepted read same recorded]
        simp [here]
      · exact alive_message messages charged rfl (by simp) (busy read same here) alive
  | completed read same recorded messages done before =>
    have here : slot ≠ read := fun equal => done (equal ▸ stalls)
    refine handed_of_keeps (before slot here stalls) ?_ (fun alive => .inl ?_)
    · rw [accepted read same recorded]
      simp [here]
    · exact alive_message messages charged rfl (by simp [Ne.symm here]) (busy read same here) alive

omit [ShredLayout] in
theorem mem_eraseIdx_of_ne {responses : List PacketInfo} {index : Nat} {packet answer : PacketInfo}
    (found : responses[index]? = some packet) (member : answer ∈ responses) (apart : answer ≠ packet) :
    answer ∈ responses.eraseIdx index := by
  obtain ⟨i, here⟩ := List.mem_iff_getElem?.mp member
  refine List.mem_eraseIdx_iff_getElem?.mpr ⟨i, fun same => apart ?_, here⟩
  rw [same, found] at here
  exact (Option.some.inj here).symm

theorem handed_process (keyed : p.manager.outstanding.Keyed) (draws : Nat → Draw) (stalls : p.monitor.Stalls slot) :
    Handed slot p { p with manager := (p.manager.requestProcessorStep draws).1 }
      (p.manager.requestProcessorStep draws).2 := by
  unfold RepairManager.requestProcessorStep
  split
  · exact handed_of_keeps stalls (by simp) (fun alive => .inl alive)
  next request rest queue =>
    obtain ⟨_, requests, engaged⟩ :=
      @RepairManager.processRequest_keeps { p.manager with requests := rest } slot keyed draws request
    have asks := @RepairManager.processRequest_asks { p.manager with requests := rest } slot keyed draws request
    generalize served : RepairManager.processRequest { p.manager with requests := rest } draws request = result at *
    have quiet : .accepted slot ∉ result.2 := by
      rw [← served]
      exact RepairManager.processRequest_silent draws request
    have left : result.1.requests = rest := requests
    refine handed_of_keeps stalls quiet (fun alive => ?_)
    have fewer : .cancelRepair slot ∉ p.manager.requests → .cancelRepair slot ∉ result.1.requests := by
      rw [left, queue]
      exact fun absent member => absent (List.mem_cons_of_mem _ member)
    rcases alive with pending | ⟨busy, clear⟩
    · cases pending with
      | watched stands => exact .inl (.inl (.watched stands))
      | armed timer open' => exact .inl (.inl (.armed timer open'))
      | requested stands open' =>
        rw [queue] at stands
        rcases stands with ⟨mine, quiet⟩ | later
        · have clear : Clear slot p.monitor result.1.requests :=
            ⟨open', fun member => quiet _ (left ▸ member) rfl⟩
          rcases asks mine with on | gone
          · exact .inl (.inr ⟨.inl on, clear⟩)
          · by_cases held : Held slot { p with manager := result.1 }
            · exact .inl (alive_of_held held clear)
            · exact .inr ⟨gone, held⟩
        · refine .inl (.inl (.requested ?_ open'))
          show Standing _ _ result.1.requests
          rw [left]
          exact later
    · refine .inl (.inr ⟨?_, clear.messages, fewer clear.requests⟩)
      rcases busy with on | answered
      · refine .inl (engaged (fun same => clear.requests ?_) on)
        rw [queue, same]
        exact List.mem_cons_self ..
      · exact .inr answered

theorem handed_filterDrops {index : Nat} {packet : PacketInfo} (found : p.responses[index]? = some packet)
    (stalls : p.monitor.Stalls slot) :
    Handed slot p { p with responses := p.responses.eraseIdx index }
      ((slotsOf packet).map (fun slot => .gaveUp slot .filtered)) := by
  refine handed_of_keeps stalls (by simp) (alive_settle rfl rfl rfl ?_)
  rintro (engaged | ⟨answer, member, about⟩)
  · exact .inl (.inl engaged)
  · by_cases same : answer = packet
    · subst same
      exact .inr ⟨.filtered, by simp [slotsOf, about]⟩
    · exact .inl (.inr ⟨answer, mem_eraseIdx_of_ne found member same, about⟩)

theorem handed_staleTimer (fired : UInt64) (stalls : p.monitor.Stalls slot) :
    Handed slot p { p with monitor := p.monitor.fire fired } [] := by
  refine handed_of_keeps stalls List.not_mem_nil (fun alive => .inl ?_)
  unfold SlotMonitor.fire
  split
  · by_cases here : fired = slot
    · subst here
      exact .inl (.watched (standing_concat (.inr rfl)))
    · refine alive_message rfl (fun timer => ?_) rfl (by simp) (fun busy => busy) alive
      show (p.monitor.timers.insert fired false)[slot]? = some true
      rw [TreeMap.getElem?_insert, if_neg (fun same => here (LawfulEqOrd.compare_eq_iff_eq.mp same))]
      exact timer
  split
  · exact alive_message rfl (fun timer => timer) rfl (by simp) (fun busy => busy) alive
  · exact alive

theorem handed_receive (keyed : p.manager.outstanding.Keyed) (route : RepairRoute) (packet : PacketInfo)
    (draws : Nat → Draw) (stalls : p.monitor.Stalls slot) :
    Handed slot p
      { p with
        manager := (p.manager.receive route packet draws).1
        responses := p.responses ++ forwardedOf (p.manager.receive route packet draws).2 }
      (p.manager.receive route packet draws).2 := by
  obtain ⟨_, requests, engaged⟩ := @RepairManager.receive_keeps p.manager slot _ keyed route packet draws
  refine handed_of_keeps stalls (RepairManager.receive_silent route packet draws) (alive_settle rfl rfl requests ?_)
  rintro (on | ⟨answer, member, about⟩)
  · rcases engaged on with still | gone | ⟨forwarded, about⟩
    · exact .inl (.inl still)
    · exact .inr gone
    · refine .inl (.inr ⟨packet, List.mem_append_right _ ?_, about⟩)
      exact List.mem_filterMap.mpr ⟨.forwarded packet, forwarded, rfl⟩
  · exact .inl (.inr ⟨answer, List.mem_append_left _ member, about⟩)

/-- The parts of the pipeline keep their own books. -/
structure Sound (p : Pipeline) : Prop where
  monitor : p.monitor.Sound
  keyed : p.manager.outstanding.Keyed

theorem sound_turn (sound : Sound p) (input : Input) : Sound (p.turn input).1 := by
  cases input with
  | shred timestampMs packet => exact ⟨SlotMonitor.sound_handlePacket sound.monitor, sound.keyed⟩
  | response timestampMs index =>
    dsimp only [turn]
    split
    · exact sound
    · exact ⟨SlotMonitor.sound_handlePacket sound.monitor, sound.keyed⟩
  | filterDrops index =>
    dsimp only [turn]
    split
    · exact sound
    · exact ⟨sound.monitor, sound.keyed⟩
  | evict gone => exact ⟨SlotMonitor.sound_evict sound.monitor gone, sound.keyed⟩
  | monitor =>
    dsimp only [turn]
    split
    · exact ⟨sound.monitor, sound.keyed⟩
    next served =>
      unfold SlotMonitor.monitorStep at served
      split at served
      · cases served
        exact ⟨sound.monitor, sound.keyed⟩
      next queue => exact ⟨sound_handle sound.monitor queue served, sound.keyed⟩
  | staleTimer fired => exact ⟨SlotMonitor.sound_fire sound.monitor fired, sound.keyed⟩
  | process draws => exact ⟨sound.monitor, RepairManager.requestProcessorStep_keyed sound.keyed draws⟩
  | outstanding draw =>
    exact ⟨sound.monitor, (@RepairManager.outstandingStep_keeps p.manager 0 sound.keyed draw).1⟩
  | requestTimer key => exact ⟨sound.monitor, (@RepairManager.fire_keeps p.manager 0 sound.keyed key).1⟩
  | looseRequestTimer index => exact ⟨sound.monitor, (@RepairManager.fireLoose_keeps p.manager 0 sound.keyed index).1⟩
  | receive route packet draws =>
    exact ⟨sound.monitor, (@RepairManager.receive_keeps p.manager 0 _ sound.keyed route packet draws).1⟩

/-- Nothing restarts the monitor. -/
theorem halted_step (halted : p.halted = true) (input : Input) : (p.step input).1.halted = true := by
  rw [step, halted, Bool.true_and]
  cases input with
  | filterDrops index =>
    rw [if_neg (by simp [Input.ofMonitor]), turn]
    split
    · exact halted
    · exact halted
  | process draws => exact halted
  | outstanding draw => exact halted
  | requestTimer key => exact halted
  | looseRequestTimer index => exact halted
  | receive route packet draws => exact halted
  | _ => exact halted

theorem handed_turn (agrees : ShredLayout.SlotAgrees) (sound : Sound p) {input : Input}
    (running : (p.turn input).1.halted = false) (stalls : (p.turn input).1.monitor.Stalls slot) :
    Handed slot p (p.turn input).1 (p.turn input).2 := by
  have silent : ∀ {q : Pipeline}, p.monitor.Stalls slot → (Alive slot p → Alive slot q) → Handed slot p q [] :=
    fun stalls keeps => handed_of_keeps stalls List.not_mem_nil (fun alive => .inl (keeps alive))
  cases input with
  | shred timestampMs packet =>
    have handles := p.monitor.handlePacket_handles agrees timestampMs packet
    refine handed_packet handles SlotMonitor.handlePacket_timers (fun answer member _ => member) (fun ignored => ?_)
      (fun read same recorded => ?_) stalls
    · dsimp only [turn]
      rw [if_pos ignored]
      exact ⟨List.not_mem_nil, fun answered => .inl answered⟩
    · dsimp only [turn]
      rw [if_neg recorded]
      simp [slotsOf, same]
  | response timestampMs index =>
    dsimp only [turn] at stalls ⊢
    split at stalls
    · exact silent stalls (fun alive => alive)
    next packet found =>
      have handles := p.monitor.handlePacket_handles agrees timestampMs packet
      refine handed_packet handles SlotMonitor.handlePacket_timers (fun answer member apart => ?_) (fun ignored => ?_)
        (fun read same recorded => ?_) stalls
      · exact mem_eraseIdx_of_ne found member (fun same => apart (by rw [same]))
      · refine ⟨by simp [ignored], ?_⟩
        rintro ⟨answer, member, about⟩
        by_cases same : answer = packet
        · subst same
          exact .inr ⟨.notAccepted, by simp [slotsOf, about, ignored]⟩
        · exact .inl ⟨answer, mem_eraseIdx_of_ne found member same, about⟩
      · simp [slotsOf, same, recorded]
  | filterDrops index =>
    dsimp only [turn] at stalls ⊢
    split at stalls
    · exact silent stalls (fun alive => alive)
    next packet found => exact handed_filterDrops found stalls
  | evict gone =>
    refine handed_of_keeps (SlotMonitor.stalls_evict stalls) List.not_mem_nil ?_
    exact alive_settle rfl rfl rfl (fun busy => .inl busy)
  | monitor =>
    dsimp only [turn] at running stalls ⊢
    cases served : p.monitor.monitorStep with
    | none =>
      rw [served] at running
      cases running
    | some result =>
      rw [served] at stalls
      unfold SlotMonitor.monitorStep at served
      split at served
      · cases served
        exact handed_of_keeps stalls List.not_mem_nil
          (alive_settle rfl rfl (List.append_nil _) (fun busy => .inl busy))
      next message rest queue =>
        obtain ⟨pending, clear, before⟩ := pending_handle sound.monitor queue served stalls
        refine silent before ?_
        rintro (waits | ⟨busy, free⟩)
        · exact .inl (pending waits)
        · exact .inr ⟨busy, clear free⟩
  | staleTimer fired =>
    refine handed_staleTimer fired ?_
    dsimp only [turn] at stalls
    unfold SlotMonitor.fire at stalls
    split at stalls
    · exact stalls
    split at stalls
    · exact stalls
    · exact stalls
  | process draws => exact handed_process sound.keyed draws stalls
  | outstanding draw =>
    obtain ⟨_, requests, engaged⟩ := @RepairManager.outstandingStep_keeps p.manager slot sound.keyed draw
    refine handed_of_keeps stalls (RepairManager.outstandingStep_silent draw) (alive_settle rfl rfl requests ?_)
    rintro (on | answered)
    · exact (engaged on).imp_left .inl
    · exact .inl (.inr answered)
  | requestTimer key =>
    obtain ⟨_, requests, engaged⟩ := @RepairManager.fire_keeps p.manager slot sound.keyed key
    exact handed_of_keeps stalls List.not_mem_nil
      (alive_settle rfl rfl requests (fun busy => .inl (busy.imp_left engaged)))
  | looseRequestTimer index =>
    obtain ⟨_, requests, engaged⟩ := @RepairManager.fireLoose_keeps p.manager slot sound.keyed index
    exact handed_of_keeps stalls List.not_mem_nil
      (alive_settle rfl rfl requests (fun busy => .inl (busy.imp_left engaged)))
  | receive route packet draws => exact handed_receive sound.keyed route packet draws stalls

/-! ### Runs -/

theorem lapsed_concat {start : Pipeline} {inputs : List Input} {input : Input} (lapsed : Lapsed slot start inputs)
    (quiet : .accepted slot ∉ ((run step start inputs).1.step input).2) : Lapsed slot start (inputs ++ [input]) := by
  obtain ⟨before, exits, after, exit, rfl, gaveUp, alone, silent⟩ := lapsed
  refine ⟨before, exits, after ++ [input], exit, by simp, gaveUp, alone, ?_⟩
  rw [run_append, run_cons] at quiet
  rw [run_concat]
  exact fun member => (List.mem_append.mp member).elim silent quiet

theorem stalled_slot_held (agrees : ShredLayout.SlotAgrees) (version : UInt16) (inputs : List Input)
    (running : (run step (new version) inputs).1.halted = false) (slot : UInt64)
    (stalls : (run step (new version) inputs).1.monitor.Stalls slot) :
    Held slot (run step (new version) inputs).1 ∨ Lapsed slot (new version) inputs := by
  suffices kept : Sound (run step (new version) inputs).1 ∧ ∀ slot,
      (run step (new version) inputs).1.monitor.Stalls slot →
      Alive slot (run step (new version) inputs).1 ∨ Lapsed slot (new version) inputs from
    (kept.2 slot stalls).imp_left held_of_alive
  clear stalls slot
  induction inputs using List.reverseRecOn with
  | nil =>
    refine ⟨⟨⟨fun slot entry found => ?_, fun slot fired => ?_⟩, OutstandingTimerStore.keyed_empty⟩, ?_⟩
    · simp [new, SlotMonitor.new] at found
    · simp [new, SlotMonitor.new] at fired
    · rintro slot ⟨entry, found, _⟩
      simp [new, SlotMonitor.new] at found
  | append_singleton inputs input ih =>
    rw [run_concat] at running ⊢
    have before : (run step (new version) inputs).1.halted = false := by
      cases halted : (run step (new version) inputs).1.halted with
      | false => rfl
      | true =>
        rw [halted_step halted input] at running
        cases running
    have turned : (run step (new version) inputs).1.step input = (run step (new version) inputs).1.turn input := by
      rw [step, before, Bool.false_and, if_neg Bool.false_ne_true]
    obtain ⟨sound, held⟩ := ih before
    rw [turned] at running
    dsimp only
    rw [turned]
    refine ⟨sound_turn sound input, fun slot stalls => ?_⟩
    rcases handed_turn agrees sound running stalls with alive | ⟨open', quiet, taken⟩
    · exact .inl alive
    · rw [← turned] at quiet
      rcases held slot open' with alive | lapsed
      · obtain ⟨⟨exit, gaveUp⟩, alone⟩ := taken alive
        rw [← turned] at gaveUp alone
        exact .inr ⟨inputs, input, [], exit, rfl, gaveUp, alone, List.not_mem_nil⟩
      · exact .inr (lapsed_concat lapsed quiet)

end

/-! ### Two slots that nobody tends -/

def shredOf7 (type : ShredType) (index : UInt32) (flags : UInt8) : PacketInfo := wireShred ⟨type, 7, index, 1, 0⟩ flags

/-- One shred arrives, the slot times out, and there is no peer to ask. -/
def noPeers : List Input :=
  [.shred 0 (shredOf7 .data 0 0), .monitor, .staleTimer 7, .monitor, .process (fun _ => none)]

def onlyPeer : RepairTarget := .udp ⟨.v4 0xC6336401, 8008⟩ 3

/-- The last shred of a slot with one FEC set. Its last four bytes are read as the nonce. -/
def lastShred : PacketInfo := shredOf7 .data 31 0xc0

/-- Of slot 7 one coding shred arrives; the highest shred is asked for, and the answer is the last of the slot. -/
def lastAnswer : List Input :=
  [.shred 0 (shredOf7 .code 31 0), .monitor, .staleTimer 7, .monitor, .process (fun _ => some (onlyPeer, 0x58c000)),
    .outstanding none, .receive onlyPeer.route lastShred (fun _ => none)]

def after (inputs : List Input) : Pipeline := (run (@step wireLayout) (new 1) inputs).1

/-- The slot is open, and no timer, channel or request is left. -/
structure Deserted (slot : UInt64) (p : Pipeline) : Prop where
  running : p.halted = false
  entry : (p.monitor.inner[slot]?).map (·.isComplete) = some false
  messages : p.monitor.timerMsgs = []
  timer : p.monitor.timers[slot]? = none
  requests : p.manager.requests = []
  outstanding : p.manager.outstanding.entries.toList = []
  queue : p.manager.messages = []

instance (slot : UInt64) (p : Pipeline) : Decidable (Deserted slot p) :=
  decidable_of_iff (p.halted = false ∧ (p.monitor.inner[slot]?).map (·.isComplete) = some false ∧
      p.monitor.timerMsgs = [] ∧ p.monitor.timers[slot]? = none ∧ p.manager.requests = [] ∧
      p.manager.outstanding.entries.toList = [] ∧ p.manager.messages = [])
    ⟨fun ⟨a, b, c, d, e, f, g⟩ => ⟨a, b, c, d, e, f, g⟩, fun ⟨a, b, c, d, e, f, g⟩ => ⟨a, b, c, d, e, f, g⟩⟩

theorem Deserted.stalls (deserted : Deserted slot p) : p.monitor.Stalls slot := by
  obtain ⟨entry, found, unfinished⟩ := Option.map_eq_some_iff.mp deserted.entry
  exact ⟨entry, found, unfinished⟩

theorem Deserted.untended (deserted : Deserted slot p) : ¬ Tended slot p := by
  rintro ((inserted | timedOut | armed) | ⟨request, member, _⟩ | ⟨key, entry, found, _⟩ | ⟨request, new | timeout, _⟩)
  · rw [deserted.messages] at inserted
    cases inserted
  · rw [deserted.messages] at timedOut
    cases timedOut
  · rw [deserted.timer] at armed
    cases armed
  · rw [deserted.requests] at member
    cases member
  · have member := TreeMap.mem_toList_iff_getElem?_eq_some.mpr found
    rw [deserted.outstanding] at member
    cases member
  · rw [deserted.queue] at new
    cases new
  · rw [deserted.queue] at timeout
    cases timeout

theorem deserted_noPeers : Deserted 7 (after noPeers) := by decide +kernel

theorem deserted_lastAnswer : Deserted 7 (after lastAnswer) := by decide +kernel

theorem stalled_slot_held_noPeers :
    (after noPeers).halted = false ∧ (after noPeers).monitor.Stalls 7 ∧
    (@Held wireLayout 7 (after noPeers) ∨ @Lapsed wireLayout 7 (new 1) noPeers) := by
  have deserted := deserted_noPeers
  refine ⟨deserted.running, deserted.stalls, ?_⟩
  exact @stalled_slot_held wireLayout slotAgrees_wireLayout 1 noPeers deserted.running 7 deserted.stalls

theorem untended_slots :
    ((after noPeers).halted = false ∧ (after noPeers).monitor.Stalls 7 ∧ ¬ Tended 7 (after noPeers)) ∧
    (after lastAnswer).halted = false ∧ (after lastAnswer).monitor.Stalls 7 ∧ ¬ Tended 7 (after lastAnswer) ∧
    @Answered wireLayout 7 (after lastAnswer) := by
  have silent := deserted_noPeers
  have answered := deserted_lastAnswer
  refine ⟨⟨silent.running, silent.stalls, silent.untended⟩, answered.running, answered.stalls, answered.untended, ?_⟩
  have responses : (after lastAnswer).responses = [lastShred] := by decide +kernel
  refine ⟨lastShred, ?_, by decide +kernel⟩
  rw [responses]
  exact List.mem_singleton.mpr rfl

end Lightbringer.Repair.Pipeline
