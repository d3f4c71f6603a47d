import Lightbringer.Repair.Acceptance

/-!
# Answers that come too early or too late

A request is handed to the socket by one loop and entered into the store by another, so that its answer may be taken up
before there is anything to match, or while the request is being sent again. Requests are told apart by their key, as
the store does.
-/

namespace Lightbringer.Repair.Tasks
open Std Machine Trace

section

/-- The request was answered, has timed out, or its slot was cancelled. -/
def Closes (slot : UInt64) (key : Nat) : TaskEvent → Prop
  | .timedOut request | .matched request _ _ => request.key = key
  | .cancelled cancelled => cancelled = slot
  | _ => False

def Opens (key : Nat) : TaskEvent → Prop
  | .created request => request.key = key
  | _ => False

/-- A request with this slot, nonce and route was handed to the socket; it has not been answered and has not timed out,
and its slot has not been cancelled. -/
def Due (slot : UInt64) (nonce : Nonce) (route : RepairRoute) (log : List TaskEvent) : Prop :=
  ∃ before request since, log = before ++ .created request :: since ∧ request.key = repairKey slot nonce route ∧
    (∀ event ∈ since, ¬ Closes slot (repairKey slot nonce route) event) ∧
    ∃ sent, .sent sent ∈ since ∧ sent.key = repairKey slot nonce route

variable [ShredLayout]

/-- The nonce and the slot a packet carries. -/
def Reads (packet : PacketInfo) (slot : UInt64) (nonce : Nonce) : Prop :=
  repairNonce packet = some nonce ∧ ShredLayout.getSlot packet = some slot

/-- An answer to a request that was due when it arrived was taken up and not matched, and none before it was. -/
def Lost (log : List TaskEvent) : Prop :=
  ∃ before route packet between after slot nonce,
    log = before ++ .arrived route packet :: (between ++ .unmatched route packet :: after) ∧
    Reads packet slot nonce ∧ Due slot nonce route before ∧
    ∀ request other answer, .matched request other answer ∈ between → request.key ≠ repairKey slot nonce route

/-- The key under which an answer finds its request. -/
def responseKey (arrival : RepairRoute × PacketInfo) : Option Nat :=
  match repairNonce arrival.2, ShredLayout.getSlot arrival.2 with
  | some nonce, some slot => some (repairKey slot nonce arrival.1)
  | _, _ => none

/-- A request with this key is announced and not yet entered, or sent again and not yet entered. -/
def unrecorded (key : Nat) (t : Tasks) : Bool :=
  (announcedIn t.manager.messages).any (fun request => request.key == key) ||
  t.retry.any (fun waiting => waiting.taken && waiting.next.key == key)

/-- Answers are taken up when their request is recorded, and no timeout or cancellation overtakes one in the channel. -/
def inTime (t : Tasks) : Input → Bool
  | .receive _ =>
    match t.answer, t.arrivals with
    | none, arrival :: _ => (responseKey arrival).all (fun key => !unrecorded key t)
    | _, _ => true
  | .outstanding _ =>
    match t.retry, t.manager.messages with
    | none, .timeout request :: _ => t.arrivals.all (fun arrival => responseKey arrival != some request.key)
    | _, _ => true
  | .process _ =>
    match t.processor, t.manager.requests with
    | none, .cancelRepair slot :: _ => t.arrivals.all (fun arrival => ShredLayout.getSlot arrival.2 != some slot)
    | _, _ => true
  | _ => true

def InTime (t : Tasks) (input : Input) : Prop := inTime t input = true

instance (t : Tasks) : DecidablePred (InTime t) := fun input => instDecidableEqBool (inTime t input) true

/-! ### Where a request that is due can be -/

/-- Announced, about to be entered again, or in the store. -/
def Held (key : Nat) (t : Tasks) : Prop :=
  unrecorded key t = true ∨ ∃ entry, t.manager.outstanding.entries[key]? = some entry

/-- What a step does to the requests: those it creates are held, and those that are held stay so unless it closes
them. -/
structure KeepsUp (t : Tasks) (moved : Tasks × List TaskEvent) : Prop where
  fresh : ∀ request, .created request ∈ moved.2 → Held request.key moved.1
  kept : ∀ slot nonce route, Held (repairKey slot nonce route) t →
    (∀ event ∈ moved.2, ¬ Closes slot (repairKey slot nonce route) event) → Held (repairKey slot nonce route) moved.1

variable {t : Tasks} {key : Nat} {log : List TaskEvent}

omit [ShredLayout] in
theorem mem_announcedIn {messages : List OutstandingRequestMsg} {request : OutstandingRequest} :
    request ∈ announcedIn messages ↔ .new request ∈ messages := by
  constructor
  · intro member
    obtain ⟨message, listed, same⟩ := List.mem_filterMap.mp member
    cases message <;> cases same
    exact listed
  · exact fun member => List.mem_filterMap.mpr ⟨.new request, member, rfl⟩

omit [ShredLayout] in
theorem unrecorded_iff : unrecorded key t = true ↔
    (∃ request, .new request ∈ t.manager.messages ∧ request.key = key) ∨
    ∃ waiting, t.retry = some waiting ∧ waiting.taken = true ∧ waiting.next.key = key := by
  rw [unrecorded, Bool.or_eq_true, List.any_eq_true, Option.any_eq_true]
  simp [mem_announcedIn]

omit [ShredLayout] in
theorem held_iff : Held key t ↔
    ((∃ request, .new request ∈ t.manager.messages ∧ request.key = key) ∨
      ∃ waiting, t.retry = some waiting ∧ waiting.taken = true ∧ waiting.next.key = key) ∨
    ∃ entry, t.manager.outstanding.entries[key]? = some entry := by
  rw [Held, unrecorded_iff]

omit [ShredLayout] in
theorem held_grow {t' : Tasks} (held : Held key t)
    (messages : ∀ request, .new request ∈ t.manager.messages → .new request ∈ t'.manager.messages)
    (retry : t'.retry = t.retry)
    (entries : ∀ entry, t.manager.outstanding.entries[key]? = some entry →
      ∃ entry', t'.manager.outstanding.entries[key]? = some entry') : Held key t' := by
  rw [held_iff] at held ⊢
  rcases held with (⟨request, member, same⟩ | suspended) | ⟨entry, found⟩
  · exact .inl (.inl ⟨request, messages request member, same⟩)
  · exact .inl (.inr (by rw [retry]; exact suspended))
  · exact .inr (entries entry found)

omit [ShredLayout] in
/-- Steps that create nothing and leave the store and the announcements. -/
theorem keepsUp_same {t' : Tasks} {out : List TaskEvent} (silent : ∀ request, .created request ∉ out)
    (messages : ∀ request, .new request ∈ t.manager.messages → .new request ∈ t'.manager.messages)
    (retry : t'.retry = t.retry) (entries : t'.manager.outstanding = t.manager.outstanding) :
    KeepsUp t (t', out) := by
  refine ⟨fun request created => (silent request created).elim, fun slot nonce route held _ => ?_⟩
  refine held_grow held messages retry (fun entry found => ⟨entry, ?_⟩)
  rw [entries]
  exact found

omit [ShredLayout] in
theorem held_announced {messages : List OutstandingRequestMsg} {request : OutstandingRequest}
    (member : request ∈ announcedIn messages) (before : List OutstandingRequestMsg) {t' : Tasks}
    (queue : t'.manager.messages = before ++ messages) : Held request.key t' := by
  refine held_iff.mpr (.inl (.inl ⟨request, ?_, rfl⟩))
  rw [queue]
  exact List.mem_append_right _ (mem_announcedIn.mp member)

omit [ShredLayout] in
theorem found_insert {store : OutstandingTimerStore} (request : OutstandingRequest) :
    (∃ entry, (store.insert request).entries[request.key]? = some entry) ∧
    ∀ entry, store.entries[key]? = some entry → ∃ entry', (store.insert request).entries[key]? = some entry' := by
  refine ⟨⟨_, TreeMap.getElem?_insert_self⟩, fun entry found => ?_⟩
  rw [OutstandingTimerStore.insert, TreeMap.getElem?_insert]
  split
  · exact ⟨_, rfl⟩
  · exact ⟨entry, found⟩

omit [ShredLayout] in
theorem found_remove {store left : OutstandingTimerStore} {slot : UInt64} {nonce : Nonce} {route : RepairRoute}
    {removed entry : Option Outstanding} (taken : store.remove slot nonce route = (left, removed))
    (apart : key ≠ repairKey slot nonce route) (found : store.entries[key]? = entry) : left.entries[key]? = entry := by
  have stores : left = (store.remove slot nonce route).1 := by
    rw [taken]
  rw [stores, OutstandingTimerStore.remove, TreeMap.getElem?_erase, if_neg]
  · exact found
  · exact fun same => apart (LawfulEqOrd.compare_eq_iff_eq.mp same).symm

omit [ShredLayout] in
theorem keepsUp_process (draws : Nat → Draw) : KeepsUp t (t.process draws) := by
  unfold process
  split
  next cancelled rest _ _ =>
    refine ⟨by simp, fun slot nonce route held open' => ?_⟩
    refine held_grow held (fun _ member => member) rfl (fun entry found => ⟨entry, ?_⟩)
    rw [OutstandingTimerStore.removeSlot, TreeMap.getElem?_filter', found, Option.filter_some, if_pos]
    rw [Bool.not_eq_true']
    refine Bool.eq_false_iff.mpr (fun within => open' _ (List.mem_cons_self ..) ?_)
    exact (slot_of_inSlotRange within).symm
  next =>
    split
    · exact keepsUp_same (by simp) (fun _ member => member) rfl rfl
    next announced batch served =>
      refine ⟨fun request created => ?_, fun slot nonce route held _ => ?_⟩
      · obtain ⟨asked, member, same⟩ := List.mem_map.mp created
        cases same
        exact held_announced member _ rfl
      · exact held_grow held (fun _ member => List.mem_append_left _ member) rfl (fun entry found => ⟨entry, found⟩)
  next => exact keepsUp_same (by simp) (fun _ member => member) rfl rfl

omit [ShredLayout] in
/-- A message that is taken off the queue was either the announcement or leaves it there. -/
theorem held_tail {message : OutstandingRequestMsg} {rest : List OutstandingRequestMsg}
    (queue : t.manager.messages = message :: rest) (held : Held key t)
    (other : ∀ request, message = .new request → request.key ≠ key) :
    Held key { t with manager := { t.manager with messages := rest } } := by
  rw [held_iff] at held ⊢
  rcases held with (⟨request, member, same⟩ | suspended) | present
  · rw [queue] at member
    rcases List.mem_cons.mp member with first | later
    · exact (other request first.symm same).elim
    · exact .inl (.inl ⟨request, later, same⟩)
  · exact .inl (.inr suspended)
  · exact .inr present

omit [ShredLayout] in
theorem keepsUp_outstanding (recorded : t.manager.outstanding.Each Recorded) (draw : Draw) :
    KeepsUp t (t.outstanding draw) := by
  unfold outstanding
  split
  next request rest idle queue =>
    refine ⟨by simp, fun slot nonce route held _ => ?_⟩
    by_cases mine : request.key = repairKey slot nonce route
    · rw [← mine]
      exact .inr (@found_insert 0 t.manager.outstanding request).1
    · have left := held_tail queue held (fun other same => by cases same; exact mine)
      exact held_grow left (fun _ member => member) rfl (found_insert request).2
  next request rest idle queue =>
    have left : ∀ {key}, Held key t → Held key { t with manager := { t.manager with messages := rest } } :=
      fun held => held_tail queue held (fun other same => by cases same)
    split
    · refine ⟨by simp, fun slot nonce route held _ => left held⟩
    next store entry removed =>
      have found : t.manager.outstanding.entries[request.key]? = some entry := congrArg Prod.snd removed
      have keyed := (recorded _ entry found).1
      have kept : ∀ slot nonce route, Held (repairKey slot nonce route) t →
          (∀ event ∈ [TaskEvent.timedOut entry.timer.request], ¬ Closes slot (repairKey slot nonce route) event) →
          Held (repairKey slot nonce route)
            { t with manager := { t.manager with messages := rest, outstanding := store } } := by
        intro slot nonce route held open'
        have apart : repairKey slot nonce route ≠ request.key := by
          intro same
          exact open' _ (List.mem_singleton.mpr rfl) (keyed.symm.trans same.symm)
        exact held_grow (left held) (fun _ member => member) rfl
          (fun present at' => ⟨present, found_remove removed apart at'⟩)
      dsimp only
      split
      · exact ⟨by simp, kept⟩
      · refine ⟨by simp, fun slot nonce route held open' => ?_⟩
        refine held_iff.mpr ?_
        rcases held_iff.mp (kept slot nonce route held open') with (announced | ⟨waiting, suspended, _⟩) | present
        · exact .inl (.inl announced)
        · exact absurd (idle.symm.trans suspended) (by simp)
        · exact .inr present
  next => exact keepsUp_same (by simp) (fun _ member => member) rfl rfl

theorem keepsUp_receive (recorded : t.manager.outstanding.Each Recorded) (draws : Nat → Draw) :
    KeepsUp t (t.receive draws) := by
  unfold receive
  split
  next route packet rest _ _ =>
    dsimp only
    split
    next nonce slot _ _ =>
      split
      · exact keepsUp_same (by simp) (fun _ member => member) rfl rfl
      next store entry removed =>
        have found : t.manager.outstanding.entries[repairKey slot nonce route]? = some entry := congrArg Prod.snd removed
        have keyed := (recorded _ entry found).1
        have kept : ∀ {asked number other} {t' : Tasks},
            (∀ request, .new request ∈ t.manager.messages → .new request ∈ t'.manager.messages) → t'.retry = t.retry →
            t'.manager.outstanding = store → Held (repairKey asked number other) t →
            ¬ Closes asked (repairKey asked number other) (.matched entry.timer.request route packet) →
            Held (repairKey asked number other) t' := by
          intro asked number other t' messages retry entries held open'
          have apart : repairKey asked number other ≠ repairKey slot nonce route :=
            fun same => open' (keyed.symm.trans same.symm)
          refine held_grow held messages retry (fun present at' => ⟨present, ?_⟩)
          rw [entries]
          exact found_remove removed apart at'
        split
        · split
          · refine ⟨by simp, fun asked number other held open' => ?_⟩
            exact kept (fun _ member => member) rfl rfl held (open' _ (List.mem_cons_self ..))
          next announced batch followed =>
            refine ⟨fun request created => ?_, fun asked number other held open' => ?_⟩
            · rcases List.mem_cons.mp created with matched | later
              · cases matched
              · obtain ⟨next, member, same⟩ := List.mem_map.mp later
                cases same
                exact held_announced member _ rfl
            · exact kept (fun _ member => List.mem_append_left _ member) rfl rfl held (open' _ (List.mem_cons_self ..))
        · refine ⟨by simp, fun asked number other held open' => ?_⟩
          exact kept (fun _ member => member) rfl rfl held (open' _ (List.mem_cons_self ..))
    next => exact keepsUp_same (by simp) (fun _ member => member) rfl rfl
  next => exact keepsUp_same (by simp) (fun _ member => member) rfl rfl

omit [ShredLayout] in
theorem keepsUp_take (loop : Loop) : KeepsUp t (t.take loop) := by
  cases loop with
  | processor => dsimp only [take]; split <;> exact keepsUp_same (by simp) (fun _ member => member) rfl rfl
  | receiver => dsimp only [take]; split <;> exact keepsUp_same (by simp) (fun _ member => member) rfl rfl
  | outstanding =>
    dsimp only [take]
    split
    next batch next waiting =>
      refine ⟨fun request created => ?_, fun slot nonce route held _ => ?_⟩
      · have same : request = next := by simpa using created
        rw [same]
        exact held_iff.mpr (.inl (.inr ⟨_, rfl, rfl, rfl⟩))
      · rw [held_iff] at held ⊢
        rcases held with (announced | ⟨taken, suspended, already, _⟩) | present
        · exact .inl (.inl announced)
        · rw [waiting] at suspended
          cases suspended
          cases already
        · exact .inr present
    next => exact keepsUp_same (by simp) (fun _ member => member) rfl rfl

omit [ShredLayout] in
theorem keepsUp_refuse (loop : Loop) : KeepsUp t (t.refuse loop) := by
  cases loop with
  | processor => dsimp only [refuse]; split <;> exact keepsUp_same (by simp) (fun _ member => member) rfl rfl
  | receiver => dsimp only [refuse]; split <;> exact keepsUp_same (by simp) (fun _ member => member) rfl rfl
  | outstanding =>
    dsimp only [refuse]
    split
    next batch next waiting =>
      refine ⟨by simp, fun slot nonce route held _ => ?_⟩
      rw [held_iff] at held ⊢
      rcases held with (announced | ⟨taken, suspended, already, _⟩) | present
      · exact .inl (.inl announced)
      · rw [waiting] at suspended
        cases suspended
        cases already
      · exact .inr present
    next => exact keepsUp_same (by simp) (fun _ member => member) rfl rfl

omit [ShredLayout] in
theorem keepsUp_wake (loop : Loop) : KeepsUp t (t.wake loop) := by
  cases loop with
  | processor => dsimp only [wake]; split <;> exact keepsUp_same (by simp) (fun _ member => member) rfl rfl
  | receiver => dsimp only [wake]; split <;> exact keepsUp_same (by simp) (fun _ member => member) rfl rfl
  | outstanding =>
    dsimp only [wake]
    split
    next batch request waiting =>
      refine ⟨by simp, fun slot nonce route held _ => ?_⟩
      rw [held_iff] at held ⊢
      rcases held with (announced | ⟨taken, suspended, _, mine⟩) | ⟨entry, found⟩
      · exact .inl (.inl announced)
      · rw [waiting] at suspended
        cases suspended
        rw [← mine]
        exact .inr (@found_insert 0 t.manager.outstanding request).1
      · exact .inr ((found_insert request).2 entry found)
    next => exact keepsUp_same (by simp) (fun _ member => member) rfl rfl

theorem keepsUp_step (recorded : t.manager.outstanding.Each Recorded) (input : Input) : KeepsUp t (t.step input) := by
  cases input with
  | request request => exact keepsUp_same (by simp) (fun _ member => member) rfl rfl
  | arrive route packet => exact keepsUp_same (by simp) (fun _ member => member) rfl rfl
  | process draws => exact keepsUp_process draws
  | outstanding draw => exact keepsUp_outstanding recorded draw
  | receive draws => exact keepsUp_receive recorded draws
  | requestTimer fired =>
    refine ⟨by simp [step], fun slot nonce route held _ => ?_⟩
    refine held_grow held (fun request member => (RepairManager.mem_fire_new fired).mpr member) rfl ?_
    exact fun entry found => RepairManager.fire_found fired found
  | looseRequestTimer index =>
    refine keepsUp_same (by simp) (fun request member => (RepairManager.mem_fireLoose_new index).mpr member) rfl ?_
    exact RepairManager.fireLoose_outstanding index
  | take loop => exact keepsUp_take loop
  | refuse loop => exact keepsUp_refuse loop
  | wake loop => exact keepsUp_wake loop

/-! ### Answers in the channel -/

variable {route : RepairRoute} {packet : PacketInfo} {slot : UInt64} {nonce : Nonce} {input : Input}

/-- Answers leave the channel one by one. -/
theorem arrivals_step (waiting : (route, packet) ∈ t.arrivals) :
    (route, packet) ∈ (t.step input).1.arrivals ∨
      ∃ draws rest, input = .receive draws ∧ t.answer = none ∧ t.arrivals = (route, packet) :: rest := by
  cases input with
  | arrive other answer => exact .inl (List.mem_append_left _ waiting)
  | receive draws =>
    cases idle : t.answer with
    | some sending =>
      refine .inl ?_
      dsimp only [step, receive]
      rw [idle]
      exact waiting
    | none =>
      cases queue : t.arrivals with
      | nil =>
        rw [queue] at waiting
        cases waiting
      | cons first rest =>
        rw [queue] at waiting
        rcases List.mem_cons.mp waiting with rfl | later
        · exact .inr ⟨draws, rest, rfl, rfl, rfl⟩
        · refine .inl ?_
          dsimp only [step, receive]
          rw [idle, queue]
          dsimp only
          split
          · split
            · exact later
            · split
              · split <;> exact later
              · exact later
          · exact later
  | process draws => refine .inl ?_; dsimp only [step, process]; repeat' split
                     all_goals exact waiting
  | outstanding draw => refine .inl ?_; dsimp only [step, outstanding]; repeat' split
                        all_goals exact waiting
  | take loop => refine .inl ?_; cases loop <;> dsimp only [step, take] <;> split <;> exact waiting
  | refuse loop => refine .inl ?_; cases loop <;> dsimp only [step, refuse] <;> split <;> exact waiting
  | wake loop => refine .inl ?_; cases loop <;> dsimp only [step, wake] <;> split <;> exact waiting
  | _ => exact .inl waiting

theorem arrived_inv (member : .arrived route packet ∈ (t.step input).2) : input = .arrive route packet := by
  have reported := reports_step input _ member
  cases input with
  | arrive other answer =>
    obtain ⟨rfl, rfl⟩ : route = other ∧ packet = answer := by simpa [Input.mayReport] using reported
    rfl
  | _ => simp [Input.mayReport] at reported

theorem cancelled_inv (member : .cancelled slot ∈ (t.step input).2) :
    ∃ draws rest, input = .process draws ∧ t.processor = none ∧ t.manager.requests = .cancelRepair slot :: rest := by
  have reported := reports_step input _ member
  cases input with
  | process draws =>
    dsimp only [step, process] at member
    split at member
    next other rest idle queue =>
      obtain rfl : slot = other := by simpa using member
      exact ⟨draws, rest, rfl, idle, queue⟩
    next =>
      split at member
      · cases member
      · simp at member
    next => cases member
  | arrive other answer => simp [Input.mayReport] at reported
  | _ => cases reported

theorem timedOut_inv {timed : OutstandingRequest} (recorded : t.manager.outstanding.Each Recorded)
    (member : .timedOut timed ∈ (t.step input).2) :
    ∃ draw request rest, input = .outstanding draw ∧ t.retry = none ∧ t.manager.messages = .timeout request :: rest ∧
      timed.key = request.key := by
  have reported := reports_step input _ member
  cases input with
  | outstanding draw =>
    dsimp only [step, outstanding] at member
    split at member
    next => simp at member
    next request rest idle queue =>
      split at member
      next => cases member
      next store entry removed =>
        have found : t.manager.outstanding.entries[request.key]? = some entry := congrArg Prod.snd removed
        have same : timed = entry.timer.request := by
          split at member
          · simpa using member
          · simpa using member
        refine ⟨draw, request, rest, rfl, idle, queue, ?_⟩
        rw [same]
        exact (recorded _ entry found).1.symm
    next => cases member
  | arrive other answer => simp [Input.mayReport] at reported
  | _ => cases reported

/-- What is not matched has no entry under its key. -/
theorem unmatched_inv (member : .unmatched route packet ∈ (t.step input).2) :
    ∃ draws rest slot nonce, input = .receive draws ∧ t.answer = none ∧ t.arrivals = (route, packet) :: rest ∧
      Reads packet slot nonce ∧ t.manager.outstanding.entries[repairKey slot nonce route]? = none ∧
      (t.step input).2 = [.unmatched route packet] := by
  have reported := reports_step input _ member
  cases input with
  | receive draws =>
    dsimp only [step, receive] at member ⊢
    split at member
    next other answer rest idle queue =>
      split at member
      next nonce slot nonceRead slotRead =>
        split at member
        next store removed =>
          obtain ⟨rfl, rfl⟩ : route = other ∧ packet = answer := by simpa using member
          have missing : t.manager.outstanding.entries[repairKey slot nonce route]? = none := congrArg Prod.snd removed
          refine ⟨draws, rest, slot, nonce, rfl, idle, queue, ⟨nonceRead, slotRead⟩, missing, rfl⟩
        next =>
          split at member
          · split at member <;> simp at member
          · simp at member
      next => cases member
    next => cases member
  | arrive other answer => simp [Input.mayReport] at reported
  | _ => cases reported

/-! ### Runs -/

/-- No match of the key. -/
def Unanswered (key : Nat) (out : List TaskEvent) : Prop :=
  ∀ request other answer, .matched request other answer ∈ out → request.key ≠ key

structure Punctual (log : List TaskEvent) (t : Tasks) : Prop where
  recorded : t.manager.outstanding.Each Recorded
  live : ∀ slot nonce route, Since (Opens (repairKey slot nonce route)) (Closes slot (repairKey slot nonce route)) log →
    Held (repairKey slot nonce route) t
  /-- Until it is answered, a request that was due when an answer arrived is held, and the answer is in the channel. -/
  waiting : ∀ before route packet between slot nonce, log = before ++ .arrived route packet :: between →
    Reads packet slot nonce → Due slot nonce route before → Unanswered (repairKey slot nonce route) between →
    (route, packet) ∈ t.arrivals ∧ Held (repairKey slot nonce route) t

omit [ShredLayout] in
theorem since_of_due (due : Due slot nonce route log) :
    Since (Opens (repairKey slot nonce route)) (Closes slot (repairKey slot nonce route)) log := by
  obtain ⟨before, request, since, split, same, open', _⟩ := due
  exact ⟨before, .created request, since, split, same, open'⟩

theorem live_step (held : Punctual log t) (input : Input) :
    Since (Opens (repairKey slot nonce route)) (Closes slot (repairKey slot nonce route)) (log ++ (t.step input).2) →
    Held (repairKey slot nonce route) (t.step input).1 := by
  obtain ⟨fresh, kept⟩ := keepsUp_step held.recorded input
  intro since
  rcases since_append.mp since with ⟨before, event, after, split, opened, _⟩ | ⟨earlier, open'⟩
  · cases event with
    | created request =>
      rw [← show request.key = repairKey slot nonce route from opened]
      refine fresh request ?_
      rw [split]
      simp
    | _ => exact opened.elim
  · exact kept slot nonce route (held.live slot nonce route earlier) open'

theorem responseKey_reads (reads : Reads packet slot nonce) :
    responseKey (route, packet) = some (repairKey slot nonce route) := by
  rw [responseKey, reads.1, reads.2]

/-- While an answer to it is in the channel, only a match closes a request. -/
theorem open_step (held : Punctual log t) (inTime : InTime t input) (queued : (route, packet) ∈ t.arrivals)
    (reads : Reads packet slot nonce) (unanswered : Unanswered (repairKey slot nonce route) (t.step input).2) :
    ∀ event ∈ (t.step input).2, ¬ Closes slot (repairKey slot nonce route) event := by
  intro event member closes
  cases event with
  | matched request other answer => exact unanswered request other answer member closes
  | timedOut request =>
    obtain ⟨draw, timed, rest, rfl, idle, queue, same⟩ := timedOut_inv held.recorded member
    dsimp only [InTime, Tasks.inTime] at inTime
    rw [idle, queue] at inTime
    have apart := List.all_eq_true.mp inTime _ queued
    rw [responseKey_reads reads, ← same, ← show request.key = repairKey slot nonce route from closes] at apart
    simp at apart
  | cancelled cancelled =>
    obtain ⟨draws, rest, rfl, idle, queue⟩ := cancelled_inv member
    dsimp only [InTime, Tasks.inTime] at inTime
    rw [idle, queue] at inTime
    have apart := List.all_eq_true.mp inTime _ queued
    rw [reads.2, show cancelled = slot from closes] at apart
    simp at apart
  | _ => exact closes

/-- The answer taken up, if its request is held, is matched. -/
theorem matched_of_held {draws : Nat → Draw} {rest : List (RepairRoute × PacketInfo)} (inTime : InTime t (.receive draws))
    (idle : t.answer = none) (queue : t.arrivals = (route, packet) :: rest) (reads : Reads packet slot nonce)
    (held : Held (repairKey slot nonce route) t) :
    ∃ entry, t.manager.outstanding.entries[repairKey slot nonce route]? = some entry := by
  rcases held with unrecorded | found
  · dsimp only [InTime, Tasks.inTime] at inTime
    rw [idle, queue] at inTime
    dsimp only at inTime
    rw [responseKey_reads reads, Option.all_some, unrecorded] at inTime
    cases inTime
  · exact found

theorem waiting_kept (held : Punctual log t) (inTime : InTime t input) (queued : (route, packet) ∈ t.arrivals)
    (reads : Reads packet slot nonce) (holds : Held (repairKey slot nonce route) t)
    (unanswered : Unanswered (repairKey slot nonce route) (t.step input).2) :
    (route, packet) ∈ (t.step input).1.arrivals ∧ Held (repairKey slot nonce route) (t.step input).1 := by
  refine ⟨?_, (keepsUp_step held.recorded input).kept slot nonce route holds
    (open_step held inTime queued reads unanswered)⟩
  rcases @arrivals_step _ t route packet input queued with kept | ⟨draws, rest, rfl, idle, queue⟩
  · exact kept
  · obtain ⟨entry, found⟩ := matched_of_held inTime idle queue reads holds
    obtain ⟨sent, emitted, _⟩ := @receive_matched _ t draws _ _ _ _ _ _ idle queue reads.1 reads.2 found
    have matched : .matched entry.timer.request route packet ∈ (t.step (.receive draws)).2 := by
      dsimp only [step]
      rw [emitted]
      exact List.mem_cons_self ..
    exact (unanswered _ _ _ matched (held.recorded _ entry found).1.symm).elim

theorem punctual_step (held : Punctual log t) (inTime : InTime t input) :
    Punctual (log ++ (t.step input).2) (t.step input).1 := by
  refine ⟨each_step (fun _ => ⟨rfl, rfl⟩) (fun _ _ _ kept => kept) held.recorded input,
    fun slot nonce route => live_step held input, ?_⟩
  intro before route packet between slot nonce split reads due unanswered
  rcases List.append_eq_append_iff.mp split with ⟨early, rfl, emitted⟩ | ⟨late, rfl, emitted⟩
  · -- The arrival is reported by this very step.
    have arrived := arrived_inv (show .arrived route packet ∈ (t.step input).2 by rw [emitted]; simp)
    subst arrived
    have alone : early = [] := by
      cases early with
      | nil => rfl
      | cons head early => simp [step] at emitted
    subst alone
    rw [List.append_nil] at due
    exact ⟨List.mem_append_right _ (List.mem_singleton.mpr rfl), held.live slot nonce route (since_of_due due)⟩
  · cases late with
    | nil =>
      have arrived := arrived_inv (show .arrived route packet ∈ (t.step input).2 by
        rw [List.nil_append] at emitted
        rw [← emitted]
        exact List.mem_cons_self ..)
      subst arrived
      exact ⟨List.mem_append_right _ (List.mem_singleton.mpr rfl), held.live slot nonce route (since_of_due (by simpa using due))⟩
    | cons head late =>
      obtain ⟨rfl, rfl⟩ := List.cons.inj emitted
      obtain ⟨queued, holds⟩ := held.waiting before route packet late slot nonce rfl reads due
        (fun request other answer member => unanswered request other answer (List.mem_append_left _ member))
      exact waiting_kept held inTime queued reads holds
        (fun request other answer member => unanswered request other answer (List.mem_append_right _ member))

theorem not_lost_step (held : Punctual log t) (inTime : InTime t input) (safe : ¬ Lost log) :
    ¬ Lost (log ++ (t.step input).2) := by
  rintro ⟨before, route, packet, between, after, slot, nonce, split, reads, due, unanswered⟩
  have whole : log ++ (t.step input).2 = (before ++ .arrived route packet :: between) ++ .unmatched route packet :: after := by
    rw [split]
    simp
  -- An answer that this step finds unmatched was in the channel with its request held.
  have now : .unmatched route packet ∈ (t.step input).2 → log = before ++ .arrived route packet :: between → False := by
    intro member here
    obtain ⟨queued, holds⟩ := held.waiting before route packet between slot nonce here reads due unanswered
    obtain ⟨draws, rest, asked, number, rfl, idle, queue, carried, missing, _⟩ := unmatched_inv member
    obtain ⟨entry, found⟩ := matched_of_held inTime idle queue reads holds
    have sameNonce : number = nonce := Option.some.inj (carried.1.symm.trans reads.1)
    have sameSlot : asked = slot := Option.some.inj (carried.2.symm.trans reads.2)
    rw [sameNonce, sameSlot, found] at missing
    cases missing
  rcases List.append_eq_append_iff.mp whole with ⟨early, front, emitted⟩ | ⟨late, front, emitted⟩
  · have member : .unmatched route packet ∈ (t.step input).2 := by
      rw [emitted]
      simp
    obtain ⟨_, _, _, _, _, _, _, _, _, only⟩ := unmatched_inv member
    have alone : early = [] := by
      rw [only] at emitted
      cases early with
      | nil => rfl
      | cons head early => simp at emitted
    rw [alone, List.append_nil] at front
    exact now member front.symm
  · cases late with
    | nil =>
      rw [List.append_nil] at front
      refine now ?_ front
      rw [List.nil_append] at emitted
      rw [← emitted]
      exact List.mem_cons_self ..
    | cons head late =>
      obtain ⟨rfl, rfl⟩ := List.cons.inj emitted
      refine safe ⟨before, route, packet, between, late, slot, nonce, ?_, reads, due, unanswered⟩
      rw [front]
      simp

/-- No answer to a request that is due is lost, and whatever is matched and valid goes on in its turn, if answers are
not taken up before their requests are recorded and not overtaken in the channel. -/
theorem no_answer_lost {inputs : List Input} (inTime : Meets step InTime new inputs) :
    ¬ Lost (run step new inputs).2 ∧
    (run step new inputs).2.filterMap TaskEvent.validMatch =
      (run step new inputs).2.filterMap TaskEvent.forwardedPacket ++
        ((run step new inputs).1.answer.map Sending.next).toList := by
  refine ⟨?_, (accounted_run inputs).answers⟩
  refine (run_history (P := fun _ t log => Punctual log t ∧ ¬ Lost log) ⟨⟨OutstandingTimerStore.each_empty, ?_, ?_⟩, ?_⟩
    ?_ inputs inTime).2
  · exact fun slot nonce route since => (not_since_nil since).elim
  · intro before route packet between slot nonce split
    simp at split
  · rintro ⟨before, route, packet, between, after, slot, nonce, split, _⟩
    simp at split
  · intro _ t log input held here
    exact ⟨punctual_step held.1 here, not_lost_step held.1 here held.2⟩

end

/-! ### An answer in time, and one that is too early -/

/-- A last shred of slot 7. Its last four bytes are read as the nonce. -/
def promptAnswer : PacketInfo := wireShred ⟨.data, 7, 0, 1, 0⟩ 0xc0

def promptPeer : RepairTarget := .udp ⟨.v4 0xC6336401, 8008⟩ 3

/-- The request is handed to the socket, and still announced. -/
def handOver : List Input :=
  .request (.missingUnboundedShreds 7 [] 0) :: turnOf .processor (.process (fun _ => some (promptPeer, 0x58c000)))

def hear : List Input := .arrive promptPeer.route promptAnswer :: turnOf .receiver (.receive (fun _ => none))

theorem no_answer_lost_recorded :
    .forwarded promptAnswer ∈ (run (@step wireLayout) new (handOver ++ .outstanding none :: hear)).2 ∧
    ¬ @Lost wireLayout (run (@step wireLayout) new (handOver ++ .outstanding none :: hear)).2 := by
  have inTime : Meets (@step wireLayout) (@InTime wireLayout) new (handOver ++ .outstanding none :: hear) := by
    decide +kernel
  exact ⟨by decide +kernel, (@no_answer_lost wireLayout _ inTime).1⟩

theorem early_answer_lost : @Lost wireLayout (run (@step wireLayout) new (handOver ++ hear)).2 := by
  have log : (run (@step wireLayout) new (handOver ++ hear)).2 =
      [.created ⟨.highestWindowIndex, 0x58c000, 7, 0, promptPeer⟩,
        .sent ⟨promptPeer, 0x58c000, .highestWindowIndex, 7, 0⟩,
        .arrived promptPeer.route promptAnswer, .unmatched promptPeer.route promptAnswer] := by
    decide +kernel
  refine ⟨[.created ⟨.highestWindowIndex, 0x58c000, 7, 0, promptPeer⟩,
      .sent ⟨promptPeer, 0x58c000, .highestWindowIndex, 7, 0⟩], promptPeer.route, promptAnswer, [], [], 7, 0x58c000,
    log, ⟨by decide +kernel, by decide +kernel⟩, ?_, by simp⟩
  exact ⟨[], _, [.sent ⟨promptPeer, 0x58c000, .highestWindowIndex, 7, 0⟩], rfl, rfl, by simp [Closes], _,
    List.mem_singleton.mpr rfl, rfl⟩

end Lightbringer.Repair.Tasks
