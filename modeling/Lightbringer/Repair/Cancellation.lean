import Lightbringer.Repair.Tasks

/-!
# What a cancellation leaves

`CancelRepair` sweeps the store and nothing else. What is announced, suspended or waiting for the socket at that moment
goes on. Where there is nothing of the kind, the slot is not asked for again.
-/

namespace Lightbringer.Repair.Tasks
open Std Machine

variable {slot : UInt64} {t : Tasks}

/-- A loop holds requests of the slot that the socket does not have yet. -/
def Offers {α : Type} (slot : UInt64) (sending : Option (Sending α)) : Prop :=
  ∃ waiting, sending = some waiting ∧ waiting.taken = false ∧ ∃ request ∈ waiting.batch, request.slot = slot

/-- The retry of a request of the slot is under way. -/
def Retries (slot : UInt64) (t : Tasks) : Prop := ∃ waiting, t.retry = some waiting ∧ waiting.next.slot = slot

/-- Nothing of the slot is on its way past the store. -/
structure Unclaimed (slot : UInt64) (t : Tasks) : Prop where
  announced : ∀ request, .new request ∈ t.manager.messages → request.slot ≠ slot
  retry : ¬ Retries slot t
  retrySends : ¬ Offers slot t.retry
  answer : ¬ Offers slot t.answer

/-- The slot is gone from every loop. -/
structure Clear (slot : UInt64) (t : Tasks) : Prop extends Unclaimed slot t where
  processor : ¬ Offers slot t.processor
  entries : t.manager.outstanding.Each (fun key entry => key = entry.timer.request.key ∧ entry.timer.request.slot ≠ slot)

/-- The step does not process a request for missing shreds of the slot. -/
def unasked (slot : UInt64) (t : Tasks) : Input → Bool
  | .process _ => t.processor.isSome || t.manager.requests.head?.all (fun request => !request.asksFor slot)
  | _ => true

def Unasked (slot : UInt64) (t : Tasks) (input : Input) : Prop := unasked slot t input = true

instance (slot : UInt64) (t : Tasks) : DecidablePred (Unasked slot t) :=
  fun input => instDecidableEqBool (unasked slot t input) true

theorem not_offers_none {α : Type} : ¬ Offers slot (none : Option (Sending α)) := by
  rintro ⟨waiting, none, _⟩
  cases none

theorem not_offers_taken {α : Type} {batch : List SocketRequest} {next : α} :
    ¬ Offers slot (some ⟨batch, true, next⟩) := by
  rintro ⟨waiting, same, untaken, _⟩
  cases same
  cases untaken

theorem not_offers_of {α : Type} {batch : List SocketRequest} {next : α} (slots : ∀ request ∈ batch, request.slot ≠ slot) :
    ¬ Offers slot (some ⟨batch, false, next⟩) := by
  rintro ⟨waiting, same, _, request, member, mine⟩
  cases same
  exact slots request member mine

/-- The slot of an entry is the one in its key. -/
theorem Clear.slot_of_found (clear : Clear slot t) {asked : UInt64} {nonce : Nonce} {route : RepairRoute}
    {store : OutstandingTimerStore} {entry : Outstanding}
    (removed : t.manager.outstanding.remove asked nonce route = (store, some entry)) : asked ≠ slot := by
  have found : t.manager.outstanding.entries[repairKey asked nonce route]? = some entry := congrArg Prod.snd removed
  obtain ⟨keyed, other⟩ := clear.entries _ entry found
  rw [slot_of_repairKey keyed]
  exact other

theorem Clear.removed (clear : Clear slot t) {asked : UInt64} {nonce : Nonce} {route : RepairRoute}
    {store : OutstandingTimerStore} {entry : Option Outstanding}
    (removed : t.manager.outstanding.remove asked nonce route = (store, entry)) :
    store.Each (fun key entry => key = entry.timer.request.key ∧ entry.timer.request.slot ≠ slot) := by
  have stores : store = (t.manager.outstanding.remove asked nonce route).1 := by
    rw [removed]
  rw [stores]
  exact OutstandingTimerStore.each_remove clear.entries (fun _ _ _ held => held)

/-- A step keeps a slot out, and hands no request of it to the socket. -/
def KeepsOut (slot : UInt64) (moved : Tasks × List TaskEvent) : Prop :=
  Clear slot moved.1 ∧ ∀ request, .sent request ∈ moved.2 → request.slot ≠ slot

theorem keepsOut_silent {out : List TaskEvent} (clear : Clear slot t) (silent : ∀ request, .sent request ∉ out) :
    KeepsOut slot (t, out) := ⟨clear, fun request sent => (silent request sent).elim⟩

theorem keepsOut_process (clear : Clear slot t) {draws : Nat → Draw} (unasked : Unasked slot t (.process draws)) :
    KeepsOut slot (t.process draws) := by
  unfold process
  split
  next other rest _ _ =>
    refine keepsOut_silent { clear with entries := ?_ } (by simp)
    exact OutstandingTimerStore.each_removeSlot clear.entries (fun _ _ _ held => held)
  next request rest _ idle queue =>
    split
    · exact keepsOut_silent { clear with } (by simp)
    next announced batch served =>
      obtain ⟨asked, asks, news, sends⟩ := RepairManager.slot_socketReqs served
      have apart : asked ≠ slot := by
        rintro rfl
        dsimp only [Unasked, Tasks.unasked] at unasked
        rw [idle, queue] at unasked
        simp [asks] at unasked
      refine keepsOut_silent { clear with announced := ?_, processor := ?_ } (by simp)
      · intro fresh member
        rcases List.mem_append.mp member with old | new
        · exact clear.announced fresh old
        · rw [news fresh new]
          exact apart
      · exact not_offers_of (fun request member => by rw [sends request member]; exact apart)
  next => exact keepsOut_silent clear (by simp)

theorem clear_track (clear : Clear slot t) {request : OutstandingRequest} (other : request.slot ≠ slot) :
    Clear slot { t with manager := t.manager.track request } :=
  { clear with
    entries := OutstandingTimerStore.each_insert clear.entries request (fun _ _ _ held => held) ⟨rfl, other⟩ }

theorem keepsOut_outstanding (clear : Clear slot t) (draw : Draw) : KeepsOut slot (t.outstanding draw) := by
  unfold outstanding
  split
  next request rest _ queue =>
    have fewer : Clear slot { t with manager := { t.manager with messages := rest } } :=
      { clear with announced := fun fresh member => clear.announced fresh (by rw [queue]; exact List.mem_cons_of_mem _ member) }
    have other := clear.announced request (by rw [queue]; exact List.mem_cons_self ..)
    exact keepsOut_silent (clear_track fewer other) (by simp)
  next request rest _ queue =>
    have fewer : ∀ fresh, .new fresh ∈ rest → fresh.slot ≠ slot :=
      fun fresh member => clear.announced fresh (by rw [queue]; exact List.mem_cons_of_mem _ member)
    split
    · exact keepsOut_silent { clear with announced := fewer } (by simp)
    next store entry removed =>
      have other := clear.slot_of_found removed
      have cleared : Clear slot { t with manager := { t.manager with messages := rest, outstanding := store } } :=
        { clear with announced := fewer, entries := clear.removed removed }
      dsimp only
      split
      · exact keepsOut_silent cleared (by simp)
      next again mapped =>
        refine keepsOut_silent { cleared with retry := ?_, retrySends := ?_ } (by simp)
        · rintro ⟨waiting, same, mine⟩
          cases same
          exact other mine
        · refine not_offers_of (fun sent member => ?_)
          rw [List.mem_singleton.mp member, RepairManager.slot_mapShred mapped]
          exact other
  next => exact keepsOut_silent clear (by simp)

theorem keepsOut_receive [ShredLayout] (clear : Clear slot t) (draws : Nat → Draw) : KeepsOut slot (t.receive draws) := by
  unfold receive
  split
  next route packet rest _ _ =>
    dsimp only
    split
    next nonce asked _ read =>
      split
      · exact keepsOut_silent { clear with } (by simp)
      next store entry removed =>
        have other := clear.slot_of_found removed
        have cleared : Clear slot { t with arrivals := rest, manager := { t.manager with outstanding := store } } :=
          { clear with entries := clear.removed removed }
        split
        · split
          · exact keepsOut_silent cleared (by simp)
          next announced batch followed =>
            obtain ⟨news, sends⟩ := RepairManager.slot_handleUnbounded read followed
            refine keepsOut_silent { cleared with announced := ?_, answer := ?_ } (by simp)
            · intro fresh member
              rcases List.mem_append.mp member with old | new
              · exact clear.announced fresh old
              · rw [news fresh new]
                exact other
            · exact not_offers_of (fun request member => by rw [sends request member]; exact other)
        · exact keepsOut_silent cleared (by simp)
    next => exact keepsOut_silent { clear with } (by simp)
  next => exact keepsOut_silent clear (by simp)

/-- The socket is handed only what a loop offers. -/
theorem not_sent_of_offered {α : Type} {batch : List SocketRequest} {next : α}
    (quiet : ¬ Offers slot (some ⟨batch, false, next⟩)) {request : SocketRequest} (sent : request ∈ batch) :
    request.slot ≠ slot :=
  fun mine => quiet ⟨_, rfl, rfl, request, sent, mine⟩

theorem keepsOut_take (clear : Clear slot t) (loop : Loop) : KeepsOut slot (t.take loop) := by
  cases loop with
  | processor =>
    dsimp only [take]
    split
    next batch next waiting =>
      refine ⟨{ clear with processor := not_offers_taken }, fun request sent => ?_⟩
      exact not_sent_of_offered (waiting ▸ clear.processor) (by simpa using sent)
    next => exact keepsOut_silent clear (by simp)
  | outstanding =>
    dsimp only [take]
    split
    next batch next waiting =>
      refine ⟨{ clear with retry := ?_, retrySends := not_offers_taken }, fun request sent => ?_⟩
      · rintro ⟨taken, same, mine⟩
        cases same
        exact clear.retry ⟨_, waiting, mine⟩
      · exact not_sent_of_offered (waiting ▸ clear.retrySends) (by simpa using sent)
    next => exact keepsOut_silent clear (by simp)
  | receiver =>
    dsimp only [take]
    split
    next batch next waiting =>
      refine ⟨{ clear with answer := not_offers_taken }, fun request sent => ?_⟩
      exact not_sent_of_offered (waiting ▸ clear.answer) (by simpa using sent)
    next => exact keepsOut_silent clear (by simp)

theorem clear_noRetry (clear : Clear slot t) : Clear slot { t with retry := none } :=
  { clear with
    retry := by
      rintro ⟨waiting, none, _⟩
      cases none
    retrySends := not_offers_none }

theorem keepsOut_refuse (clear : Clear slot t) (loop : Loop) : KeepsOut slot (t.refuse loop) := by
  cases loop with
  | processor =>
    dsimp only [refuse]
    split
    · exact keepsOut_silent { clear with processor := not_offers_none } (by simp)
    · exact keepsOut_silent clear (by simp)
  | outstanding =>
    dsimp only [refuse]
    split
    · exact keepsOut_silent (clear_noRetry clear) (by simp)
    · exact keepsOut_silent clear (by simp)
  | receiver =>
    dsimp only [refuse]
    split
    · exact keepsOut_silent { clear with answer := not_offers_none } (by simp)
    · exact keepsOut_silent clear (by simp)

theorem keepsOut_wake (clear : Clear slot t) (loop : Loop) : KeepsOut slot (t.wake loop) := by
  cases loop with
  | processor =>
    dsimp only [wake]
    split
    · exact keepsOut_silent { clear with processor := not_offers_none } (by simp)
    · exact keepsOut_silent clear (by simp)
  | outstanding =>
    dsimp only [wake]
    split
    next batch request waiting =>
      have other : request.slot ≠ slot := fun mine => clear.retry ⟨_, waiting, mine⟩
      exact keepsOut_silent (clear_track (clear_noRetry clear) other) (by simp)
    next => exact keepsOut_silent clear (by simp)
  | receiver =>
    dsimp only [wake]
    split
    · exact keepsOut_silent { clear with answer := not_offers_none } (by simp)
    · exact keepsOut_silent clear (by simp)

theorem keepsOut_step [ShredLayout] (clear : Clear slot t) {input : Input} (unasked : Unasked slot t input) :
    KeepsOut slot (t.step input) := by
  cases input with
  | request request => exact keepsOut_silent { clear with } (by simp)
  | arrive route packet => exact keepsOut_silent { clear with } (by simp)
  | process draws => exact keepsOut_process clear unasked
  | outstanding draw => exact keepsOut_outstanding clear draw
  | receive draws => exact keepsOut_receive clear draws
  | requestTimer key =>
    refine keepsOut_silent { clear with announced := ?_, entries := ?_ } (by simp)
    · exact fun request member => clear.announced request ((RepairManager.mem_fire_new key).mp member)
    · exact RepairManager.each_fire clear.entries (fun _ _ _ held => held) key
  | looseRequestTimer index =>
    refine keepsOut_silent { clear with announced := ?_, entries := ?_ } (by simp)
    · exact fun request member => clear.announced request ((RepairManager.mem_fireLoose_new index).mp member)
    · rw [RepairManager.fireLoose_outstanding]
      exact clear.entries
  | take loop => exact keepsOut_take clear loop
  | refuse loop => exact keepsOut_refuse clear loop
  | wake loop => exact keepsOut_wake clear loop

/-! ### From the cancellation on -/

/-- The range of a slot holds its keys, unless there is no slot above it. -/
theorem inSlotRange_key {slot : UInt64} (below : slot ≠ u64Max) (nonce : Nonce) (route : RepairRoute) :
    inSlotRange slot (repairKey slot nonce route) = true := by
  have key := slot_of_key slot nonce route
  have bound := slot.toNat_lt
  have high : slot.toNat ≠ 2 ^ 64 - 1 := fun last => below (UInt64.toNat_inj.mp last)
  have next : (saturatingSucc slot).toNat = slot.toNat + 1 := by
    rw [toNat_saturatingSucc]
    omega
  rw [inSlotRange, prefixKey_eq, prefixKey_eq, next, Bool.and_eq_true, decide_eq_true_eq, decide_eq_true_eq]
  omega

theorem clear_cancel (recorded : t.manager.outstanding.Each Recorded) {rest : List RepairReq}
    (idle : t.processor = none) (next : t.manager.requests = .cancelRepair slot :: rest) (alone : Unclaimed slot t)
    (swept : slot ≠ u64Max ∨ ¬ t.manager.outstanding.Waits slot) (draws : Nat → Draw) :
    Clear slot (t.process draws).1 := by
  have processed : (t.process draws).1 = { t with manager :=
      { t.manager with requests := rest, outstanding := t.manager.outstanding.removeSlot slot } } := by
    unfold process
    rw [idle, next]
  rw [processed]
  refine { alone with processor := ?_, entries := ?_ }
  · intro offers
    exact not_offers_none (idle ▸ offers)
  · have within : t.manager.outstanding.Each (fun key entry => key = entry.timer.request.key ∧
        (entry.timer.request.slot = slot → inSlotRange slot key = true)) := by
      intro key entry found
      obtain ⟨keyed, _⟩ := recorded key entry found
      refine ⟨keyed, fun mine => ?_⟩
      rcases swept with below | absent
      · rw [keyed, OutstandingRequest.key, mine]
        exact inSlotRange_key below _ _
      · exact (absent ⟨key, entry, found, mine⟩).elim
    refine OutstandingTimerStore.each_removeSlot within (fun key entry outside held => ⟨held.1, fun mine => ?_⟩)
    rw [held.2 mine] at outside
    cases outside

theorem clear_run [ShredLayout] (clear : Clear slot t) {later : List Input} (unasked : Meets step (Unasked slot) t later) :
    Clear slot (run step t later).1 ∧
      ∀ event ∈ (run step t later).2, ∀ request, event = .sent request → request.slot ≠ slot :=
  run_safe clear (fun _ _ clear here => by
    obtain ⟨cleared, quiet⟩ := keepsOut_step clear here
    exact ⟨cleared, fun event member request same => quiet request (same ▸ member)⟩) later unasked

/-- When nothing of the slot is announced, suspended or waiting for the socket as its cancellation is processed, the
slot has no entry from then on and no request of it is handed to the socket, until it is asked for again. -/
theorem cancel_final [ShredLayout] {inputs : List Input} {rest : List RepairReq} (draws : Nat → Draw)
    (idle : (run step new inputs).1.processor = none)
    (next : (run step new inputs).1.manager.requests = .cancelRepair slot :: rest)
    (alone : Unclaimed slot (run step new inputs).1)
    (swept : slot ≠ u64Max ∨ ¬ (run step new inputs).1.manager.outstanding.Waits slot)
    {later : List Input}
    (unasked : Meets step (Unasked slot) ((run step new inputs).1.step (.process draws)).1 later) :
    ¬ (run step ((run step new inputs).1.step (.process draws)).1 later).1.manager.outstanding.Waits slot ∧
    ∀ request, .sent request ∈ (run step ((run step new inputs).1.step (.process draws)).1 later).2 →
      request.slot ≠ slot := by
  have clear : Clear slot ((run step new inputs).1.step (.process draws)).1 :=
    clear_cancel (recorded_run inputs) idle next alone swept draws
  obtain ⟨cleared, quiet⟩ := clear_run clear unasked
  refine ⟨?_, fun request sent => quiet _ sent request rfl⟩
  rintro ⟨key, entry, found, mine⟩
  exact (cleared.entries key entry found).2 mine

/-! ### A slot that is cancelled in time, and one that is not -/

def somePeer : RepairTarget := .udp ⟨.v4 0xC6336401, 8008⟩ 3

/-- The highest shred of slot 7 is asked for. -/
def ask : List Input := .request (.missingUnboundedShreds 7 [] 0) :: turnOf .processor (.process (fun _ => some (somePeer, 5)))

/-- The request is in the store when the cancellation comes. -/
def cancelTracked : List Input := ask ++ [.outstanding none, .request (.cancelRepair 7)]

/-- The request is still announced when the cancellation comes. -/
def cancelAnnounced : List Input := ask ++ [.request (.cancelRepair 7)]

/-- The outstanding loop on the one message there is. -/
def drain : List Input := [.outstanding none]

/-- The request times out and is sent again. -/
def sendAgain : List Input :=
  [.requestTimer (repairKey 7 5 somePeer.route), .outstanding (some (somePeer, 6)), .take .outstanding]

def before (inputs : List Input) : Tasks := (run (@step wireLayout) new inputs).1

def cancelled (inputs : List Input) : Tasks := (@step wireLayout (before inputs) (.process (fun _ => none))).1

theorem unclaimed_idle (messages : t.manager.messages = []) (retry : t.retry = none) (answer : t.answer = none) :
    Unclaimed slot t where
  announced := by simp [messages]
  retry := by simp [Retries, retry]
  retrySends := retry ▸ not_offers_none
  answer := answer ▸ not_offers_none

theorem cancel_final_tracked :
    (before cancelTracked).manager.outstanding.contains 7 = true ∧
    ¬ (run (@step wireLayout) (cancelled cancelTracked) sendAgain).1.manager.outstanding.Waits 7 ∧
    ∀ request, .sent request ∈ (run (@step wireLayout) (cancelled cancelTracked) sendAgain).2 → request.slot ≠ 7 := by
  have idle : (before cancelTracked).processor = none ∧ (before cancelTracked).retry = none ∧
      (before cancelTracked).answer = none ∧ (before cancelTracked).manager.messages = [] ∧
      (before cancelTracked).manager.requests = [.cancelRepair 7] ∧
      (before cancelTracked).manager.outstanding.contains 7 = true := by
    decide +kernel
  obtain ⟨processor, retry, answer, messages, requests, contained⟩ := idle
  have unasked : Meets (@step wireLayout) (Unasked 7) (cancelled cancelTracked) sendAgain := by
    decide +kernel
  exact ⟨contained, @cancel_final 7 wireLayout cancelTracked [] (fun _ => none) processor requests
    (unclaimed_idle messages retry answer) (.inl (by decide)) sendAgain unasked⟩

/-- With every message that was queued processed, the slot is outstanding again, and is then sent again. -/
theorem cancelled_slot_returns :
    (before cancelAnnounced).processor = none ∧
    (before cancelAnnounced).manager.requests = [.cancelRepair 7] ∧
    Meets (@step wireLayout) (Unasked 7) (cancelled cancelAnnounced) (drain ++ sendAgain) ∧
    (run (@step wireLayout) (cancelled cancelAnnounced) drain).1.manager.messages = [] ∧
    (run (@step wireLayout) (cancelled cancelAnnounced) drain).1.manager.outstanding.contains 7 = true ∧
    .sent ⟨somePeer, 6, .highestWindowIndex, 7, 0⟩ ∈
      (run (@step wireLayout) (run (@step wireLayout) (cancelled cancelAnnounced) drain).1 sendAgain).2 := by
  decide +kernel

end Lightbringer.Repair.Tasks
