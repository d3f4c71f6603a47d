import Lightbringer.Overlay.RepairStreams
import Lightbringer.Lib.Entries

/-!
# One end for every request

A ledger for the streams `request_repair` opens: what is asked for is either still awaited or has been reported to the
driver, once, as an answer or as a failure.
-/

namespace Lightbringer.Overlay.RepairCore
open Std Machine

variable {T : Type}

def asksOn (stream : OverlayStreamId) : RepairAction → Bool
  | .requested opened _ => opened = stream
  | _ => false

/-- The driver is told how the exchange ended. -/
def ends (stream : OverlayStreamId) : RepairAction → Bool
  | .pushed (.repairResponse ended _ _) => ended = stream
  | .pushed (.repairFailed ended _) => ended = stream
  | _ => false

def requests (stream : OverlayStreamId) (log : List RepairAction) : Nat := log.countP (asksOn stream)

def terminals (stream : OverlayStreamId) (log : List RepairAction) : Nat := log.countP (ends stream)

/-- One for an exchange that has not ended. -/
def live (core : RepairCore T) (stream : OverlayStreamId) : Nat := if stream ∈ core.outboundRepairs then 1 else 0

/-- What every step but a request does to the requester's streams: what it takes off it reports. -/
structure Settles (core core' : RepairCore T) (actions : List RepairAction) : Prop where
  count : ∀ stream, terminals stream actions + core'.live stream = core.live stream
  unasked : ∀ stream, requests stream actions = 0
  kept : ∀ (stream : OverlayStreamId) repair, core'.outboundRepairs[stream]? = some repair →
    ∃ before, core.outboundRepairs[stream]? = some before ∧ before.deadline = repair.deadline

variable {core core' core'' : RepairCore T} {actions more : List RepairAction} {stream : OverlayStreamId}

theorem live_none (absent : core.outboundRepairs[stream]? = none) : core.live stream = 0 := by
  rw [live, if_neg]
  rw [TreeMap.mem_iff_isSome_getElem?, absent]
  nofun

theorem live_some {repair : OutboundRepair} (found : core.outboundRepairs[stream]? = some repair) :
    core.live stream = 1 := by
  rw [live, if_pos]
  rw [TreeMap.mem_iff_isSome_getElem?, found]
  rfl

theorem live_congr (same : (core'.outboundRepairs[stream]?).isSome = (core.outboundRepairs[stream]?).isSome) :
    core'.live stream = core.live stream := by
  simp only [live, TreeMap.mem_iff_isSome_getElem?, same]

theorem settles_trans (first : Settles core core' actions) (second : Settles core' core'' more) :
    Settles core core'' (actions ++ more) where
  count stream := by
    have before := first.count stream
    have after := second.count stream
    simp only [terminals, List.countP_append] at before after ⊢
    omega
  unasked stream := by
    have before := first.unasked stream
    have after := second.unasked stream
    simp only [requests, List.countP_append] at before after ⊢
    omega
  kept stream repair found := by
    obtain ⟨between, there, same⟩ := second.kept stream repair found
    obtain ⟨before, old, alike⟩ := first.kept stream between there
    exact ⟨before, old, alike.trans same⟩

/-- Steps that leave the requester's streams alone. -/
theorem settles_idle (same : core'.outboundRepairs = core.outboundRepairs)
    (silent : ∀ action ∈ actions, ∀ stream, asksOn stream action = false ∧ ends stream action = false) :
    Settles core core' actions where
  count stream := by
    have none : terminals stream actions = 0 :=
      List.countP_eq_zero.mpr (fun action member => by simp [(silent action member stream).2])
    rw [none, live, live, same]
    omega
  unasked stream := List.countP_eq_zero.mpr (fun action member => by simp [(silent action member stream).1])
  kept stream repair found := by
    rw [same] at found
    exact ⟨repair, found, rfl⟩

/-- More bytes of an answer. -/
theorem settles_buffered {repair : OutboundRepair} (found : core.outboundRepairs[stream]? = some repair)
    (buf : List UInt8)
    (buffered : core'.outboundRepairs = core.outboundRepairs.insert stream { repair with buf := buf }) :
    Settles core core' [] where
  count other := by
    rw [terminals, List.countP_nil, Nat.zero_add]
    apply live_congr
    rw [buffered, Entries.getElem?_insert]
    split
    next here => rw [← here, found]; rfl
    next => rfl
  unasked other := List.countP_nil
  kept other left there := by
    rw [buffered, Entries.getElem?_insert] at there
    split at there
    next here =>
      cases there
      exact ⟨repair, here ▸ found, rfl⟩
    next => exact ⟨left, there, rfl⟩

/-- An exchange that was awaited ends with one report. -/
theorem settles_ended {repair : OutboundRepair} (found : core.outboundRepairs[stream]? = some repair)
    (erased : core'.outboundRepairs = core.outboundRepairs.erase stream)
    (reported : ∀ other, terminals other actions = if stream = other then 1 else 0)
    (unasked : ∀ other, requests other actions = 0) : Settles core core' actions where
  count other := by
    rw [reported]
    split
    next here =>
      subst here
      have gone : core'.outboundRepairs[stream]? = none := by
        rw [erased, Entries.getElem?_erase, if_pos rfl]
      rw [live_none gone, live_some found]
    next apart =>
      have same : core'.live other = core.live other := by
        apply live_congr
        rw [erased, Entries.getElem?_erase, if_neg apart]
      omega
  unasked := unasked
  kept other left there := by
    rw [erased, Entries.getElem?_erase] at there
    split at there
    · cases there
    · exact ⟨left, there, rfl⟩

/-! ### The handlers -/

variable [StreamTransport T]

theorem settles_dropOutbound (core : RepairCore T) {repair : OutboundRepair} (found : core.outboundRepairs[stream]? = some repair)
    (peer : Pubkey) : Settles core (core.dropOutbound stream peer).1 (core.dropOutbound stream peer).2 := by
  refine settles_ended found rfl (fun other => ?_) (fun other => ?_)
  · by_cases here : stream = other
    · simp [dropOutbound, resetStream, push, terminals, ends, here]
    · simp [dropOutbound, resetStream, push, terminals, ends, here]
  · simp [dropOutbound, resetStream, push, requests, asksOn]

/-- What the server side does is of no concern. -/
theorem settles_dropInbound (core : RepairCore T) (stream : OverlayStreamId) :
    Settles core (core.dropInbound stream).1 (core.dropInbound stream).2 :=
  settles_idle rfl (by simp [dropInbound, resetStream, asksOn, ends])

omit [StreamTransport T] in
theorem settles_malformed (core : RepairCore T) : Settles core core.malformed [] := settles_idle rfl (by simp)

theorem settles_handleOpened (core : RepairCore T) (now : Instant) (stream : OverlayStreamId) (peer : Pubkey) :
    Settles core (core.handleOpened now stream peer).1 (core.handleOpened now stream peer).2 := by
  unfold handleOpened
  split
  · exact settles_idle rfl (by simp [resetStream, asksOn, ends])
  · exact settles_idle rfl (by simp)

theorem settles_handleData (core : RepairCore T) (stream : OverlayStreamId) (bytes : List UInt8) :
    Settles core (core.handleData stream bytes).1 (core.handleData stream bytes).2 := by
  unfold handleData
  split
  · split
    · exact settles_trans (settles_malformed core) (settles_dropInbound core.malformed stream)
    dsimp only
    split
    · exact settles_trans (settles_malformed core) (settles_dropInbound core.malformed stream)
    · exact settles_idle rfl (by simp)
  · split
    next repair found =>
      dsimp only
      split
      · have dropped := settles_dropOutbound core.malformed found repair.peer
        have both := settles_trans (settles_malformed core) dropped
        exact both
      · exact settles_buffered found _ rfl
    next => exact settles_idle rfl (by simp)

theorem settles_finishInbound (core : RepairCore T) (now : Instant) (stream : OverlayStreamId)
    (repair : InboundRepair) :
    Settles core (core.finishInbound now stream repair).1 (core.finishInbound now stream repair).2 := by
  unfold finishInbound
  split
  · exact settles_idle rfl (by simp)
  split
  · exact settles_trans (settles_malformed core) (settles_dropInbound core.malformed stream)
  dsimp only
  split
  · exact settles_idle rfl (by simp [push, asksOn, ends])
  · exact settles_idle rfl (by simp [dropInbound, resetStream, asksOn, ends])

omit [StreamTransport T] in
theorem settles_finishOutbound {repair : OutboundRepair} (found : core.outboundRepairs[stream]? = some repair) :
    Settles core (core.finishOutbound stream repair).1 (core.finishOutbound stream repair).2 := by
  unfold finishOutbound
  dsimp only
  split
  all_goals
    refine settles_ended found rfl (fun other => ?_) (fun other => by simp [push, requests, asksOn])
    by_cases here : stream = other
    · simp [push, terminals, ends, here]
    · simp [push, terminals, ends, here]

theorem settles_handleFinished (core : RepairCore T) (now : Instant) (stream : OverlayStreamId) :
    Settles core (core.handleFinished now stream).1 (core.handleFinished now stream).2 := by
  unfold handleFinished
  split
  next repair _ => exact settles_finishInbound core now stream repair
  next =>
    split
    next found => exact settles_finishOutbound found
    next => exact settles_idle rfl (by simp)

omit [StreamTransport T] in
theorem settles_handleFailed (core : RepairCore T) (stream : OverlayStreamId) :
    Settles core (core.handleFailed stream).1 (core.handleFailed stream).2 := by
  unfold handleFailed
  dsimp only
  split
  next repair found =>
    refine settles_ended found rfl (fun other => ?_) (fun other => by simp [push, requests, asksOn])
    by_cases here : stream = other
    · simp [push, terminals, ends, here]
    · simp [push, terminals, ends, here]
  next => exact settles_idle rfl (by simp)

theorem settles_poll (core : RepairCore T) (now : Instant) : Settles core (core.poll now).1 (core.poll now).2 := by
  unfold poll
  split
  next transport _ => exact settles_idle rfl (by simp)
  next transport event _ =>
    have polled : Settles core { core with transport := transport } [.polled event] :=
      settles_idle rfl (by simp [asksOn, ends])
    refine settles_trans polled ?_
    cases event with
    | opened stream peer => exact settles_handleOpened _ now stream peer
    | data stream bytes => exact settles_handleData _ stream bytes
    | finished stream => exact settles_handleFinished _ now stream
    | failed stream => exact settles_handleFailed _ stream

theorem settles_onRepairResponse (core : RepairCore T) (stream : OverlayStreamId) (shred : Option (List UInt8)) :
    Settles core (core.onRepairResponse stream shred).1 (core.onRepairResponse stream shred).2 := by
  unfold onRepairResponse
  split
  · exact settles_idle rfl (by simp)
  dsimp only
  split
  · exact settles_idle rfl (by simp)
  split
  · exact settles_idle rfl (by simp [asksOn, ends])
  · exact settles_idle rfl (by simp [resetStream, asksOn, ends])

/-! ### Timeouts -/

/-- Every stream named is there when its turn comes. -/
theorem expireOutbound_run (core : RepairCore T) (entries : List (OverlayStreamId × OutboundRepair)) (distinct : (entries.map (·.1)).Nodup)
    (there : ∀ entry ∈ entries, core.outboundRepairs[entry.1]? = some entry.2) :
    Settles core (run expireOutbound core entries).1 (run expireOutbound core entries).2 ∧
    ∀ stream : OverlayStreamId, (run expireOutbound core entries).1.outboundRepairs[stream]? =
      if stream ∈ entries.map (·.1) then none else core.outboundRepairs[stream]? := by
  induction entries generalizing core with
  | nil => exact ⟨settles_idle rfl (by simp), fun stream => by simp⟩
  | cons entry rest ih =>
    obtain ⟨fresh, distinct⟩ := List.nodup_cons.mp distinct
    have erased : (core.dropOutbound entry.1 entry.2.peer).1.outboundRepairs = core.outboundRepairs.erase entry.1 := rfl
    have found := there entry (List.mem_cons_self ..)
    obtain ⟨settles, left⟩ := ih (core.dropOutbound entry.1 entry.2.peer).1 distinct (fun later member => by
      have apart : entry.1 ≠ later.1 := by
        intro same
        exact fresh (List.mem_map.mpr ⟨later, member, same.symm⟩)
      rw [erased, Entries.getElem?_erase, if_neg apart]
      exact there later (List.mem_cons_of_mem _ member))
    refine ⟨settles_trans (settles_dropOutbound core found entry.2.peer) settles, fun stream => ?_⟩
    rw [run_cons]
    refine (left stream).trans ?_
    rw [erased, Entries.getElem?_erase]
    by_cases here : entry.1 = stream
    · simp [here]
    · rw [if_neg here]
      simp only [List.map_cons, List.mem_cons, Ne.symm here, false_or]

theorem expireInbound_run (entries : List (OverlayStreamId × InboundRepair)) (core : RepairCore T) :
    Settles core (run expireInbound core entries).1 (run expireInbound core entries).2 ∧
    (run expireInbound core entries).1.outboundRepairs = core.outboundRepairs := by
  induction entries generalizing core with
  | nil => exact ⟨settles_idle rfl (by simp), rfl⟩
  | cons entry rest ih =>
    obtain ⟨settles, same⟩ := ih (core.dropInbound entry.1).1
    exact ⟨settles_trans (settles_dropInbound core entry.1) settles, same⟩

theorem expireRepairs_spec (core : RepairCore T) (now : Instant) :
    Settles core (core.expireRepairs now).1 (core.expireRepairs now).2 ∧
    ∀ (stream : OverlayStreamId) repair, (core.expireRepairs now).1.outboundRepairs[stream]? = some repair →
      now < repair.deadline := by
  have distinct : ((core.outboundRepairs.toList.filter (fun entry => entry.2.deadline ≤ now)).map (·.1)).Nodup := by
    refine List.Nodup.sublist (List.filter_sublist.map _) ?_
    rw [TreeMap.map_fst_toList_eq_keys]
    exact TreeMap.nodup_keys
  obtain ⟨settles, left⟩ := expireOutbound_run core _ distinct (fun entry member => by
    exact TreeMap.mem_toList_iff_getElem?_eq_some.mp (List.mem_of_mem_filter member))
  obtain ⟨after, same⟩ := expireInbound_run
    ((run expireOutbound core (core.outboundRepairs.toList.filter (fun entry => entry.2.deadline ≤ now))).1.inboundRepairs.toList.filter
      (fun entry => entry.2.deadline ≤ now))
    (run expireOutbound core (core.outboundRepairs.toList.filter (fun entry => entry.2.deadline ≤ now))).1
  refine ⟨settles_trans settles after, fun stream repair found => ?_⟩
  have kept := found
  change (run expireInbound _ _).1.outboundRepairs[stream]? = some repair at kept
  rw [same, left] at kept
  split at kept
  · cases kept
  next spared =>
    rw [← Nat.not_le]
    intro due
    refine spared (List.mem_map.mpr ⟨(stream, repair), List.mem_filter.mpr ⟨?_, by simpa using due⟩, rfl⟩)
    exact TreeMap.mem_toList_iff_getElem?_eq_some.mpr kept

/-! ### Whole runs -/

theorem settles_step (core : RepairCore T) {input : Input T} (other : ∀ now peer request, input ≠ .request now peer request) :
    Settles core (step core input).1 (step core input).2 := by
  cases input with
  | call call => exact settles_idle rfl (by simp [step])
  | request now peer request => exact (other now peer request rfl).elim
  | answer stream shred => exact settles_onRepairResponse core stream shred
  | poll now => exact settles_poll core now
  | timer now => exact (expireRepairs_spec core now).1

/-- A request opens a stream whose handle was free, or nothing happens. -/
theorem requestRepair_cases (core : RepairCore T) (now : Instant) (peer : Pubkey) (request : RepairReq) :
    (core.requestRepair now peer request).2 = [] ∧
      (core.requestRepair now peer request).1.outboundRepairs = core.outboundRepairs ∨
    ∃ stream : OverlayStreamId,
      (core.requestRepair now peer request).2 = [.requested stream (now + repairStreamTimeout)] ∧
      (core.requestRepair now peer request).1.outboundRepairs =
        core.outboundRepairs.insert stream ⟨peer, [], now + repairStreamTimeout⟩ ∧
      StreamTransport.nextStream core.transport ≤ stream ∧
      stream < StreamTransport.nextStream (core.requestRepair now peer request).1.transport := by
  unfold requestRepair
  split
  · exact .inl ⟨rfl, rfl⟩
  split
  · exact .inl ⟨rfl, rfl⟩
  next transport stream opened =>
    have fresh := StreamTransport.openStream_fresh core.transport peer stream (by rw [opened])
    rw [opened] at fresh
    have written := StreamTransport.writeStream_grows transport stream (encodeRequest request)
    have grown := announcing_trans written (StreamTransport.finishStream_grows _ stream)
    exact .inr ⟨stream, rfl, rfl, fresh.1, Nat.lt_of_lt_of_le fresh.2 grown.le⟩

/-- The books at any moment of a run. -/
structure Books (core : RepairCore T) (log : List RepairAction) : Prop where
  count : ∀ stream, terminals stream log + core.live stream = requests stream log
  once : ∀ stream, requests stream log ≤ 1
  given : ∀ stream, 0 < requests stream log → stream < StreamTransport.nextStream core.transport
  dated : ∀ (stream : OverlayStreamId) repair, core.outboundRepairs[stream]? = some repair →
    .requested stream repair.deadline ∈ log

theorem books_settled {log : List RepairAction} (books : Books core log) (settles : Settles core core' actions)
    (le : StreamTransport.nextStream core.transport ≤ StreamTransport.nextStream core'.transport) :
    Books core' (log ++ actions) := by
  have asked : ∀ stream, requests stream (log ++ actions) = requests stream log := by
    intro stream
    have none := settles.unasked stream
    simp only [requests, List.countP_append] at none ⊢
    omega
  refine ⟨fun stream => ?_, fun stream => ?_, fun stream held => ?_, fun stream repair found => ?_⟩
  · have before := books.count stream
    have settled := settles.count stream
    rw [asked]
    simp only [terminals, List.countP_append] at before settled ⊢
    omega
  · rw [asked]
    exact books.once stream
  · rw [asked] at held
    exact Nat.lt_of_lt_of_le (books.given stream held) le
  · obtain ⟨before, there, same⟩ := settles.kept stream repair found
    have dated := books.dated stream before there
    rw [same] at dated
    exact List.mem_append_left _ dated

theorem books_requested {log : List RepairAction} (books : Books core log) {peer : Pubkey} {deadline : Instant}
    (inserted : core'.outboundRepairs = core.outboundRepairs.insert stream ⟨peer, [], deadline⟩)
    (fresh : StreamTransport.nextStream core.transport ≤ stream)
    (used : stream < StreamTransport.nextStream core'.transport) : Books core' (log ++ [.requested stream deadline]) := by
  have unasked : requests stream log = 0 := by
    by_contra some
    exact Nat.not_lt.mpr fresh (books.given stream (Nat.pos_of_ne_zero some))
  have unended := books.count stream
  rw [unasked] at unended
  have there : core'.outboundRepairs[stream]? = some ⟨peer, [], deadline⟩ := by
    rw [inserted, Entries.getElem?_insert, if_pos rfl]
  have here : core'.live stream = 1 := live_some there
  have elsewhere : ∀ other, stream ≠ other → core'.live other = core.live other := by
    intro other apart
    apply live_congr
    rw [inserted, Entries.getElem?_insert, if_neg apart]
  have counted : ∀ other, requests other (log ++ [.requested stream deadline]) =
      requests other log + if stream = other then 1 else 0 := by
    intro other
    by_cases same : stream = other
    · simp [requests, asksOn, same]
    · simp [requests, asksOn, same]
  have silent : ∀ other, terminals other (log ++ [.requested stream deadline]) = terminals other log := by
    intro other
    simp [terminals, ends]
  refine ⟨fun other => ?_, fun other => ?_, fun other held => ?_, fun other repair found => ?_⟩
  · rw [counted, silent]
    by_cases same : stream = other
    · subst same
      rw [if_pos rfl, here]
      omega
    · rw [if_neg same, elsewhere other same]
      exact books.count other
  · rw [counted]
    by_cases same : stream = other
    · subst same
      rw [if_pos rfl, unasked]
    · rw [if_neg same]
      exact books.once other
  · rw [counted] at held
    by_cases same : stream = other
    · exact same ▸ used
    · rw [if_neg same] at held
      have below := Nat.lt_of_lt_of_le (books.given other held) fresh
      exact Nat.lt_trans below used
  · rw [inserted, Entries.getElem?_insert] at found
    split at found
    next same =>
      cases found
      exact List.mem_append_right _ (by simp [same])
    next => exact List.mem_append_left _ (books.dated other repair found)

theorem books_step {log : List RepairAction} (books : Books core log) (input : Input T) :
    Books (step core input).1 (log ++ (step core input).2) := by
  by_cases asks : ∃ now peer request, input = .request now peer request
  · obtain ⟨now, peer, request, rfl⟩ := asks
    have le := nextStream_step core (.request now peer request)
    dsimp only [step] at le ⊢
    rcases requestRepair_cases core now peer request with ⟨silent, same⟩ | ⟨stream, asked, inserted, fresh, used⟩
    · exact books_settled books (silent ▸ settles_idle same (by simp)) le
    · rw [asked]
      exact books_requested books inserted fresh used
  · have other : ∀ now peer request, input ≠ .request now peer request :=
      fun now peer request same => asks ⟨now, peer, request, same⟩
    exact books_settled books (settles_step core other) (nextStream_step core input)

theorem books_new (transport : T) : Books (RepairCore.new transport) [] := by
  refine ⟨fun stream => ?_, fun stream => ?_, fun stream held => ?_, fun stream repair found => ?_⟩
  · rw [live_none (TreeMap.getElem?_emptyc)]
    rfl
  · exact Nat.zero_le 1
  · cases held
  · rw [show (RepairCore.new transport).outboundRepairs = ∅ from rfl, TreeMap.getElem?_emptyc] at found
    cases found

theorem books_run (transport : T) (inputs : List (Input T)) :
    Books (run step (RepairCore.new transport) inputs).1 (run step (RepairCore.new transport) inputs).2 :=
  run_history (P := fun _ core log => Books core log) (books_new transport)
    (fun _ _ _ input books _ => books_step books input) inputs (meets_true inputs)

theorem requests_pos {log : List RepairAction} {deadline : Instant} (asked : .requested stream deadline ∈ log) :
    0 < requests stream log := List.countP_pos_iff.mpr ⟨_, asked, by simp [asksOn]⟩

/-- Two requests in the books of one stream would be two streams. -/
theorem deadline_unique {log : List RepairAction} (once : requests stream log ≤ 1) {deadline later : Instant}
    (asked : .requested stream deadline ∈ log) (again : .requested stream later ∈ log) : deadline = later := by
  rw [requests, List.countP_eq_length_filter] at once
  have first : RepairAction.requested stream deadline ∈ log.filter (asksOn stream) :=
    List.mem_filter.mpr ⟨asked, by simp [asksOn]⟩
  have second : RepairAction.requested stream later ∈ log.filter (asksOn stream) :=
    List.mem_filter.mpr ⟨again, by simp [asksOn]⟩
  generalize log.filter (asksOn stream) = entries at once first second
  cases entries with
  | nil => cases first
  | cons only rest =>
    have alone : rest = [] := List.eq_nil_of_length_eq_zero (by simpa using once)
    rw [alone, List.mem_singleton] at first second
    rw [← first] at second
    exact (RepairAction.requested.inj second).2.symm

/-- Once reported, always reported: an exchange that has ended does not come back. -/
theorem settled_stays (transport : T) (before after : List (Input T))
    (asked : 0 < requests stream (run step (RepairCore.new transport) before).2)
    (left : (run step (RepairCore.new transport) before).1.live stream = 0) :
    (run step (RepairCore.new transport) (before ++ after)).1.live stream = 0 := by
  have early := books_run transport before
  have late := books_run transport (before ++ after)
  have ended := early.count stream
  have count := late.count stream
  have once := late.once stream
  have grew : terminals stream (run step (RepairCore.new transport) before).2 ≤
      terminals stream (run step (RepairCore.new transport) (before ++ after)).2 := by
    rw [run_append]
    simp only [terminals, List.countP_append]
    omega
  omega

theorem left_after_timer (transport : T) (before : List (Input T)) (now deadline : Instant)
    (asked : .requested stream deadline ∈ (run step (RepairCore.new transport) before).2) (due : deadline ≤ now) :
    (run step (RepairCore.new transport) (before ++ [.timer now])).1.live stream = 0 := by
  have books := books_run transport (before ++ [.timer now])
  have still : .requested stream deadline ∈ (run step (RepairCore.new transport) (before ++ [.timer now])).2 := by
    rw [run_concat]
    exact List.mem_append_left _ asked
  apply live_none
  rw [Option.eq_none_iff_forall_ne_some]
  intro repair found
  have dated := books.dated stream repair found
  have same := deadline_unique (books.once stream) still dated
  rw [run_concat] at found
  have later := (expireRepairs_spec _ now).2 stream repair found
  rw [← same] at later
  exact Nat.not_lt.mpr due later

/-- Every request is awaited or has ended, once; a timer at or past its deadline ends the waiting. -/
theorem repair_request_ends_once (transport : T) (inputs : List (Input T)) :
    (∀ stream deadline, .requested stream deadline ∈ (run step (RepairCore.new transport) inputs).2 →
      terminals stream (run step (RepairCore.new transport) inputs).2 +
        (if stream ∈ (run step (RepairCore.new transport) inputs).1.outboundRepairs then 1 else 0) = 1) ∧
    (∀ before now after, inputs = before ++ .timer now :: after → ∀ stream deadline,
      .requested stream deadline ∈ (run step (RepairCore.new transport) before).2 → deadline ≤ now →
      stream ∉ (run step (RepairCore.new transport) inputs).1.outboundRepairs) := by
  constructor
  · intro stream deadline asked
    have books := books_run transport inputs
    have pos := requests_pos asked
    have once := books.once stream
    exact (books.count stream).trans (by omega)
  · rintro before now after rfl stream deadline asked due held
    have gone := left_after_timer transport before now deadline asked due
    have pos : 0 < requests stream (run step (RepairCore.new transport) (before ++ [.timer now])).2 := by
      apply requests_pos
      rw [run_concat]
      exact List.mem_append_left _ asked
    have stays := settled_stays transport (before ++ [.timer now]) after pos gone
    rw [List.append_assoc, List.singleton_append, live, if_pos held] at stays
    cases stays

end Lightbringer.Overlay.RepairCore
