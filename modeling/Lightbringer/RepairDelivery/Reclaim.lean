import Lightbringer.Lib.Entries
import Lightbringer.RepairDelivery.Authenticity

/-!
# How long the rate limit of an address is kept

The clean-up stands at the end of the loop. A ping, a packet over the limit, one that does not decode and a request whose
header is refused all end the turn before it.
-/

namespace Lightbringer.RepairDelivery
open Std Machine Overlay
namespace ServeRepair

theorem secsSince_lt {since now : Instant} {n : Nat} (positive : 0 < n) :
    secsSince since now < n ↔ now < since + fromSecs n := by
  have seconds : fromSecs n = n * fromSecs 1 := by rw [fromSecs, fromSecs, Nat.one_mul]
  rw [secsSince, Nat.div_lt_iff_lt_mul (by decide), seconds]
  have some : 0 < n * fromSecs 1 := Nat.mul_pos positive (by decide)
  have elapsed : ∀ a b span : Nat, 0 < span → (a - b < span ↔ a < b + span) := by omega
  exact elapsed now since _ some

variable {Keypair : Type} [PingPong Keypair]

section
variable (task : ServeRepair Keypair) (turn : Turn)

/-- The packet gets to the end of the loop. -/
def Finishes : Prop :=
  ∃ packet fromAddr request, turn.received = some (packet, fromAddr) ∧
    handlePing task.keypair packet fromAddr = none ∧ (task.rateLimit fromAddr turn.now).2 = true ∧
    deserializeRequest packet = some request ∧
    ∀ header, request.shredHeader = some header → validateHeader header task.myId turn.timestamp = true

/-- The table once the packet has been counted. -/
def counted : TreeMap SocketAddr PeerRateLimit :=
  match turn.received with
  | none => task.rateLimits
  | some (packet, fromAddr) =>
    match handlePing task.keypair packet fromAddr with
    | some _ => task.rateLimits
    | none => task.rateLimits.insert fromAddr (task.rateLimit fromAddr turn.now).1

omit [PingPong Keypair] in
/-- The clean-up is due at the end of the turn. -/
def Due : Prop := turn.received.isSome = true ∧ 60 ≤ secsSince task.lastRateLimitCleanup turn.done

def Fresh (rateLimits : TreeMap SocketAddr PeerRateLimit) (now : Instant) : Prop :=
  ∀ (addr : SocketAddr) (limit : PeerRateLimit), rateLimits[addr]? = some limit → secsSince limit.windowStart now < 30

/-- A turn with a clean-up due leaves no idle entry. -/
def Reclaims : Prop := task.Due turn → Fresh (task.step turn).1.rateLimits turn.done

/-- A turn with a clean-up due gets that far, or there is nothing to clean up. -/
def Cleans : Prop := task.Due turn → task.Finishes turn ∨ Fresh (task.counted turn) turn.done

end

/-! ### What a turn does to the table -/

/-- The part of the task that the clean-up is about. -/
def table (task : ServeRepair Keypair) : TreeMap SocketAddr PeerRateLimit × Instant :=
  (task.rateLimits, task.lastRateLimitCleanup)

section
variable {task : ServeRepair Keypair} {turn : Turn}

omit [PingPong Keypair] in
theorem table_reportStatsIfNeeded (task : ServeRepair Keypair) (now : Instant) :
    (task.reportStatsIfNeeded now).1.table = task.table := by
  unfold reportStatsIfNeeded
  split
  · rfl
  · rfl

omit [PingPong Keypair] in
theorem table_cleanUp {task other : ServeRepair Keypair} (same : task.table = other.table) (now : Instant) :
    (task.cleanUp now).table = (other.cleanUp now).table := by
  obtain ⟨limits, cleaned⟩ := Prod.mk.inj same
  unfold cleanUp
  rw [limits, cleaned]
  split
  · rfl
  · exact same

theorem handleRequest_ok_iff (stats : ServeRepairStats) (myId : Pubkey) (turn : Turn) (fromAddr : SocketAddr)
    (request : RepairProtocol) :
    (∃ after, handleRequest stats myId turn fromAddr request = .ok after) ↔
      ∀ header, request.shredHeader = some header → validateHeader header myId turn.timestamp = true := by
  have checked : ∀ (header : RepairRequestHeader) (refused : ServeRepairStats) (after : ServeRepairStats × List Event),
      (∃ result, (if !validateHeader header myId turn.timestamp then .error refused else .ok after :
        Except ServeRepairStats (ServeRepairStats × List Event)) = .ok result) ↔
      ∀ named, some header = some named → validateHeader named myId turn.timestamp = true := by
    intro header refused after
    cases valid : validateHeader header myId turn.timestamp <;> simp [valid]
  cases request with
  | windowIndex header slot shredIndex => exact checked header _ _
  | highestWindowIndex header slot shredIndex => exact checked header _ _
  | _ => simp [handleRequest, RepairProtocol.shredHeader]

/-- A packet that gets to the end of the loop is followed by the clean-up, any other is just counted. -/
theorem table_step (task : ServeRepair Keypair) (turn : Turn) :
    (task.Finishes turn ∧
      (task.step turn).1.table = ({ task with rateLimits := task.counted turn }.cleanUp turn.done).table) ∨
    (¬ task.Finishes turn ∧ (task.step turn).1.table = (task.counted turn, task.lastRateLimitCleanup)) := by
  unfold step counted Finishes
  cases received : turn.received with
  | none => exact .inr ⟨by simp, rfl⟩
  | some arrived =>
    obtain ⟨packet, fromAddr⟩ := arrived
    dsimp only
    cases handled : handlePing task.keypair packet fromAddr with
    | some pong => exact .inr ⟨by simp [handled], rfl⟩
    | none =>
      dsimp only
      unfold serve
      cases admitted : (task.rateLimit fromAddr turn.now).2 with
      | false =>
        refine .inr ⟨by simp [admitted], ?_⟩
        simp only [admitted, Bool.not_false, if_true]
        exact table_reportStatsIfNeeded _ _
      | true =>
        simp only [admitted, Bool.not_true, Bool.false_eq_true, if_false]
        cases decoded : deserializeRequest packet with
        | none => exact .inr ⟨by simp [decoded], table_reportStatsIfNeeded _ _⟩
        | some request =>
          dsimp only
          have ends := handleRequest_ok_iff task.stats task.myId turn fromAddr request
          cases answered : handleRequest task.stats task.myId turn fromAddr request with
          | error stats =>
            rw [answered] at ends
            refine .inr ⟨?_, table_reportStatsIfNeeded _ _⟩
            rintro ⟨_, _, _, same, _, _, decoded', valid⟩
            cases same
            rw [decoded] at decoded'
            cases decoded'
            obtain ⟨_, impossible⟩ := ends.mpr valid
            cases impossible
          | ok after =>
            obtain ⟨stats, sent⟩ := after
            refine .inl ⟨⟨packet, fromAddr, request, rfl, handled, admitted, decoded, ends.mp ⟨_, answered⟩⟩, ?_⟩
            let limited : ServeRepair Keypair :=
              { task with rateLimits := task.rateLimits.insert fromAddr (task.rateLimit fromAddr turn.now).1 }
            have same : ({ limited with stats := stats }.reportStatsIfNeeded turn.done).1.table = limited.table :=
              table_reportStatsIfNeeded _ _
            exact table_cleanUp same _

omit [PingPong Keypair] in
theorem getElem?_filter {rateLimits : TreeMap SocketAddr PeerRateLimit} {keep : PeerRateLimit → Bool} {addr : SocketAddr}
    {limit : PeerRateLimit} :
    (rateLimits.filter (fun _ limit => keep limit))[addr]? = some limit ↔
      rateLimits[addr]? = some limit ∧ keep limit = true := by
  rw [TreeMap.getElem?_filter]
  cases rateLimits[addr]? <;> simp [and_comm]

theorem mem_step {addr : SocketAddr} {limit : PeerRateLimit} (left : (task.step turn).1.rateLimits[addr]? = some limit) :
    (task.counted turn)[addr]? = some limit := by
  rcases task.table_step turn with ⟨_, after⟩ | ⟨_, after⟩
  · rw [(Prod.mk.inj after).1, cleanUp] at left
    split at left
    · exact (getElem?_filter.mp left).1
    · exact left
  · rwa [(Prod.mk.inj after).1] at left

theorem reclaims_iff (task : ServeRepair Keypair) (turn : Turn) : task.Reclaims turn ↔ task.Cleans turn := by
  unfold Reclaims Cleans
  refine forall_congr' (fun due => ?_)
  rcases task.table_step turn with ⟨finishes, after⟩ | ⟨ends, after⟩
  · refine iff_of_true (fun addr limit left => ?_) (.inl finishes)
    rw [(Prod.mk.inj after).1, cleanUp, if_pos due.2] at left
    exact of_decide_eq_true (getElem?_filter.mp left).2
  · rw [or_iff_right ends, (Prod.mk.inj after).1]

/-! ### Whose entries are left -/

omit [PingPong Keypair] in
theorem rateLimit_windowStart (task : ServeRepair Keypair) (fromAddr : SocketAddr) (now : Instant) :
    (task.rateLimit fromAddr now).1.windowStart = now ∨ ∃ old, task.rateLimits[fromAddr]? = some old ∧
      old.windowStart = (task.rateLimit fromAddr now).1.windowStart := by
  have kept : ∀ limit : PeerRateLimit, (limit.checkAndIncrement now).1.windowStart = now ∨
      (limit.checkAndIncrement now).1.windowStart = limit.windowStart := by
    intro limit
    unfold PeerRateLimit.checkAndIncrement
    dsimp only
    by_cases lapsed : rateLimitWindowSecs ≤ secsSince limit.windowStart now
    · rw [if_pos lapsed]
      split <;> exact .inl rfl
    · rw [if_neg lapsed]
      split <;> exact .inr rfl
  unfold rateLimit
  cases found : task.rateLimits[fromAddr]? with
  | none =>
    rcases kept (.new now) with fresh | same
    · exact .inl fresh
    · exact .inl same
  | some old =>
    rcases kept old with fresh | same
    · exact .inl fresh
    · exact .inr ⟨old, rfl, same.symm⟩

theorem windowStart_counted {addr : SocketAddr} {limit : PeerRateLimit}
    (left : (task.counted turn)[addr]? = some limit) :
    turn.received.map (·.2) = some addr ∧ limit.windowStart = turn.now ∨
      ∃ old, task.rateLimits[addr]? = some old ∧ old.windowStart = limit.windowStart := by
  unfold counted at left
  split at left
  · exact .inr ⟨limit, left, rfl⟩
  next packet fromAddr received =>
    split at left
    · exact .inr ⟨limit, left, rfl⟩
    · rw [Entries.getElem?_insert] at left
      split at left
      next same =>
        subst same
        cases left
        rcases rateLimit_windowStart task fromAddr turn.now with fresh | old
        · exact .inl ⟨by rw [received]; rfl, fresh⟩
        · exact .inr old
      next => exact .inr ⟨limit, left, rfl⟩

/-- A clock that does not go back. -/
def Clocked (clock : Instant) : List Turn → Prop
  | [] => True
  | turn :: rest => clock ≤ turn.now ∧ turn.now ≤ turn.done ∧ Clocked turn.done rest

/-- The addresses that packets came from in the last ninety seconds, each once. -/
def recentSources (turns : List Turn) (now : Instant) : List SocketAddr :=
  ((turns.filter (fun turn => now < turn.now + fromSecs 90)).filterMap (fun turn => turn.received.map (·.2))).dedup

/-- Every entry's window began with a packet of its address, and less than thirty seconds before the last clean-up. -/
structure Aged (task : ServeRepair Keypair) (past : List Turn) (clock : Instant) : Prop where
  cleaned : task.lastRateLimitCleanup ≤ clock
  began : ∀ (addr : SocketAddr) (limit : PeerRateLimit), task.rateLimits[addr]? = some limit →
    ∃ turn ∈ past, turn.received.map (·.2) = some addr ∧ turn.now = limit.windowStart
  young : ∀ (addr : SocketAddr) (limit : PeerRateLimit), task.rateLimits[addr]? = some limit →
    task.lastRateLimitCleanup < limit.windowStart + fromSecs 30

omit [PingPong Keypair] in
theorem aged_new (keypair : Keypair) (myId : Pubkey) (start : Instant) :
    Aged (.new keypair myId start : ServeRepair Keypair) [] start where
  cleaned := Nat.le_refl start
  began addr limit found := by simp [new] at found
  young addr limit found := by simp [new] at found

theorem Aged.counted {past : List Turn} {clock : Instant} (held : Aged task past clock) (later : clock ≤ turn.now)
    {addr : SocketAddr} {limit : PeerRateLimit} (left : (task.counted turn)[addr]? = some limit) :
    (∃ seen ∈ past ++ [turn], seen.received.map (·.2) = some addr ∧ seen.now = limit.windowStart) ∧
      task.lastRateLimitCleanup < limit.windowStart + fromSecs 30 := by
  rcases windowStart_counted left with ⟨mine, begins⟩ | ⟨old, found, same⟩
  · refine ⟨⟨turn, by simp, mine, begins.symm⟩, ?_⟩
    rw [begins]
    have span : 0 < fromSecs 30 := by decide
    exact Nat.lt_of_le_of_lt (Nat.le_trans held.cleaned later) (Nat.lt_add_of_pos_right span)
  · obtain ⟨seen, member, theirs, begins⟩ := held.began addr old found
    refine ⟨⟨seen, List.mem_append_left _ member, theirs, begins.trans same⟩, ?_⟩
    rw [← same]
    exact held.young addr old found

theorem aged_step {past : List Turn} {clock : Instant} (held : Aged task past clock) (later : clock ≤ turn.now)
    (takes : turn.now ≤ turn.done) : Aged (task.step turn).1 (past ++ [turn]) turn.done := by
  have passed : task.lastRateLimitCleanup ≤ turn.done := Nat.le_trans held.cleaned (Nat.le_trans later takes)
  have began : ∀ (addr : SocketAddr) (limit : PeerRateLimit), (task.step turn).1.rateLimits[addr]? = some limit →
      ∃ seen ∈ past ++ [turn], seen.received.map (·.2) = some addr ∧ seen.now = limit.windowStart :=
    fun addr limit left => (held.counted later (mem_step left)).1
  rcases task.table_step turn with ⟨_, after⟩ | ⟨_, after⟩
  · obtain ⟨limits, cleaned⟩ := Prod.mk.inj after
    unfold cleanUp at limits cleaned
    split at limits
    next due =>
      rw [if_pos due] at cleaned
      refine ⟨Nat.le_of_eq cleaned, began, fun addr limit left => ?_⟩
      rw [limits] at left
      rw [cleaned]
      exact (secsSince_lt (by decide)).mp (of_decide_eq_true (getElem?_filter.mp left).2)
    next early =>
      rw [if_neg early] at cleaned
      refine ⟨Nat.le_trans (Nat.le_of_eq cleaned) passed, began, fun addr limit left => ?_⟩
      rw [cleaned]
      exact (held.counted later (mem_step left)).2
  · obtain ⟨_, cleaned⟩ := Prod.mk.inj after
    refine ⟨Nat.le_trans (Nat.le_of_eq cleaned) passed, began, fun addr limit left => ?_⟩
    rw [cleaned]
    exact (held.counted later (mem_step left)).2

theorem aged_run {past later : List Turn} {clock : Instant} (turns : List Turn) (held : Aged task past clock)
    (clocked : Clocked clock (turns ++ later)) :
    ∃ clock', Aged (run step task turns).1 (past ++ turns) clock' ∧ Clocked clock' later := by
  induction turns generalizing task past clock with
  | nil => exact ⟨clock, by rwa [List.append_nil], clocked⟩
  | cons turn rest ih =>
    obtain ⟨began, takes, clocked⟩ := clocked
    obtain ⟨clock', aged, rest'⟩ := ih (aged_step held began takes) clocked
    rw [List.append_assoc] at aged
    exact ⟨clock', aged, rest'⟩

/-- After a packet that leaves no idle entry where a clean-up is due, every entry is of a recent source. -/
theorem size_le_of_reclaims {past : List Turn} {clock : Instant} (held : Aged task past clock) (later : clock ≤ turn.now)
    (handled : turn.received.isSome = true) (reclaims : task.Reclaims turn) :
    (task.step turn).1.rateLimits.size ≤ (recentSources (past ++ [turn]) turn.done).length := by
  refine Entries.size_le_length (fun addr left => ?_)
  obtain ⟨limit, found⟩ := Option.isSome_iff_exists.mp left
  obtain ⟨⟨seen, member, theirs, begins⟩, young⟩ := held.counted later (mem_step found)
  have recent : turn.done < limit.windowStart + fromSecs 90 := by
    by_cases due : 60 ≤ secsSince task.lastRateLimitCleanup turn.done
    · have fresh := (secsSince_lt (by decide)).mp (reclaims ⟨handled, due⟩ addr limit found)
      exact Nat.lt_of_lt_of_le fresh (Nat.add_le_add_left (by decide) _)
    · have early := (secsSince_lt (by decide)).mp (Nat.lt_of_not_le due)
      have spans : fromSecs 30 + fromSecs 60 = fromSecs 90 := by decide
      rw [← spans, ← Nat.add_assoc]
      exact Nat.lt_trans early (Nat.add_lt_add_right young _)
  rw [recentSources, List.mem_dedup, List.mem_filterMap]
  exact ⟨seen, List.mem_filter.mpr ⟨member, decide_eq_true (begins ▸ recent)⟩, theirs⟩

/-- No idle entry outlives a clean-up that is due, and the table is no larger than its recent sources. -/
structure Reclaimed (task : ServeRepair Keypair) (turns : List Turn) : Prop where
  idle : Meets step Reclaims task turns
  bounded : ∀ earlier turn later, turns = earlier ++ turn :: later → turn.received.isSome = true →
    (run step task (earlier ++ [turn])).1.rateLimits.size ≤ (recentSources (earlier ++ [turn]) turn.done).length

/-- The table is reclaimed exactly if every packet that finds a clean-up due gets as far as the clean-up, or there is
nothing to clean up. -/
theorem reclaimed_iff (keypair : Keypair) (myId : Pubkey) (start : Instant) (turns : List Turn)
    (clocked : Clocked start turns) :
    Reclaimed (.new keypair myId start) turns ↔ Meets step Cleans (.new keypair myId start) turns := by
  rw [← meets_congr reclaims_iff turns]
  refine ⟨fun reclaimed => reclaimed.idle, fun idle => ⟨idle, fun earlier turn later split handled => ?_⟩⟩
  subst split
  obtain ⟨clock, aged, began, _⟩ := aged_run earlier (aged_new keypair myId start) clocked
  rw [run_concat]
  exact size_le_of_reclaims aged began handled ((meets_iff_prefixes _).mp idle earlier turn later rfl)

end

/-! ### Packets that are no requests -/

/-- An empty packet. -/
def emptyTurn (fromAddr : SocketAddr) (now : Instant) : Turn := ⟨some (⟨[], by decide⟩, fromAddr), now, 0, now, ⟨.ok ∅⟩⟩

def silentAddr : SocketAddr := ⟨.v4 0xC0000208, 8001⟩

/-- A second source is heard 100 seconds after the first one. -/
def emptyPackets : List Turn := [emptyTurn silentAddr 0, emptyTurn victimAddr (fromSecs 100)]

def requestTurn : Turn := ⟨some (unsignedPacket, victimAddr), fromSecs 100, 1000, fromSecs 100, ⟨.ok ∅⟩⟩

/-- The second source sends a request, so that the clean-up that is due is made. -/
theorem reclaimed_iff_request :
    Clocked 0 [emptyTurn silentAddr 0, requestTurn] ∧ (servingTask.step (emptyTurn silentAddr 0)).1.Due requestTurn ∧
      Reclaimed servingTask [emptyTurn silentAddr 0, requestTurn] ∧
      (run step servingTask [emptyTurn silentAddr 0, requestTurn]).1.rateLimits[silentAddr]? = none := by
  have clocked : Clocked 0 [emptyTurn silentAddr 0, requestTurn] := by simp [Clocked, emptyTurn, requestTurn]
  have finishes : (servingTask.step (emptyTurn silentAddr 0)).1.Finishes requestTurn := by
    refine ⟨unsignedPacket, victimAddr, .windowIndex unsignedHeader 5 0, rfl, by decide +kernel, by decide +kernel,
      deserializeRequest_iff.mpr rfl, fun header named => ?_⟩
    cases named
    decide +kernel
  have early : servingTask.Cleans (emptyTurn silentAddr 0) := fun due => absurd due.2 (by decide +kernel)
  refine ⟨clocked, ⟨rfl, by decide +kernel⟩, ?_, ?_⟩
  · exact (reclaimed_iff () 1 0 [emptyTurn silentAddr 0, requestTurn] clocked).mpr ⟨early, fun _ => .inl finishes, trivial⟩
  · have dropped : ((run step servingTask [emptyTurn silentAddr 0, requestTurn]).1.rateLimits[silentAddr]?).isNone = true := by
      decide +kernel
    exact Option.isNone_iff_eq_none.mp dropped

theorem idle_entry_outlives_cleanup :
    Clocked 0 emptyPackets ∧
      ((run step servingTask emptyPackets).1.rateLimits[silentAddr]?).map PeerRateLimit.windowStart = some 0 ∧
      ¬ ∀ turns, Clocked 0 turns → Reclaimed servingTask turns := by
  have clocked : Clocked 0 emptyPackets := by simp [Clocked, emptyPackets, emptyTurn]
  have left : ((run step servingTask emptyPackets).1.rateLimits[silentAddr]?).map PeerRateLimit.windowStart = some 0 := by
    decide +kernel
  refine ⟨clocked, left, fun all => ?_⟩
  obtain ⟨_, reclaims, _⟩ := (all emptyPackets clocked).idle
  obtain ⟨limit, found, begins⟩ := Option.map_eq_some_iff.mp left
  have young := reclaims ⟨rfl, by decide +kernel⟩ silentAddr limit found
  rw [begins] at young
  exact absurd young (by decide)

end ServeRepair

end Lightbringer.RepairDelivery
