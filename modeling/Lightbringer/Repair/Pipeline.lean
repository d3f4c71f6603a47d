import Lightbringer.Repair.Manager
import Lightbringer.Store.Staleness

/-!
# The repair pipeline

The metadata task, the staleness monitor, the request processor, the outstanding loop and the receive loop with the
channels between them. One input is one turn of one task, a timer that fires, or a packet that arrives, and inputs
come in any order. Channels are unbounded.
-/

namespace Lightbringer.Repair
open Std Store Machine

structure Pipeline where
  monitor : SlotMonitor
  manager : RepairManager
  /-- Answers the receive loop let through, on their way past the packet filter to the metadata task. -/
  responses : List PacketInfo
  /-- The staleness monitor panicked. -/
  halted : Bool

namespace Pipeline

def new (version : UInt16) : Pipeline := ⟨SlotMonitor.new version, RepairManager.new, [], false⟩

inductive Input where
  /-- A shred from turbine or the overlay reaches the metadata task. -/
  | shred (timestampMs : Nat) (packet : PacketInfo)
  /-- The answer at `index` passes the packet filter and reaches the metadata task. -/
  | response (timestampMs : Nat) (index : Nat)
  | filterDrops (index : Nat)
  | evict (slot : UInt64)
  | monitor
  | staleTimer (slot : UInt64)
  | process (draws : Nat → Draw)
  | outstanding (draw : Draw)
  | requestTimer (key : Nat)
  | looseRequestTimer (index : Nat)
  | receive (route : RepairRoute) (packet : PacketInfo) (draws : Nat → Draw)

/-- The turns of the executor that the metadata task and the staleness monitor share. -/
def Input.ofMonitor : Input → Bool
  | .shred .. | .response .. | .evict _ | .monitor | .staleTimer _ => true
  | _ => false

def forwardedOf (out : List Event) : List PacketInfo :=
  out.filterMap (fun event => match event with | .forwarded packet => some packet | _ => none)

variable [ShredLayout]

/-- The slot a packet is about, as a list. -/
def slotsOf (packet : PacketInfo) : List UInt64 := (ShredLayout.getSlot packet).toList

/-- One turn of a task that runs. -/
def turn (p : Pipeline) : Input → Pipeline × List Event
  | .shred timestampMs packet =>
    let handled := p.monitor.handlePacket timestampMs packet
    ({ p with monitor := handled.1 }, if handled.2 = .ignored then [] else (slotsOf packet).map .accepted)
  | .response timestampMs index =>
    match p.responses[index]? with
    | none => (p, [])
    | some packet =>
      let handled := p.monitor.handlePacket timestampMs packet
      ({ p with monitor := handled.1, responses := p.responses.eraseIdx index },
        (slotsOf packet).map (fun slot => if handled.2 = .ignored then .gaveUp slot .notAccepted else .accepted slot))
  | .filterDrops index =>
    match p.responses[index]? with
    | none => (p, [])
    | some packet =>
      ({ p with responses := p.responses.eraseIdx index }, (slotsOf packet).map (fun slot => .gaveUp slot .filtered))
  | .evict slot => ({ p with monitor := p.monitor.evict slot }, [])
  | .monitor =>
    match p.monitor.monitorStep with
    | none => ({ p with halted := true }, [])
    | some (monitor, requests) =>
      ({ p with monitor := monitor, manager := { p.manager with requests := p.manager.requests ++ requests } }, [])
  | .staleTimer slot => ({ p with monitor := p.monitor.fire slot }, [])
  | .process draws =>
    let served := p.manager.requestProcessorStep draws
    ({ p with manager := served.1 }, served.2)
  | .outstanding draw =>
    let served := p.manager.outstandingStep draw
    ({ p with manager := served.1 }, served.2)
  | .requestTimer key => ({ p with manager := p.manager.fire key }, [])
  | .looseRequestTimer index => ({ p with manager := p.manager.fireLoose index }, [])
  | .receive route packet draws =>
    let received := p.manager.receive route packet draws
    ({ p with manager := received.1, responses := p.responses ++ forwardedOf received.2 }, received.2)

/-- A panic stops the executor it happens on. The loops of the repair manager have another one, and go on. -/
def step (p : Pipeline) (input : Input) : Pipeline × List Event :=
  if p.halted && input.ofMonitor then (p, []) else p.turn input

/-! ### Who is responsible for a slot -/

variable (slot : UInt64) (p : Pipeline)

/-- A staleness timer or a message of one. -/
def Watched : Prop :=
  .insertion slot ∈ p.monitor.timerMsgs ∨ .timeout slot ∈ p.monitor.timerMsgs ∨ p.monitor.timers[slot]? = some true

def Requested : Prop := ∃ request ∈ p.manager.requests, request.asksFor slot = true

/-- Any queued message of the outstanding loop. -/
def Queued : Prop := ∃ request, (.new request ∈ p.manager.messages ∨ .timeout request ∈ p.manager.messages) ∧
  request.slot = slot

def Answered : Prop := ∃ packet ∈ p.responses, ShredLayout.getSlot packet = some slot

/-- Somebody is still to do something about the slot. -/
def Tended : Prop := Watched slot p ∨ Requested slot p ∨ p.manager.outstanding.Waits slot ∨ Queued slot p

/-- As `Tended`, where a timeout message counts only while its request is outstanding, and answers that wait for
the metadata task count too. -/
def Held : Prop :=
  Watched slot p ∨ Requested slot p ∨ p.manager.Engaged slot ∨ Answered slot p

/-- The slot was let go of at one of the exits, with nobody left to hold it, and none of its shreds has been
accepted since. -/
def Lapsed (start : Pipeline) (inputs : List Input) : Prop :=
  ∃ before input after exit, inputs = before ++ input :: after ∧
    .gaveUp slot exit ∈ ((run step start before).1.step input).2 ∧
    ¬ Held slot ((run step start before).1.step input).1 ∧
    .accepted slot ∉ (run step ((run step start before).1.step input).1 after).2

end Pipeline

end Lightbringer.Repair
