import Lightbringer.Lib.Bincode
import Lightbringer.Lib.HashChain
import Lightbringer.Overlay.Sim.WorldOrder

/-!
# The trace hash

`overlay/sim/trace.rs`: each event of a simulation is encoded and hashed behind the hash so far. The hash stands for the
run: two runs with the same hash had the same events at the same times, or they break the hash function.
-/

namespace Lightbringer.Overlay.Sim
open Bincode

/-- `NatDropReason::as_str`. -/
def NatDropReason.asStr : NatDropReason → String
  | .noMapping => "no-mapping"
  | .mappingExpired => "mapping-expired"
  | .filtered => "filtered"
  | .portPoolExhausted => "port-pool-exhausted"

def NatDropReason.bytes (reason : NatDropReason) : List UInt8 := reason.asStr.toByteArray.data.toList

def encodeAddr (addr : SocketAddr) : List UInt8 :=
  match addr.ip with
  | .v4 octets => 4 :: (Bytes.ofNat 4 octets.toNat ++ fixed 2 addr.port.toNat)
  | .v6 octets => 6 :: (Bytes.ofNat 16 octets.toNat ++ fixed 2 addr.port.toNat)

/-- `u8::from`. -/
def ofBool (flag : Bool) : UInt8 := if flag then 1 else 0

def encodePubkey : Option Pubkey → List UInt8
  | some pubkey => 1 :: Bytes.ofNat 32 pubkey.toNat
  | none => [0]

def encodeEvent : TraceEvent → List UInt8
  | .hostSend host source dest len => 1 :: (fixed 4 host ++ (encodeAddr source ++ (encodeAddr dest ++ fixed 8 len)))
  | .delivered host src dst len => 2 :: (fixed 4 host ++ (encodeAddr src ++ (encodeAddr dst ++ fixed 8 len)))
  | .linkDropped source dest len => 3 :: (fixed 4 source ++ (fixed 4 dest ++ fixed 8 len))
  | .linkDuplicated source dest => 4 :: (fixed 4 source ++ fixed 4 dest)
  | .linkDown source dest => 5 :: (fixed 4 source ++ fixed 4 dest)
  | .mtuDropped source dest len mtu => 6 :: (fixed 4 source ++ (fixed 4 dest ++ (fixed 8 len ++ fixed 8 mtu)))
  | .noRoute source dest => 7 :: (fixed 4 source ++ encodeAddr dest)
  | .natMapped host level internal external =>
    8 :: (fixed 4 host ++ (fixed 1 level ++ (encodeAddr internal ++ encodeAddr external)))
  | .natDropped host level reason => 9 :: (fixed 4 host ++ (fixed 1 level ++ reason.bytes))
  | .noSocket host dst => 10 :: (fixed 4 host ++ encodeAddr dst)
  | .peerConnected host peer pubkey =>
    11 :: (fixed 4 host ++ (encodeAddr peer ++ encodePubkey pubkey))
  | .peerDisconnected host peer => 12 :: (fixed 4 host ++ encodeAddr peer)
  | .shredDelivered host payloadHash => 13 :: (fixed 4 host ++ fixed 8 payloadHash.toNat)
  | .hostDown host => 14 :: fixed 4 host
  | .hostUp host => 15 :: fixed 4 host
  | .appDatagram host source payloadHash => 16 :: (fixed 4 host ++ (encodeAddr source ++ fixed 8 payloadHash.toNat))
  | .repairServed host slot index highest found =>
    17 :: (fixed 4 host ++ (fixed 8 slot.toNat ++ (fixed 4 index.toNat ++ [ofBool highest, ofBool found])))
  | .repairConcluded host found => 18 :: (fixed 4 host ++ [ofBool found])
  | .repairFailed host => 19 :: fixed 4 host
  | .firewallDropped host reason => 20 :: (fixed 4 host ++ reason.bytes)
  | .gatewayRequest host len => 21 :: (fixed 4 host ++ fixed 8 len)

/-- `trace::Trace`, past the scratch buffer and the printing. -/
structure Trace where
  state : List UInt8
  events : Nat

def Trace.new : Trace := ⟨List.replicate 32 0, 0⟩

/-- What is hashed behind the state for one event. -/
def message (item : UInt64 × TraceEvent) : List UInt8 := fixed 8 item.1.toNat ++ encodeEvent item.2

/-- `hash` is SHA-256. -/
def Trace.record (hash : List UInt8 → List UInt8) (trace : Trace) (item : UInt64 × TraceEvent) : Trace :=
  ⟨hash (trace.state ++ message item), trace.events + 1⟩

def hexDigit (digit : Nat) : Char := if digit < 10 then Char.ofNat (48 + digit) else Char.ofNat (87 + digit)

def hexByte (byte : UInt8) : List Char := [hexDigit (byte.toNat / 16), hexDigit (byte.toNat % 16)]

def Trace.hashHex (trace : Trace) : String := String.ofList (trace.state.flatMap hexByte)

/-- `trace_hash`, of all that a world recorded. -/
def SimWorld.traceHash {N G R : Type} (hash : List UInt8 → List UInt8) (world : SimWorld N G R) : String :=
  (world.trace.foldl (Trace.record hash) .new).hashHex

/-- The numbers of an event fit their types. -/
def TraceEvent.Typed : TraceEvent → Prop
  | .hostSend host _ _ len | .delivered host _ _ len | .gatewayRequest host len => host < 256 ^ 4 ∧ len < 256 ^ 8
  | .linkDropped source dest len => source < 256 ^ 4 ∧ dest < 256 ^ 4 ∧ len < 256 ^ 8
  | .linkDuplicated source dest | .linkDown source dest => source < 256 ^ 4 ∧ dest < 256 ^ 4
  | .mtuDropped source dest len mtu => source < 256 ^ 4 ∧ dest < 256 ^ 4 ∧ len < 256 ^ 8 ∧ mtu < 256 ^ 8
  | .natMapped host level _ _ | .natDropped host level _ => host < 256 ^ 4 ∧ level < 256 ^ 1
  | .noRoute host _ | .noSocket host _ | .peerConnected host _ _ | .peerDisconnected host _ | .shredDelivered host _
  | .appDatagram host _ _ | .hostDown host | .hostUp host | .repairServed host _ _ _ _ | .repairConcluded host _
  | .repairFailed host | .firewallDropped host _ => host < 256 ^ 4

theorem delimited_encodeAddr : Delimited encodeAddr := by
  intro a b rest rest' same
  obtain ⟨ipA, portA⟩ := a
  obtain ⟨ipB, portB⟩ := b
  cases ipA with
  | v4 octetsA =>
    cases ipB with
    | v4 octetsB =>
      simp only [encodeAddr, List.cons_append, List.append_assoc, List.cons.injEq, true_and] at same
      obtain ⟨octets, same⟩ := ofNat_inj 4 octetsA.isLt octetsB.isLt same
      obtain ⟨port, same⟩ := fixed_inj portA.toNat_lt portB.toNat_lt same
      exact ⟨by rw [BitVec.eq_of_toNat_eq octets, UInt16.toNat_inj.mp port], same⟩
    | v6 octetsB => cases (List.cons.inj same).1
  | v6 octetsA =>
    cases ipB with
    | v4 octetsB => cases (List.cons.inj same).1
    | v6 octetsB =>
      simp only [encodeAddr, List.cons_append, List.append_assoc, List.cons.injEq, true_and] at same
      obtain ⟨octets, same⟩ := ofNat_inj 16 octetsA.isLt octetsB.isLt same
      obtain ⟨port, same⟩ := fixed_inj portA.toNat_lt portB.toNat_lt same
      exact ⟨by rw [BitVec.eq_of_toNat_eq octets, UInt16.toNat_inj.mp port], same⟩

theorem NatDropReason.bytes_injective {a b : NatDropReason} (same : a.bytes = b.bytes) : a = b := by
  have strings : a.asStr = b.asStr := String.toByteArray_inj.mp (ByteArray.ext (Array.toList_inj.mp same))
  cases a <;> cases b <;> first | rfl | exact absurd strings (by decide)

theorem encodeAddr_injective {a b : SocketAddr} (same : encodeAddr a = encodeAddr b) : a = b :=
  (delimited_encodeAddr (congrArg (· ++ []) same)).1

theorem fixed_end {width n m : Nat} (small : n < 256 ^ width) (small' : m < 256 ^ width)
    (same : fixed width n = fixed width m) : n = m :=
  (fixed_inj small small' (congrArg (· ++ []) same)).1

theorem ofBool_injective {a b : Bool} (same : ofBool a = ofBool b) : a = b := by
  cases a <;> cases b <;> first | rfl | exact absurd same (by decide)

theorem encodePubkey_injective {a b : Option Pubkey} (same : encodePubkey a = encodePubkey b) : a = b := by
  cases a with
  | none =>
    cases b with
    | none => rfl
    | some b => exact absurd (List.cons.inj same).1 (by decide)
  | some a =>
    cases b with
    | none => exact absurd (List.cons.inj same).1 (by decide)
    | some b =>
      have octets := (ofNat_inj 32 a.isLt b.isLt (congrArg (· ++ []) (List.cons.inj same).2)).1
      rw [BitVec.eq_of_toNat_eq octets]

/-- The first byte tells the kind of the event; its fields have fixed lengths or say where they end, and a reason comes
last. -/
theorem encodeEvent_injective {a b : TraceEvent} (typedA : a.Typed) (typedB : b.Typed)
    (same : encodeEvent a = encodeEvent b) : a = b := by
  cases a with
  | hostSend host source dest len =>
    cases b with
    | hostSend host' source' dest' len' =>
      obtain ⟨rfl, tail⟩ := fixed_inj typedA.1 typedB.1 (List.cons.inj same).2
      obtain ⟨rfl, rest⟩ := delimited_encodeAddr tail
      obtain ⟨rfl, more⟩ := delimited_encodeAddr rest
      obtain rfl := fixed_end typedA.2 typedB.2 more
      rfl
    | _ => exact absurd (List.cons.inj same).1 (by decide)
  | delivered host src dst len =>
    cases b with
    | delivered host' src' dst' len' =>
      obtain ⟨rfl, tail⟩ := fixed_inj typedA.1 typedB.1 (List.cons.inj same).2
      obtain ⟨rfl, rest⟩ := delimited_encodeAddr tail
      obtain ⟨rfl, more⟩ := delimited_encodeAddr rest
      obtain rfl := fixed_end typedA.2 typedB.2 more
      rfl
    | _ => exact absurd (List.cons.inj same).1 (by decide)
  | linkDropped source dest len =>
    cases b with
    | linkDropped source' dest' len' =>
      obtain ⟨rfl, tail⟩ := fixed_inj typedA.1 typedB.1 (List.cons.inj same).2
      obtain ⟨rfl, rest⟩ := fixed_inj typedA.2.1 typedB.2.1 tail
      obtain rfl := fixed_end typedA.2.2 typedB.2.2 rest
      rfl
    | _ => exact absurd (List.cons.inj same).1 (by decide)
  | linkDuplicated source dest =>
    cases b with
    | linkDuplicated source' dest' =>
      obtain ⟨rfl, tail⟩ := fixed_inj typedA.1 typedB.1 (List.cons.inj same).2
      obtain rfl := fixed_end typedA.2 typedB.2 tail
      rfl
    | _ => exact absurd (List.cons.inj same).1 (by decide)
  | linkDown source dest =>
    cases b with
    | linkDown source' dest' =>
      obtain ⟨rfl, tail⟩ := fixed_inj typedA.1 typedB.1 (List.cons.inj same).2
      obtain rfl := fixed_end typedA.2 typedB.2 tail
      rfl
    | _ => exact absurd (List.cons.inj same).1 (by decide)
  | mtuDropped source dest len mtu =>
    cases b with
    | mtuDropped source' dest' len' mtu' =>
      obtain ⟨rfl, tail⟩ := fixed_inj typedA.1 typedB.1 (List.cons.inj same).2
      obtain ⟨rfl, rest⟩ := fixed_inj typedA.2.1 typedB.2.1 tail
      obtain ⟨rfl, more⟩ := fixed_inj typedA.2.2.1 typedB.2.2.1 rest
      obtain rfl := fixed_end typedA.2.2.2 typedB.2.2.2 more
      rfl
    | _ => exact absurd (List.cons.inj same).1 (by decide)
  | noRoute source dest =>
    cases b with
    | noRoute source' dest' =>
      obtain ⟨rfl, tail⟩ := fixed_inj typedA typedB (List.cons.inj same).2
      obtain rfl := encodeAddr_injective tail
      rfl
    | _ => exact absurd (List.cons.inj same).1 (by decide)
  | natMapped host level internal external =>
    cases b with
    | natMapped host' level' internal' external' =>
      obtain ⟨rfl, tail⟩ := fixed_inj typedA.1 typedB.1 (List.cons.inj same).2
      obtain ⟨rfl, rest⟩ := fixed_inj typedA.2 typedB.2 tail
      obtain ⟨rfl, more⟩ := delimited_encodeAddr rest
      obtain rfl := encodeAddr_injective more
      rfl
    | _ => exact absurd (List.cons.inj same).1 (by decide)
  | natDropped host level reason =>
    cases b with
    | natDropped host' level' reason' =>
      obtain ⟨rfl, tail⟩ := fixed_inj typedA.1 typedB.1 (List.cons.inj same).2
      obtain ⟨rfl, rest⟩ := fixed_inj typedA.2 typedB.2 tail
      obtain rfl := NatDropReason.bytes_injective rest
      rfl
    | _ => exact absurd (List.cons.inj same).1 (by decide)
  | noSocket host dst =>
    cases b with
    | noSocket host' dst' =>
      obtain ⟨rfl, tail⟩ := fixed_inj typedA typedB (List.cons.inj same).2
      obtain rfl := encodeAddr_injective tail
      rfl
    | _ => exact absurd (List.cons.inj same).1 (by decide)
  | peerConnected host peer pubkey =>
    cases b with
    | peerConnected host' peer' pubkey' =>
      obtain ⟨rfl, tail⟩ := fixed_inj typedA typedB (List.cons.inj same).2
      obtain ⟨rfl, rest⟩ := delimited_encodeAddr tail
      rw [encodePubkey_injective rest]
    | _ => exact absurd (List.cons.inj same).1 (by decide)
  | peerDisconnected host peer =>
    cases b with
    | peerDisconnected host' peer' =>
      obtain ⟨rfl, tail⟩ := fixed_inj typedA typedB (List.cons.inj same).2
      obtain rfl := encodeAddr_injective tail
      rfl
    | _ => exact absurd (List.cons.inj same).1 (by decide)
  | shredDelivered host payloadHash =>
    cases b with
    | shredDelivered host' payloadHash' =>
      obtain ⟨rfl, tail⟩ := fixed_inj typedA typedB (List.cons.inj same).2
      obtain rfl := UInt64.toNat_inj.mp (fixed_end payloadHash.toNat_lt payloadHash'.toNat_lt tail)
      rfl
    | _ => exact absurd (List.cons.inj same).1 (by decide)
  | appDatagram host source payloadHash =>
    cases b with
    | appDatagram host' source' payloadHash' =>
      obtain ⟨rfl, tail⟩ := fixed_inj typedA typedB (List.cons.inj same).2
      obtain ⟨rfl, rest⟩ := delimited_encodeAddr tail
      obtain rfl := UInt64.toNat_inj.mp (fixed_end payloadHash.toNat_lt payloadHash'.toNat_lt rest)
      rfl
    | _ => exact absurd (List.cons.inj same).1 (by decide)
  | hostDown host =>
    cases b with
    | hostDown host' =>
      obtain rfl := fixed_end typedA typedB (List.cons.inj same).2
      rfl
    | _ => exact absurd (List.cons.inj same).1 (by decide)
  | hostUp host =>
    cases b with
    | hostUp host' =>
      obtain rfl := fixed_end typedA typedB (List.cons.inj same).2
      rfl
    | _ => exact absurd (List.cons.inj same).1 (by decide)
  | repairServed host slot index highest found =>
    cases b with
    | repairServed host' slot' index' highest' found' =>
      obtain ⟨rfl, tail⟩ := fixed_inj typedA typedB (List.cons.inj same).2
      obtain ⟨numbers, rest⟩ := fixed_inj slot.toNat_lt slot'.toNat_lt tail
      obtain rfl := UInt64.toNat_inj.mp numbers
      obtain ⟨numbers, more⟩ := fixed_inj index.toNat_lt index'.toNat_lt rest
      obtain rfl := UInt32.toNat_inj.mp numbers
      obtain rfl := ofBool_injective (List.cons.inj more).1
      obtain rfl := ofBool_injective (List.cons.inj (List.cons.inj more).2).1
      rfl
    | _ => exact absurd (List.cons.inj same).1 (by decide)
  | repairConcluded host found =>
    cases b with
    | repairConcluded host' found' =>
      obtain ⟨rfl, tail⟩ := fixed_inj typedA typedB (List.cons.inj same).2
      obtain rfl := ofBool_injective (List.cons.inj tail).1
      rfl
    | _ => exact absurd (List.cons.inj same).1 (by decide)
  | repairFailed host =>
    cases b with
    | repairFailed host' =>
      obtain rfl := fixed_end typedA typedB (List.cons.inj same).2
      rfl
    | _ => exact absurd (List.cons.inj same).1 (by decide)
  | firewallDropped host reason =>
    cases b with
    | firewallDropped host' reason' =>
      obtain ⟨rfl, tail⟩ := fixed_inj typedA typedB (List.cons.inj same).2
      obtain rfl := NatDropReason.bytes_injective tail
      rfl
    | _ => exact absurd (List.cons.inj same).1 (by decide)
  | gatewayRequest host len =>
    cases b with
    | gatewayRequest host' len' =>
      obtain ⟨rfl, tail⟩ := fixed_inj typedA.1 typedB.1 (List.cons.inj same).2
      obtain rfl := fixed_end typedA.2 typedB.2 tail
      rfl
    | _ => exact absurd (List.cons.inj same).1 (by decide)

theorem message_injective {a b : UInt64 × TraceEvent} (typedA : a.2.Typed) (typedB : b.2.Typed)
    (same : message a = message b) : a = b := by
  obtain ⟨nanos, event⟩ := a
  obtain ⟨nanos', event'⟩ := b
  obtain ⟨times, events⟩ := fixed_inj nanos.toNat_lt nanos'.toNat_lt same
  exact Prod.ext (UInt64.toNat_inj.mp times) (encodeEvent_injective typedA typedB events)

theorem messages_injective {first second : List (UInt64 × TraceEvent)} (typed : ∀ item ∈ first, item.2.Typed)
    (typed' : ∀ item ∈ second, item.2.Typed) (same : first.map message = second.map message) : first = second := by
  induction first generalizing second with
  | nil => exact (List.map_eq_nil_iff.mp same.symm).symm
  | cons a first ih =>
    cases second with
    | nil => cases same
    | cons b second =>
      obtain ⟨here, later⟩ := List.cons.inj same
      rw [message_injective (typed a List.mem_cons_self) (typed' b List.mem_cons_self) here,
        ih (fun item member => typed item (.tail _ member)) (fun item member => typed' item (.tail _ member)) later]

theorem hexDigit_injective : ∀ a < 16, ∀ b < 16, hexDigit a = hexDigit b → a = b := by decide

theorem hexByte_delimited {a b : UInt8} {rest rest' : List Char} (same : hexByte a ++ rest = hexByte b ++ rest') :
    a = b ∧ rest = rest' := by
  obtain ⟨digits, rests⟩ := List.append_inj same rfl
  obtain ⟨high, low⟩ := List.cons.inj digits
  have smallA := a.toNat_lt
  have smallB := b.toNat_lt
  have highs := hexDigit_injective _ (by omega) _ (by omega) high
  have lows := hexDigit_injective _ (by omega) _ (by omega) (List.cons.inj low).1
  exact ⟨UInt8.toNat_inj.mp (by omega), rests⟩

theorem hex_injective {a b : List UInt8} (same : a.flatMap hexByte = b.flatMap hexByte) : a = b := by
  induction a generalizing b with
  | nil =>
    cases b with
    | nil => rfl
    | cons byte rest => cases same
  | cons byte rest ih =>
    cases b with
    | nil => cases same
    | cons byte' rest' =>
      obtain ⟨rfl, later⟩ := hexByte_delimited same
      rw [ih later]

theorem state_recorded (hash : List UInt8 → List UInt8) (trace : Trace) (items : List (UInt64 × TraceEvent)) :
    (items.foldl (Trace.record hash) trace).state = HashChain.value hash trace.state (items.map message) := by
  induction items generalizing trace with
  | nil => rfl
  | cons item rest ih => exact ih (trace.record hash item)

/-- Two worlds that recorded different events, or the same at different times, have different trace hashes, or what was
hashed for them breaks the hash function. -/
theorem traceHash_tells {N G R N' G' R' : Type} {hash : List UInt8 → List UInt8} {world : SimWorld N G R}
    {world' : SimWorld N' G' R'} (long : ∀ input, (hash input).length = 32) (typed : ∀ item ∈ world.trace, item.2.Typed)
    (typed' : ∀ item ∈ world'.trace, item.2.Typed) (different : world.trace ≠ world'.trace) :
    world.traceHash hash ≠ world'.traceHash hash ∨ HashChain.Broken hash Trace.new.state
      (HashChain.hashed hash Trace.new.state (world.trace.map message))
      (HashChain.hashed hash Trace.new.state (world'.trace.map message)) := by
  by_cases same : world.traceHash hash = world'.traceHash hash
  · refine .inr ?_
    have states := hex_injective (String.ofList_injective same)
    rw [state_recorded, state_recorded] at states
    have wide : ∀ input, (hash input).length = Trace.new.state.length := long
    exact (HashChain.eq_or_broken wide states).resolve_left
      (fun messages => different (messages_injective typed typed' messages))
  · exact .inl same

/-- SHA-256 on the two messages below. -/
def sampleHash (input : List UInt8) : List UInt8 :=
  if input = Trace.new.state ++ message (0, .hostDown 1) then
    Bytes.ofNat 32 0x3d5cc22e4e52448c5909cd0605975f33a61d4ac3ba13c08cf70623ca2658c0b4
  else Bytes.ofNat 32 0x8128a803586ee7e59922c43d71192740afda304ea6abcd3dc1dfc8dcb41065ce

/-- The probe goes down, and comes back or not. -/
def outage (back : Bool) : SimWorld (Option Instant) Gateway Unit :=
  (Machine.run (SimWorld.step Gateway.lan SimWorld.pinger) (.new 0 ())
    (SimWorld.pair ++ .setHostUp 1 false :: if back then [.setHostUp 1 true] else [])).1

theorem traceHash_tells_outage :
    (outage false).traceHash sampleHash ≠ (outage true).traceHash sampleHash ∨
      HashChain.Broken sampleHash Trace.new.state
        (HashChain.hashed sampleHash Trace.new.state ((outage false).trace.map message))
        (HashChain.hashed sampleHash Trace.new.state ((outage true).trace.map message)) := by
  have long : ∀ input, (sampleHash input).length = 32 := by
    intro input
    unfold sampleHash
    split
    all_goals exact Bytes.length_ofNat _ _
  have once : (outage false).trace = [(0, .hostDown 1)] := rfl
  have twice : (outage true).trace = [(0, .hostDown 1), (0, .hostUp 1)] := rfl
  have small : (1 : Nat) < 256 ^ 4 := by decide
  refine traceHash_tells long (fun item member => ?_) (fun item member => ?_) (fun same => ?_)
  · rw [once] at member
    exact (List.mem_singleton.mp member) ▸ small
  · rw [twice] at member
    rcases List.mem_cons.mp member with rfl | last
    · exact small
    · exact (List.mem_singleton.mp last) ▸ small
  · rw [once, twice] at same
    cases same

end Lightbringer.Overlay.Sim
