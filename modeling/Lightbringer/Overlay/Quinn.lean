import Lightbringer.Types
import Mathlib.Data.List.Basic

/-!
# A QUIC connection as the transport sees it

`quinn_proto` is outside the repository. A `QuinnConn` holds what one of its connections will answer to the calls
the transport makes: the events `poll` yields, the verified identity of the peer, and the outcome of every read,
write and datagram. The network changes these answers between calls (`QuinnConn.evolve`); the identity, once
verified, stays. Payloads are opaque to the transport and so a type parameter.
-/

namespace Lightbringer.Overlay
open Std

abbrev SocketId := UInt32

abbrev ConnectionHandle := Nat

abbrev QuicStreamId := UInt64

abbrev OverlayStreamId := Nat

abbrev ProbeId := Nat

inductive SendAnswer where
  | ok
  | blocked
  | failed
  deriving DecidableEq

inductive WriteAnswer where
  | ok (written : Nat)
  | blocked
  | failed
  deriving DecidableEq

/-- How a read of a stream ends after the bytes at hand. -/
inductive ReadEnd where
  | finished
  | blocked
  | reset
  deriving DecidableEq

inductive QuinnStreamEvent where
  | openedBi
  | openedUni
  | readable (id : QuicStreamId)
  | writable (id : QuicStreamId)
  | finished (id : QuicStreamId)
  | stopped (id : QuicStreamId)
  | available
  deriving DecidableEq

inductive QuinnEvent where
  | handshakeDataReady
  | connected
  | datagramReceived
  | datagramsUnblocked
  | connectionLost (reason : String)
  | stream (event : QuinnStreamEvent)
  deriving DecidableEq

structure QuinnConn (ν : Type) where
  identity : Option Pubkey
  /-- Yielded by `poll` one after another. -/
  events : List QuinnEvent
  received : List ν
  sendAnswers : List SendAnswer
  /-- Bidirectional streams the peer opened, and ids for those we open. -/
  acceptable : List QuicStreamId
  openable : List QuicStreamId
  reads : List (QuicStreamId × List UInt8 × ReadEnd)
  writeAnswers : List WriteAnswer

namespace QuinnConn

variable {ν : Type}

/-- A connection that has just been started or accepted. -/
def idle : QuinnConn ν where
  identity := none
  events := []
  received := []
  sendAnswers := []
  acceptable := []
  openable := []
  reads := []
  writeAnswers := []

/-- The connection after it took in a datagram or a timeout. -/
def evolve (conn next : QuinnConn ν) : QuinnConn ν := { next with identity := conn.identity.or next.identity }

/-- `datagrams().send`; quinn takes a datagram unless it says otherwise. -/
def send (conn : QuinnConn ν) : QuinnConn ν × SendAnswer :=
  match conn.sendAnswers with
  | [] => (conn, .ok)
  | answer :: rest => ({ conn with sendAnswers := rest }, answer)

/-- The loop of `flush_pending`: the connection, what stays queued and what was handed over. -/
def sendAll (conn : QuinnConn ν) : List ν → QuinnConn ν × List ν × List ν
  | [] => (conn, [], [])
  | payload :: rest =>
    match conn.send with
    | (conn, .ok) =>
      let (conn, left, sent) := sendAll conn rest
      (conn, left, payload :: sent)
    | (conn, .blocked) => (conn, payload :: rest, [])
    | (conn, .failed) => sendAll conn rest

/-- `recv_stream(id).read(true)` drained to its end. -/
def read (conn : QuinnConn ν) (id : QuicStreamId) : QuinnConn ν × Option (List UInt8 × ReadEnd) :=
  match conn.reads.find? (fun entry => entry.1 = id) with
  | none => (conn, none)
  | some entry => ({ conn with reads := conn.reads.erase entry }, some entry.2)

/-- `send_stream(id).write` until the buffer is empty or the stream does not take more. -/
def writeAll (conn : QuinnConn ν) (buffer : List UInt8) : QuinnConn ν × List UInt8 × Bool :=
  go conn.writeAnswers buffer
where
  /-- The last component says whether the loop ran to its end. -/
  go : List WriteAnswer → List UInt8 → QuinnConn ν × List UInt8 × Bool
  | answers, [] => ({ conn with writeAnswers := answers }, [], true)
  | [], buffer => ({ conn with writeAnswers := [] }, buffer, false)
  | .ok written :: answers, buffer => go answers (buffer.drop written)
  | .blocked :: answers, buffer => ({ conn with writeAnswers := answers }, buffer, false)
  | .failed :: answers, _ => ({ conn with writeAnswers := answers }, [], false)

/-! ### What the calls leave of a connection -/

theorem sendAll_spec (conn : QuinnConn ν) (pending : List ν) :
    (∃ answers, (conn.sendAll pending).1 = { conn with sendAnswers := answers }) ∧
    (conn.sendAll pending).2.1 ⊆ pending ∧ (conn.sendAll pending).2.2 ⊆ pending := by
  induction pending generalizing conn with
  | nil => exact ⟨⟨conn.sendAnswers, rfl⟩, List.Subset.refl _, List.Subset.refl _⟩
  | cons payload rest ih =>
    unfold sendAll send
    cases conn.sendAnswers with
    | nil =>
      obtain ⟨⟨answers, same⟩, left, sent⟩ := ih conn
      exact ⟨⟨answers, same⟩, fun _ member => List.mem_cons_of_mem _ (left member),
        List.cons_subset_cons _ sent⟩
    | cons answer answers =>
      obtain ⟨⟨later, same⟩, left, sent⟩ := ih { conn with sendAnswers := answers }
      cases answer with
      | ok =>
        exact ⟨⟨later, same⟩, fun _ member => List.mem_cons_of_mem _ (left member),
          List.cons_subset_cons _ sent⟩
      | blocked => exact ⟨⟨answers, rfl⟩, List.Subset.refl _, List.nil_subset _⟩
      | failed =>
        exact ⟨⟨later, same⟩, fun _ member => List.mem_cons_of_mem _ (left member),
          fun _ member => List.mem_cons_of_mem _ (sent member)⟩

theorem read_spec (conn : QuinnConn ν) (id : QuicStreamId) : ∃ left, (conn.read id).1 = { conn with reads := left } := by
  unfold read
  split
  · exact ⟨conn.reads, rfl⟩
  · exact ⟨_, rfl⟩

theorem writeAll_spec (conn : QuinnConn ν) (buffer : List UInt8) :
    ∃ left, (conn.writeAll buffer).1 = { conn with writeAnswers := left } := by
  have kept : ∀ answers buffer, ∃ left, (writeAll.go conn answers buffer).1 = { conn with writeAnswers := left } := by
    intro answers
    induction answers with
    | nil =>
      intro buffer
      cases buffer with
      | nil => exact ⟨[], rfl⟩
      | cons byte rest => exact ⟨[], rfl⟩
    | cons answer answers ih =>
      intro buffer
      cases buffer with
      | nil => exact ⟨answer :: answers, rfl⟩
      | cons byte rest =>
        cases answer with
        | ok written => exact ih _
        | blocked => exact ⟨answers, rfl⟩
        | failed => exact ⟨answers, rfl⟩
  exact kept conn.writeAnswers buffer

end QuinnConn

/-- `push_bounded`: a full queue loses its oldest entry. -/
def pushBounded {α : Type} (queue : List α) (value : α) (cap : Nat) : List α :=
  (if cap ≤ queue.length then queue.drop 1 else queue) ++ [value]

theorem mem_pushBounded {α : Type} {queue : List α} {value x : α} {cap : Nat}
    (member : x ∈ pushBounded queue value cap) : x ∈ queue ∨ x = value := by
  unfold pushBounded at member
  rcases List.mem_append.mp member with old | fresh
  · split at old
    · exact .inl (List.mem_of_mem_drop old)
    · exact .inl old
  · exact .inr (List.mem_singleton.mp fresh)

def maxPendingDatagrams : Nat := 1024

structure QuicConnection (ν : Type) where
  handle : ConnectionHandle
  conn : QuinnConn ν
  established : Bool
  peerPubkey : Option Pubkey
  socket : Option SocketId
  pending : List ν
  /-- The identity gate: when set, `pending` is released only to that identity. -/
  expectPubkey : Option Pubkey
  streams : TreeMap QuicStreamId OverlayStreamId

namespace QuicConnection

variable {ν : Type}

def new (handle : ConnectionHandle) (conn : QuinnConn ν) (socket : Option SocketId) : QuicConnection ν where
  handle := handle
  conn := conn
  established := false
  peerPubkey := none
  socket := socket
  pending := []
  expectPubkey := none
  streams := ∅

/-- The verified identity is not the one the connection was dialed for. -/
def mismatch (c : QuicConnection ν) : Bool := c.expectPubkey.any (fun expected => c.peerPubkey ≠ some expected)

/-- `flush_pending`, with the payloads quinn took. -/
def flushPending (c : QuicConnection ν) : QuicConnection ν × List ν :=
  if !c.established then (c, [])
  else if c.mismatch then ({ c with pending := [] }, [])
  else
    let (conn, left, sent) := c.conn.sendAll c.pending
    ({ c with conn := conn, pending := left }, sent)

/-- `get_or_insert`: the first expectation wins. -/
def expect (c : QuicConnection ν) (expected : Pubkey) : QuicConnection ν :=
  { c with expectPubkey := c.expectPubkey.or (some expected) }

def queue (c : QuicConnection ν) (payload : ν) : QuicConnection ν :=
  { c with pending := pushBounded c.pending payload maxPendingDatagrams }

theorem flushPending_spec (c : QuicConnection ν) : ∃ answers left, left ⊆ c.pending ∧
    c.flushPending.1 = { c with conn := { c.conn with sendAnswers := answers }, pending := left } := by
  unfold flushPending
  split
  · exact ⟨c.conn.sendAnswers, c.pending, List.Subset.refl _, rfl⟩
  split
  · exact ⟨c.conn.sendAnswers, [], List.nil_subset _, rfl⟩
  · obtain ⟨⟨answers, same⟩, left, _⟩ := c.conn.sendAll_spec c.pending
    refine ⟨answers, _, left, ?_⟩
    show ({ c with conn := (c.conn.sendAll c.pending).1, pending := (c.conn.sendAll c.pending).2.1 } : QuicConnection ν) = _
    rw [same]

end QuicConnection

end Lightbringer.Overlay
