import Lightbringer.Overlay.Gates
import Lightbringer.Lib.Entries

/-!
# What dials for other identities do to a connection

A connection is established and verified as `p`, and the index leads from `p` to it. Calls that expect other
identities at its address write the same expectation that every later flush reads. Unless that slot already holds
`p`, one such call closes the connection to whatever is sent to `p`.
-/

namespace Lightbringer.Overlay
open Std Machine OverlayQuicTransport

variable {ν : Type} {a : SocketAddr} {p : Pubkey}

/-! ### One connection in a drive -/

/-- Established, verified as `p`, taking every datagram, and not about to be lost. -/
structure Gate.Live (g : Gate ν) (p : Pubkey) : Prop where
  established : g.established = true
  verified : g.peerPubkey = some p
  identity : g.identity = some p
  accepting : g.sendAnswers = []
  stays : ∀ reason, .connectionLost reason ∉ g.events

/-- What was handed to a connection at `a` verified as `p`. -/
def handedTo (a : SocketAddr) (p : Pubkey) (out : List (Handed ν)) : List ν :=
  (out.filter (fun h => h.addr = a && h.identity = some p)).map Handed.payload

theorem handedTo_append (out later : List (Handed ν)) :
    handedTo a p (out ++ later) = handedTo a p out ++ handedTo a p later := by
  simp [handedTo]

theorem sendAll_accepting {conn : QuinnConn ν} (accepting : conn.sendAnswers = []) (pending : List ν) :
    conn.sendAll pending = (conn, [], pending) := by
  induction pending with
  | nil => rfl
  | cons payload rest ih =>
    unfold QuinnConn.sendAll QuinnConn.send
    rw [accepting]
    dsimp only
    rw [ih]

/-- The gate a live connection is left with once it was flushed and its events were taken. -/
def Gate.flushed (g : Gate ν) : Gate ν := { g with pending := [], events := [] }

/-- Whether the recorded expectation lets a connection verified as `p` through. -/
def Gate.passes (g : Gate ν) (p : Pubkey) : Bool := g.expectPubkey.all (· = p)

variable {c : QuicConnection ν}

theorem mismatch_eq_not_passes (live : c.gate.Live p) : c.mismatch = !c.gate.passes p := by
  have verified : c.peerPubkey = some p := live.verified
  have same : c.gate.expectPubkey = c.expectPubkey := rfl
  unfold QuicConnection.mismatch Gate.passes
  rw [verified, same]
  cases c.expectPubkey with
  | none => rfl
  | some expected => simp [eq_comm]

theorem flush_live (live : c.gate.Live p) :
    c.flushPending = ({ c with pending := [] }, if c.gate.passes p then c.pending else []) := by
  have established : c.established = true := live.established
  have accepting : c.conn.sendAnswers = [] := live.accepting
  unfold QuicConnection.flushPending
  rw [mismatch_eq_not_passes live, established, sendAll_accepting accepting]
  cases passes : c.gate.passes p with
  | true => simp
  | false => simp

theorem pumped_live (live : c.gate.Live p) : (pumped c).gate = c.gate.flushed := by
  unfold pumped
  rw [flush_live live]
  rfl

theorem live_flushed {g : Gate ν} (live : g.Live p) : g.flushed.Live p :=
  ⟨live.established, live.verified, live.identity, live.accepting, fun _ member => by cases member⟩

theorem handedTo_handed (live : c.gate.Live p) :
    handedTo a p (handed a c) = if c.gate.passes p then c.pending else [] := by
  have identity : c.conn.identity = some p := live.identity
  have whole : ∀ pending : List ν, handedTo a p (pending.map (fun payload => ⟨a, c.handle, some p, payload⟩)) = pending := by
    intro pending
    simp [handedTo, List.filter_map, Function.comp_def]
  unfold handed
  rw [flush_live live, identity, whole]

theorem handedTo_elsewhere {b : SocketAddr} (other : b ≠ a) (c : QuicConnection ν) : handedTo a p (handed b c) = [] := by
  simp [handedTo, handed, other]

/-- The connection at `a` while the events of a drive are handled: nothing queued, `g` otherwise. -/
structure Quiet (a : SocketAddr) (p : Pubkey) (g : Gate ν) (t : OverlayQuicTransport ν) : Prop where
  gate : t.gateAt a = some g
  index : t.byPubkey[p]? = some a
  live : g.Live p
  empty : g.pending = []

variable {g : Gate ν} {t : OverlayQuicTransport ν}

theorem quiet_sameGates {t' : OverlayQuicTransport ν} (held : Quiet a p g t) (same : SameGates t t') :
    Quiet a p g t' :=
  ⟨(same.gates a).trans held.gate, by rw [same.index]; exact held.index, held.live, held.empty⟩

theorem quiet_setConnection (held : Quiet a p g t) {peer : SocketAddr} {c : QuicConnection ν}
    (own : peer = a → c.gate = g) : Quiet a p g (t.setConnection peer c) := by
  refine ⟨?_, held.index, held.live, held.empty⟩
  rw [gateAt_setConnection]
  split
  next here => rw [own here]
  next => exact held.gate

/-- Nothing reaches the connection at `a` and its gate stays `g`. -/
def Undisturbed (a : SocketAddr) (p : Pubkey) (g : Gate ν) (result : OverlayQuicTransport ν × List (Handed ν)) : Prop :=
  Quiet a p g result.1 ∧ ∀ h ∈ result.2, h.addr = a → h.identity ≠ some p

theorem undisturbed_silent (held : Quiet a p g t) : Undisturbed a p g (t, []) :=
  ⟨held, fun h member => by cases member⟩

theorem own_gate (held : Quiet a p g t) (found : t.connections[a]? = some c) : c.gate = g := by
  have same := held.gate
  rw [gateAt, found] at same
  exact Option.some.inj same

theorem flush_quiet (held : Quiet a p g t) (found : t.connections[a]? = some c) : c.flushPending = (c, []) := by
  have own := own_gate held found
  have live : c.gate.Live p := by rw [own]; exact held.live
  have empty : c.pending = [] := by
    have none := held.empty
    rw [← own] at none
    exact none
  rw [flush_live live, empty]
  have same : ({ c with pending := [] } : QuicConnection ν) = c := by rw [← empty]
  simp [same]

theorem undisturbed_flush (held : Quiet a p g t) {peer : SocketAddr} (found : t.connections[peer]? = some c) :
    Undisturbed a p g (t.setConnection peer c.flushPending.1, handed peer c) := by
  by_cases here : peer = a
  · subst here
    unfold handed
    rw [flush_quiet held found]
    exact undisturbed_silent (quiet_setConnection held (fun _ => own_gate held found))
  · refine ⟨quiet_setConnection held (fun same => absurd same here), fun h member there => ?_⟩
    obtain ⟨payload, _, rfl⟩ := List.mem_map.mp member
    exact absurd there here

/-- Learning again what is known changes nothing. -/
theorem identified_gate (held : Quiet a p g t) (found : t.connections[a]? = some c) :
    c.conn.identity = c.peerPubkey ∧ c.established = true := by
  have live := held.live
  rw [← own_gate held found] at live
  exact ⟨live.identity.trans live.verified.symm, live.established⟩

theorem undisturbed_connected (held : Quiet a p g t) {peer : SocketAddr} (found : t.connections[peer]? = some c) :
    Undisturbed a p g (t.onConnected peer c) := by
  let known : QuicConnection ν := { c with established := true, peerPubkey := c.peerPubkey.or c.conn.identity }
  have learned : Quiet a p g (t.setConnection peer known) := by
    refine quiet_setConnection held (fun here => ?_)
    subst here
    obtain ⟨same, established⟩ := identified_gate held found
    have unchanged : known = c := by
      simp only [known]
      rw [same, Option.or_self, ← established]
    rw [unchanged]
    exact own_gate held found
  have flushed : Undisturbed a p g ((t.setConnection peer known).setConnection peer known.flushPending.1,
      handed peer known) := undisturbed_flush learned (by simp [connections_setConnection])
  have gates : ∀ addr, (t.onConnected peer c).1.gateAt addr =
      ((t.setConnection peer known).setConnection peer known.flushPending.1).gateAt addr := by
    intro addr
    have same : (t.onConnected peer c).1.gateAt addr = (t.setConnection peer known.flushPending.1).gateAt addr := rfl
    rw [same, gateAt_setConnection, gateAt_setConnection, gateAt_setConnection]
    split <;> rfl
  refine ⟨⟨(gates a).trans flushed.1.gate, ?_, held.live, held.empty⟩, flushed.2⟩
  unfold onConnected
  dsimp only
  split
  next pubkey _ =>
    have present := held.index
    show (t.byPubkey.insertIfNew pubkey peer)[p]? = some a
    rw [TreeMap.getElem?_insertIfNew, if_neg]
    · exact present
    · rintro ⟨same, absent⟩
      rw [LawfulEqOrd.compare_eq_iff_eq.mp same] at absent
      exact absent (TreeMap.mem_iff_isSome_getElem?.mpr (by rw [present]; rfl))
  next => exact held.index

theorem quiet_removeConnection (held : Quiet a p g t) {peer : SocketAddr} (other : peer ≠ a) :
    Quiet a p g (t.removeConnection peer) := by
  unfold removeConnection
  split
  · exact held
  next c found =>
    refine quiet_sameGates ?_ (sameGates_failStreams _ _)
    refine ⟨?_, ?_, held.live, held.empty⟩
    · have gate := held.gate
      unfold gateAt at gate ⊢
      rw [TreeMap.getElem?_erase, if_neg (fun same => other (LawfulEqOrd.compare_eq_iff_eq.mp same))]
      exact gate
    · dsimp only
      split
      next pubkey _ =>
        split
        next leads =>
          rw [TreeMap.getElem?_erase, if_neg]
          · exact held.index
          · intro same
            rw [LawfulEqOrd.compare_eq_iff_eq.mp same, held.index] at leads
            exact other (Option.some.inj leads).symm
        next => exact held.index
      next => exact held.index

theorem undisturbed_event (held : Quiet a p g t) (peer : SocketAddr) (event : QuinnEvent)
    (stays : peer = a → ∀ reason, event ≠ .connectionLost reason) :
    Undisturbed a p g (t.handleConnectionEvent peer event) := by
  unfold handleConnectionEvent
  split
  · exact undisturbed_silent (quiet_sameGates held (sameGates_handleStreamEvent t peer _))
  cases found : t.connections[peer]? with
  | none => exact undisturbed_silent held
  | some c =>
    dsimp only
    split
    · refine undisturbed_silent (quiet_setConnection held (fun here => ?_))
      subst here
      have same : c.conn.identity = c.peerPubkey := (identified_gate held found).1
      rw [same]
      exact own_gate held found
    · exact undisturbed_connected held found
    · refine undisturbed_silent (quiet_sameGates held ?_)
      have same : ({ c with conn := { c.conn with received := [] } } : QuicConnection ν).gate = c.gate := rfl
      have kept := sameGates_setConnection found same
      exact ⟨kept.gates, kept.index⟩
    · exact undisturbed_flush held found
    next reason _ =>
      have elsewhere : peer ≠ a := fun here => stays here reason rfl
      refine undisturbed_silent (quiet_removeConnection ?_ elsewhere)
      exact ⟨held.gate, held.index, held.live, held.empty⟩
    · exact undisturbed_silent held

theorem filter_flatMap_of_others {α β : Type} {f : α → List β} {q : β → Bool} {x : α} {entries : List α}
    (distinct : entries.Nodup) (member : x ∈ entries) (others : ∀ y ∈ entries, y ≠ x → (f y).filter q = []) :
    (entries.flatMap f).filter q = (f x).filter q := by
  induction entries with
  | nil => cases member
  | cons y rest ih =>
    obtain ⟨fresh, distinct⟩ := List.nodup_cons.mp distinct
    rw [List.flatMap_cons, List.filter_append]
    rcases List.mem_cons.mp member with rfl | later
    · have nothing : (rest.flatMap f).filter q = [] := by
        rw [List.filter_flatMap, List.flatMap_eq_nil_iff]
        intro z there
        exact others z (List.mem_cons_of_mem _ there) (fun same => fresh (same ▸ there))
      rw [nothing, List.append_nil]
    · have apart : y ≠ x := fun same => fresh (same ▸ later)
      rw [others y (List.mem_cons_self ..) apart, List.nil_append]
      exact ih distinct later (fun z there => others z (List.mem_cons_of_mem _ there))

/-- In one drive a live connection hands over its queue, or discards it, and is left with an empty one. -/
theorem drive_at (found : t.connections[a]? = some c) (live : c.gate.Live p) (index : t.byPubkey[p]? = some a) :
    Quiet a p c.gate.flushed t.drive.1 ∧ handedTo a p t.drive.2 = if c.gate.passes p then c.pending else [] := by
  have start : Quiet a p c.gate.flushed { t with connections := t.connections.map (fun _ c => pumped c) } := by
    refine ⟨?_, index, live_flushed live, rfl⟩
    unfold gateAt
    rw [TreeMap.getElem?_map, found, Option.map_some, Option.map_some, pumped_live live]
  have member : (a, c) ∈ t.connections.toList := TreeMap.mem_toList_iff_getElem?_eq_some.mpr found
  have calm : ∀ entry ∈ t.appEvents, entry.1 = a → ∀ reason, entry.2 ≠ .connectionLost reason := by
    intro entry yielded here reason lost
    obtain ⟨⟨peer, other⟩, listed, mapped⟩ := List.mem_flatMap.mp yielded
    obtain ⟨event, polled, rfl⟩ := List.mem_map.mp mapped
    have same : other = c := by
      have there := TreeMap.mem_toList_iff_getElem?_eq_some.mp listed
      have at_a : peer = a := here
      rw [at_a, found] at there
      exact (Option.some.inj there).symm
    rw [same, flush_live live] at polled
    have gone : event = .connectionLost reason := lost
    rw [gone] at polled
    exact live.stays reason polled
  have events : Undisturbed a p c.gate.flushed (run handleAppEvent
      { t with connections := t.connections.map (fun _ c => pumped c) } t.appEvents) := by
    refine @run_safe _ _ _ handleAppEvent (fun _ entry => entry.1 = a → ∀ reason, entry.2 ≠ .connectionLost reason) _
      (Quiet a p c.gate.flushed) (fun h => h.addr = a → h.identity ≠ some p) start ?_ t.appEvents ?_
    · exact fun _ entry held stays => undisturbed_event held entry.1 entry.2 stays
    · exact meets_of_forall calm
  have nothing : handedTo a p (run handleAppEvent
      { t with connections := t.connections.map (fun _ c => pumped c) } t.appEvents).2 = [] := by
    unfold handedTo
    rw [List.map_eq_nil_iff, List.filter_eq_nil_iff]
    intro h emitted both
    simp only [Bool.and_eq_true, decide_eq_true_eq] at both
    exact events.2 h emitted both.1 both.2
  refine ⟨events.1, ?_⟩
  show handedTo a p (t.connections.toList.flatMap (fun entry => handed entry.1 entry.2) ++ _) = _
  rw [handedTo_append, nothing, List.append_nil, ← handedTo_handed live]
  unfold handedTo
  rw [filter_flatMap_of_others (Entries.nodup_toList t.connections) member]
  rintro ⟨peer, other⟩ listed apart
  by_cases here : peer = a
  · have there := TreeMap.mem_toList_iff_getElem?_eq_some.mp listed
    rw [here, found] at there
    exact absurd (by rw [here, Option.some.inj there]) apart
  · have elsewhere := handedTo_elsewhere (p := p) here other
    exact List.map_eq_nil_iff.mp elsewhere

/-! ### Contending calls -/

/-- Sends to `p`, and calls that expect somebody else at `a`. -/
def Contends (a : SocketAddr) (p : Pubkey) : Op ν → Prop
  | .queueDatagramToPeer pubkey _ => pubkey = p
  | .queueDatagramExpecting dest expected _ _ => dest = a ∧ expected ≠ p
  | .dialExpecting dest expected _ => dest = a ∧ expected ≠ p
  | .dialExpectingFrom _ dest expected _ => dest = a ∧ expected ≠ p
  | _ => False

def expects : Op ν → Option Pubkey
  | .queueDatagramExpecting _ expected _ _ => some expected
  | .dialExpecting _ expected _ => some expected
  | .dialExpectingFrom _ _ expected _ => some expected
  | _ => none

def queues : Op ν → List ν
  | .queueDatagramToPeer _ payload => [payload]
  | .queueDatagramExpecting _ _ payload _ => [payload]
  | _ => []

/-- The datagrams a call queues to a peer by its identity. -/
def sends : Op ν → List ν
  | .queueDatagramToPeer _ payload => [payload]
  | _ => []

theorem sends_sublist (op : Op ν) : (sends op).Sublist (queues op) := by
  cases op with
  | queueDatagramToPeer => exact List.Sublist.refl _
  | _ => exact List.nil_sublist _

structure Ready (a : SocketAddr) (p : Pubkey) (g : Gate ν) (t : OverlayQuicTransport ν) : Prop where
  gate : t.gateAt a = some g
  index : t.byPubkey[p]? = some a
  live : g.Live p
  room : g.pending.length < maxPendingDatagrams

theorem Quiet.ready (held : Quiet a p g t) : Ready a p g t :=
  ⟨held.gate, held.index, held.live, by rw [held.empty]; exact Nat.succ_pos _⟩

theorem pushBounded_room {α : Type} {queue : List α} {cap : Nat} (room : queue.length < cap) (value : α) :
    pushBounded queue value cap = queue ++ [value] := by
  unfold pushBounded
  rw [if_neg (by omega)]

theorem dialAnd_found (found : t.connections[a]? = some c) (socket : Option SocketId)
    (dialed : Option (ConnectionHandle × QuinnConn ν)) (f : QuicConnection ν → QuicConnection ν) :
    t.dialAnd a socket dialed f = (t.setConnection a (f c)).drive := by
  have present : a ∈ t.connections := TreeMap.mem_iff_isSome_getElem?.mpr (by rw [found]; rfl)
  unfold dialAnd ensureConnection
  rw [if_pos present]
  dsimp only
  unfold withConnection
  rw [found]

/-- What a contending call leaves in the gate before it drives the connections. -/
def Gate.asked (g : Gate ν) (op : Op ν) : Gate ν :=
  { g with expectPubkey := g.expectPubkey.or (expects op), pending := g.pending ++ queues op }

theorem contending_eq (ready : Ready a p g t) {op : Op ν} (contends : Contends a p op) :
    ∃ c : QuicConnection ν, t.step op = (t.setConnection a c).drive ∧ c.gate = g.asked op := by
  obtain ⟨c, found, rfl⟩ := Option.map_eq_some_iff.mp ready.gate
  have queued : ∀ payload, pushBounded c.pending payload maxPendingDatagrams = c.pending ++ [payload] :=
    pushBounded_room ready.room
  cases op with
  | queueDatagramToPeer pubkey payload =>
    have same : pubkey = p := contends
    subst same
    refine ⟨c.queue payload, ?_, ?_⟩
    · show t.queueDatagramToPeer pubkey payload = _
      unfold queueDatagramToPeer
      rw [ready.index]
      dsimp only
      rw [found]
    · simp [QuicConnection.gate, QuicConnection.queue, Gate.asked, expects, queues, queued]
  | queueDatagramExpecting dest expected payload dialed =>
    obtain ⟨rfl, other⟩ := contends
    refine ⟨(c.expect expected).queue payload, dialAnd_found found none dialed _, ?_⟩
    simp [QuicConnection.gate, QuicConnection.queue, QuicConnection.expect, Gate.asked, expects, queues, queued]
  | dialExpecting dest expected dialed =>
    obtain ⟨rfl, other⟩ := contends
    refine ⟨c.expect expected, dialAnd_found found none dialed _, ?_⟩
    simp [QuicConnection.gate, QuicConnection.expect, Gate.asked, expects, queues]
  | dialExpectingFrom socket dest expected dialed =>
    obtain ⟨rfl, other⟩ := contends
    refine ⟨c.expect expected, dialAnd_found found (some socket) dialed _, ?_⟩
    simp [QuicConnection.gate, QuicConnection.expect, Gate.asked, expects, queues]
  | _ => exact contends.elim

theorem contending_step (ready : Ready a p g t) {op : Op ν} (contends : Contends a p op) :
    Quiet a p (g.asked op).flushed (t.step op).1 ∧
    handedTo a p (t.step op).2 = if (g.asked op).passes p then g.pending ++ queues op else [] := by
  obtain ⟨c, same, gate⟩ := contending_eq ready contends
  have live : c.gate.Live p := by
    rw [gate]
    exact ⟨ready.live.established, ready.live.verified, ready.live.identity, ready.live.accepting, ready.live.stays⟩
  have pending : c.pending = g.pending ++ queues op := congrArg Gate.pending gate
  rw [same, ← gate, ← pending]
  exact drive_at (by simp [connections_setConnection]) live ready.index

/-! ### Runs of contending calls -/

def pendingAt (a : SocketAddr) (t : OverlayQuicTransport ν) : List ν := (t.gateAt a).elim [] Gate.pending

/-- Of what is queued at `a` and what is sent to `p` later, nothing is lost: it is handed to `p` or still queued. -/
def Survive (a : SocketAddr) (p : Pubkey) (t : OverlayQuicTransport ν) (calls : List (Op ν)) : Prop :=
  (pendingAt a t ++ calls.flatMap sends).Sublist
    (handedTo a p (run step t calls).2 ++ pendingAt a (run step t calls).1)

theorem survive_expected (ready : Ready a p g t) (expected : g.expectPubkey = some p) {calls : List (Op ν)}
    (contend : ∀ call ∈ calls, Contends a p call) : Survive a p t calls := by
  have met : Meets step (fun _ call => Contends a p call) t calls := meets_of_forall contend
  have history := run_history
    (P := fun calls current out => ∃ g', Ready a p g' current ∧ g'.expectPubkey = some p ∧
      (pendingAt a t ++ calls.flatMap sends).Sublist (handedTo a p out ++ g'.pending))
    ⟨g, ready, expected, by simp [pendingAt, ready.gate, handedTo]⟩ ?_ calls met
  · obtain ⟨g', reached, _, kept⟩ := history
    unfold Survive
    rw [show pendingAt a (run step t calls).1 = g'.pending by simp [pendingAt, reached.gate]]
    exact kept
  · rintro calls current out call ⟨g', reached, expected, kept⟩ contends
    obtain ⟨quiet, handedOver⟩ := contending_step reached contends
    have asked : (g'.asked call).expectPubkey = some p := by simp [Gate.asked, expected]
    have passes : (g'.asked call).passes p = true := by simp [Gate.passes, asked]
    refine ⟨_, quiet.ready, asked, ?_⟩
    rw [passes, if_pos rfl] at handedOver
    rw [handedTo_append, handedOver, List.flatMap_append, ← List.append_assoc, ← List.append_assoc]
    simp only [List.flatMap_cons, List.flatMap_nil, List.append_nil, Gate.flushed]
    exact kept.append (sends_sublist call)

theorem closed_asked {g : Gate ν} {op : Op ν} (closed : g.passes p = false) : (g.asked op).passes p = false := by
  unfold Gate.passes at closed ⊢
  cases slot : g.expectPubkey with
  | none =>
    rw [slot] at closed
    cases closed
  | some expected =>
    rw [slot] at closed
    simpa [Gate.asked, slot] using closed

theorem exists_other (p : Pubkey) : ∃ q : Pubkey, q ≠ p := by
  by_cases zero : p = 0
  · exact ⟨1, by rw [zero]; decide⟩
  · exact ⟨0, fun same => zero same.symm⟩

/-- One call for somebody else takes a slot that does not hold `p`. -/
theorem dial_closes {g : Gate ν} (unexpected : g.expectPubkey ≠ some p) {q : Pubkey} (other : q ≠ p) :
    (g.asked (.dialExpecting a q none)).passes p = false := by
  unfold Gate.passes Gate.asked expects
  cases slot : g.expectPubkey with
  | none => simpa using other
  | some expected =>
    have wrong : expected ≠ p := fun same => unexpected (by rw [slot, same])
    simpa using wrong

theorem not_survive (ready : Ready a p g t) (unexpected : g.expectPubkey ≠ some p) {q : Pubkey} (other : q ≠ p)
    (payload : ν) : ¬ Survive a p t [.dialExpecting a q none, .queueDatagramToPeer p payload] := by
  have closed := dial_closes (a := a) unexpected other
  have dial : Contends a p (.dialExpecting a q none : Op ν) := ⟨rfl, other⟩
  have send : Contends a p (.queueDatagramToPeer p payload) := rfl
  obtain ⟨dialed, nothing⟩ := contending_step ready dial
  obtain ⟨sent, lost⟩ := contending_step dialed.ready send
  have stays : ((g.asked (.dialExpecting a q none)).flushed.asked (.queueDatagramToPeer p payload)).passes p = false :=
    closed_asked closed
  rw [closed, if_neg Bool.false_ne_true] at nothing
  rw [stays, if_neg Bool.false_ne_true] at lost
  intro survives
  have outputs : handedTo a p (run step t [.dialExpecting a q none, .queueDatagramToPeer p payload]).2 = [] := by
    simp only [run_cons, run_nil, List.append_nil, handedTo_append]
    rw [nothing, lost]
    rfl
  have left : pendingAt a (run step t [.dialExpecting a q none, .queueDatagramToPeer p payload]).1 = [] := by
    simp only [run_cons, run_nil, pendingAt]
    rw [sent.gate]
    rfl
  unfold Survive at survives
  rw [outputs, left] at survives
  have empty := List.sublist_nil.mp survives
  simp [sends] at empty

theorem sends_survive_iff [Inhabited ν] (ready : Ready a p g t) :
    (∀ calls, (∀ call ∈ calls, Contends a p call) → Survive a p t calls) ↔ g.expectPubkey = some p := by
  constructor
  · intro survive
    by_contra unexpected
    obtain ⟨q, other⟩ := exists_other p
    refine not_survive ready unexpected other default (survive _ ?_)
    intro call member
    rcases List.mem_cons.mp member with rfl | later
    · exact ⟨rfl, other⟩
    · cases List.mem_singleton.mp later
      rfl
  · intro expected calls contend
    exact survive_expected ready expected contend

/-! ### Two connections to one peer -/

def peerAddress : SocketAddr := ⟨.v4 0xC0000207, 8001⟩

def handshakeDone (identity : Pubkey) : Op (List UInt8) :=
  .onDatagram (.connectionEvent 0 { QuinnConn.idle with
    identity := some identity
    events := [.handshakeDataReady, .connected] })

/-- The gate of an established connection to identity 1. -/
def established (expected : Option Pubkey) : Gate (List UInt8) where
  handle := 0
  established := true
  peerPubkey := some 1
  expectPubkey := expected
  pending := []
  identity := some 1
  events := []
  sendAnswers := []

/-- Dialed for identity 1. -/
def dialedPeer : List (Op (List UInt8)) :=
  [.dialExpecting peerAddress 1 (some (0, QuinnConn.idle)), handshakeDone 1]

/-- Accepted from identity 1. -/
def acceptedPeer : List (Op (List UInt8)) :=
  [.onDatagram (.newConnection peerAddress 0 (some (0, QuinnConn.idle))), handshakeDone 1]

theorem established_live (expected : Option Pubkey) : (established expected).Live 1 :=
  ⟨rfl, rfl, rfl, rfl, fun _ member => by cases member⟩

theorem ready_dialedPeer : Ready peerAddress 1 (established (some 1))
    (run step (OverlayQuicTransport.new 0 none) dialedPeer).1 :=
  ⟨by rfl, by rfl, established_live _, by decide⟩

theorem ready_acceptedPeer : Ready peerAddress 1 (established none)
    (run step (OverlayQuicTransport.new 0 none) acceptedPeer).1 :=
  ⟨by rfl, by rfl, established_live _, by decide⟩

theorem sends_survive_dialed :
    Ready peerAddress 1 (established (some 1)) (run step (OverlayQuicTransport.new 0 none) dialedPeer).1 ∧
    ∀ calls, (∀ call ∈ calls, Contends peerAddress 1 call) →
      Survive peerAddress 1 (run step (OverlayQuicTransport.new 0 none) dialedPeer).1 calls :=
  ⟨ready_dialedPeer, (sends_survive_iff ready_dialedPeer).mpr rfl⟩

/-- The accepted connection has no expectation; a dial for identity 2 at its address silences it. -/
theorem lying_advert_silences :
    Ready peerAddress 1 (established none) (run step (OverlayQuicTransport.new 0 none) acceptedPeer).1 ∧
    ¬ Survive peerAddress 1 (run step (OverlayQuicTransport.new 0 none) acceptedPeer).1
      [.dialExpecting peerAddress 2 none, .queueDatagramToPeer 1 [7]] :=
  ⟨ready_acceptedPeer, not_survive ready_acceptedPeer (by decide) (by decide) [7]⟩

end Lightbringer.Overlay
