import Lightbringer.Overlay.CoreSteps
import Lightbringer.Overlay.Probes
import Lightbringer.Lib.Entries

/-!
# The helper's side of a dial-back

Every request of an authenticated peer is answered once: at once, when its probe concludes, or when its deadline
is processed. Probes only go to the host a request came from, the sockets bound for them are closed once, and a
positive verdict rests on a handshake that authenticated as the requester.
-/

namespace Lightbringer.Overlay
open Std Machine OverlayCore OverlayQuicTransport

/-- A core on the QUIC transport. -/
abbrev Node := OverlayCore (OverlayQuicTransport OverlayFrame)

/-! ### What actions add up to -/

def requestsOf (out : List Action) : List (Pubkey × Nat) :=
  out.filterMap (fun action => match action with | .requested peer nonce => some (peer, nonce) | _ => none)

def verdictsOf (out : List Action) : List (Pubkey × Nat) :=
  out.filterMap (fun action => match action with | .verdict peer nonce _ _ => some (peer, nonce) | _ => none)

def bindsOf (out : List Action) : List SocketId :=
  out.filterMap (fun action => match action with | .bound socket => some socket | _ => none)

def closesOf (out : List Action) : List SocketId :=
  out.filterMap (fun action => match action with | .closed socket => some socket | _ => none)

namespace OverlayCore

variable {T : Type}

def opened (node : OverlayCore T) : List (Pubkey × Nat) :=
  node.helperProbes.toList.map (fun entry => (entry.2.requester, entry.2.nonce))

def sockets (node : OverlayCore T) : List SocketId := node.helperProbes.toList.map (fun entry => entry.2.socket)

/-- The probes of the core are live in the transport. -/
structure Tended (node : Node) : Prop where
  truthful : node.transport.Truthful
  live : ∀ id, (node.helperProbes[id]?).isSome → (node.transport.probeIdentity id).isSome

end OverlayCore

def Aimed : Action → Prop
  | .probed _ _ source target => target.ip = source.ip ∧ 1024 ≤ target.port.toNat
  | _ => True

/-- From `node` to `next` the requests taken in are answered or still open, and likewise for sockets. -/
structure Accounts (node next : Node) (out : List Action) : Prop where
  served : (verdictsOf out ++ next.opened).Perm (node.opened ++ requestsOf out)
  released : (closesOf out ++ next.sockets).Perm (node.sockets ++ bindsOf out)
  aimed : ∀ action ∈ out, Aimed action

variable {node next last : Node} {out later : List Action}

/-- What was open and came in is answered or open, twice in a row. -/
theorem hand_over {α : Type} {held between left answered taken answered' taken' : List α}
    (first : (answered ++ between).Perm (held ++ taken)) (second : (answered' ++ left).Perm (between ++ taken')) :
    ((answered ++ answered') ++ left).Perm (held ++ (taken ++ taken')) := by
  rw [List.append_assoc]
  refine (second.append_left answered).trans ?_
  rw [← List.append_assoc, ← List.append_assoc]
  exact first.append_right taken'

theorem accounts_trans (first : Accounts node next out) (second : Accounts next last later) :
    Accounts node last (out ++ later) where
  served := by
    simp only [verdictsOf, requestsOf, List.filterMap_append]
    exact hand_over first.served second.served
  released := by
    simp only [closesOf, bindsOf, List.filterMap_append]
    exact hand_over first.released second.released
  aimed action member := by
    rcases List.mem_append.mp member with early | late
    · exact first.aimed action early
    · exact second.aimed action late

/-- Neither the probes nor the ledger change. -/
theorem accounts_idle (same : next.helperProbes = node.helperProbes)
    (idle : ∀ action ∈ out, (∃ helper nonce port, action = .asked helper nonce port) ∨
      ∃ now reachability, action = .advertised now reachability) : Accounts node next out := by
  have none : ∀ {α : Type} (f : Action → Option α), (∀ helper nonce port, f (.asked helper nonce port) = none) →
      (∀ now reachability, f (.advertised now reachability) = none) → out.filterMap f = [] := by
    intro α f asked advertised
    refine List.filterMap_eq_nil_iff.mpr (fun action member => ?_)
    rcases idle action member with ⟨helper, nonce, port, rfl⟩ | ⟨now, reachability, rfl⟩
    · exact asked helper nonce port
    · exact advertised now reachability
  refine ⟨?_, ?_, fun action member => ?_⟩
  · rw [verdictsOf, requestsOf, none _ (fun _ _ _ => rfl) (fun _ _ => rfl),
      none _ (fun _ _ _ => rfl) (fun _ _ => rfl), opened, opened, same, List.append_nil]
    exact .refl _
  · rw [closesOf, bindsOf, none _ (fun _ _ _ => rfl) (fun _ _ => rfl),
      none _ (fun _ _ _ => rfl) (fun _ _ => rfl), sockets, sockets, same, List.append_nil]
    exact .refl _
  · rcases idle action member with ⟨helper, nonce, port, rfl⟩ | ⟨now, reachability, rfl⟩
    · trivial
    · trivial

/-- The core's probes stay and the transport's grow. -/
theorem tended_grows (held : node.Tended) (same : next.helperProbes = node.helperProbes)
    (grown : Grows node.transport next.transport) : next.Tended where
  truthful := held.truthful.grows grown
  live id kept := by
    rw [same] at kept
    rw [grown.same id]
    exact held.live id kept

/-! ### Answers -/

theorem grows_queueDatagramToPeer (t : OverlayQuicTransport OverlayFrame) (pubkey : Pubkey) (frame : OverlayFrame) :
    Grows t (OverlayTransport.queueDatagramToPeer t pubkey frame).1 :=
  grows_of_probeSide (probeSide_queueDatagramToPeer t pubkey frame)

theorem tended_sendDialbackResult (held : node.Tended) (requester : Pubkey) (nonce : Nat) (ok : Bool)
    (event : Option ProbeEvent) : (node.sendDialbackResult requester nonce ok event).1.Tended :=
  tended_grows held rfl (grows_queueDatagramToPeer _ _ _)

/-- A refused request is answered on the spot. -/
theorem accounts_refused (requester : Pubkey) (nonce : Nat) (same : next.helperProbes = node.helperProbes) :
    Accounts node next [.requested requester nonce, .verdict requester nonce false none] := by
  refine ⟨?_, ?_, fun action member => ?_⟩
  · show ((requester, nonce) :: next.opened).Perm (node.opened ++ [(requester, nonce)])
    rw [opened, opened, same]
    exact (List.perm_append_singleton _ _).symm
  · show (next.sockets).Perm (node.sockets ++ [])
    rw [sockets, sockets, same, List.append_nil]
  · rcases List.mem_cons.mp member with rfl | later
    · trivial
    · cases List.mem_singleton.mp later
      trivial

theorem accounts_unstarted (requester : Pubkey) (nonce : Nat) (socket : SocketId)
    (same : next.helperProbes = node.helperProbes) :
    Accounts node next
      [.requested requester nonce, .bound socket, .closed socket, .verdict requester nonce false none] := by
  refine ⟨?_, ?_, fun action member => ?_⟩
  · show ((requester, nonce) :: next.opened).Perm (node.opened ++ [(requester, nonce)])
    rw [opened, opened, same]
    exact (List.perm_append_singleton _ _).symm
  · show (socket :: next.sockets).Perm (node.sockets ++ [socket])
    rw [sockets, sockets, same]
    exact (List.perm_append_singleton _ _).symm
  · simp only [List.mem_cons, List.not_mem_nil, or_false] at member
    rcases member with rfl | rfl | rfl | rfl <;> trivial

theorem accounts_started {probe : ProbeId} (helper : HelperProbe) {source target : SocketAddr}
    (fresh : node.helperProbes[probe]? = none) (opens : next.helperProbes = node.helperProbes.insert probe helper)
    (aimed : target.ip = source.ip ∧ 1024 ≤ target.port.toNat) :
    Accounts node next [.requested helper.requester helper.nonce, .bound helper.socket,
      .probed probe helper.requester source target] := by
  have added := Entries.insert_perm (v := helper) fresh
  refine ⟨?_, ?_, fun action member => ?_⟩
  · show next.opened.Perm (node.opened ++ [(helper.requester, helper.nonce)])
    rw [opened, opened, opens]
    exact (added.map _).trans (List.perm_append_singleton _ _).symm
  · show next.sockets.Perm (node.sockets ++ [helper.socket])
    rw [sockets, sockets, opens]
    exact (added.map _).trans (List.perm_append_singleton _ _).symm
  · simp only [List.mem_cons, List.not_mem_nil, or_false] at member
    rcases member with rfl | rfl | rfl
    · trivial
    · trivial
    · exact aimed

theorem unused_probe (held : node.Tended) : node.helperProbes[node.transport.nextProbe]? = none := by
  cases found : node.helperProbes[node.transport.nextProbe]? with
  | none => rfl
  | some helper =>
    have live := held.live node.transport.nextProbe (by rw [found]; rfl)
    exact absurd (held.truthful.fresh _ live) (Nat.lt_irrefl _)

theorem tended_started (held : node.Tended) {started : OverlayQuicTransport OverlayFrame} (truthful : started.Truthful)
    (live : ∀ id, id = node.transport.nextProbe ∨ (node.transport.probeIdentity id).isSome →
      (started.probeIdentity id).isSome) (transport : next.transport = started) {helper : HelperProbe}
    (opens : next.helperProbes = node.helperProbes.insert node.transport.nextProbe helper) : next.Tended := by
  refine ⟨transport ▸ truthful, fun id kept => ?_⟩
  rw [transport]
  rw [opens, TreeMap.getElem?_insert] at kept
  split at kept
  next here => exact live id (.inl (LawfulEqOrd.compare_eq_iff_eq.mp here).symm)
  next => exact live id (.inr (held.live id kept))

theorem serve_spec (held : node.Tended) (env : Env (OverlayQuicTransport OverlayFrame)) (requester : Pubkey)
    (source : SocketAddr) (nonce : Nat) (probePort : Option UInt16) :
    (node.serveDialback env requester source nonce probePort).1.Tended ∧
    Accounts node (node.serveDialback env requester source nonce probePort).1
      (.requested requester nonce :: (node.serveDialback env requester source nonce probePort).2) := by
  have refused : ∀ current : Node, current.Tended → current.helperProbes = node.helperProbes →
      (current.sendDialbackResult requester nonce false none).1.Tended ∧
      Accounts node (current.sendDialbackResult requester nonce false none).1
        (.requested requester nonce :: (current.sendDialbackResult requester nonce false none).2) :=
    fun current tended same =>
      ⟨tended_sendDialbackResult tended requester nonce false none, accounts_refused requester nonce same⟩
  unfold serveDialback
  dsimp only
  split
  · exact refused _ ⟨held.truthful, held.live⟩ rfl
  split
  · exact refused _ ⟨held.truthful, held.live⟩ rfl
  next unprivileged =>
    split
    · exact refused _ ⟨held.truthful, held.live⟩ rfl
    next socket _ =>
      rcases startProbe_spec held.truthful socket (probeTarget source probePort) env.dial with
        failed | ⟨started, began, truthful, live⟩
      · have result : OverlayTransport.startProbe node.transport socket (probeTarget source probePort) env.dial =
          (node.transport, none) := failed
        rw [result]
        have tended : Tended { node with
            dialbackRate := (node.dialbackRate.checkAndIncrement requester env.now).1 } := ⟨held.truthful, held.live⟩
        exact ⟨tended_sendDialbackResult tended requester nonce false none,
          accounts_unstarted requester nonce socket rfl⟩
      · have result : OverlayTransport.startProbe node.transport socket (probeTarget source probePort) env.dial =
          (started, some node.transport.nextProbe) := began
        rw [result]
        have port : 1024 ≤ (probeTarget source probePort).port.toNat := by
          have high := UInt16.not_lt.mp unprivileged
          exact UInt16.le_iff_toNat_le.mp high
        exact ⟨tended_started held truthful live rfl rfl,
          accounts_started ⟨requester, nonce, socket, env.now + dialbackTimeout⟩
            (unused_probe held) rfl ⟨rfl, port⟩⟩

/-! ### Conclusions -/

variable {probe : ProbeId} {helper : HelperProbe}

theorem helperProbes_concludeProbe (node : Node) (probe : ProbeId) (helper : HelperProbe) (ok : Bool)
    (event : Option ProbeEvent) :
    (node.concludeProbe probe helper ok event).1.helperProbes = node.helperProbes.erase probe := rfl

theorem tended_concludeProbe (held : node.Tended) (probe : ProbeId) (helper : HelperProbe) (ok : Bool)
    (event : Option ProbeEvent) : (node.concludeProbe probe helper ok event).1.Tended := by
  have grown := grows_queueDatagramToPeer node.transport helper.requester (.dialBackResult helper.nonce ok)
  refine ⟨truthful_closeProbe (held.truthful.grows grown) probe, fun id kept => ?_⟩
  rw [helperProbes_concludeProbe, TreeMap.getElem?_erase] at kept
  split at kept
  · cases kept
  next other =>
    have apart : id ≠ probe := fun same => other (by rw [same]; exact ReflOrd.compare_self)
    show ((OverlayQuicTransport.closeProbe _ probe).probeIdentity id).isSome
    rw [probeIdentity_closeProbe, if_neg apart, grown.same id]
    exact held.live id kept

theorem accounts_concludeProbe (found : node.helperProbes[probe]? = some helper) (ok : Bool)
    (event : Option ProbeEvent) :
    Accounts node (node.concludeProbe probe helper ok event).1 (node.concludeProbe probe helper ok event).2 := by
  have removed := Entries.erase_perm found
  refine ⟨?_, ?_, fun action member => ?_⟩
  · show ((helper.requester, helper.nonce) :: (node.concludeProbe probe helper ok event).1.opened).Perm
      (node.opened ++ [])
    rw [List.append_nil, opened, opened, helperProbes_concludeProbe]
    exact (removed.map (fun entry => (entry.2.requester, entry.2.nonce))).symm
  · show (helper.socket :: (node.concludeProbe probe helper ok event).1.sockets).Perm (node.sockets ++ [])
    rw [List.append_nil, sockets, sockets, helperProbes_concludeProbe]
    exact (removed.map (fun entry => entry.2.socket)).symm
  · have shape : action = .verdict helper.requester helper.nonce ok event ∨ action = .closed helper.socket := by
      simpa [concludeProbe, sendDialbackResult] using member
    rcases shape with rfl | rfl <;> trivial

/-- A positive verdict goes to the peer its probe was verified to be. -/
def Vouched (node : Node) (action : Action) : Prop :=
  ∀ peer nonce event, action = .verdict peer nonce true event → ∃ id helper, node.helperProbes[id]? = some helper ∧
    helper.requester = peer ∧ helper.nonce = nonce ∧ node.transport.probeIdentity id = some (some peer)

def polled (node : Node) : Node :=
  { node with transport := { node.transport with probeEvents := node.transport.probeEvents.tail } }

theorem tended_polled (held : node.Tended) : (polled node).Tended :=
  ⟨truthful_pollProbeEvent held.truthful, held.live⟩

theorem step_probeEvent (node : Node) : node.step .probeEvent =
    match node.transport.probeEvents.head? with
    | some event => (polled node).onProbeEvent event
    | none => (polled node, []) := by
  have poll : OverlayTransport.pollProbeEvent node.transport = ((polled node).transport,
    node.transport.probeEvents.head?) := rfl
  unfold OverlayCore.step
  dsimp only
  rw [poll]
  cases node.transport.probeEvents.head? with
  | none => rfl
  | some event => rfl

theorem probeEvent_spec (held : node.Tended) :
    (node.step .probeEvent).1.Tended ∧ Accounts node (node.step .probeEvent).1 (node.step .probeEvent).2 ∧
    ∀ action ∈ (node.step .probeEvent).2, Vouched node action := by
  have silent : (polled node).Tended ∧ Accounts node (polled node) [] ∧ ∀ action ∈ [], Vouched node action :=
    ⟨tended_polled held, accounts_idle rfl (by simp), by simp⟩
  rw [step_probeEvent]
  cases head : node.transport.probeEvents.head? with
  | none => exact silent
  | some event =>
    dsimp only
    unfold onProbeEvent
    cases found : (polled node).helperProbes[event.probe]? with
    | none => exact silent
    | some helper =>
      have accounts := accounts_concludeProbe found (event.identity = some helper.requester) (some event)
      refine ⟨tended_concludeProbe (tended_polled held) _ _ _ _,
        ⟨accounts.served, accounts.released, accounts.aimed⟩, ?_⟩
      rintro action member peer nonce cause rfl
      have shape : peer = helper.requester ∧ nonce = helper.nonce ∧ event.identity = some helper.requester ∧
          cause = some event := by
        simpa [concludeProbe, sendDialbackResult, eq_comm, and_assoc] using member
      obtain ⟨rfl, rfl, authenticated, _⟩ := shape
      have queued : event ∈ node.transport.probeEvents := List.mem_of_mem_head? head
      have live := held.live event.probe (by rw [show node.helperProbes = (polled node).helperProbes from rfl, found]; rfl)
      exact ⟨event.probe, helper, found, rfl, rfl, held.truthful.verified event queued _ authenticated live⟩

/-! ### Deadlines -/

theorem expire_spec {expired : List (ProbeId × HelperProbe)} (held : node.Tended)
    (present : ∀ entry ∈ expired, node.helperProbes[entry.1]? = some entry.2)
    (distinct : expired.Pairwise (fun x y => x.1 ≠ y.1)) :
    (run expireProbe node expired).1.Tended ∧
    Accounts node (run expireProbe node expired).1 (run expireProbe node expired).2 ∧
    ∀ id, (run expireProbe node expired).1.helperProbes[id]? =
      if id ∈ expired.map Prod.fst then none else node.helperProbes[id]? := by
  induction expired generalizing node with
  | nil => exact ⟨held, accounts_idle rfl (by simp), fun id => by simp⟩
  | cons entry rest ih =>
    obtain ⟨apart, distinct⟩ := List.pairwise_cons.mp distinct
    have gone : ∀ id, (expireProbe node entry).1.helperProbes[id]? =
        if entry.1 = id then none else node.helperProbes[id]? := by
      intro id
      have same : (expireProbe node entry).1.helperProbes = node.helperProbes.erase entry.1 := rfl
      rw [same, TreeMap.getElem?_erase]
      simp
    have left : ∀ other ∈ rest, (expireProbe node entry).1.helperProbes[other.1]? = some other.2 := by
      intro other member
      rw [gone, if_neg (apart other member)]
      exact present other (List.mem_cons_of_mem _ member)
    have kept : (expireProbe node entry).1.Tended := tended_concludeProbe held entry.1 entry.2 false none
    have first : Accounts node (expireProbe node entry).1 (expireProbe node entry).2 :=
      accounts_concludeProbe (present entry (List.mem_cons_self ..)) false none
    obtain ⟨tended, accounts, remaining⟩ := ih kept left distinct
    refine ⟨tended, accounts_trans first accounts, fun id => ?_⟩
    rw [run_cons, remaining id, gone id]
    by_cases here : entry.1 = id
    · have listed : id ∈ (entry :: rest).map Prod.fst := List.mem_map.mpr ⟨entry, List.mem_cons_self .., here⟩
      rw [if_pos here, if_pos listed, ite_self]
    · have listed : id ∈ (entry :: rest).map Prod.fst ↔ id ∈ rest.map Prod.fst := by
        rw [List.map_cons, List.mem_cons]
        exact or_iff_right (fun same => here same.symm)
      rw [if_neg here]
      simp only [listed]

theorem expireDialbacks_spec (held : node.Tended) (now : Instant) :
    (node.expireDialbacks now).1.Tended ∧
    Accounts node (node.expireDialbacks now).1 (node.expireDialbacks now).2 ∧
    ∀ (id : ProbeId) helper, (node.expireDialbacks now).1.helperProbes[id]? = some helper → now < helper.deadline := by
  have tended : Tended { node with
      dialbackPending := node.dialbackPending.filter (fun _ pending => now < pending.deadline) } :=
    ⟨held.truthful, held.live⟩
  have present : ∀ entry ∈ node.helperProbes.toList.filter (fun entry => entry.2.deadline ≤ now),
      node.helperProbes[entry.1]? = some entry.2 := by
    intro entry member
    exact TreeMap.mem_toList_iff_getElem?_eq_some.mp (List.mem_filter.mp member).1
  have distinct : (node.helperProbes.toList.filter (fun entry => entry.2.deadline ≤ now)).Pairwise
      (fun x y => x.1 ≠ y.1) := by
    refine List.Pairwise.filter _ (TreeMap.distinct_keys_toList.imp ?_)
    exact fun apart same => apart (LawfulEqOrd.compare_eq_iff_eq.mpr same)
  obtain ⟨after, accounts, remaining⟩ := expire_spec tended present distinct
  refine ⟨after, ⟨accounts.served, accounts.released, accounts.aimed⟩, fun id helper found => ?_⟩
  have kept := (remaining id).symm.trans found
  split at kept
  · cases kept
  next survives =>
    by_contra late
    refine survives (List.mem_map.mpr ⟨(id, helper), List.mem_filter.mpr ⟨?_, ?_⟩, rfl⟩)
    · exact TreeMap.mem_toList_iff_getElem?_eq_some.mpr kept
    · simpa using late

theorem sendsKeep_grows : SendsKeep (T := OverlayQuicTransport OverlayFrame) Grows where
  refl := Grows.refl
  trans := Grows.trans
  toPeer := grows_queueDatagramToPeer
  toAddr _ _ _ _ := grows_of_probeSide (probeSide_dialAnd _ _ _ _ _)

/-! ### Steps and runs -/

theorem grows_calls (t : OverlayQuicTransport OverlayFrame)
    (calls : List (OverlayTransport.Call (OverlayQuicTransport OverlayFrame))) :
    Grows t (calls.foldl OverlayTransport.call t) :=
  grows_foldl (fun t call => grows_step t call.2) calls t

theorem advert_spec (held : node.Tended) (env : Env (OverlayQuicTransport OverlayFrame))
    (sends : List (OverlayTransport.Call (OverlayQuicTransport OverlayFrame))) : 
    let advertised : Node := { node with
      nextAdvert := env.now + advertInterval
      transport := sends.foldl OverlayTransport.call node.transport }
    (advertised.maybeRequestDialback env).1.Tended ∧ Accounts node (advertised.maybeRequestDialback env).1
      (.advertised env.now node.computeReachability :: (advertised.maybeRequestDialback env).2) := by
  intro advertised
  have asks := asks_maybeRequestDialback env sendsKeep_grows advertised
  have same : (advertised.maybeRequestDialback env).1.helperProbes = node.helperProbes := asks.probes
  refine ⟨tended_grows held same ((grows_calls node.transport sends).trans asks.transport), accounts_idle same ?_⟩
  intro action member
  rcases List.mem_cons.mp member with rfl | asked
  · exact .inr ⟨_, _, rfl⟩
  · exact .inl (asks.asked action asked)

theorem timer_spec (held : node.Tended) (env : Env (OverlayQuicTransport OverlayFrame))
    (sends : List (OverlayTransport.Call (OverlayQuicTransport OverlayFrame))) :
    (node.onTimer env sends).1.Tended ∧ Accounts node (node.onTimer env sends).1 (node.onTimer env sends).2 ∧
    ∀ (id : ProbeId) helper, (node.onTimer env sends).1.helperProbes[id]? = some helper →
      env.now < helper.deadline := by
  unfold onTimer
  by_cases due : node.nextAdvert ≤ env.now
  · obtain ⟨tended, accounts⟩ := advert_spec held env sends
    obtain ⟨after, expired, remaining⟩ := expireDialbacks_spec tended env.now
    rw [if_pos due]
    exact ⟨after, accounts_trans accounts expired, remaining⟩
  · rw [if_neg due]
    exact expireDialbacks_spec held env.now

/-- Only a probe event brings a positive verdict. -/
theorem positive_only_probeEvent (node : Node) {input : Input (OverlayQuicTransport OverlayFrame)}
    (quiet : input ≠ .probeEvent) (peer : Pubkey) (nonce : Nat) (event : Option ProbeEvent) :
    .verdict peer nonce true event ∉ (node.step input).2 := by
  by_cases request : IsRequest input
  · obtain ⟨env, source, asked, probePort, rfl⟩ : ∃ env source asked probePort,
        input = .frame env source (.dialBackRequest asked probePort) := by
      unfold IsRequest at request
      split at request
      · exact ⟨_, _, _, _, rfl⟩
      · exact request.elim
    show .verdict peer nonce true event ∉ (node.handleDialbackRequest env source asked probePort).2
    unfold handleDialbackRequest
    split
    · exact List.not_mem_nil
    next requester _ =>
      intro member
      rcases List.mem_cons.mp member with same | served
      · cases same
      rcases serve_cases env node requester source asked probePort with refused | ⟨_, _, _, _, _, actions⟩
      · exact refused.negative peer nonce event served
      · rw [actions] at served
        simp at served
  · exact (shrinks_step node request quiet).negative peer nonce event

theorem vouched_of_quiet (node : Node) {input : Input (OverlayQuicTransport OverlayFrame)}
    (quiet : input ≠ .probeEvent) : ∀ action ∈ (node.step input).2, Vouched node action := by
  rintro action member peer nonce event rfl
  exact absurd member (positive_only_probeEvent node quiet peer nonce event)

theorem frame_spec (held : node.Tended) (env : Env (OverlayQuicTransport OverlayFrame)) (source : SocketAddr)
    (frame : OverlayFrame) :
    (node.handleFrame env source frame).1.Tended ∧
    Accounts node (node.handleFrame env source frame).1 (node.handleFrame env source frame).2 := by
  have silent : ∀ current : Node, current.helperProbes = node.helperProbes → current.transport = node.transport →
      current.Tended ∧ Accounts node current [] :=
    fun current same transport => ⟨tended_grows held same (transport ▸ .refl _), accounts_idle same (by simp)⟩
  cases frame with
  | addressObservation observed =>
    refine silent (node.handleObservation source observed) ?_ ?_
    all_goals
      unfold handleObservation
      split
      · rfl
      split
      · rfl
      · rfl
  | dialBackRequest nonce probePort =>
    show (node.handleDialbackRequest env source nonce probePort).1.Tended ∧
      Accounts node (node.handleDialbackRequest env source nonce probePort).1
        (node.handleDialbackRequest env source nonce probePort).2
    unfold handleDialbackRequest
    split
    · exact silent node rfl rfl
    next requester _ => exact serve_spec held env requester source nonce probePort
  | dialBackResult nonce ok =>
    refine silent (node.handleDialbackResult nonce ok) ?_ ?_
    all_goals
      unfold handleDialbackResult
      split
      · rfl
      dsimp only
      split
      · split
        · rfl
        · rfl
        · rfl
      · rfl
  | other raw => exact silent node rfl rfl

theorem helper_step (held : node.Tended) (input : Input (OverlayQuicTransport OverlayFrame)) :
    (node.step input).1.Tended ∧ Accounts node (node.step input).1 (node.step input).2 ∧
    ∀ action ∈ (node.step input).2, Vouched node action := by
  cases input with
  | call call =>
    exact ⟨tended_grows held rfl (grows_step node.transport call.2), accounts_idle rfl (fun _ member => by cases member),
      fun _ member => by cases member⟩
  | portmap mapped =>
    exact ⟨⟨held.truthful, held.live⟩, accounts_idle rfl (fun _ member => by cases member),
      fun _ member => by cases member⟩
  | frame env source frame =>
    obtain ⟨tended, accounts⟩ := frame_spec held env source frame
    exact ⟨tended, accounts, vouched_of_quiet node (fun same => by cases same)⟩
  | probeEvent => exact probeEvent_spec held
  | timer env sends =>
    obtain ⟨tended, accounts, _⟩ := timer_spec held env sends
    exact ⟨tended, accounts, vouched_of_quiet node (fun same => by cases same)⟩

theorem helper_run {start : Node} (tended : start.Tended) (inputs : List (Input (OverlayQuicTransport OverlayFrame))) :
    (run OverlayCore.step start inputs).1.Tended ∧
    Accounts start (run OverlayCore.step start inputs).1 (run OverlayCore.step start inputs).2 := by
  refine run_history (P := fun _ node out => node.Tended ∧ Accounts start node out)
    ⟨tended, accounts_idle rfl (by simp)⟩ ?_ inputs (meets_true inputs)
  rintro _ node out input ⟨held, accounts⟩ _
  obtain ⟨after, added, _⟩ := helper_step held input
  exact ⟨after, accounts_trans accounts added⟩

theorem helper_safety (localPubkey : Pubkey) (socket : SocketId) (socketV6 : Option SocketId) (bindAddr : SocketAddr)
    (bindAddrV6 advertisedAddr advertisedAddrV6 : Option SocketAddr) (gateway : Bool) (now : Instant)
    (inputs : List (Input (OverlayQuicTransport OverlayFrame))) :
    let start : Node := OverlayCore.new localPubkey (OverlayQuicTransport.new socket socketV6) bindAddr bindAddrV6
      advertisedAddr advertisedAddrV6 gateway now
    let node := (run OverlayCore.step start inputs).1
    let out := (run OverlayCore.step start inputs).2
    -- Probes stay on the host of the request and off privileged ports.
    (∀ probe requester source target, .probed probe requester source target ∈ out →
      target.ip = source.ip ∧ 1024 ≤ target.port.toNat) ∧
    -- Requests are answered once or still open, and sockets closed once or still in use.
    (verdictsOf out ++ node.opened).Perm (requestsOf out) ∧
    (closesOf out ++ node.sockets).Perm (bindsOf out) ∧
    (∀ input, ∀ action ∈ (node.step input).2, Vouched node action) ∧
    -- No request stays open past the event of its probe or past its deadline.
    (∀ event, node.transport.probeEvents.head? = some event →
      (node.step .probeEvent).1.helperProbes[event.probe]? = none) ∧
    ∀ env sends (id : ProbeId) helper, (node.step (.timer env sends)).1.helperProbes[id]? = some helper →
      env.now < helper.deadline := by
  intro start node out
  have tended : start.Tended := by
    refine ⟨truthful_new socket socketV6, fun id live => ?_⟩
    simp [start, OverlayCore.new] at live
  obtain ⟨held, accounts⟩ := helper_run tended inputs
  refine ⟨fun probe requester source target member => accounts.aimed _ member, ?_, ?_, ?_, ?_, ?_⟩
  · exact accounts.served
  · exact accounts.released
  · exact fun input => (helper_step held input).2.2
  · intro event head
    rw [step_probeEvent, head]
    dsimp only
    unfold onProbeEvent
    cases found : (polled node).helperProbes[event.probe]? with
    | none => exact found
    | some helper => simp [helperProbes_concludeProbe]
  · exact fun env sends id helper => (timer_spec held env sends).2.2 id helper

end Lightbringer.Overlay
