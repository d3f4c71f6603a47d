import Lightbringer.Overlay.CoreSteps

/-!
# Who may confirm an address

The requester remembers which helper it asked, but matches results by their nonce alone. So the authenticity of a
run is exactly that every result that matches a request comes from the helper that request went to.
-/

namespace Lightbringer.Overlay
open Std Machine OverlayCore

variable {T : Type} [OverlayTransport T]

/-- An address becomes confirmed only through a positive result of the helper asked about it, and the results of
others change nothing. -/
structure Authentic (core : OverlayCore T) (input : Input T) : Prop where
  confirms : ∀ kind a, core.confirmed kind ≠ some a → (core.step input).1.confirmed kind = some a →
    ∃ env source nonce entry, input = .frame env source (.dialBackResult nonce true) ∧
      core.dialbackPending[nonce]? = some entry ∧ entry.kind = kind ∧ entry.candidate = a ∧
      OverlayTransport.peerIdentity core.transport source = some entry.helper
  ignores : ∀ env source nonce ok, input = .frame env source (.dialBackResult nonce ok) →
    (∀ entry ∈ core.dialbackPending[nonce]?,
      OverlayTransport.peerIdentity core.transport source ≠ some entry.helper) →
    (core.step input).1.dialbackPending = core.dialbackPending ∧
    ∀ kind, (core.step input).1.confirmed kind = core.confirmed kind

/-- A result that matches a pending request arrives from the helper recorded with it. -/
def FromHelper (core : OverlayCore T) : Input T → Prop
  | .frame _ source (.dialBackResult nonce _) =>
    ∀ entry ∈ core.dialbackPending[nonce]?, OverlayTransport.peerIdentity core.transport source = some entry.helper
  | _ => True

instance (core : OverlayCore T) (input : Input T) : Decidable (FromHelper core input) := by
  cases input with
  | frame env source frame =>
    cases frame with
    | dialBackResult nonce ok => exact inferInstanceAs (Decidable (∀ entry ∈ core.dialbackPending[nonce]?, _ = _))
    | _ => exact .isTrue trivial
  | _ => exact .isTrue trivial

theorem authentic_of_fromHelper {core : OverlayCore T} {input : Input T} (genuine : FromHelper core input) :
    Authentic core input := by
  refine ⟨fun kind a unconfirmed confirmed => ?_, ?_⟩
  · by_cases result : IsResult input
    · obtain ⟨env, source, nonce, ok, rfl⟩ : ∃ env source nonce ok,
          input = .frame env source (.dialBackResult nonce ok) := by
        unfold IsResult at result
        split at result
        · exact ⟨_, _, _, _, rfl⟩
        · cases result
      have after : (core.handleDialbackResult nonce ok).confirmed kind = some a := confirmed
      cases found : core.dialbackPending[nonce]? with
      | none =>
        rw [handleDialbackResult_missing found] at after
        exact absurd after unconfirmed
      | some entry =>
        rw [(handleDialbackResult_found found ok).confirmed] at after
        split at after
        next settled =>
          obtain ⟨rfl, rfl⟩ := settled
          exact ⟨env, source, nonce, entry, rfl, found, rfl, Option.some.inj after, genuine entry found⟩
        next => exact absurd after unconfirmed
    · obtain ⟨_, _, keeps⟩ := keeps_step core result
      exact absurd (keeps.confirmed kind a confirmed) unconfirmed
  · rintro env source nonce ok rfl stranger
    cases found : core.dialbackPending[nonce]? with
    | none =>
      have same : (core.step (.frame env source (.dialBackResult nonce ok))).1 = core :=
        handleDialbackResult_missing found ok
      rw [same]
      exact ⟨rfl, fun _ => rfl⟩
    | some entry => exact absurd (genuine entry found) (stranger entry found)

theorem fromHelper_of_authentic {core : OverlayCore T} {input : Input T} (authentic : Authentic core input) :
    FromHelper core input := by
  unfold FromHelper
  split
  next env source nonce ok =>
    intro entry found
    by_contra stranger
    obtain ⟨unchanged, _⟩ := authentic.ignores env source nonce ok rfl (fun other matched => by
      rw [Option.mem_def, Option.mem_def.mp found] at matched
      cases matched
      exact stranger)
    have used : (core.handleDialbackResult nonce ok).dialbackPending = core.dialbackPending.erase nonce :=
      (handleDialbackResult_found found ok).pending
    have gone : (core.dialbackPending.erase nonce)[nonce]? = some entry := by
      rw [← used]
      exact (congrArg (·[nonce]?) unchanged).trans found
    simp at gone
  next => trivial

theorem authentic_iff (core : OverlayCore T) (input : Input T) : Authentic core input ↔ FromHelper core input :=
  ⟨fromHelper_of_authentic, authentic_of_fromHelper⟩

theorem results_authentic_iff (core : OverlayCore T) (inputs : List (Input T)) :
    Meets step Authentic core inputs ↔ Meets step FromHelper core inputs :=
  meets_congr authentic_iff inputs

/-! ### A stranger's result -/

abbrev QuicInput := Input (OverlayQuicTransport OverlayFrame)

/-- An inbound connection whose handshake authenticates as `identity`. -/
def connects (addr : SocketAddr) (handle : ConnectionHandle) (identity : Pubkey) : List QuicInput :=
  [.call ⟨.onDatagram (.newConnection addr 0 (some (handle, QuinnConn.idle))), rfl⟩,
    .call ⟨.onDatagram (.connectionEvent handle { QuinnConn.idle with
      identity := some identity
      events := [.handshakeDataReady, .connected] }), rfl⟩]

def quietEnv (now : Instant) : Env (OverlayQuicTransport OverlayFrame) := ⟨now, none, none⟩

def newNode : OverlayCore (OverlayQuicTransport OverlayFrame) :=
  OverlayCore.new 9 (OverlayQuicTransport.new 0 none) ⟨.v4 0x0A000001, 8001⟩ none none none false 0

def observerAddr (n : UInt8) : SocketAddr := ⟨.v4 (0xC0000200 + BitVec.ofNat 32 n.toNat), 8001⟩

def externalAddr (port : UInt16) : SocketAddr := ⟨.v4 0xCB007107, port⟩

/-- Peers 1 and 2 connect and both see us at port 40000; the first advert tick asks peer 1 for a dial-back. -/
def asksFirstPeer : List QuicInput :=
  connects (observerAddr 1) 1 1 ++ connects (observerAddr 2) 2 2 ++
  [.frame (quietEnv 0) (observerAddr 1) (.addressObservation (externalAddr 40000)),
    .frame (quietEnv 0) (observerAddr 2) (.addressObservation (externalAddr 40000)),
    .timer (quietEnv (fromSecs 10)) []]

/-- Peer 2, which was not asked, guesses the nonce. -/
def forgedResult : QuicInput := .frame (quietEnv (fromSecs 10)) (observerAddr 2) (.dialBackResult 0 true)

theorem stranger_confirms :
    ((run step newNode asksFirstPeer).1.dialbackPending[0]?).map (·.helper) = some 1 ∧
    OverlayTransport.peerIdentity (run step newNode asksFirstPeer).1.transport (observerAddr 2) = some 2 ∧
    (run step newNode asksFirstPeer).1.confirmedDirect = none ∧
    (run step newNode (asksFirstPeer ++ [forgedResult])).1.confirmedDirect = some (externalAddr 40000) ∧
    ¬ Meets step Authentic newNode (asksFirstPeer ++ [forgedResult]) := by
  refine ⟨by decide +kernel, by decide +kernel, by decide +kernel, by decide +kernel, fun authentic => ?_⟩
  have genuine := (meets_congr authentic_iff _).mp authentic
  revert genuine
  decide +kernel

end Lightbringer.Overlay
