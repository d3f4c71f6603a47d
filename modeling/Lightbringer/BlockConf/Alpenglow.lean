import Lightbringer.Alpenglow.Cert
import Lightbringer.BlockConf.Rpc
import Lightbringer.Lib.Lru
import Lightbringer.Store.SlotMeta
import Mathlib.Data.List.ReduceOption

/-!
# Finalized slots in order

`block_conf/alpenglow.rs`: completed slots come in, and with them certificates that finalize blocks, in any order. A
block that is both complete and finalized waits in `pending` until its slot is next.

`next` is taken apart at its awaits, so that a run also shows the states between them.
-/

namespace Lightbringer.BlockConf
open Std Machine Store Alpenglow

def maxReorderedSlots : Nat := 32

def maxUnmatchedCandidates : Nat := 2048

def maxUnmatchedFinalizations : Nat := 2048

structure AlpenglowBlockConfUpdate where
  update : BlockConfUpdate
  slot : SlotRaw
  deriving DecidableEq

structure AlpenglowBlockConfStream where
  verifier : AlpenglowCertificateVerifier
  candidates : Lru (UInt64 × Hash) SlotRaw
  finalized : Lru (UInt64 × Hash) Unit
  pending : TreeMap UInt64 AlpenglowBlockConfUpdate
  nextSlot : Option UInt64

namespace AlpenglowBlockConfStream

def new (verifier : AlpenglowCertificateVerifier) : AlpenglowBlockConfStream :=
  ⟨verifier, Lru.new maxUnmatchedCandidates, Lru.new maxUnmatchedFinalizations, ∅, none⟩

variable (stream : AlpenglowBlockConfStream)

def removeCandidate (key : UInt64 × Hash) : AlpenglowBlockConfStream × Option SlotRaw :=
  ({ stream with candidates := stream.candidates.remove key }, stream.candidates.peek key)

def removeFinalized (key : UInt64 × Hash) : AlpenglowBlockConfStream :=
  { stream with finalized := stream.finalized.remove key }

/-- One round of the loop in `promote_finalized_candidates`. -/
def promote (key : UInt64 × Hash) : AlpenglowBlockConfStream :=
  if stream.nextSlot.any (fun next => key.1 < next) then ((stream.removeFinalized key).removeCandidate key).1
  else
    match stream.removeCandidate key with
    | (stream, none) => stream
    | (stream, some slot) =>
      let stream := stream.removeFinalized key
      { stream with pending := stream.pending.insert key.1 ⟨⟨key.1, key.2⟩, slot⟩ }

def promoteFinalizedCandidates : AlpenglowBlockConfStream := stream.finalized.keys.foldl promote stream

/-- `pop_ready` once the next slot is known. -/
def popFrom (nextSlot : UInt64) : AlpenglowBlockConfStream × Option AlpenglowBlockConfUpdate :=
  let ready :=
    if stream.pending.contains nextSlot then some nextSlot
    else if maxReorderedSlots < stream.pending.size then stream.pending.keys.head?
    else none
  match ready with
  | none => (stream, none)
  | some slot =>
    match stream.pending[slot]? with
    | none => (stream, none)
    | some update =>
      ({ stream with pending := stream.pending.erase slot, nextSlot := some (saturatingSucc slot) }, some update)

def popReady : AlpenglowBlockConfStream × Option AlpenglowBlockConfUpdate :=
  match stream.nextSlot with
  | some nextSlot => stream.popFrom nextSlot
  | none =>
    match stream.pending.keys.head? with
    | none => (stream, none)
    | some slot => popFrom { stream with nextSlot := some slot } slot

end AlpenglowBlockConfStream

/-! ### A call of `next` and what it awaits -/

inductive NextTask.Awaits where
  /-- No call is under way. -/
  | call
  | slot
  | verification (certificate : BlockFinalizationCert) (rest : List BlockFinalizationCert)

structure NextTask where
  stream : AlpenglowBlockConfStream
  awaits : NextTask.Awaits

inductive NextTask.Event where
  | next
  | received (slot : SlotRaw)
  /-- The sender of completed slots is gone. -/
  | closed
  /-- The certificate at hand is verified or refused, with what the verifier was answered on the way. -/
  | verified (answers : VerifierAnswers)

namespace NextTask

def new (verifier : AlpenglowCertificateVerifier) : NextTask := ⟨.new verifier, .call⟩

/-- The head of the loop in `next`. -/
def resume (stream : AlpenglowBlockConfStream) : NextTask × List (Option AlpenglowBlockConfUpdate) :=
  match stream.popReady with
  | (stream, some update) => (⟨stream, .call⟩, [some update])
  | (stream, none) => (⟨stream, .slot⟩, [])

/-- On with the certificates that are left, and back to the head of the loop. -/
def verifyRest (stream : AlpenglowBlockConfStream) :
    List BlockFinalizationCert → NextTask × List (Option AlpenglowBlockConfUpdate)
  | [] => resume stream.promoteFinalizedCandidates
  | certificate :: rest => (⟨stream, .verification certificate rest⟩, [])

variable [SolanaLedger]

def receive (stream : AlpenglowBlockConfStream) (slot : SlotRaw) :
    NextTask × List (Option AlpenglowBlockConfUpdate) :=
  match recoverDataShreds slot.shreds with
  | .error _ => resume stream
  | .ok shreds =>
    let slot : SlotRaw := ⟨shreds, slot.slot⟩
    match computeBlockId slot.shreds with
    | .error _ => resume stream
    | .ok blockHash =>
      let finalCertificates := parseFinalCertificates slot.shreds
      verifyRest { stream with candidates := stream.candidates.push (slot.slot, blockHash) slot } finalCertificates

variable [CertVerify]

def settle (stream : AlpenglowBlockConfStream) (certificate : BlockFinalizationCert)
    (rest : List BlockFinalizationCert) (answers : VerifierAnswers) :
    NextTask × List (Option AlpenglowBlockConfUpdate) :=
  match stream.verifier.verifyFinalCertificate certificate answers with
  | (verifier, .ok finalization) =>
    let key := (finalization.slot, finalization.blockId)
    verifyRest { stream with verifier := verifier, finalized := stream.finalized.push key () } rest
  | (verifier, .error _) => verifyRest { stream with verifier := verifier } rest

/-- What `next` returns is emitted. An event that nothing awaits has no effect. -/
def step (task : NextTask) (event : Event) : NextTask × List (Option AlpenglowBlockConfUpdate) :=
  match event, task.awaits with
  | .next, .call => resume task.stream
  | .received slot, .slot => receive task.stream slot
  | .closed, .slot => (⟨task.stream, .call⟩, [none])
  | .verified answers, .verification certificate rest => settle task.stream certificate rest answers
  | _, _ => (task, [])

end NextTask

end Lightbringer.BlockConf
