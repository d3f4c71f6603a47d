import Lightbringer.Alpenglow.BlockId

/-!
# Finalization certificates

`alpenglow/cert.rs`: certificates are read off block footers and verified against the rank map of their epoch. The
maps come from a snapshot that is fetched when the epoch at hand is missing; what the RPC node and the snapshot source
answer when asked is an input.
-/

namespace Lightbringer.Alpenglow
open Std

/-- How many of the most recent epochs' rank maps are kept. -/
def retainedRankMapEpochs : UInt64 := 3

structure VerifiedFinalization where
  slot : UInt64
  blockId : Hash
  deriving DecidableEq

abbrev BlsPubkey := List UInt8

abbrev NonZeroU64 := { n : UInt64 // n ≠ 0 }

/-- `BLSPubkeyToRankMap`: the stake and key of each rank. -/
structure BLSPubkeyToRankMap where
  len : Nat
  getPubkeyStakeEntry : Nat → Option (NonZeroU64 × BlsPubkey)

structure RankMap where
  rankMap : BLSPubkeyToRankMap
  totalStake : NonZeroU64

/-- An epoch's entry in a snapshot manifest. -/
structure EpochRankMap where
  rankMap : BLSPubkeyToRankMap
  totalStake : UInt64

/-- `solana_epoch_schedule::EpochSchedule`, as the epoch of each slot. -/
abbrev EpochSchedule := UInt64 → UInt64

structure Block where
  slot : UInt64
  blockId : Hash
  deriving DecidableEq

inductive CertificateType where
  | finalize (slot : UInt64)
  | finalizeFast (block : Block)
  | notarize (block : Block)
  deriving DecidableEq

structure UnverifiedCertificate where
  certType : CertificateType
  signature : List UInt8
  bitmap : List UInt8
  shredVersion : UInt16
  deriving DecidableEq

/-- `agave_bls_cert_verify` and the BLS signatures under it. Errors are their texts. -/
class CertVerify where
  uncompressSignature : List UInt8 → Except String (List UInt8)
  verifyCertificate : UnverifiedCertificate → Nat → NonZeroU64 → (Nat → Option (NonZeroU64 × BlsPubkey)) →
    Except String Unit
  /-- The `Debug` text of a certificate type. -/
  debugCertType : CertificateType → String

structure AlpenglowCertificateVerifier where
  epochSchedule : Option EpochSchedule
  rankMaps : TreeMap UInt64 RankMap
  shredVersion : UInt16

/-- What `get_epoch_schedule` and `fetch_epoch_rank_maps` answer if they are called. -/
structure VerifierAnswers where
  epochSchedule : Except String EpochSchedule
  epochRankMaps : Except String (List (UInt64 × EpochRankMap))

namespace AlpenglowCertificateVerifier

def new (shredVersion : UInt16) : AlpenglowCertificateVerifier := ⟨none, ∅, shredVersion⟩

def epochForSlot (verifier : AlpenglowCertificateVerifier) (slot : UInt64) (answer : Except String EpochSchedule) :
    AlpenglowCertificateVerifier × Except String UInt64 :=
  match verifier.epochSchedule with
  | some schedule => (verifier, .ok (schedule slot))
  | none =>
    match answer with
    | .error e => (verifier, .error e)
    | .ok schedule => ({ verifier with epochSchedule := some schedule }, .ok (schedule slot))

def insertRankMap (rankMaps : TreeMap UInt64 RankMap) (fetched : UInt64 × EpochRankMap) : TreeMap UInt64 RankMap :=
  if stake : fetched.2.totalStake ≠ 0 then
    rankMaps.insert fetched.1 ⟨fetched.2.rankMap, ⟨fetched.2.totalStake, stake⟩⟩
  else rankMaps

/-- Only the newest epochs stay. -/
def retainNewest (rankMaps : TreeMap UInt64 RankMap) (certEpoch : UInt64) : TreeMap UInt64 RankMap :=
  let newestEpoch := rankMaps.keys.getLast?.getD certEpoch
  let oldestRetainedEpoch := saturatingSub newestEpoch (retainedRankMapEpochs - 1)
  rankMaps.filter (fun epoch _ => oldestRetainedEpoch ≤ epoch)

def ensureRankMap (verifier : AlpenglowCertificateVerifier) (certEpoch : UInt64)
    (answer : Except String (List (UInt64 × EpochRankMap))) : AlpenglowCertificateVerifier × Except String Unit :=
  if verifier.rankMaps.contains certEpoch then (verifier, .ok ())
  else
    match answer with
    | .error e => (verifier, .error e)
    | .ok fetched =>
      let rankMaps := retainNewest (fetched.foldl insertRankMap verifier.rankMaps) certEpoch
      let verifier := { verifier with rankMaps := rankMaps }
      if rankMaps.contains certEpoch then (verifier, .ok ())
      else (verifier, .error s!"alpenglow snapshot manifest did not contain a rank map for epoch {certEpoch}")

variable [CertVerify]

/-- Signature and stake threshold are both left to `verify_certificate`. -/
def verify (rankMap : RankMap) (cert : UnverifiedCertificate) : Except String Unit :=
  let certType := CertVerify.debugCertType cert.certType
  (CertVerify.verifyCertificate cert rankMap.rankMap.len rankMap.totalStake rankMap.rankMap.getPubkeyStakeEntry).mapError
    (fun e => s!"failed to verify {certType}: {e}")

/-- An aggregate as the certificate of a type; the name is that of its signature in errors. -/
def unverified (verifier : AlpenglowCertificateVerifier) (certType : CertificateType) (aggregate : VotesAggregate)
    (name : String) : Except String UnverifiedCertificate := do
  let signature ← (CertVerify.uncompressSignature aggregate.signature).mapError
    (fun e => s!"invalid {name} BLS signature: {e}")
  return ⟨certType, signature, aggregate.bitmap, verifier.shredVersion⟩

/-- Slow finalization takes a notarization and a finalization, fast finalization one certificate for both. -/
def checkAggregates (verifier : AlpenglowCertificateVerifier) (rankMap : RankMap) (cert : BlockFinalizationCert) :
    Except String Unit :=
  let block : Block := ⟨cert.slot, cert.blockId⟩
  match cert.notarAggregate with
  | some notarAggregate => do
    let notarizeCert ← verifier.unverified (.notarize block) notarAggregate "notarize"
    let finalizeCert ← verifier.unverified (.finalize cert.slot) cert.finalAggregate "finalize"
    verify rankMap notarizeCert
    verify rankMap finalizeCert
  | none => do
    let fastCert ← verifier.unverified (.finalizeFast block) cert.finalAggregate "fast-finalize"
    verify rankMap fastCert

def verifyFinalCertificate (verifier : AlpenglowCertificateVerifier) (cert : BlockFinalizationCert)
    (answers : VerifierAnswers) : AlpenglowCertificateVerifier × Except String VerifiedFinalization :=
  match verifier.epochForSlot cert.slot answers.epochSchedule with
  | (verifier, .error e) => (verifier, .error e)
  | (verifier, .ok certEpoch) =>
    match verifier.ensureRankMap certEpoch answers.epochRankMaps with
    | (verifier, .error e) => (verifier, .error e)
    | (verifier, .ok ()) =>
      match verifier.rankMaps[certEpoch]? with
      | none => (verifier, .error s!"missing alpenglow rank map for epoch {certEpoch}")
      | some rankMap =>
        (verifier, (verifier.checkAggregates rankMap cert).map (fun _ => ⟨cert.slot, cert.blockId⟩))

/-- A certificate that verifies vouches for the block it names. -/
theorem verifyFinalCertificate_ok {verifier : AlpenglowCertificateVerifier} {cert : BlockFinalizationCert}
    {answers : VerifierAnswers} {finalization : VerifiedFinalization}
    (verified : (verifier.verifyFinalCertificate cert answers).2 = .ok finalization) :
    finalization = ⟨cert.slot, cert.blockId⟩ := by
  unfold verifyFinalCertificate at verified
  split at verified
  · cases verified
  · split at verified
    · cases verified
    · split at verified
      · cases verified
      next later _ _ rankMap _ =>
        dsimp only at verified
        cases checked : checkAggregates later rankMap cert with
        | error e =>
          rw [checked] at verified
          cases verified
        | ok _ =>
          rw [checked] at verified
          cases verified
          rfl

end AlpenglowCertificateVerifier

variable [SolanaLedger]

def parseFinalCertificate (shred : Shred) : Option BlockFinalizationCert :=
  match parseMarker shred with
  | some (.blockFooter blockFinalCert) => blockFinalCert
  | _ => none

def parseFinalCertificates (shreds : List PacketInfo) : List BlockFinalizationCert :=
  shreds.filterMap (fun raw =>
    match SolanaLedger.newFromSerializedShred raw.bytes with
    | .ok shred => if shred.shredType ≠ .data then none else parseFinalCertificate shred
    | .error _ => none)

end Lightbringer.Alpenglow
