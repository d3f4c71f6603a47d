import Lightbringer.Alpenglow.Cert
import Lightbringer.Lib.Machine
import Lightbringer.Lib.NewestWindow
import Std.Data.TreeMap.Lemmas

/-!
# How often the snapshot is fetched

The rank maps that are cached follow from the epochs that the manifests fetched so far have listed. A manifest that does
not list the epoch it was fetched for leaves no trace of that, so the next certificate of the epoch fetches again.
-/

namespace Lightbringer.Alpenglow
open Std Machine

/-- The epochs of a manifest whose maps can be used. -/
def staked (fetched : List (UInt64 × EpochRankMap)) : List UInt64 :=
  (fetched.filter (fun entry => entry.2.totalStake ≠ 0)).map (·.1)

def VerifierAnswers.staked (answers : VerifierAnswers) : List UInt64 :=
  match answers.epochRankMaps with
  | .ok fetched => Alpenglow.staked fetched
  | .error _ => []

/-- The epoch is listed and belongs to the newest. -/
abbrev Kept (listed : List UInt64) (epoch : UInt64) : Prop := NewestWindow.Kept UInt64.toNat 3 listed epoch

namespace AlpenglowCertificateVerifier

/-- The epoch that the snapshot is fetched for. -/
def fetches (verifier : AlpenglowCertificateVerifier) (cert : BlockFinalizationCert) (answers : VerifierAnswers) :
    Option UInt64 :=
  match (verifier.epochForSlot cert.slot answers.epochSchedule).2 with
  | .ok certEpoch => if verifier.rankMaps.contains certEpoch then none else some certEpoch
  | .error _ => none

/-- A run shows what the snapshot was fetched for. -/
def step [CertVerify] (verifier : AlpenglowCertificateVerifier) (asked : BlockFinalizationCert × VerifierAnswers) :
    AlpenglowCertificateVerifier × List UInt64 :=
  ((verifier.verifyFinalCertificate asked.1 asked.2).1, (verifier.fetches asked.1 asked.2).toList)

end AlpenglowCertificateVerifier

/-! ### The cache as a function of what was listed -/

theorem mem_insertRankMap {rankMaps : TreeMap UInt64 RankMap} {fetched : UInt64 × EpochRankMap} {epoch : UInt64} :
    epoch ∈ AlpenglowCertificateVerifier.insertRankMap rankMaps fetched ↔
      epoch ∈ rankMaps ∨ fetched.2.totalStake ≠ 0 ∧ fetched.1 = epoch := by
  unfold AlpenglowCertificateVerifier.insertRankMap
  split
  next stake =>
    rw [TreeMap.mem_insert, LawfulEqOrd.compare_eq_iff_eq]
    simp [stake, or_comm]
  next none => simp [none]

theorem staked_cons (entry : UInt64 × EpochRankMap) (rest : List (UInt64 × EpochRankMap)) :
    staked (entry :: rest) = if entry.2.totalStake ≠ 0 then entry.1 :: staked rest else staked rest := by
  unfold staked
  by_cases stake : entry.2.totalStake = 0
  · simp [stake]
  · simp [stake]

theorem mem_foldl_insertRankMap (fetched : List (UInt64 × EpochRankMap)) (rankMaps : TreeMap UInt64 RankMap)
    {epoch : UInt64} :
    epoch ∈ fetched.foldl AlpenglowCertificateVerifier.insertRankMap rankMaps ↔
      epoch ∈ rankMaps ∨ epoch ∈ staked fetched := by
  induction fetched generalizing rankMaps with
  | nil => simp [staked]
  | cons entry rest ih =>
    rw [List.foldl_cons, ih, mem_insertRankMap, staked_cons, or_assoc]
    refine or_congr_right ?_
    split
    next stake => rw [List.mem_cons, @eq_comm _ epoch, and_iff_right stake]
    next none => rw [or_iff_right (fun both => none both.1)]

theorem saturatingSub_le_iff (newest epoch : UInt64) :
    saturatingSub newest (retainedRankMapEpochs - 1) ≤ epoch ↔ newest.toNat < epoch.toNat + 3 := by
  have two : (retainedRankMapEpochs - 1 : UInt64).toNat = 2 := rfl
  rw [UInt64.le_iff_toNat_le, saturatingSub]
  split
  next big =>
    rw [UInt64.toNat_sub_of_le _ _ big, two]
    omega
  next small =>
    rw [UInt64.le_iff_toNat_le, two] at small
    rw [UInt64.toNat_zero]
    omega

/-- What is older than the newest key by the width or more is dropped. -/
theorem mem_retainNewest {rankMaps : TreeMap UInt64 RankMap} {certEpoch epoch : UInt64} :
    epoch ∈ AlpenglowCertificateVerifier.retainNewest rankMaps certEpoch ↔
      epoch ∈ rankMaps ∧ ∀ other ∈ rankMaps, other.toNat < epoch.toNat + 3 := by
  unfold AlpenglowCertificateVerifier.retainNewest
  dsimp only
  rw [TreeMap.mem_filter, ← TreeMap.maxKey?_eq_getLast?_keys]
  cases last : rankMaps.maxKey? with
  | none =>
    have empty : rankMaps.isEmpty = true := TreeMap.maxKey?_eq_none_iff.mp last
    have nothing : epoch ∉ rankMaps := TreeMap.not_mem_of_isEmpty empty
    simp [nothing]
  | some newest =>
    obtain ⟨here, most⟩ := TreeMap.maxKey?_eq_some_iff_mem_and_forall.mp last
    simp only [Option.getD_some, TreeMap.getKey_eq, exists_prop]
    refine and_congr_right (fun member => ?_)
    rw [decide_eq_true_iff, saturatingSub_le_iff]
    refine ⟨fun near other there => ?_, fun near => near newest here⟩
    have below : other ≤ newest := Std.isLE_compare.mp (most other there)
    rw [UInt64.le_iff_toNat_le] at below
    omega

/-- A cache that holds the newest of what was listed holds the newest of that and one more manifest after it. -/
theorem kept_retainNewest {rankMaps : TreeMap UInt64 RankMap} {listed : List UInt64}
    (held : ∀ epoch, epoch ∈ rankMaps ↔ Kept listed epoch) (fetched : List (UInt64 × EpochRankMap))
    (certEpoch epoch : UInt64) :
    epoch ∈ AlpenglowCertificateVerifier.retainNewest
        (fetched.foldl AlpenglowCertificateVerifier.insertRankMap rankMaps) certEpoch ↔
      Kept (listed ++ staked fetched) epoch := by
  simp only [mem_retainNewest, mem_foldl_insertRankMap, held]
  exact (NewestWindow.kept_append (by decide)).symm

/-! ### The ledger -/

/-- What the answers so far have said, without the maps: the epochs that were asked for and those that were listed. -/
structure Ledger where
  epochSchedule : Option EpochSchedule
  asked : List UInt64
  listed : List UInt64

namespace Ledger

def new : Ledger := ⟨none, [], []⟩

def schedule (ledger : Ledger) (answers : VerifierAnswers) : Option EpochSchedule :=
  ledger.epochSchedule.or answers.epochSchedule.toOption

/-- The epoch of a certificate, once the schedule is known. -/
def epoch (ledger : Ledger) (asked : BlockFinalizationCert × VerifierAnswers) : Option UInt64 :=
  (ledger.schedule asked.2).map (fun schedule => schedule asked.1.slot)

/-- An epoch that is not kept is asked for, and the manifest lists what it lists. -/
def step (ledger : Ledger) (asked : BlockFinalizationCert × VerifierAnswers) : Ledger × List UInt64 :=
  match ledger.epoch asked with
  | none => (ledger, [])
  | some epoch =>
    let ledger := { ledger with epochSchedule := ledger.schedule asked.2 }
    if Kept ledger.listed epoch then (ledger, [])
    else ({ ledger with asked := ledger.asked ++ [epoch], listed := ledger.listed ++ asked.2.staked }, [epoch])

/-- An epoch that was asked for before was listed, and nothing more than two epochs newer was. -/
def Answered (ledger : Ledger) (asked : BlockFinalizationCert × VerifierAnswers) : Prop :=
  ∀ epoch, ledger.epoch asked = some epoch → epoch ∈ ledger.asked → Kept ledger.listed epoch

end Ledger

/-- The cache holds what the ledger keeps. -/
structure Follows (verifier : AlpenglowCertificateVerifier) (ledger : Ledger) : Prop where
  schedule : verifier.epochSchedule = ledger.epochSchedule
  cached : ∀ epoch, epoch ∈ verifier.rankMaps ↔ Kept ledger.listed epoch

theorem follows_new (shredVersion : UInt16) : Follows (.new shredVersion) .new where
  schedule := rfl
  cached epoch := by simp [AlpenglowCertificateVerifier.new, Ledger.new, NewestWindow.not_kept_nil]

section
variable {verifier : AlpenglowCertificateVerifier} {ledger : Ledger} {asked : BlockFinalizationCert × VerifierAnswers}

theorem Follows.contains (follows : Follows verifier ledger) (epoch : UInt64) :
    verifier.rankMaps.contains epoch = true ↔ Kept ledger.listed epoch := by
  rw [TreeMap.contains_iff_mem, follows.cached]

/-- Where the schedule is unknown and stays so, nothing is fetched. -/
theorem Follows.epochForSlot (follows : Follows verifier ledger) (asked : BlockFinalizationCert × VerifierAnswers) :
    (∃ error, verifier.epochForSlot asked.1.slot asked.2.epochSchedule = (verifier, .error error) ∧
      ledger.epoch asked = none) ∨
    ∃ epoch, verifier.epochForSlot asked.1.slot asked.2.epochSchedule =
      ({ verifier with epochSchedule := ledger.schedule asked.2 }, .ok epoch) ∧ ledger.epoch asked = some epoch := by
  unfold AlpenglowCertificateVerifier.epochForSlot Ledger.epoch Ledger.schedule
  rw [follows.schedule]
  cases known : ledger.epochSchedule with
  | some schedule =>
    have same : verifier = { verifier with epochSchedule := some schedule } := by
      rw [← known, ← follows.schedule]
    exact .inr ⟨schedule asked.1.slot, congrArg (fun after => (after, Except.ok _)) same, rfl⟩
  | none =>
    cases asked.2.epochSchedule with
    | error error => exact .inl ⟨error, rfl, rfl⟩
    | ok schedule => exact .inr ⟨schedule asked.1.slot, rfl, rfl⟩

theorem Follows.ensureRankMap (follows : Follows verifier ledger) (certEpoch : UInt64) (answers : VerifierAnswers) :
    Follows (verifier.ensureRankMap certEpoch answers.epochRankMaps).1
      (if Kept ledger.listed certEpoch then ledger else { ledger with
        asked := ledger.asked ++ [certEpoch], listed := ledger.listed ++ answers.staked }) := by
  unfold AlpenglowCertificateVerifier.ensureRankMap
  by_cases kept : Kept ledger.listed certEpoch
  · rw [if_pos kept, if_pos ((follows.contains certEpoch).mpr kept)]
    exact follows
  · rw [if_neg kept, if_neg (fun cached => kept ((follows.contains certEpoch).mp cached))]
    unfold VerifierAnswers.staked
    cases answers.epochRankMaps with
    | error error =>
      refine ⟨follows.schedule, fun epoch => ?_⟩
      rw [List.append_nil]
      exact follows.cached epoch
    | ok fetched =>
      dsimp only
      split
      · exact ⟨follows.schedule, kept_retainNewest follows.cached fetched certEpoch⟩
      · exact ⟨follows.schedule, kept_retainNewest follows.cached fetched certEpoch⟩

theorem Follows.fetches (follows : Follows verifier ledger) :
    (verifier.fetches asked.1 asked.2).toList = (ledger.step asked).2 := by
  unfold AlpenglowCertificateVerifier.fetches Ledger.step
  rcases follows.epochForSlot asked with ⟨error, unknown, none⟩ | ⟨epoch, known, some⟩
  · rw [unknown, none]
    rfl
  · rw [known, some]
    dsimp only
    by_cases kept : Kept ledger.listed epoch
    · rw [if_pos kept, if_pos ((follows.contains epoch).mpr kept)]
      rfl
    · rw [if_neg kept, if_neg (fun cached => kept ((follows.contains epoch).mp cached))]
      rfl

variable [CertVerify]

theorem verifyFinalCertificate_verifier (verifier : AlpenglowCertificateVerifier) (cert : BlockFinalizationCert)
    (answers : VerifierAnswers) {after : AlpenglowCertificateVerifier} {epoch : UInt64}
    (known : verifier.epochForSlot cert.slot answers.epochSchedule = (after, .ok epoch)) :
    (verifier.verifyFinalCertificate cert answers).1 = (after.ensureRankMap epoch answers.epochRankMaps).1 := by
  unfold AlpenglowCertificateVerifier.verifyFinalCertificate
  rw [known]
  dsimp only
  split
  next ensured => rw [ensured]
  next ensured =>
    rw [ensured]
    split
    · rfl
    · rfl

theorem Follows.step (follows : Follows verifier ledger) (asked : BlockFinalizationCert × VerifierAnswers) :
    Follows (verifier.step asked).1 (ledger.step asked).1 ∧ (verifier.step asked).2 = (ledger.step asked).2 := by
  refine ⟨?_, follows.fetches⟩
  dsimp only [AlpenglowCertificateVerifier.step]
  unfold Ledger.step
  rcases follows.epochForSlot asked with ⟨error, unknown, none⟩ | ⟨epoch, known, some⟩
  · rw [none, AlpenglowCertificateVerifier.verifyFinalCertificate, unknown]
    exact follows
  · rw [verifyFinalCertificate_verifier verifier asked.1 asked.2 known, some]
    have scheduled : Follows { verifier with epochSchedule := ledger.schedule asked.2 }
        { ledger with epochSchedule := ledger.schedule asked.2 } := ⟨rfl, follows.cached⟩
    have ensured := scheduled.ensureRankMap epoch asked.2
    dsimp only at ensured ⊢
    split at ensured
    next kept =>
      rw [if_pos kept]
      exact ensured
    next gone =>
      rw [if_neg gone]
      exact ensured

theorem follows_run (shredVersion : UInt16) (asked : List (BlockFinalizationCert × VerifierAnswers)) :
    Follows (run AlpenglowCertificateVerifier.step (.new shredVersion) asked).1 (run Ledger.step .new asked).1 ∧
      (run AlpenglowCertificateVerifier.step (.new shredVersion) asked).2 = (run Ledger.step .new asked).2 := by
  induction asked using List.reverseRecOn with
  | nil => exact ⟨follows_new shredVersion, rfl⟩
  | append_singleton earlier last ih =>
    rw [run_concat, run_concat]
    obtain ⟨follows, same⟩ := ih.1.step last
    exact ⟨follows, by rw [ih.2, same]⟩

end

/-! ### One fetch for each epoch -/

theorem Ledger.asked_run (ledger : Ledger) (asked : List (BlockFinalizationCert × VerifierAnswers)) :
    (run step ledger asked).1.asked = ledger.asked ++ (run step ledger asked).2 := by
  induction asked generalizing ledger with
  | nil => simp
  | cons first rest ih =>
    rw [run_cons, ih, ← List.append_assoc]
    congr 1
    unfold step
    split
    · simp
    · dsimp only
      split
      · simp
      · rfl

/-- No epoch is asked for twice exactly if each that was asked for before was answered for good. -/
theorem Ledger.nodup_iff {ledger : Ledger} (distinct : ledger.asked.Nodup)
    (asked : List (BlockFinalizationCert × VerifierAnswers)) :
    (run step ledger asked).1.asked.Nodup ↔ Meets step Answered ledger asked := by
  induction asked generalizing ledger with
  | nil => exact ⟨fun _ => trivial, fun _ => distinct⟩
  | cons first rest ih =>
    rw [run_cons, meets_cons]
    dsimp only
    by_cases answered : Answered ledger first
    · rw [and_iff_right answered]
      refine ih ?_
      unfold step
      split
      · exact distinct
      next epoch known =>
        dsimp only
        split
        · exact distinct
        next gone =>
          refine List.nodup_append.mpr ⟨distinct, by simp, fun other old last new same => ?_⟩
          obtain rfl := List.mem_singleton.mp new
          exact gone (answered last known (same ▸ old))
    · refine ⟨fun once => ?_, fun both => (answered both.1).elim⟩
      simp only [Answered, not_forall] at answered
      obtain ⟨epoch, known, before, gone⟩ := answered
      have again : (step ledger first).1.asked = ledger.asked ++ [epoch] := by
        unfold step
        rw [known]
        dsimp only
        rw [if_neg gone]
      rw [asked_run, again] at once
      have twice := (List.nodup_append.mp (List.nodup_append.mp once).1).2.2 epoch before epoch (by simp)
      exact (twice rfl).elim

/-- The map of an epoch is there once it has been ensured, and of the others, cached or listed by the manifest that is
fetched for want of it, those of the newest. -/
structure Ensured (before : TreeMap UInt64 RankMap) (listed : List UInt64) (after : TreeMap UInt64 RankMap)
    (epoch : UInt64) : Prop where
  here : epoch ∈ after
  few : after.size ≤ 3
  newest : ∀ kept ∈ after, ∀ dropped, dropped ∈ before ∨ epoch ∉ before ∧ dropped ∈ listed → dropped ∉ after →
    dropped < kept

theorem size_le_of_kept {rankMaps : TreeMap UInt64 RankMap} {listed : List UInt64}
    (held : ∀ epoch, epoch ∈ rankMaps ↔ Kept listed epoch) : rankMaps.size ≤ 3 := by
  rw [← TreeMap.length_keys]
  have distinct : (rankMaps.keys.map UInt64.toNat).Nodup := by
    refine List.Nodup.map (fun a b same => UInt64.toNat_inj.mp same) ?_
    exact TreeMap.distinct_keys.imp (fun {a b} apart same => apart (Std.compare_eq_iff_eq.mpr same))
  exact NewestWindow.length_le distinct (fun epoch member => (held epoch).mp (TreeMap.mem_keys.mp member))

theorem Follows.ensured {verifier : AlpenglowCertificateVerifier} {ledger : Ledger} (follows : Follows verifier ledger)
    (epoch : UInt64) (answers : VerifierAnswers)
    (done : (verifier.ensureRankMap epoch answers.epochRankMaps).2 = .ok ()) :
    Ensured verifier.rankMaps answers.staked (verifier.ensureRankMap epoch answers.epochRankMaps).1.rankMaps epoch := by
  have after := follows.ensureRankMap epoch answers
  refine ⟨?_, size_le_of_kept after.cached, fun kept stays dropped known gone => ?_⟩
  · unfold AlpenglowCertificateVerifier.ensureRankMap at done ⊢
    split
    next cached => exact TreeMap.contains_iff_mem.mp cached
    next missing =>
      rw [if_neg missing] at done
      cases answered : answers.epochRankMaps with
      | error error =>
        rw [answered] at done
        cases done
      | ok fetched =>
        rw [answered] at done
        dsimp only at done ⊢
        split
        next there => exact TreeMap.contains_iff_mem.mp there
        next absent =>
          rw [if_neg absent] at done
          cases done
  · -- What is at least as new as a key that stays would stay with it.
    rw [UInt64.lt_iff_toNat_lt]
    by_contra newer
    rw [after.cached] at stays gone
    refine gone ⟨?_, fun other there => ?_⟩
    · rcases known with before | ⟨missing, listed⟩
      · have listed := ((follows.cached dropped).mp before).1
        split
        · exact listed
        · exact List.mem_append_left _ listed
      · rw [if_neg (fun kept => missing ((follows.cached epoch).mpr kept))]
        exact List.mem_append_right _ listed
    · have near := stays.2 other there
      omega

structure FetchesOnce (verifier : AlpenglowCertificateVerifier) (fetched : List UInt64) : Prop where
  once : fetched.Nodup
  ensured : ∀ epoch (answers : VerifierAnswers), (verifier.ensureRankMap epoch answers.epochRankMaps).2 = .ok () →
    Ensured verifier.rankMaps answers.staked (verifier.ensureRankMap epoch answers.epochRankMaps).1.rankMaps epoch

/-- The snapshot is fetched once for each epoch exactly while every epoch it was fetched for stays answered. -/
theorem fetches_once_iff [CertVerify] (shredVersion : UInt16) (asked : List (BlockFinalizationCert × VerifierAnswers)) :
    FetchesOnce (run AlpenglowCertificateVerifier.step (.new shredVersion) asked).1
        (run AlpenglowCertificateVerifier.step (.new shredVersion) asked).2 ↔
      Meets Ledger.step Ledger.Answered .new asked := by
  obtain ⟨follows, same⟩ := follows_run shredVersion asked
  rw [← Ledger.nodup_iff (show Ledger.new.asked.Nodup from List.nodup_nil), Ledger.asked_run, same]
  refine ⟨fun fetches => fetches.once, fun once => ⟨once, fun epoch answers done => ?_⟩⟩
  exact follows.ensured epoch answers done

/-- Two certificates with a slot far ahead of every epoch that a manifest lists. -/
def farCertificates : List (BlockFinalizationCert × VerifierAnswers) :=
  let cert : BlockFinalizationCert := ⟨900, 0, ⟨[], []⟩, none⟩
  let entry : EpochRankMap := ⟨⟨0, fun _ => none⟩, 10⟩
  let answers : VerifierAnswers := ⟨.ok (fun slot => slot / 32), .ok [(4, entry), (5, entry)]⟩
  [(cert, answers), (cert, answers)]

abbrev rejectsAll : CertVerify := ⟨.ok, fun _ _ _ _ => .error "", fun _ => ""⟩

theorem farCertificates_fetch_twice :
    (@run _ _ _ (@AlpenglowCertificateVerifier.step rejectsAll) (.new 0) farCertificates).2 = [28, 28] ∧
      ¬ ∀ (certVerify : CertVerify) shredVersion asked,
        FetchesOnce (@run _ _ _ (@AlpenglowCertificateVerifier.step certVerify) (.new shredVersion) asked).1
          (@run _ _ _ (@AlpenglowCertificateVerifier.step certVerify) (.new shredVersion) asked).2 := by
  have twice : (@run _ _ _ (@AlpenglowCertificateVerifier.step rejectsAll) (.new 0) farCertificates).2 = [28, 28] := by
    decide +kernel
  refine ⟨twice, fun all => ?_⟩
  have once := (all rejectsAll 0 farCertificates).once
  rw [twice] at once
  exact absurd once (by decide)

end Lightbringer.Alpenglow
