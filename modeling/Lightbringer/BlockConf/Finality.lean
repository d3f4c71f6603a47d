import Lightbringer.BlockConf.Alpenglow
import Lightbringer.Lib.InOrder

/-!
# Order and finality of the updates

Whatever waits in `pending` has been finalized, matches its block id and is not before the next slot. A late
finalization is dropped at the cursor, and of two blocks of one slot the later one replaces the other while the slot
waits.
-/

namespace Lightbringer.BlockConf
open Std Machine Store Alpenglow

theorem firstKey_le {pending : TreeMap UInt64 AlpenglowBlockConfUpdate} {first : UInt64}
    (least : pending.keys.head? = some first) : ∀ slot ∈ pending, first ≤ slot := by
  intro slot member
  rw [← TreeMap.minKey?_eq_head?_keys] at least
  exact (LawfulOrderOrd.isLE_compare first slot).mp
    ((TreeMap.minKey?_eq_some_iff_mem_and_forall.mp least).2 slot member)

section

variable [SolanaLedger]

structure Vouched (reported : UInt64 × Hash → Prop) (u : AlpenglowBlockConfUpdate) : Prop where
  reported : reported (u.update.slot, u.update.blockHash)
  blockId : computeBlockId u.slot.shreds = .ok u.update.blockHash

/-- The stream after it has returned `out`. -/
structure Sound (reported : UInt64 × Hash → Prop) (stream : AlpenglowBlockConfStream)
    (out : List AlpenglowBlockConfUpdate) : Prop where
  candidates : ∀ key slot, (key, slot) ∈ stream.candidates.entries →
    key.1 < u64Max ∧ computeBlockId slot.shreds = .ok key.2
  finalized : ∀ key ∈ stream.finalized.keys, reported key
  pending : ∀ slot u, stream.pending[slot]? = some u → u.update.slot = slot ∧ slot < u64Max ∧ Vouched reported u
  order : InOrder.Ordered stream.nextSlot (fun slot => slot ∈ stream.pending) (out.map (fun u => u.update.slot))
  returned : ∀ u ∈ out, Vouched reported u

variable {reported : UInt64 × Hash → Prop} {stream : AlpenglowBlockConfStream} {out : List AlpenglowBlockConfUpdate}

theorem sound_new (verifier : AlpenglowCertificateVerifier) : Sound reported (.new verifier) [] := by
  refine ⟨fun key slot member => ?_, fun key member => ?_, fun slot u found => ?_, InOrder.ordered_start, ?_⟩
  · exact (List.not_mem_nil member).elim
  · exact (List.not_mem_nil member).elim
  · simp [AlpenglowBlockConfStream.new] at found
  · exact fun u member => (List.not_mem_nil member).elim

theorem Vouched.mono {reported' : UInt64 × Hash → Prop} (more : ∀ key, reported key → reported' key)
    {u : AlpenglowBlockConfUpdate} (vouched : Vouched reported u) : Vouched reported' u :=
  ⟨more _ vouched.reported, vouched.blockId⟩

theorem Sound.mono {reported' : UInt64 × Hash → Prop} (more : ∀ key, reported key → reported' key)
    (held : Sound reported stream out) : Sound reported' stream out := by
  refine ⟨held.candidates, fun key member => more key (held.finalized key member), fun slot u found => ?_,
    held.order, fun u member => (held.returned u member).mono more⟩
  obtain ⟨same, small, vouched⟩ := held.pending slot u found
  exact ⟨same, small, vouched.mono more⟩

theorem sound_verifier (held : Sound reported stream out) (verifier : AlpenglowCertificateVerifier) :
    Sound reported { stream with verifier := verifier } out :=
  ⟨held.candidates, held.finalized, held.pending, held.order, held.returned⟩

theorem sound_pushCandidate (held : Sound reported stream out) (slot : SlotRaw) {blockHash : Hash}
    (small : slot.slot < u64Max) (blockId : computeBlockId slot.shreds = .ok blockHash) :
    Sound reported { stream with candidates := stream.candidates.push (slot.slot, blockHash) slot } out := by
  refine ⟨fun key candidate member => ?_, held.finalized, held.pending, held.order, held.returned⟩
  rcases Lru.mem_of_mem_push member with new | old
  · cases new
    exact ⟨small, blockId⟩
  · exact held.candidates key candidate old

theorem sound_pushFinalized (held : Sound reported stream out) {key : UInt64 × Hash} (known : reported key) :
    Sound reported { stream with finalized := stream.finalized.push key () } out := by
  refine ⟨held.candidates, fun other member => ?_, held.pending, held.order, held.returned⟩
  obtain ⟨entry, inside, rfl⟩ := List.mem_map.mp member
  rcases Lru.mem_of_mem_push inside with rfl | old
  · exact known
  · exact held.finalized entry.1 (List.mem_map_of_mem old)

theorem sound_remove (held : Sound reported stream out) (key : UInt64 × Hash) :
    Sound reported ((stream.removeFinalized key).removeCandidate key).1 out := by
  refine ⟨fun other slot member => held.candidates other slot (Lru.mem_of_mem_remove member), fun other member => ?_,
    held.pending, held.order, held.returned⟩
  obtain ⟨entry, inside, rfl⟩ := List.mem_map.mp member
  exact held.finalized entry.1 (List.mem_map_of_mem (Lru.mem_of_mem_remove inside))

/-- One finalized block goes to `pending`, unless its slot is over or it is not complete. -/
theorem sound_promote (held : Sound reported stream out) {key : UInt64 × Hash} (known : reported key) :
    Sound reported (stream.promote key) out := by
  unfold AlpenglowBlockConfStream.promote
  split
  · exact sound_remove held key
  next due =>
    have atCursor : ∀ next, stream.nextSlot = some next → next ≤ key.1 := by
      intro next set
      rw [set] at due
      simpa using due
    dsimp only [AlpenglowBlockConfStream.removeCandidate]
    cases found : stream.candidates.peek key with
    | none =>
      refine ⟨fun other slot member => held.candidates other slot (Lru.mem_of_mem_remove member), held.finalized,
        held.pending, held.order, held.returned⟩
    | some slot =>
      obtain ⟨small, blockId⟩ := held.candidates key slot (Lru.mem_of_peek found)
      have removed := sound_remove held key
      refine ⟨removed.candidates, removed.finalized, fun other u there => ?_, held.order.keep fun other member => ?_,
        held.returned⟩
      · replace there : (stream.pending.insert key.1 ⟨⟨key.1, key.2⟩, slot⟩)[other]? = some u := there
        rw [TreeMap.getElem?_insert] at there
        split at there
        next same =>
          cases LawfulEqOrd.eq_of_compare same
          cases there
          exact ⟨rfl, small, known, blockId⟩
        next => exact held.pending other u there
      · replace member : other ∈ stream.pending.insert key.1 ⟨⟨key.1, key.2⟩, slot⟩ := member
        rcases TreeMap.mem_insert.mp member with same | old
        · cases LawfulEqOrd.eq_of_compare same
          exact .inr atCursor
        · exact .inl old

theorem sound_promoteFinalizedCandidates (held : Sound reported stream out) :
    Sound reported stream.promoteFinalizedCandidates out := by
  have folded : ∀ (keys : List (UInt64 × Hash)) (stream : AlpenglowBlockConfStream), (∀ key ∈ keys, reported key) →
      Sound reported stream out → Sound reported (keys.foldl AlpenglowBlockConfStream.promote stream) out := by
    intro keys
    induction keys with
    | nil => exact fun _ _ held => held
    | cons key rest ih =>
      intro stream known held
      rw [List.foldl_cons]
      exact ih _ (fun other later => known other (List.mem_cons_of_mem _ later))
        (sound_promote held (known key (List.mem_cons_self ..)))
  exact folded _ stream held.finalized held

/-! ### Taking the next update out -/

/-- Whichever slot is taken, no other one that waits is before it. -/
theorem sound_popFrom (held : Sound reported stream out) {nextSlot : UInt64} (set : stream.nextSlot = some nextSlot) :
    Sound reported (stream.popFrom nextSlot).1 (out ++ (stream.popFrom nextSlot).2.toList) := by
  have same : ∀ s, Sound reported s out → Sound reported s (out ++ (none : Option AlpenglowBlockConfUpdate).toList) := by
    intro s held
    rw [Option.toList_none, List.append_nil]
    exact held
  unfold AlpenglowBlockConfStream.popFrom
  dsimp only
  split
  · exact same stream held
  next slot ready =>
    split
    · exact same stream held
    next u found =>
      have least : ∀ other ∈ stream.pending, slot ≤ other := by
        split at ready
        · cases ready
          exact held.order.behind nextSlot set
        · split at ready
          · exact firstKey_le ready
          · cases ready
      obtain ⟨own, small, vouched⟩ := held.pending slot u found
      refine ⟨held.candidates, held.finalized, fun other v left => ?_, ?_, fun v member => ?_⟩
      · replace left : (stream.pending.erase slot)[other]? = some v := left
        rw [TreeMap.getElem?_erase] at left
        split at left
        · cases left
        · exact held.pending other v left
      · have handed := held.order.hand (by rw [set]; exact Option.some_ne_none _)
          (TreeMap.mem_iff_isSome_getElem?.mpr (by rw [found]; rfl)) least (lt_saturatingSucc small)
          (fun _ => saturatingSucc_le)
        rw [Option.toList_some, List.map_append, List.map_singleton, own]
        refine handed.keep (fun other member => .inl ?_)
        replace member : other ∈ stream.pending.erase slot := member
        obtain ⟨apart, old⟩ := TreeMap.mem_erase.mp member
        refine ⟨old, fun equal => apart ?_⟩
        rw [equal]
        exact ReflOrd.compare_self
      · rcases List.mem_append.mp member with old | new
        · exact held.returned v old
        · cases List.mem_singleton.mp new
          exact vouched

theorem sound_popReady (held : Sound reported stream out) :
    Sound reported stream.popReady.1 (out ++ stream.popReady.2.toList) := by
  unfold AlpenglowBlockConfStream.popReady
  split
  next nextSlot set => exact sound_popFrom held set
  next unset =>
    split
    · rw [Option.toList_none, List.append_nil]
      exact held
    next first least =>
      have order := held.order
      rw [unset] at order
      refine sound_popFrom ?_ rfl
      exact ⟨held.candidates, held.finalized, held.pending, order.start (firstKey_le least), held.returned⟩

/-! ### A call of `next` from one await to the next -/

/-- The certificates still to be verified. -/
def NextTask.Awaits.certificates : NextTask.Awaits → List BlockFinalizationCert
  | .verification certificate rest => certificate :: rest
  | _ => []

/-- The task after it has returned `out`. -/
structure TaskSound (reported : UInt64 × Hash → Prop) (carried : BlockFinalizationCert → Prop) (task : NextTask)
    (out : List AlpenglowBlockConfUpdate) : Prop where
  stream : Sound reported task.stream out
  certificates : ∀ certificate ∈ task.awaits.certificates, carried certificate

variable {carried : BlockFinalizationCert → Prop}

theorem taskSound_resume (held : Sound reported stream out) :
    TaskSound reported carried (NextTask.resume stream).1 (out ++ (NextTask.resume stream).2.reduceOption) := by
  have popped := sound_popReady held
  unfold NextTask.resume
  cases result : stream.popReady with
  | mk after update =>
    rw [result] at popped
    cases update with
    | none => exact ⟨popped, fun _ member => (List.not_mem_nil member).elim⟩
    | some update => exact ⟨popped, fun _ member => (List.not_mem_nil member).elim⟩

theorem taskSound_verifyRest (held : Sound reported stream out) {certificates : List BlockFinalizationCert}
    (known : ∀ certificate ∈ certificates, carried certificate) :
    TaskSound reported carried (NextTask.verifyRest stream certificates).1
      (out ++ (NextTask.verifyRest stream certificates).2.reduceOption) := by
  cases certificates with
  | nil => exact taskSound_resume (sound_promoteFinalizedCandidates held)
  | cons certificate rest =>
    rw [NextTask.verifyRest, List.reduceOption_nil, List.append_nil]
    exact ⟨held, known⟩

theorem taskSound_receive (held : Sound reported stream out) {slot : SlotRaw} (small : slot.slot < u64Max)
    (known : ∀ shreds, recoverDataShreds slot.shreds = .ok shreds →
      ∀ certificate ∈ parseFinalCertificates shreds, carried certificate) :
    TaskSound reported carried (NextTask.receive stream slot).1
      (out ++ (NextTask.receive stream slot).2.reduceOption) := by
  unfold NextTask.receive
  split
  · exact taskSound_resume held
  next shreds recovered =>
    dsimp only
    split
    · exact taskSound_resume held
    next blockHash blockId =>
      exact taskSound_verifyRest (sound_pushCandidate held ⟨shreds, slot.slot⟩ small blockId) (known shreds recovered)

/-- A slot among those received carries the certificate in one of its footers. -/
def Carried (events : List NextTask.Event) (certificate : BlockFinalizationCert) : Prop :=
  ∃ slot shreds, NextTask.Event.received slot ∈ events ∧ recoverDataShreds slot.shreds = .ok shreds ∧
    certificate ∈ parseFinalCertificates shreds

theorem Carried.later {events : List NextTask.Event} {certificate : BlockFinalizationCert} (carried : Carried events certificate)
    (event : NextTask.Event) : Carried (events ++ [event]) certificate := by
  obtain ⟨slot, shreds, member, recovered, inside⟩ := carried
  exact ⟨slot, shreds, List.mem_append_left _ member, recovered, inside⟩

variable [CertVerify]

theorem taskSound_settle (held : Sound reported stream out) {certificate : BlockFinalizationCert}
    {rest : List BlockFinalizationCert} {answers : VerifierAnswers}
    (known : ∀ other ∈ rest, carried other)
    (verified : ∀ finalization, (stream.verifier.verifyFinalCertificate certificate answers).2 = .ok finalization →
      reported (finalization.slot, finalization.blockId)) :
    TaskSound reported carried (NextTask.settle stream certificate rest answers).1
      (out ++ (NextTask.settle stream certificate rest answers).2.reduceOption) := by
  unfold NextTask.settle
  cases result : stream.verifier.verifyFinalCertificate certificate answers with
  | mk verifier answer =>
    rw [result] at verified
    cases answer with
    | ok finalization =>
      exact taskSound_verifyRest (sound_verifier (sound_pushFinalized held (verified finalization rfl)) verifier) known
    | error _ => exact taskSound_verifyRest (sound_verifier held verifier) known

/-- One event, given that `reported` and `carried` take in what it brings. -/
theorem taskSound_step {task : NextTask} (held : TaskSound reported carried task out) {event : NextTask.Event}
    (brought : ∀ slot, event = .received slot → slot.slot < u64Max ∧
      ∀ shreds, recoverDataShreds slot.shreds = .ok shreds →
        ∀ certificate ∈ parseFinalCertificates shreds, carried certificate)
    (verified : ∀ answers certificate rest finalization, event = .verified answers →
      task.awaits = .verification certificate rest →
      (task.stream.verifier.verifyFinalCertificate certificate answers).2 = .ok finalization →
      reported (finalization.slot, finalization.blockId)) :
    TaskSound reported carried (task.step event).1 (out ++ (task.step event).2.reduceOption) := by
  have idle : TaskSound reported carried task (out ++ ([] : List (Option AlpenglowBlockConfUpdate)).reduceOption) := by
    rw [List.reduceOption_nil, List.append_nil]
    exact held
  unfold NextTask.step
  split
  · exact taskSound_resume held.stream
  next slot _ =>
    obtain ⟨small, known⟩ := brought slot rfl
    exact taskSound_receive held.stream small known
  · exact ⟨idle.stream, fun _ member => (List.not_mem_nil member).elim⟩
  next answers certificate rest awaited =>
    have known := held.certificates
    rw [awaited] at known
    exact taskSound_settle held.stream (fun other later => known other (List.mem_cons_of_mem _ later))
      (fun finalization answered => verified answers certificate rest finalization rfl awaited answered)
  · exact idle

/-! ### Runs -/

/-- In the course of the events a certificate has come in and has been verified, and it finalizes the block. -/
def FinalizedBy (verifier : AlpenglowCertificateVerifier) (events : List NextTask.Event) (key : UInt64 × Hash) : Prop :=
  ∃ pre answers post certificate rest, events = pre ++ .verified answers :: post ∧ Carried pre certificate ∧
    key = (certificate.slot, certificate.blockId) ∧
    (run NextTask.step (.new verifier) pre).1.awaits = .verification certificate rest ∧
    ((run NextTask.step (.new verifier) pre).1.stream.verifier.verifyFinalCertificate certificate answers).2 =
      .ok ⟨key.1, key.2⟩

theorem FinalizedBy.later {verifier : AlpenglowCertificateVerifier} {events : List NextTask.Event} {key : UInt64 × Hash}
    (finalized : FinalizedBy verifier events key) (event : NextTask.Event) : FinalizedBy verifier (events ++ [event]) key := by
  obtain ⟨pre, answers, post, certificate, rest, split, known, names, awaited, verified⟩ := finalized
  refine ⟨pre, answers, post ++ [event], certificate, rest, ?_, known, names, awaited, verified⟩
  rw [split, List.append_assoc, List.cons_append]

theorem taskSound_run (verifier : AlpenglowCertificateVerifier) (events : List NextTask.Event)
    (below : ∀ slot, NextTask.Event.received slot ∈ events → slot.slot < u64Max) :
    TaskSound (FinalizedBy verifier events) (Carried events) (run NextTask.step (.new verifier) events).1
      (run NextTask.step (.new verifier) events).2.reduceOption := by
  have met : Meets NextTask.step (fun _ event => ∀ slot, event = NextTask.Event.received slot → slot.slot < u64Max)
      (.new verifier) events := by
    refine meets_of_forall (fun event member slot same => below slot ?_)
    rw [← same]
    exact member
  refine (run_history (P := fun events task out => task = (run NextTask.step (.new verifier) events).1 ∧
      TaskSound (FinalizedBy verifier events) (Carried events) task out.reduceOption)
    ⟨rfl, sound_new verifier, fun _ member => (List.not_mem_nil member).elim⟩ ?_ events met).2
  rintro events task out event ⟨reached, held⟩ small
  refine ⟨by rw [run_concat, reached], ?_⟩
  have grown : TaskSound (FinalizedBy verifier (events ++ [event])) (Carried (events ++ [event])) task
      out.reduceOption :=
    ⟨held.stream.mono (fun _ finalized => finalized.later event),
      fun certificate member => (held.certificates certificate member).later event⟩
  rw [List.reduceOption_append]
  apply taskSound_step grown
  · rintro slot rfl
    exact ⟨small slot rfl, fun shreds recovered certificate inside =>
      ⟨slot, shreds, List.mem_append_right _ (List.mem_singleton_self _), recovered, inside⟩⟩
  · rintro answers certificate rest finalization rfl awaited verified
    have known : Carried events certificate := by
      apply held.certificates
      rw [awaited]
      exact List.mem_cons_self ..
    have names := AlpenglowCertificateVerifier.verifyFinalCertificate_ok verified
    subst reached names
    exact ⟨events, answers, [], certificate, rest, rfl, known, rfl, awaited, verified⟩

/-- The slots returned ascend, and each returned block has been finalized by a verified certificate and has the id it
is returned with. Nothing before the next slot is ever pending. -/
theorem next_ascending_and_finalized (verifier : AlpenglowCertificateVerifier) (events : List NextTask.Event)
    (below : ∀ slot, NextTask.Event.received slot ∈ events → slot.slot < u64Max) :
    let task := (run NextTask.step (.new verifier) events).1
    let returned := (run NextTask.step (.new verifier) events).2.reduceOption
    (returned.map (fun u => u.update.slot)).Pairwise (fun a b => a < b) ∧
    (∀ u ∈ returned, FinalizedBy verifier events (u.update.slot, u.update.blockHash) ∧
      computeBlockId u.slot.shreds = .ok u.update.blockHash) ∧
    ∀ next, task.stream.nextSlot = some next → ∀ slot ∈ task.stream.pending, next ≤ slot := by
  have held := (taskSound_run verifier events below).stream
  refine ⟨held.order.ascending, fun u member => ?_, held.order.behind⟩
  exact ⟨(held.returned u member).reported, (held.returned u member).blockId⟩

end

/-- A ledger of data shreds in FEC set 0 of slots below 256. The root of the set is its slot, that of a tree its first
leaf, and a component is a tag, a slot and for a footer a signature. -/
abbrev plainLedger : SolanaLedger where
  newFromSerializedShred bytes :=
    match (bytes.drop 65).head?, (bytes.drop 73).head?, (bytes.drop 85).head? with
    | some slot, some index, some flags => .ok {
        slot := slot.toUInt64
        shredType := .data
        index := index.toUInt32
        fecSetIndex := 0
        merkleRoot := .ok (BitVec.ofNat 256 slot.toNat)
        parent := .ok (slot.toUInt64 - 1)
        lastInSlot := flags &&& 0xc0 = 0xc0
        dataComplete := flags &&& 0x40 = 0x40
        payload := bytes }
    | _, _, _ => .error "InvalidPayloadSize"
  merkleTryFrom shred := .ok shred
  merkleRecover _ := .error "TooFewShardsPresent"
  dataCompleteFlag bytes := .ok (bytes[85]?.any (fun flags => flags &&& 0x40 = 0x40))
  inferIsBlockMarker bytes := bytes.head?.map (fun tag => tag ≠ 0)
  deserializeComponent bytes :=
    match bytes with
    | [1, slot, _] => .ok (.blockMarker (.blockHeader slot.toUInt64 0))
    | [2, slot, signature] =>
      .ok (.blockMarker (.blockFooter (some ⟨slot.toUInt64, BitVec.ofNat 256 slot.toNat, ⟨[signature], []⟩, none⟩)))
    | _ => .error "InvalidTag"
  hashv _ := 0
  merkleTreeRoot leaves _ := leaves.head?.getD (.error "EmptyIterator")

abbrev plainCertVerify : CertVerify where
  uncompressSignature signature := .ok signature
  verifyCertificate cert _ _ _ := if cert.signature = [1] then .ok () else .error "SignatureVerificationFailed"
  debugCertType _ := ""

/-- A data shred on the wire, with three bytes of data. -/
def dataShred (slot index flags tag first second : UInt8) : PacketInfo where
  bytes := List.replicate 64 0 ++ [0x96, slot, 0, 0, 0, 0, 0, 0, 0, index, 0, 0, 0, 0, 0, 0, 0, 0, 0, 1, 0, flags,
    91, 0, tag, first, second]
  fits := by simp [packetDataSize]

/-- A slot of one FEC set. Its first shred is the header and its last one a footer, if it finalizes a slot. -/
def plainSlot (slot tag finalizes : UInt8) : SlotRaw where
  slot := slot.toUInt64
  shreds := dataShred slot 0 0 1 (slot - 1) 0 ::
    (List.range' 1 30).map (fun index => dataShred slot (UInt8.ofNat index) 0 0 0 0) ++
    [dataShred slot 31 0xc0 tag finalizes 1]

def rankMaps : VerifierAnswers where
  epochSchedule := .ok (fun slot => slot / 432000)
  epochRankMaps := .ok [(0, ⟨⟨0, fun _ => none⟩, 1⟩)]

def twoSlots : List NextTask.Event :=
  [.next, .received (plainSlot 5 0 0), .received (plainSlot 6 2 5), .verified rankMaps]

def fifthBlock : UInt64 × Hash := (5, 5)

theorem next_returns_finalized :
    (@run _ _ _ (@NextTask.step plainLedger plainCertVerify) (.new (.new 0)) twoSlots).2.reduceOption.map
      (fun u => (u.update.slot, u.update.blockHash)) = [fifthBlock] ∧
    @FinalizedBy plainLedger plainCertVerify (.new 0) twoSlots fifthBlock := by
  have returned : (@run _ _ _ (@NextTask.step plainLedger plainCertVerify) (.new (.new 0)) twoSlots).2.reduceOption.map
      (fun u => (u.update.slot, u.update.blockHash)) = [fifthBlock] := by decide +kernel
  have below : ∀ slot, NextTask.Event.received slot ∈ twoSlots → slot.slot < u64Max := by
    intro slot member
    simp only [twoSlots, List.mem_cons, reduceCtorEq, NextTask.Event.received.injEq, List.not_mem_nil, false_or, or_false]
      at member
    rcases member with rfl | rfl
    · decide
    · decide
  obtain ⟨_, vouched, _⟩ := @next_ascending_and_finalized plainLedger plainCertVerify (.new 0) twoSlots below
  refine ⟨returned, ?_⟩
  have member := List.mem_singleton_self fifthBlock
  rw [← returned] at member
  obtain ⟨u, inside, same⟩ := List.mem_map.mp member
  rw [← same]
  exact (vouched u inside).1

end Lightbringer.BlockConf
