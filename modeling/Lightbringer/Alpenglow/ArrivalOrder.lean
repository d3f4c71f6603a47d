import Lightbringer.Alpenglow.BlockId
import Lightbringer.Lib.Agreement
import Lightbringer.Lib.Batches

/-!
# The order in which shreds arrived

A slot is drained from a hash map, so every node has its shreds in an order of its own. Shreds that are told apart by
type, FEC set and index end up in the same places of the same maps whatever their order, and what is computed from the
maps is the same.
-/

namespace Lightbringer.Alpenglow
open Std Agreement Batches

/-- What tells the shreds of a slot apart. -/
def Shred.key (shred : Shred) : ShredType × UInt32 × UInt32 := (shred.shredType, shred.fecSetIndex, shred.index)

/-! ### The data shreds of one FEC set -/

theorem shreds_foldl (shreds : List Shred) (batch : FecBatch) :
    (shreds.foldl FecBatch.add batch).shreds = batch.shreds ++ shreds := by
  induction shreds generalizing batch with
  | nil => rw [List.foldl_nil, List.append_nil]
  | cons shred rest ih =>
    rw [List.foldl_cons, ih, FecBatch.add, List.append_assoc]
    rfl

/-- Each data shred of a batch is kept, where no two have the same index. -/
theorem getElem?_dataShreds {shreds : List Shred} {fecSetIndex : UInt32}
    (own : ∀ shred ∈ shreds, shred.fecSetIndex = fecSetIndex) (distinct : (shreds.map Shred.key).Nodup)
    (index : UInt32) (shred : Shred) :
    (shreds.foldl FecBatch.add default).dataShreds[index]? = some shred ↔
      shred ∈ shreds ∧ shred.shredType = .data ∧ shred.index = index := by
  induction shreds using List.reverseRecOn generalizing index shred with
  | nil =>
    have empty : ((default : FecBatch).dataShreds)[index]? = none := TreeMap.getElem?_emptyc
    rw [List.foldl_nil, empty]
    simp
  | append_singleton shreds last ih =>
    rw [List.map_append, List.nodup_append] at distinct
    obtain ⟨earlier, _, apart⟩ := distinct
    have before := ih (fun shred member => own shred (List.mem_append_left _ member)) earlier
    rw [List.foldl_append, List.foldl_cons, List.foldl_nil, FecBatch.add]
    dsimp only
    split
    next data =>
      have unseen : last.index ∉ (shreds.foldl FecBatch.add default).dataShreds := by
        intro seen
        obtain ⟨other, found⟩ := Option.isSome_iff_exists.mp (TreeMap.isSome_getElem?_iff_mem.mpr seen)
        obtain ⟨member, kind, here⟩ := (before last.index other).mp found
        have sameSet : other.fecSetIndex = last.fecSetIndex := by
          rw [own other (List.mem_append_left _ member), own last (by simp)]
        have clash : other.key = last.key := by rw [Shred.key, Shred.key, kind, data, sameSet, here]
        exact apart _ (List.mem_map_of_mem member) _ (by simp) clash
      rw [TreeMap.getElem?_insertIfNew]
      split
      next new =>
        have here : last.index = index := LawfulEqOrd.compare_eq_iff_eq.mp new.1
        constructor
        · intro same
          cases same
          exact ⟨by simp, data, here⟩
        · rintro ⟨member, kind, there⟩
          rcases List.mem_append.mp member with old | new
          · have found := (before index shred).mpr ⟨old, kind, there⟩
            rw [← here] at found
            exact absurd (TreeMap.isSome_getElem?_iff_mem.mp (by rw [found]; rfl)) unseen
          · rw [List.mem_singleton.mp new]
      next other =>
        have elsewhere : last.index ≠ index := by
          intro same
          exact other ⟨LawfulEqOrd.compare_eq_iff_eq.mpr same, unseen⟩
        rw [before]
        constructor
        · rintro ⟨member, kind, here⟩
          exact ⟨List.mem_append_left _ member, kind, here⟩
        · rintro ⟨member, kind, here⟩
          rcases List.mem_append.mp member with old | new
          · exact ⟨old, kind, here⟩
          · rw [List.mem_singleton.mp new] at here
            exact absurd here elsewhere
    next code =>
      rw [before]
      constructor
      · rintro ⟨member, kind, here⟩
        exact ⟨List.mem_append_left _ member, kind, here⟩
      · rintro ⟨member, kind, here⟩
        rcases List.mem_append.mp member with old | new
        · exact ⟨old, kind, here⟩
        · rw [List.mem_singleton.mp new] at kind
          exact absurd kind code

section
variable [SolanaLedger]

/-- Reed-Solomon recovery depends on its input shreds, not on their order, up to the error it reports. -/
def RecoversUnordered : Prop :=
  ∀ shreds shreds' : List Shred, shreds.Perm shreds' →
    (SolanaLedger.merkleRecover shreds).toOption = (SolanaLedger.merkleRecover shreds').toOption

theorem recoverShreds_agree (unordered : RecoversUnordered) {shreds shreds' : List Shred} (perm : shreds.Perm shreds') :
    Agree Eq (recoverShreds shreds) (recoverShreds shreds') :=
  agree_bind (agree_perm SolanaLedger.merkleTryFrom perm)
    (fun _ _ moved => agree_eq_iff.mpr (unordered _ _ moved))

omit [SolanaLedger] in
theorem addRecovered_agree {dataShreds dataShreds' : TreeMap UInt32 Shred} (same : dataShreds.Equiv dataShreds')
    (recovered : Except String Shred) :
    Agree TreeMap.Equiv (FecBatch.addRecovered dataShreds recovered) (FecBatch.addRecovered dataShreds' recovered) := by
  refine agree_bind (agree_refl (R := Eq) (fun _ => rfl) _) (fun shred shred' here => agree_ok ?_)
  rw [← here]
  split
  · exact same.insertIfNew _ _
  · exact same

/-- The batches that two orders of the same shreds make recover to the same data shreds. -/
theorem recover_agree (unordered : RecoversUnordered) {shreds shreds' : List Shred} {fecSetIndex : UInt32}
    (perm : shreds.Perm shreds') (own : ∀ shred ∈ shreds, shred.fecSetIndex = fecSetIndex)
    (distinct : (shreds.map Shred.key).Nodup) :
    Agree TreeMap.Equiv (shreds.foldl FecBatch.add default).recover (shreds'.foldl FecBatch.add default).recover := by
  have same : (shreds.foldl FecBatch.add default).dataShreds.Equiv (shreds'.foldl FecBatch.add default).dataShreds := by
    refine TreeMap.Equiv.of_forall_constGet?_eq (fun index => Option.ext (fun shred => ?_))
    have own' : ∀ shred ∈ shreds', shred.fecSetIndex = fecSetIndex := fun shred member => own shred (perm.mem_iff.mpr member)
    have distinct' : (shreds'.map Shred.key).Nodup := (perm.map Shred.key).nodup_iff.mp distinct
    rw [getElem?_dataShreds own distinct, getElem?_dataShreds own' distinct', perm.mem_iff]
  unfold FecBatch.recover
  rw [same.size_eq]
  split
  · refine agree_bind (R := Eq) (agree_mapError _ _ ?_) (fun recovered recovered' here => ?_)
    · rw [shreds_foldl, shreds_foldl]
      exact recoverShreds_agree unordered (perm.append_left _)
    · rw [← here]
      exact agree_foldlM (fun _ _ shred related => addRecovered_agree related shred) recovered same
  · exact agree_ok same

/-! ### The slot -/

theorem batches_eq (shreds : List PacketInfo) :
    shreds.foldlM addToBatches ∅ =
      (shreds.mapM parseShred).map (fun shreds => gather Shred.fecSetIndex FecBatch.add shreds) :=
  foldlM_read (f := parseShred) (g := add Shred.fecSetIndex FecBatch.add) shreds ∅

/-- Raw shreds that can be read are told apart by type, FEC set and index. -/
def Distinct (shreds : List PacketInfo) : Prop :=
  shreds.Pairwise (fun raw raw' => ∀ shred shred', parseShred raw = .ok shred → parseShred raw' = .ok shred' →
    shred.key ≠ shred'.key)

theorem nodup_keys {raws : List PacketInfo} (distinct : Distinct raws) {shreds : List Shred}
    (read : raws.mapM parseShred = .ok shreds) : (shreds.map Shred.key).Nodup := by
  have each := mapM_ok_iff.mp read
  induction each with
  | nil => exact List.nodup_nil
  | @cons raw shred rest shreds here others ih =>
    obtain ⟨apart, later⟩ := List.pairwise_cons.mp distinct
    have readRest := mapM_ok_iff.mpr others
    refine List.nodup_cons.mpr ⟨fun seen => ?_, ih later readRest⟩
    obtain ⟨other, member, same⟩ := List.mem_map.mp seen
    obtain ⟨raw', inside, there⟩ := mem_of_mapM readRest member
    exact apart raw' inside shred other here there same.symm

/-- What becomes of one batch. -/
theorem drained_agree (unordered : RecoversUnordered) {shreds shreds' : List Shred} (perm : shreds.Perm shreds')
    (distinct : (shreds.map Shred.key).Nodup) (fecSetIndex : UInt32) :
    Agree Eq
      (do (← (batch Shred.fecSetIndex FecBatch.add fecSetIndex shreds).recover).values.mapM packetInfoFromShred)
      (do (← (batch Shred.fecSetIndex FecBatch.add fecSetIndex shreds').recover).values.mapM packetInfoFromShred) := by
  have own : ∀ shred ∈ ofKey Shred.fecSetIndex fecSetIndex shreds, shred.fecSetIndex = fecSetIndex :=
    fun shred member => of_decide_eq_true (List.mem_filter.mp member).2
  have apart : ((ofKey Shred.fecSetIndex fecSetIndex shreds).map Shred.key).Nodup :=
    distinct.sublist (List.filter_sublist.map Shred.key)
  refine agree_bind (recover_agree unordered (perm.filter _) own apart) (fun dataShreds dataShreds' same => ?_)
  rw [same.values_eq]
  exact agree_refl (fun _ => rfl) _

theorem recoverDataShreds_agree (unordered : RecoversUnordered) {shreds shreds' : List PacketInfo}
    (perm : shreds.Perm shreds') (distinct : Distinct shreds) :
    Agree Eq (recoverDataShreds shreds) (recoverDataShreds shreds') := by
  have batched : Agree (fun batches batches' => ∃ read read', read.Perm read' ∧ (read.map Shred.key).Nodup ∧
        batches = gather Shred.fecSetIndex FecBatch.add read ∧ batches' = gather Shred.fecSetIndex FecBatch.add read')
      (shreds.foldlM addToBatches ∅) (shreds'.foldlM addToBatches ∅) := by
    rw [batches_eq, batches_eq]
    refine agree_map (agree_and (agree_perm parseShred perm) (fun _ => nodup_keys distinct)) ?_
    rintro read read' ⟨moved, apart⟩
    exact ⟨read, read', moved, apart, rfl, rfl⟩
  refine agree_bind batched ?_
  rintro _ _ ⟨read, read', moved, apart, rfl, rfl⟩
  have keys : (gather Shred.fecSetIndex FecBatch.add read).keys = (gather Shred.fecSetIndex FecBatch.add read').keys :=
    keys_gather (fun _ => moved.mem_iff)
  rw [values_gather, values_gather, keys]
  refine agree_bind (R := List.Forall₂ Eq) (agree_mapM ?_) (fun sets sets' same => agree_ok ?_)
  · rw [List.forall₂_map_left_iff, List.forall₂_map_right_iff, List.forall₂_same]
    exact fun fecSetIndex _ => drained_agree unordered moved apart fecSetIndex
  · rw [List.forall₂_eq_eq_eq] at same
    rw [same]

/-- The data shreds of a slot and the id of the block they make. -/
def identifyBlock (shreds : List PacketInfo) : Except String (Hash × List PacketInfo) := do
  let shreds ← recoverDataShreds shreds
  let blockId ← computeBlockId shreds
  return (blockId, shreds)

/-- Whatever the order, a slot is refused, or it is the same block with the same data shreds. -/
theorem block_independent_of_arrival (unordered : RecoversUnordered) (shreds shreds' : List PacketInfo)
    (perm : shreds.Perm shreds') (distinct : Distinct shreds) :
    (identifyBlock shreds).toOption = (identifyBlock shreds').toOption := by
  refine agree_eq_iff.mp (agree_bind (recoverDataShreds_agree unordered perm distinct) (fun data data' same => ?_))
  rw [same]
  exact agree_refl (fun _ => rfl) _

end

/-! ### A set that lacks a data shred -/

/-- A ledger on zero-signature shreds. A set of 32 shreds gives back the data shreds it lacks, and a marker is eight zero
bytes and the parent of a block header. -/
abbrev codedLedger : SolanaLedger where
  newFromSerializedShred bytes :=
    match readVariant bytes, readLe bytes 73 4, readLe bytes 79 4 with
    | some variant, some index, some fecSetIndex => .ok {
        slot := 5
        shredType := variant
        index := UInt32.ofNat index
        fecSetIndex := UInt32.ofNat fecSetIndex
        merkleRoot := .ok 1
        parent := .ok 4
        lastInSlot := index = 31
        dataComplete := index = 31
        payload := bytes }
    | _, _, _ => .error "InvalidPayloadSize"
  merkleTryFrom shred := .ok shred
  merkleRecover shreds :=
    if shreds.length < dataShredsPerFecBlock then .error "TooFewShardsPresent"
    else
      let missing := (List.range dataShredsPerFecBlock).filter
        (fun i => !shreds.any (fun shred => shred.shredType = .data ∧ shred.index.toNat = i))
      .ok (missing.map (fun i => .ok {
        slot := 5
        shredType := .data
        index := UInt32.ofNat i
        fecSetIndex := 0
        merkleRoot := .ok 1
        parent := .ok 4
        lastInSlot := i = 31
        dataComplete := i = 31
        payload := (wireShred ⟨.data, 5, UInt32.ofNat i, 0, 0⟩ 0).bytes }))
  dataCompleteFlag bytes := .ok (bytes[73]? = some 31)
  inferIsBlockMarker bytes := (readLe bytes 0 8).map (fun entries => entries = 0)
  deserializeComponent bytes :=
    match readLe bytes 8 8 with
    | some parentSlot => .ok (.blockMarker (.blockHeader (UInt64.ofNat parentSlot) 1))
    | none => .ok .entryBatch
  hashv parts := .ofNat 256 (parts.flatten.map UInt8.toNat).sum
  merkleTreeRoot leaves _ := (leaves.mapM id).map (fun roots => .ofNat 256 (roots.map BitVec.toNat).sum)

theorem recoversUnordered_codedLedger : @RecoversUnordered codedLedger := by
  intro shreds shreds' perm
  dsimp only [SolanaLedger.merkleRecover]
  rw [perm.length_eq]
  simp only [perm.any_eq]

/-- The first data shred of slot 5, whose data is the block header that names slot 4 as the parent. -/
def headerShred : PacketInfo where
  bytes := (wireShred ⟨.data, 5, 0, 0, 0⟩ 0).bytes.take 86 ++ leBytes 2 104 ++ leBytes 8 0 ++ leBytes 8 4
  fits := by decide

/-- All data shreds of a set but the last one, and a coding shred. -/
def codedSet : List PacketInfo :=
  headerShred :: (List.range' 1 30).map (fun i => wireShred ⟨.data, 5, UInt32.ofNat i, 0, 0⟩ 0) ++
    [wireShred ⟨.code, 5, 0, 0, 0⟩ 0]

/-- The id comes out of the set and out of its reverse, though the shred that ends the slot has to be recovered. -/
theorem block_independent_of_arrival_codedSet :
    (@identifyBlock codedLedger codedSet).toOption.map (fun block => (block.1, block.2.length)) = some (7, 32) ∧
    (@identifyBlock codedLedger codedSet).toOption = (@identifyBlock codedLedger codedSet.reverse).toOption := by
  refine ⟨by decide +kernel, ?_⟩
  refine @block_independent_of_arrival codedLedger recoversUnordered_codedLedger codedSet codedSet.reverse
    (List.reverse_perm codedSet).symm ?_
  have keys : (codedSet.map (fun raw => (@parseShred codedLedger raw).toOption.map Shred.key)).Nodup := by decide +kernel
  refine List.Pairwise.imp ?_ (List.pairwise_map.mp keys)
  intro raw raw' apart shred shred' here there same
  rw [here, there] at apart
  exact apart (congrArg some same)

end Lightbringer.Alpenglow
