import Lightbringer.Util.Completion
import Lightbringer.Lib.Fallible

/-!
# Completion groups read off the shreds

What the groups of a slot are, said of its shreds alone: set after set is recovered and joins the open group, and closes
it where the highest shred is then data-complete. The code comes to these groups. It ends in an error at a shred that
cannot be read and at a set that is lost, and panics at a set that leaves the open group empty.
-/

namespace Lightbringer.Util
open Std Alpenglow Agreement Batches

section
variable [SolanaLedger]

/-- The shreds of a list, recovered and in groups, the open one included. -/
def regroup (raws : List (List UInt8)) : Except Stop Partition := do
  let shredsForSlot ← raws.foldlM addShred ∅
  groupByCompletion shredsForSlot

def Reads (raws : List (List UInt8)) (shreds : List Shred) : Prop :=
  List.Forall₂ (fun raw shred => SolanaLedger.newFromSerializedShred raw = .ok shred) raws shreds

/-- Fewer than 32 data shreds are there, and recovery fails as a whole or for one of its shreds. -/
def Lost (shreds : List Shred) : Prop :=
  (dataOf shreds).length < 32 ∧ ∀ recovered, recoverShreds shreds = .ok recovered → ∃ e, .error e ∈ recovered

omit [SolanaLedger] in
/-- The shreds of a slot, one list for each FEC set. -/
def slotSets (shreds : List Shred) : List (List Shred) :=
  (fecSets shreds).map (fun f => ofKey Shred.fecSetIndex f shreds)

/-- The closed groups and the open one that sets come to in their order. -/
inductive Grouping : List (List Shred) → List (List Shred) → List Shred → Prop where
  | start : Grouping [] [] []
  | joins {sets groups : List (List Shred)} {last set data : List Shred} {final : Shred}
      (before : Grouping sets groups last) (recovered : recoveredSet set = .ok data)
      (ends : (ascendingShreds (last ++ data)).getLast? = some final) (incomplete : final.dataComplete = false) :
      Grouping (sets ++ [set]) groups (ascendingShreds (last ++ data))
  | closes {sets groups : List (List Shred)} {last set data : List Shred} {final : Shred}
      (before : Grouping sets groups last) (recovered : recoveredSet set = .ok data)
      (ends : (ascendingShreds (last ++ data)).getLast? = some final) (complete : final.dataComplete = true) :
      Grouping (sets ++ [set]) (groups ++ [ascendingShreds (last ++ data)]) []

/-- A set is lost, and the ones before it came to groups. -/
def Stuck (sets : List (List Shred)) : Prop :=
  ∃ front set rest, sets = front ++ set :: rest ∧ Lost set ∧ ∃ groups last, Grouping front groups last

/-! ### One set -/

theorem recoveredSet_error_iff (shreds : List Shred) : (∃ e, recoveredSet shreds = .error e) ↔ Lost shreds := by
  unfold recoveredSet Lost
  split
  next few =>
    cases recoverShreds shreds with
    | error e =>
      refine ⟨fun _ => ⟨few, ?_⟩, fun _ => ⟨e, rfl⟩⟩
      intro recovered never
      cases never
    | ok given =>
      constructor
      · rintro ⟨e, failed⟩
        refine ⟨few, fun recovered same => ?_⟩
        cases same
        cases read : (given.mapM id : Except String (List Shred)) with
        | error e' =>
          obtain ⟨x, member, here⟩ := Fallible.error_of_mapM read
          obtain rfl : x = .error e' := here
          exact ⟨e', member⟩
        | ok shreds' =>
          simp only [bind, Except.bind, read] at failed
          cases failed
      · rintro ⟨_, lost⟩
        obtain ⟨e, member⟩ := lost given rfl
        obtain ⟨e', failed⟩ := Fallible.mapM_fails (f := id) member rfl
        exact ⟨e', by simp only [bind, Except.bind, failed]⟩
  next many =>
    constructor
    · rintro ⟨e, never⟩
      cases never
    · exact fun lost => absurd lost.1 many

omit [SolanaLedger] in
/-- Putting shreds into a group is the same as sorting them together with what the group holds. -/
theorem values_extend_ascending {group : TreeMap UInt32 Shred} (indexed : Indexed group) (shreds : List Shred) :
    (extend group shreds).values = ascendingShreds (group.values ++ shreds) := by
  have both : extend ∅ (group.values ++ shreds) = extend (extend ∅ group.values) shreds := List.foldl_append
  have held : ∀ index : UInt32, (extend ∅ group.values)[index]? = group[index]? := by
    intro index
    have once : (group.values.map Shred.index).Nodup := by
      refine List.pairwise_map.mpr ((ascending_values indexed).imp (fun less same => ?_))
      rw [same] at less
      exact UInt32.lt_irrefl _ less
    have sorted := indexed_extend indexed_empty group.values
    refine Option.ext (fun shred => ?_)
    have inside := mem_ascendingShreds once shred
    rw [ascendingShreds, mem_values sorted, mem_values indexed] at inside
    constructor
    · intro found
      rw [sorted index shred found] at inside
      exact inside.mp found
    · intro found
      rw [indexed index shred found] at inside
      exact inside.mpr found
  have indexed' := indexed_extend (indexed_extend indexed_empty group.values) shreds
  rw [ascendingShreds, both]
  refine values_eq_of_ascending (ascending_values indexed') (fun index shred => ?_)
  rw [mem_values indexed', getElem?_extend, ← held, ← getElem?_extend]
  constructor
  · intro found
    have own := indexed' index shred found
    rw [own]
    exact ⟨found, rfl⟩
  · rintro ⟨found, rfl⟩
    exact found

def Partition.addSet (partition : Partition) (set : List Shred) : Except Stop Partition :=
  partition.addBatch ⟨set, (dataOf set).length⟩

/-- The groups of the code stand for these. -/
structure Partition.Shows (partition : Partition) (groups : List (List Shred)) (last : List Shred) : Prop where
  closed : partition.closed.map TreeMap.values = groups
  opened : partition.last.values = last
  indexed : Indexed partition.last

omit [SolanaLedger] in
theorem shows_start : Partition.Shows ⟨[], ∅⟩ [] [] := ⟨rfl, rfl, indexed_empty⟩

/-- A recovered set is put into the open group, whose highest shred then decides. -/
theorem addSet_eq {partition : Partition} {groups : List (List Shred)} {last set data : List Shred}
    (shown : partition.Shows groups last) (recovered : recoveredSet set = .ok data) :
    partition.addSet set = (match (ascendingShreds (last ++ data)).getLast? with
      | none => .error .panic
      | some final =>
        if final.dataComplete then .ok ⟨partition.closed ++ [extend partition.last data], ∅⟩
        else .ok ⟨partition.closed, extend partition.last data⟩) := by
  have sorted := values_extend_ascending shown.indexed data
  rw [shown.opened] at sorted
  have added := addBatch_eq partition set recovered
  unfold Partition.cut at added
  rw [sorted] at added
  exact added

/-! ### All sets -/

/-- The code gets through sets that come to groups, and has these groups then. -/
theorem shows_of_grouping {sets groups : List (List Shred)} {last : List Shred} (grouping : Grouping sets groups last) :
    ∃ partition, sets.foldlM Partition.addSet ⟨[], ∅⟩ = Except.ok partition ∧ partition.Shows groups last := by
  induction grouping with
  | start => exact ⟨_, rfl, shows_start⟩
  | @joins sets groups last set data final _ recovered ends incomplete ih =>
    obtain ⟨partition, done, shown⟩ := ih
    have sorted := values_extend_ascending shown.indexed data
    rw [shown.opened] at sorted
    refine ⟨⟨partition.closed, extend partition.last data⟩, ?_, shown.closed, sorted, indexed_extend shown.indexed data⟩
    rw [Fallible.foldlM_concat, done]
    refine (addSet_eq shown recovered).trans ?_
    rw [ends]
    exact if_neg (by rw [incomplete]; exact Bool.false_ne_true)
  | @closes sets groups last set data final _ recovered ends complete ih =>
    obtain ⟨partition, done, shown⟩ := ih
    have sorted := values_extend_ascending shown.indexed data
    rw [shown.opened] at sorted
    refine ⟨⟨partition.closed ++ [extend partition.last data], ∅⟩, ?_, ?_, rfl, indexed_empty⟩
    · rw [Fallible.foldlM_concat, done]
      refine (addSet_eq shown recovered).trans ?_
      rw [ends]
      exact if_pos complete
    · rw [List.map_append, shown.closed, List.map_singleton, sorted]

/-- The code ends with groups that the sets come to, or with a set that is lost, or it panics. -/
theorem grouping_of_sets (sets : List (List Shred)) :
    match (sets.foldlM Partition.addSet ⟨[], ∅⟩ : Except Stop Partition) with
    | .ok partition => ∃ groups last, partition.Shows groups last ∧ Grouping sets groups last
    | .error (.err _) => Stuck sets
    | .error .panic => True := by
  induction sets using List.reverseRecOn with
  | nil => exact ⟨[], [], shows_start, .start⟩
  | append_singleton sets set ih =>
    rw [Fallible.foldlM_concat]
    cases done : (sets.foldlM Partition.addSet ⟨[], ∅⟩ : Except Stop Partition) with
    | error stop =>
      rw [done] at ih
      cases stop with
      | panic => exact trivial
      | err e =>
        obtain ⟨front, lost, rest, rfl, isLost, before⟩ := ih
        exact ⟨front, lost, rest ++ [set], by simp, isLost, before⟩
    | ok partition =>
      rw [done] at ih
      obtain ⟨groups, last, shown, grouping⟩ := ih
      dsimp only [bind, Except.bind]
      cases recovered : recoveredSet set with
      | error e =>
        rw [Partition.addSet, addBatch_lost partition set recovered]
        exact ⟨sets, set, [], rfl, (recoveredSet_error_iff set).mp ⟨e, recovered⟩, groups, last, grouping⟩
      | ok data =>
        have sorted := values_extend_ascending shown.indexed data
        rw [shown.opened] at sorted
        rw [addSet_eq shown recovered]
        cases ends : (ascendingShreds (last ++ data)).getLast? with
        | none => exact trivial
        | some final =>
          dsimp only
          by_cases complete : final.dataComplete = true
          · rw [if_pos complete]
            refine ⟨_, _, ⟨?_, rfl, indexed_empty⟩, grouping.closes recovered ends complete⟩
            rw [List.map_append, shown.closed, List.map_singleton, sorted]
          · rw [if_neg complete]
            exact ⟨_, _, ⟨shown.closed, sorted, indexed_extend shown.indexed data⟩,
              grouping.joins recovered ends (Bool.eq_false_iff.mpr complete)⟩

/-! ### The raw shreds -/

theorem groupByCompletion_sets (shreds : List Shred) :
    groupByCompletion (gather Shred.fecSetIndex BatchMeta.add shreds) =
      (slotSets shreds).foldlM Partition.addSet ⟨[], ∅⟩ := by
  rw [groupByCompletion_eq, slotSets, List.foldlM_map]
  refine congrFun (congrFun (congrArg List.foldlM ?_) _) _
  funext partition f
  rw [batch_fecSet]
  rfl

theorem readShred_ok_iff {raw : List UInt8} {shred : Shred} :
    readShred raw = .ok shred ↔ SolanaLedger.newFromSerializedShred raw = .ok shred := by
  rw [readShred]
  cases SolanaLedger.newFromSerializedShred raw with
  | error e =>
    constructor
    · intro never
      cases never
    · intro never
      cases never
  | ok other =>
    constructor
    · intro same
      cases same
      rfl
    · intro same
      cases same
      rfl

theorem regroup_of_reads {raws : List (List UInt8)} {shreds : List Shred} (reads : Reads raws shreds) :
    regroup raws = (slotSets shreds).foldlM Partition.addSet ⟨[], ∅⟩ := by
  have read : raws.mapM readShred = .ok shreds := mapM_ok_iff.mpr (reads.imp (fun _ _ => readShred_ok_iff.mpr))
  have gathered : raws.foldlM addShred ∅ = .ok (gather Shred.fecSetIndex BatchMeta.add shreds) := by
    refine (foldlM_read (f := readShred) (g := add Shred.fecSetIndex BatchMeta.add) _ _).trans ?_
    rw [read]
    rfl
  rw [regroup, gathered]
  exact groupByCompletion_sets shreds

theorem reads_or_refused (raws : List (List UInt8)) :
    (∃ shreds, Reads raws shreds) ∨ ∃ raw ∈ raws, ∃ e, SolanaLedger.newFromSerializedShred raw = .error e := by
  by_cases refused : ∃ raw ∈ raws, ∃ e, SolanaLedger.newFromSerializedShred raw = .error e
  · exact .inr refused
  · left
    have each : ∀ raw ∈ raws, ∃ shred, SolanaLedger.newFromSerializedShred raw = .ok shred := by
      intro raw member
      cases here : SolanaLedger.newFromSerializedShred raw with
      | error e => exact absurd ⟨raw, member, e, here⟩ refused
      | ok shred => exact ⟨shred, rfl⟩
    obtain ⟨shreds, done⟩ := Fallible.mapM_ok raws each
    exact ⟨shreds, mapM_ok_iff.mp done⟩

/-- A shred that cannot be read ends the call with an error. -/
theorem regroup_of_refused {raws : List (List UInt8)} {raw : List UInt8} {e : String} (member : raw ∈ raws)
    (refused : SolanaLedger.newFromSerializedShred raw = .error e) : ∃ e, regroup raws = .error (.err e) := by
  have here : readShred raw = .error (.err (.shredDeser e)) := by
    rw [readShred, refused]
    rfl
  obtain ⟨stop, failed⟩ := Fallible.mapM_fails member here
  obtain ⟨other, _, there⟩ := Fallible.error_of_mapM failed
  have gathered : raws.foldlM addShred ∅ = .error stop := by
    refine (foldlM_read (f := readShred) (g := add Shred.fecSetIndex BatchMeta.add) _ _).trans ?_
    rw [failed]
    rfl
  rw [regroup, gathered]
  rw [readShred] at there
  cases parsed : SolanaLedger.newFromSerializedShred other with
  | error e' =>
    rw [parsed] at there
    cases there
    exact ⟨_, rfl⟩
  | ok shred =>
    rw [parsed] at there
    cases there

/-! ### The outcome -/

theorem regroup_ok_iff {raws : List (List UInt8)} {groups : List (List Shred)} {last : List Shred} :
    (∃ partition, regroup raws = .ok partition ∧ partition.closed.map TreeMap.values = groups ∧
      partition.last.values = last) ↔ ∃ shreds, Reads raws shreds ∧ Grouping (slotSets shreds) groups last := by
  constructor
  · rintro ⟨partition, done, rfl, rfl⟩
    rcases reads_or_refused raws with ⟨shreds, reads⟩ | ⟨raw, member, e, refused⟩
    · have outcome := grouping_of_sets (slotSets shreds)
      rw [← regroup_of_reads reads, done] at outcome
      obtain ⟨groups, last, shown, grouping⟩ := outcome
      rw [shown.closed, shown.opened]
      exact ⟨shreds, reads, grouping⟩
    · obtain ⟨_, failed⟩ := regroup_of_refused member refused
      rw [done] at failed
      cases failed
  · rintro ⟨shreds, reads, grouping⟩
    obtain ⟨partition, done, shown⟩ := shows_of_grouping grouping
    exact ⟨partition, (regroup_of_reads reads).trans done, shown.closed, shown.opened⟩

theorem regroup_err_iff (raws : List (List UInt8)) :
    (∃ e, regroup raws = .error (.err e)) ↔
      (∃ raw ∈ raws, ∃ e, SolanaLedger.newFromSerializedShred raw = .error e) ∨
      ∃ shreds, Reads raws shreds ∧ Stuck (slotSets shreds) := by
  constructor
  · rintro ⟨e, failed⟩
    rcases reads_or_refused raws with ⟨shreds, reads⟩ | refused
    · have outcome := grouping_of_sets (slotSets shreds)
      rw [← regroup_of_reads reads, failed] at outcome
      exact .inr ⟨shreds, reads, outcome⟩
    · exact .inl refused
  · rintro (⟨raw, member, e, refused⟩ | ⟨shreds, reads, front, set, rest, split, lost, groups, last, before⟩)
    · exact regroup_of_refused member refused
    · obtain ⟨partition, done, _⟩ := shows_of_grouping before
      obtain ⟨e, failed⟩ := (recoveredSet_error_iff set).mpr lost
      refine ⟨.shredRecovery e, ?_⟩
      rw [regroup_of_reads reads, split, List.foldlM_append, done]
      dsimp only [bind, Except.bind]
      rw [List.foldlM_cons, Partition.addSet, addBatch_lost partition set failed]
      rfl

end

end Lightbringer.Util
