import Lightbringer.Util.CompletionGroups

/-!
# What a slot's entries are taken for

`get_slot_entries_and_parent_slot_from_raw_shreds` answers with the entries of whatever groups it could close. It does
not look whether the slot starts at its first shred, whether a set is missing or whether the last shred is there, so
that an answer says something about the slot only where the slot is whole to begin with.
-/

namespace Lightbringer.Util
open Std Alpenglow Agreement Batches

/-- The data shreds after recovery, group after group. -/
def Partition.all (partition : Partition) : List Shred :=
  partition.closed.flatMap TreeMap.values ++ partition.last.values

/-- The data shreds run from the first one to one that is flagged as the last of the slot, and all are in closed groups. -/
structure Partition.Whole (partition : Partition) : Prop where
  contiguous : ∃ last : UInt32, partition.all.map Shred.index = (List.range (last.toNat + 1)).map UInt32.ofNat
  flagged : partition.all.getLast?.any Shred.lastInSlot = true
  covered : partition.last.values = []

section
variable [SolanaLedger]

/-- Every header names this parent. -/
def Partition.ChildOf (partition : Partition) (parent : UInt64) : Prop := ∀ shred ∈ partition.all, shred.parent = .ok parent

variable [SolanaEntries]

/-- The answer is about a whole slot: the entries are those of all its completion groups, the parent that of its headers. -/
def Answers (raws : List (List UInt8)) (entries : List SolanaEntries.Entry) (parent : UInt64) : Prop :=
  ∃ partition, regroup raws = .ok partition ∧ partition.Whole ∧ partition.ChildOf parent ∧
    ∃ groups, partition.closed.mapM (fun group => deshredToEntries group.values) = .ok groups ∧ entries = groups.flatten

/-- An answer is about a whole slot, and where there is none there is an error. -/
def Complete (raws : List (List UInt8)) : Prop :=
  match getSlotEntriesAndParentSlotFromRawShreds raws with
  | .ok (entries, parent) => Answers raws entries parent
  | .error (.err _) => True
  | .error .panic => False

omit [SolanaLedger] [SolanaEntries] in
/-- The parent after a group: the one read so far, or the one that the group's first shred names. -/
def ParentAfter (parent : UInt64) (group : List Shred) (next : UInt64) : Prop :=
  if parent = 0 then group.head?.map Shred.parent = some (.ok next) else next = parent

omit [SolanaLedger] in
/-- A group cannot be deshredded, and no parent that had to be read before could not. -/
def DeshredFails (parent : UInt64) : List (List Shred) → Prop
  | [] => False
  | group :: rest => ∃ next, ParentAfter parent group next ∧
      ((∃ e, deshredToEntries group = .error e) ∨ DeshredFails next rest)

/-- What ends in an error before it could panic: a shred that cannot be read, a set that is lost, or a closed group that
cannot be deshredded. -/
inductive Fails (raws : List (List UInt8)) : Prop where
  | refused {raw : List UInt8} {e : String} (member : raw ∈ raws)
      (unreadable : SolanaLedger.newFromSerializedShred raw = .error e)
  | lost {shreds : List Shred} (reads : Reads raws shreds) (stuck : Stuck (slotSets shreds))
  | garbled {shreds : List Shred} {groups : List (List Shred)} {last : List Shred} (reads : Reads raws shreds)
      (grouping : Grouping (slotSets shreds) groups last) (undeshreddable : DeshredFails 0 groups)

omit [SolanaEntries] in
/-- The shreds make up a whole slot with one parent: their groups run from the first data shred to one that is flagged as
the last of the slot, and none is left open. -/
def IsWhole (raws : List (List UInt8)) : Prop :=
  ∃ shreds groups parent, Reads raws shreds ∧ Grouping (slotSets shreds) groups [] ∧
    (∃ last : UInt32, groups.flatten.map Shred.index = (List.range (last.toNat + 1)).map UInt32.ofNat) ∧
    groups.flatten.getLast?.any Shred.lastInSlot = true ∧ ∀ shred ∈ groups.flatten, shred.parent = .ok parent

/-! ### Groups -/

omit [SolanaLedger] in
theorem deshredToEntries_error {shreds : List Shred} {stop : Stop} (failed : deshredToEntries shreds = .error stop) :
    ∃ e, stop = .err e := by
  unfold deshredToEntries at failed
  cases payload : SolanaEntries.deshred (shreds.map Shred.payload) with
  | error e =>
    rw [payload] at failed
    cases failed
    exact ⟨_, rfl⟩
  | ok bytes =>
    rw [payload] at failed
    cases read : SolanaEntries.deserialize bytes with
    | error e =>
      simp only [Except.mapError, bind, Except.bind, read] at failed
      cases failed
      exact ⟨_, rfl⟩
    | ok entries =>
      simp only [Except.mapError, bind, Except.bind, read] at failed
      cases failed

omit [SolanaLedger] [SolanaEntries] in
theorem groupParent_error {group : TreeMap UInt32 Shred} {stop : Stop} (failed : groupParent group = .error stop) :
    stop = .panic := by
  unfold groupParent at failed
  split at failed
  · cases failed
    rfl
  next shred _ =>
    cases read : shred.parent with
    | error e =>
      rw [read] at failed
      cases failed
      rfl
    | ok parent =>
      rw [read] at failed
      cases failed

omit [SolanaLedger] [SolanaEntries] in
theorem parent_error {group : TreeMap UInt32 Shred} {parent : UInt64} {stop : Stop}
    (failed : nextParent parent group = .error stop) : stop = .panic := by
  unfold nextParent at failed
  split at failed
  · exact groupParent_error failed
  · cases failed

omit [SolanaLedger] [SolanaEntries] in
theorem nextParent_ok_iff {parent next : UInt64} {group : TreeMap UInt32 Shred} :
    nextParent parent group = .ok next ↔ ParentAfter parent group.values next := by
  unfold nextParent ParentAfter groupParent
  split
  · cases group.values.head? with
    | none =>
      constructor
      · intro never
        cases never
      · intro never
        cases never
    | some shred =>
      dsimp only [Option.map_some]
      cases shred.parent with
      | error e =>
        constructor
        · intro never
          cases never
        · intro never
          cases never
      | ok named =>
        constructor
        · intro same
          cases same
          rfl
        · intro same
          cases same
          rfl
  · constructor
    · intro same
      cases same
      rfl
    · intro same
      rw [same]

omit [SolanaLedger] in
theorem addGroups_err_iff (groups : List (TreeMap UInt32 Shred)) (entries : List SolanaEntries.Entry) (parent : UInt64) :
    (∃ e, groups.foldlM addGroup (entries, parent) = .error (.err e)) ↔
      DeshredFails parent (groups.map TreeMap.values) := by
  induction groups generalizing entries parent with
  | nil =>
    constructor
    · rintro ⟨_, never⟩
      cases never
    · exact False.elim
  | cons group rest ih =>
    rw [List.foldlM_cons, addGroup, List.map_cons, DeshredFails]
    simp only [← nextParent_ok_iff]
    cases read : nextParent parent group with
    | error stop =>
      rw [parent_error read]
      constructor
      · rintro ⟨e, never⟩
        cases never
      · rintro ⟨next, never, _⟩
        cases never
    | ok next =>
      cases there : deshredToEntries group.values with
      | error stop =>
        obtain ⟨e, rfl⟩ := deshredToEntries_error there
        exact ⟨fun _ => ⟨next, rfl, .inl ⟨_, rfl⟩⟩, fun _ => ⟨e, rfl⟩⟩
      | ok more =>
        refine (ih (entries ++ more) next).trans ?_
        constructor
        · exact fun later => ⟨next, rfl, .inr later⟩
        · rintro ⟨next', same, ⟨e, never⟩ | later⟩
          · cases never
          · cases same
            exact later

omit [SolanaLedger] in
/-- The entries are those of the groups, one after another. -/
theorem addGroups_entries {groups : List (TreeMap UInt32 Shred)} {entries entries' : List SolanaEntries.Entry}
    {parent parent' : UInt64} (done : groups.foldlM addGroup (entries, parent) = .ok (entries', parent')) :
    ∃ each, groups.mapM (fun group => deshredToEntries group.values) = .ok each ∧ entries' = entries ++ each.flatten := by
  induction groups generalizing entries parent with
  | nil =>
    cases done
    exact ⟨[], rfl, (List.append_nil _).symm⟩
  | cons group rest ih =>
    rw [List.foldlM_cons, addGroup] at done
    dsimp only at done
    cases read : nextParent parent group with
    | error stop =>
      rw [read] at done
      cases done
    | ok next =>
      rw [read] at done
      cases there : deshredToEntries group.values with
      | error stop =>
        simp only [bind, Except.bind, there] at done
        cases done
      | ok more =>
        simp only [bind, Except.bind, there] at done
        obtain ⟨each, all, rfl⟩ := ih done
        refine ⟨more :: each, ?_, ?_⟩
        · rw [List.mapM_cons, there, all]
          rfl
        · rw [List.flatten_cons, List.append_assoc]

omit [SolanaLedger] in
/-- Where all headers name one parent, that is the answer. -/
theorem addGroups_parent {groups : List (TreeMap UInt32 Shred)} {entries entries' : List SolanaEntries.Entry}
    {parent parent' known : UInt64} (one : ∀ group ∈ groups, ∀ shred ∈ group.values, shred.parent = .ok known)
    (start : parent = known ∨ parent = 0 ∧ groups ≠ [])
    (done : groups.foldlM addGroup (entries, parent) = .ok (entries', parent')) : parent' = known := by
  induction groups generalizing entries parent with
  | nil =>
    cases done
    exact start.resolve_right (fun none => none.2 rfl)
  | cons group rest ih =>
    have later := fun group member => one group (List.mem_cons_of_mem _ member)
    rw [List.foldlM_cons, addGroup] at done
    dsimp only at done
    cases read : nextParent parent group with
    | error stop =>
      rw [read] at done
      cases done
    | ok next =>
      rw [read] at done
      have here : next = known := by
        unfold nextParent at read
        split at read
        · unfold groupParent at read
          split at read
          · cases read
          next shred first =>
            rw [one group (List.mem_cons_self ..) shred (List.mem_of_head? first)] at read
            cases read
            rfl
        next nonzero =>
          cases read
          exact start.resolve_right (fun none => nonzero none.1)
      cases there : deshredToEntries group.values with
      | error stop =>
        simp only [bind, Except.bind, there] at done
        cases done
      | ok more =>
        simp only [bind, Except.bind, there] at done
        exact ih later (.inl here) done

omit [SolanaLedger] in
theorem addGroups_safe {groups : List (TreeMap UInt32 Shred)} {known : UInt64}
    (one : ∀ group ∈ groups, ∀ shred ∈ group.values, shred.parent = .ok known)
    (filled : ∀ group ∈ groups, group.values ≠ []) (entries : List SolanaEntries.Entry) (parent : UInt64) :
    groups.foldlM addGroup (entries, parent) ≠ .error .panic := by
  induction groups generalizing entries parent with
  | nil =>
    intro never
    cases never
  | cons group rest ih =>
    have later := ih (fun group member => one group (List.mem_cons_of_mem _ member))
      (fun group member => filled group (List.mem_cons_of_mem _ member))
    rw [List.foldlM_cons, addGroup]
    dsimp only
    have first : ∃ next, nextParent parent group = .ok next := by
      unfold nextParent
      split
      · unfold groupParent
        cases head : group.values.head? with
        | none => exact absurd (List.head?_eq_none_iff.mp head) (filled group (List.mem_cons_self ..))
        | some shred =>
          dsimp only
          rw [one group (List.mem_cons_self ..) shred (List.mem_of_head? head)]
          exact ⟨known, rfl⟩
      · exact ⟨parent, rfl⟩
    obtain ⟨next, read⟩ := first
    rw [read]
    cases there : deshredToEntries group.values with
    | error stop =>
      obtain ⟨e, rfl⟩ := deshredToEntries_error there
      intro never
      cases never
    | ok more => exact later (entries ++ more) next

omit [SolanaLedger] [SolanaEntries] in
theorem filled_cut {partition partition' : Partition} (filled : ∀ group ∈ partition.closed, group.values ≠ [])
    (cut : partition.cut = .ok partition') : ∀ group ∈ partition'.closed, group.values ≠ [] := by
  unfold Partition.cut at cut
  split at cut
  · cases cut
  next shred last =>
    split at cut
    · cases cut
      intro group member
      rcases List.mem_append.mp member with old | new
      · exact filled group old
      · rw [List.mem_singleton.mp new]
        exact List.ne_nil_of_mem (List.mem_of_getLast? last)
    · cases cut
      exact filled

omit [SolanaEntries] in
/-- A group is closed by its last shred. -/
theorem filled_groups {batches : List BatchMeta} {partition partition' : Partition}
    (filled : ∀ group ∈ partition.closed, group.values ≠ [])
    (done : batches.foldlM Partition.addBatch partition = .ok partition') :
    ∀ group ∈ partition'.closed, group.values ≠ [] := by
  induction batches generalizing partition with
  | nil =>
    cases done
    exact filled
  | cons batch rest ih =>
    rw [List.foldlM_cons] at done
    cases added : partition.addBatch batch with
    | error stop =>
      rw [added] at done
      cases done
    | ok next =>
      rw [added] at done
      refine ih (fun group member => ?_) done
      unfold Partition.addBatch at added
      cases last : batch.recoverInto partition.last with
      | error stop =>
        rw [last] at added
        cases added
      | ok recovered =>
        rw [last] at added
        exact @filled_cut { partition with last := extend recovered (dataOf batch.shreds) } next filled added group member

omit [SolanaEntries] in
theorem filled_regroup {raws : List (List UInt8)} {partition : Partition} (done : regroup raws = .ok partition) :
    ∀ group ∈ partition.closed, group.values ≠ [] := by
  unfold regroup at done
  cases read : (raws.foldlM addShred ∅ : Except Stop (TreeMap UInt32 BatchMeta)) with
  | error stop =>
    rw [read] at done
    cases done
  | ok batches =>
    rw [read] at done
    exact filled_groups (fun group none => (List.not_mem_nil none).elim) done

theorem outcome_eq {raws : List (List UInt8)} :
    getSlotEntriesAndParentSlotFromRawShreds raws =
      (regroup raws >>= fun partition => partition.closed.foldlM addGroup ([], 0)) := by
  rw [getSlotEntriesAndParentSlotFromRawShreds, regroup]
  cases (raws.foldlM addShred ∅ : Except Stop (TreeMap UInt32 BatchMeta)) with
  | error stop => rfl
  | ok batches =>
    dsimp only [bind, Except.bind, recoverShredsAndGroupByCompletion]
    cases groupByCompletion batches with
    | error stop => rfl
    | ok partition => rfl

omit [SolanaLedger] [SolanaEntries] in
theorem mem_all (partition : Partition) : ∀ group ∈ partition.closed, ∀ shred ∈ group.values, shred ∈ partition.all :=
  fun group member _ inside => List.mem_append_left _ (List.mem_flatMap.mpr ⟨group, member, inside⟩)

/-- What is answered for a whole slot is about it. -/
theorem answers_whole {raws : List (List UInt8)} {partition : Partition} {parent : UInt64}
    (grouped : regroup raws = .ok partition) (whole : partition.Whole) (child : partition.ChildOf parent)
    {entries : List SolanaEntries.Entry} {parent' : UInt64}
    (done : partition.closed.foldlM addGroup ([], 0) = .ok (entries, parent')) : Answers raws entries parent' := by
  have present : partition.closed ≠ [] := by
    intro none
    have empty : partition.all = [] := by rw [Partition.all, none, whole.covered]; rfl
    have flagged := whole.flagged
    rw [empty] at flagged
    cases flagged
  have same : parent' = parent :=
    addGroups_parent (fun group member shred inside => child shred (mem_all partition group member shred inside)) (.inr ⟨rfl, present⟩) done
  obtain ⟨each, all, rfl⟩ := addGroups_entries done
  exact ⟨partition, grouped, whole, same ▸ child, each, all, List.nil_append _⟩

omit [SolanaEntries] in
/-- The groups of the code tell whether a slot is whole. -/
theorem isWhole_iff {raws : List (List UInt8)} {partition : Partition} (grouped : regroup raws = .ok partition) :
    IsWhole raws ↔ partition.Whole ∧ ∃ parent, partition.ChildOf parent := by
  have listed : partition.closed.flatMap TreeMap.values = (partition.closed.map TreeMap.values).flatten :=
    List.flatMap_def ..
  constructor
  · rintro ⟨shreds, groups, parent, reads, grouping, contiguous, flagged, child⟩
    obtain ⟨other, same, closed, covered⟩ := regroup_ok_iff.mpr ⟨shreds, reads, grouping⟩
    rw [grouped] at same
    cases same
    have all : partition.all = groups.flatten := by rw [Partition.all, covered, List.append_nil, listed, closed]
    refine ⟨⟨?_, ?_, covered⟩, parent, ?_⟩
    · rw [all]
      exact contiguous
    · rw [all]
      exact flagged
    · intro shred member
      rw [all] at member
      exact child shred member
  · rintro ⟨whole, parent, child⟩
    obtain ⟨shreds, reads, grouping⟩ := regroup_ok_iff.mp ⟨partition, grouped, rfl, whole.covered⟩
    have all : partition.all = (partition.closed.map TreeMap.values).flatten := by
      rw [Partition.all, whole.covered, List.append_nil, listed]
    have contiguous := whole.contiguous
    have flagged := whole.flagged
    rw [all] at contiguous flagged
    refine ⟨shreds, _, parent, reads, grouping, contiguous, flagged, fun shred member => ?_⟩
    rw [← all] at member
    exact child shred member

/-- The call ends in an error exactly for the lists that fail. -/
theorem fails_iff (raws : List (List UInt8)) :
    Fails raws ↔ ∃ e, getSlotEntriesAndParentSlotFromRawShreds raws = .error (.err e) := by
  rw [outcome_eq]
  have stops := regroup_err_iff raws
  constructor
  · rintro (@⟨raw, e, member, unreadable⟩ | @⟨shreds, reads, stuck⟩ | @⟨shreds, groups, last, reads, grouping, garbled⟩)
    · obtain ⟨e, failed⟩ := stops.mpr (.inl ⟨raw, member, e, unreadable⟩)
      rw [failed]
      exact ⟨e, rfl⟩
    · obtain ⟨e, failed⟩ := stops.mpr (.inr ⟨shreds, reads, stuck⟩)
      rw [failed]
      exact ⟨e, rfl⟩
    · obtain ⟨partition, grouped, closed, _⟩ := regroup_ok_iff.mpr ⟨shreds, reads, grouping⟩
      rw [grouped]
      refine (addGroups_err_iff partition.closed [] 0).mpr ?_
      rw [closed]
      exact garbled
  · rintro ⟨e, failed⟩
    cases grouped : regroup raws with
    | error stop =>
      rw [grouped] at failed
      cases failed
      rcases stops.mp ⟨e, grouped⟩ with ⟨raw, member, e', unreadable⟩ | ⟨shreds, reads, stuck⟩
      · exact .refused member unreadable
      · exact .lost reads stuck
    | ok partition =>
      rw [grouped] at failed
      obtain ⟨shreds, reads, grouping⟩ := regroup_ok_iff.mp ⟨partition, grouped, rfl, rfl⟩
      exact .garbled reads grouping ((addGroups_err_iff partition.closed [] 0).mp ⟨e, failed⟩)

/-- The answer is about a whole slot exactly when the slot is whole, unless the call fails. -/
theorem complete_iff (raws : List (List UInt8)) : Complete raws ↔ Fails raws ∨ IsWhole raws := by
  rw [Complete, fails_iff, outcome_eq]
  cases grouped : regroup raws with
  | error stop =>
    cases stop with
    | err e => exact ⟨fun _ => .inl ⟨e, rfl⟩, fun _ => trivial⟩
    | panic =>
      constructor
      · exact False.elim
      · rintro (⟨e, never⟩ | ⟨shreds, groups, parent, reads, grouping, _⟩)
        · cases never
        · obtain ⟨partition, never, _⟩ := regroup_ok_iff.mpr ⟨shreds, reads, grouping⟩
          rw [grouped] at never
          cases never
  | ok partition =>
    rw [isWhole_iff grouped]
    dsimp only [bind, Except.bind]
    cases done : partition.closed.foldlM addGroup (([] : List SolanaEntries.Entry), (0 : UInt64)) with
    | error stop =>
      cases stop with
      | err e => exact ⟨fun _ => .inl ⟨e, rfl⟩, fun _ => trivial⟩
      | panic =>
        constructor
        · exact False.elim
        · rintro (⟨e, never⟩ | ⟨whole, parent, child⟩)
          · cases never
          · exact addGroups_safe (fun group member shred inside => child shred (mem_all partition group member shred inside))
              (filled_regroup grouped) [] 0 done
    | ok result =>
      constructor
      · rintro ⟨other, same, whole, child, _⟩
        rw [grouped] at same
        cases same
        exact .inr ⟨whole, result.2, child⟩
      · rintro (⟨e, never⟩ | ⟨whole, parent, child⟩)
        · cases never
        · exact answers_whole grouped whole child done

end

/-! ### No entries -/

section
variable [SolanaLedger] [SolanaEntries]

omit [SolanaLedger] [SolanaEntries] in
/-- The parent of each group that it has to be read of can be read. -/
def ParentsRead (parent : UInt64) : List (List Shred) → Prop
  | [] => True
  | group :: rest => ∃ next, ParentAfter parent group next ∧ ParentsRead next rest

omit [SolanaLedger] in
theorem addGroups_nil_iff (groups : List (TreeMap UInt32 Shred)) (parent : UInt64) :
    (∃ parent', groups.foldlM addGroup (([] : List SolanaEntries.Entry), parent) = .ok ([], parent')) ↔
      ParentsRead parent (groups.map TreeMap.values) ∧
        ∀ group ∈ groups.map TreeMap.values, deshredToEntries group = .ok [] := by
  induction groups generalizing parent with
  | nil => exact ⟨fun _ => ⟨trivial, fun group never => (List.not_mem_nil never).elim⟩, fun _ => ⟨parent, rfl⟩⟩
  | cons group rest ih =>
    rw [List.foldlM_cons, addGroup, List.map_cons, ParentsRead, List.forall_mem_cons]
    simp only [← nextParent_ok_iff]
    cases read : nextParent parent group with
    | error stop =>
      constructor
      · rintro ⟨parent', never⟩
        cases never
      · rintro ⟨⟨next, never, _⟩, _⟩
        cases never
    | ok next =>
      cases there : deshredToEntries group.values with
      | error stop =>
        constructor
        · rintro ⟨parent', never⟩
          cases never
        · rintro ⟨_, never, _⟩
          cases never
      | ok more =>
        cases more with
        | nil =>
          refine (ih next).trans ⟨fun ⟨parents, empty⟩ => ⟨⟨next, rfl, parents⟩, rfl, empty⟩, ?_⟩
          rintro ⟨⟨next', same, parents⟩, _, empty⟩
          cases same
          exact ⟨parents, empty⟩
        | cons entry more =>
          constructor
          · rintro ⟨parent', done⟩
            obtain ⟨each, _, longer⟩ := addGroups_entries done
            simp at longer
          · rintro ⟨_, never, _⟩
            cases never

/-- No entries are answered where no set closes a group, as of a slot without shreds, or where every group that is closed
holds no entry. -/
theorem no_entries_iff (raws : List (List UInt8)) :
    (∃ parent, getSlotEntriesAndParentSlotFromRawShreds raws = .ok ([], parent)) ↔
      ∃ shreds groups last, Reads raws shreds ∧ Grouping (slotSets shreds) groups last ∧ ParentsRead 0 groups ∧
        ∀ group ∈ groups, deshredToEntries group = .ok [] := by
  rw [outcome_eq]
  constructor
  · rintro ⟨parent, done⟩
    obtain ⟨partition, grouped, done⟩ := Fallible.ok_of_bind done
    obtain ⟨shreds, reads, grouping⟩ := regroup_ok_iff.mp ⟨partition, grouped, rfl, rfl⟩
    obtain ⟨parents, empty⟩ := (addGroups_nil_iff partition.closed 0).mp ⟨parent, done⟩
    exact ⟨shreds, _, _, reads, grouping, parents, empty⟩
  · rintro ⟨shreds, groups, last, reads, grouping, parents, empty⟩
    obtain ⟨partition, grouped, rfl, _⟩ := regroup_ok_iff.mpr ⟨shreds, reads, grouping⟩
    rw [grouped]
    exact (addGroups_nil_iff partition.closed 0).mpr ⟨parents, empty⟩

end

/-! ### A slot of which nothing is known -/

/-- Entries are the bytes of the payloads. -/
abbrev byteEntries : SolanaEntries where
  Entry := UInt8
  deshred payloads := if payloads = [] then .error "TooFewDataShards" else .ok payloads.flatten
  deserialize bytes := .ok bytes

/-- No shreds are answered with no entries and parent 0. -/
theorem unknown_slot_answered :
    @getSlotEntriesAndParentSlotFromRawShreds codedLedger byteEntries [] = .ok ([], 0) ∧
    ¬ @Complete codedLedger byteEntries [] := by
  refine ⟨rfl, ?_⟩
  rintro ⟨partition, grouped, whole, _⟩
  cases grouped
  have flagged := whole.flagged
  cases flagged

end Lightbringer.Util
