import Lightbringer.Util.Deshred
import Lightbringer.Alpenglow.ArrivalOrder
import Lightbringer.Lib.Entries

/-!
# Completion groups and data shreds

The two ways to the data shreds of a slot: cut into completion groups (`util/shred.rs`) or as one list
(`alpenglow/shred.rs`). Set by set both end up with the same shreds, so that the groups are a partition of the list.
-/

namespace Lightbringer.Util
open Std Alpenglow Agreement Batches

/-! ### Groups as ascending lists -/

theorem values_eq_of_ascending {group : TreeMap UInt32 Shred} {shreds : List Shred}
    (ascending : shreds.Pairwise (fun s t => s.index < t.index))
    (same : ∀ index shred, group[index]? = some shred ↔ shred ∈ shreds ∧ shred.index = index) : group.values = shreds := by
  have listed : group.toList = shreds.map (fun shred => (shred.index, shred)) := by
    refine Entries.toList_eq_of_sorted ?_ (fun index shred => ?_)
    · rw [List.pairwise_map]
      exact ascending.imp (fun less => compare_eq_lt.mpr less)
    · rw [same, List.mem_map]
      constructor
      · rintro ⟨other, member, same⟩
        cases same
        exact ⟨member, rfl⟩
      · rintro ⟨member, rfl⟩
        exact ⟨shred, member, rfl⟩
  rw [values_eq_toList, listed, List.map_map]
  exact List.map_id _

/-- Every shred is kept under its own index. -/
def Indexed (group : TreeMap UInt32 Shred) : Prop :=
  ∀ (index : UInt32) (shred : Shred), group[index]? = some shred → shred.index = index

theorem mem_values {group : TreeMap UInt32 Shred} (indexed : Indexed group) (shred : Shred) :
    shred ∈ group.values ↔ group[shred.index]? = some shred := by
  rw [values_eq_toList, List.mem_map]
  constructor
  · rintro ⟨⟨index, other⟩, member, rfl⟩
    have found := TreeMap.mem_toList_iff_getElem?_eq_some.mp member
    rw [indexed index other found]
    exact found
  · intro found
    exact ⟨(shred.index, shred), TreeMap.mem_toList_iff_getElem?_eq_some.mpr found, rfl⟩

theorem ascending_values {group : TreeMap UInt32 Shred} (indexed : Indexed group) :
    group.values.Pairwise (fun s t => s.index < t.index) := by
  rw [values_eq_toList, List.pairwise_map]
  refine List.Pairwise.imp_of_mem ?_ group.ordered_keys_toList
  rintro ⟨i, s⟩ ⟨j, t⟩ left right less
  have own := indexed i s (TreeMap.mem_toList_iff_getElem?_eq_some.mp left)
  have other := indexed j t (TreeMap.mem_toList_iff_getElem?_eq_some.mp right)
  rw [own, other]
  exact compare_eq_lt.mp less

theorem getElem?_extend (group : TreeMap UInt32 Shred) (shreds : List Shred) (index : UInt32) :
    (extend group shreds)[index]? = ((extend ∅ shreds)[index]?).or group[index]? := by
  induction shreds using List.reverseRecOn with
  | nil =>
    rw [extend, extend, List.foldl_nil, List.foldl_nil, TreeMap.getElem?_emptyc]
    rfl
  | append_singleton shreds last ih =>
    have grown : ∀ group, extend group (shreds ++ [last]) = (extend group shreds).insert last.index last := by
      intro group
      rw [extend, List.foldl_append]
      rfl
    rw [grown, grown, Entries.getElem?_insert, Entries.getElem?_insert]
    split
    · rfl
    · exact ih

theorem indexed_extend {group : TreeMap UInt32 Shred} (indexed : Indexed group) (shreds : List Shred) :
    Indexed (extend group shreds) := by
  induction shreds generalizing group with
  | nil => exact indexed
  | cons shred rest ih =>
    refine ih (fun index other found => ?_)
    rw [Entries.getElem?_insert] at found
    split at found
    next here =>
      cases found
      exact here
    · exact indexed index other found

theorem indexed_empty : Indexed ∅ := by
  intro index shred found
  rw [TreeMap.getElem?_emptyc] at found
  cases found

/-- The shreds of a set, ascending. -/
def ascendingShreds (shreds : List Shred) : List Shred := (extend ∅ shreds).values

/-- Shreds that come after a group are put behind it. -/
theorem values_extend {group : TreeMap UInt32 Shred} (indexed : Indexed group) {shreds : List Shred}
    (later : ∀ s ∈ group.values, ∀ t ∈ ascendingShreds shreds, s.index < t.index) :
    (extend group shreds).values = group.values ++ ascendingShreds shreds := by
  have added := indexed_extend indexed_empty shreds
  refine values_eq_of_ascending ?_ (fun index shred => ?_)
  · rw [List.pairwise_append]
    exact ⟨ascending_values indexed, ascending_values added, later⟩
  · rw [getElem?_extend, List.mem_append, mem_values indexed, ascendingShreds, mem_values added]
    constructor
    · intro found
      cases new : (extend ∅ shreds)[index]? with
      | some other =>
        rw [new] at found
        cases found
        have own := added index shred new
        rw [own]
        exact ⟨.inr new, rfl⟩
      | none =>
        rw [new] at found
        have own := indexed index shred found
        rw [own]
        exact ⟨.inl found, rfl⟩
    · rintro ⟨old | new, rfl⟩
      · cases new : (extend ∅ shreds)[shred.index]? with
        | none => exact old
        | some other =>
          have own := added _ other new
          have less := later shred ((mem_values indexed shred).mpr old) other
            ((mem_values added other).mpr (by rw [own]; exact new))
          rw [own] at less
          exact absurd less (UInt32.lt_irrefl _)
      · rw [new]
        rfl

theorem mem_ascendingShreds {shreds : List Shred} (once : (shreds.map Shred.index).Nodup) (shred : Shred) :
    shred ∈ ascendingShreds shreds ↔ shred ∈ shreds := by
  rw [ascendingShreds, mem_values (indexed_extend indexed_empty shreds)]
  induction shreds using List.reverseRecOn with
  | nil =>
    rw [extend, List.foldl_nil, TreeMap.getElem?_emptyc]
    simp
  | append_singleton shreds last ih =>
    rw [List.map_append, List.nodup_append] at once
    obtain ⟨earlier, _, apart⟩ := once
    have grown : extend ∅ (shreds ++ [last]) = (extend ∅ shreds).insert last.index last := by
      rw [extend, List.foldl_append]
      rfl
    rw [grown, Entries.getElem?_insert, List.mem_append, List.mem_singleton]
    split
    next here =>
      constructor
      · intro same
        cases same
        exact .inr rfl
      · rintro (old | same)
        · exact absurd here.symm (apart _ (List.mem_map_of_mem old) _ (by simp))
        · rw [same]
    next other =>
      rw [ih earlier]
      constructor
      · exact .inl
      · rintro (old | same)
        · exact old
        · rw [same] at other
          exact absurd rfl other

/-! ### One FEC set -/

section
variable [SolanaLedger]

/-- The data shreds of a FEC set, the ones that Reed-Solomon gives back first. -/
def recoveredSet (shreds : List Shred) : Except String (List Shred) :=
  if (dataOf shreds).length < 32 then do
    let recovered ← recoverShreds shreds
    let recovered ← recovered.mapM id
    return dataOf recovered ++ dataOf shreds
  else .ok (dataOf shreds)

omit [SolanaLedger] in
theorem foldl_batchMeta (shreds : List Shred) (batch : BatchMeta) :
    shreds.foldl BatchMeta.add batch = ⟨batch.shreds ++ shreds, batch.dataCnt + (dataOf shreds).length⟩ := by
  induction shreds generalizing batch with
  | nil => simp [dataOf]
  | cons shred rest ih =>
    rw [List.foldl_cons, ih, BatchMeta.add]
    by_cases data : shred.shredType = .data
    · simp [dataOf, data, Nat.add_assoc, Nat.add_comm]
    · simp [dataOf, data]

omit [SolanaLedger] in
theorem foldlM_insertRecovered (recovered : List (Except String Shred)) (last : TreeMap UInt32 Shred) :
    recovered.foldlM insertRecovered last =
      ((recovered.mapM id).mapError (fun e => Stop.err (.shredRecovery e))).map (fun shreds => extend last (dataOf shreds)) := by
  induction recovered generalizing last with
  | nil => rfl
  | cons first rest ih =>
    rw [List.foldlM_cons, List.mapM_cons]
    cases first with
    | error e => rfl
    | ok shred =>
      refine (ih _).trans ?_
      cases (rest.mapM id : Except String (List Shred)) with
      | error e => rfl
      | ok shreds =>
        by_cases data : shred.shredType = .data
        · simp [dataOf, data, extend, Except.mapError, Except.map, bind, Except.bind, pure, Except.pure]
        · simp [dataOf, data, extend, Except.mapError, Except.map, bind, Except.bind, pure, Except.pure]

/-- A set goes into the open group, and then the group may be closed. -/
theorem addBatch_eq (partition : Partition) (shreds : List Shred) {data : List Shred}
    (recovered : recoveredSet shreds = .ok data) :
    partition.addBatch ⟨shreds, (dataOf shreds).length⟩ =
      Partition.cut { partition with last := extend partition.last data } := by
  unfold recoveredSet at recovered
  unfold Partition.addBatch BatchMeta.recoverInto
  split at recovered
  next few =>
    rw [if_pos few]
    cases back : recoverShreds shreds with
    | error e =>
      rw [back] at recovered
      cases recovered
    | ok given =>
      rw [back] at recovered
      have folded : (given.foldlM insertRecovered partition.last : Except Stop (TreeMap UInt32 Shred)) = _ :=
        foldlM_insertRecovered given partition.last
      cases read : (given.mapM id : Except String (List Shred)) with
      | error e =>
        simp only [bind, Except.bind, read] at recovered
        cases recovered
      | ok shreds' =>
        simp only [bind, Except.bind, read] at recovered
        cases recovered
        simp only [bind, Except.bind, Except.mapError, folded, read, Except.map]
        rw [extend, extend, extend, List.foldl_append]
  next many =>
    cases recovered
    rw [if_neg many]
    rfl

/-- A set that cannot be recovered ends the call. -/
theorem addBatch_lost (partition : Partition) (shreds : List Shred) {e : String} (lost : recoveredSet shreds = .error e) :
    partition.addBatch ⟨shreds, (dataOf shreds).length⟩ = .error (.err (.shredRecovery e)) := by
  unfold recoveredSet at lost
  unfold Partition.addBatch BatchMeta.recoverInto
  split at lost
  next few =>
    rw [if_pos few]
    cases back : recoverShreds shreds with
    | error e' =>
      rw [back] at lost
      cases lost
      rfl
    | ok given =>
      rw [back] at lost
      have folded : (given.foldlM insertRecovered partition.last : Except Stop (TreeMap UInt32 Shred)) = _ :=
        foldlM_insertRecovered given partition.last
      cases read : (given.mapM id : Except String (List Shred)) with
      | error e' =>
        simp only [bind, Except.bind, read] at lost
        cases lost
        simp only [bind, Except.bind, Except.mapError, folded, read, Except.map]
      | ok shreds' =>
        simp only [bind, Except.bind, read] at lost
        cases lost
  next => cases lost

/-! ### The sets of a slot -/

omit [SolanaLedger] in
theorem batch_fecSet (f : UInt32) (shreds : List Shred) :
    batch Shred.fecSetIndex BatchMeta.add f shreds =
      ⟨ofKey Shred.fecSetIndex f shreds, (dataOf (ofKey Shred.fecSetIndex f shreds)).length⟩ := by
  rw [batch, foldl_batchMeta]
  exact congrArg (BatchMeta.mk _) (Nat.zero_add _)

/-- The FEC sets of a slot's shreds, ascending. -/
def fecSets (shreds : List Shred) : List UInt32 := (gather Shred.fecSetIndex BatchMeta.add shreds).keys

/-- One set after another is put into the open group, which is closed where a set ends in a data-complete shred. -/
def cutSets (last : List Shred) : List (List Shred) → List (List Shred)
  | [] => []
  | set :: rest =>
    if set.getLast?.any Shred.dataComplete then (last ++ set) :: cutSets [] rest else cutSets (last ++ set) rest

omit [SolanaLedger] in
theorem cut_eq (partition : Partition) {last added : List Shred} (values : partition.last.values = last ++ added)
    (present : added ≠ []) :
    partition.cut =
      .ok (if added.getLast?.any Shred.dataComplete then ⟨partition.closed ++ [partition.last], ∅⟩ else partition) := by
  have ends : partition.last.values.getLast? = added.getLast? := by
    rw [values, List.getLast?_append, List.getLast?_eq_some_getLast present]
    rfl
  rw [Partition.cut, ends, List.getLast?_eq_some_getLast present]
  dsimp only [Option.any]
  split
  · rfl
  · rfl

theorem foldlM_addBatch {shreds : List Shred} {data : UInt32 → List Shred} (sets : List UInt32)
    (recovers : ∀ f ∈ sets, recoveredSet (ofKey Shred.fecSetIndex f shreds) = .ok (data f))
    (once : ∀ f ∈ sets, ((data f).map Shred.index).Nodup) (present : ∀ f ∈ sets, data f ≠ [])
    (ordered : sets.Pairwise (fun f g => ∀ s ∈ data f, ∀ t ∈ data g, s.index < t.index))
    {closed : List (TreeMap UInt32 Shred)} {last : TreeMap UInt32 Shred} (indexed : Indexed last)
    (later : ∀ f ∈ sets, ∀ s ∈ last.values, ∀ t ∈ data f, s.index < t.index) :
    ∃ partition : Partition,
      sets.foldlM (fun partition f => partition.addBatch (batch Shred.fecSetIndex BatchMeta.add f shreds))
        ⟨closed, last⟩ = Except.ok partition ∧
      partition.closed.map TreeMap.values =
        closed.map TreeMap.values ++ cutSets last.values (sets.map (fun f => ascendingShreds (data f))) := by
  induction sets generalizing closed last with
  | nil => exact ⟨⟨closed, last⟩, rfl, (List.append_nil _).symm⟩
  | cons f rest ih =>
    obtain ⟨apart, tail⟩ := List.pairwise_cons.mp ordered
    have inSet : ∀ s, s ∈ ascendingShreds (data f) ↔ s ∈ data f := mem_ascendingShreds (once f (List.mem_cons_self ..))
    have filled : ascendingShreds (data f) ≠ [] := by
      obtain ⟨s, member⟩ := List.exists_mem_of_ne_nil _ (present f (List.mem_cons_self ..))
      exact List.ne_nil_of_mem ((inSet s).mpr member)
    have values : (extend last (data f)).values = last.values ++ ascendingShreds (data f) := by
      refine values_extend indexed (fun s old t new => ?_)
      exact later f (List.mem_cons_self ..) s old t ((inSet t).mp new)
    have further := @ih (fun g member => recovers g (List.mem_cons_of_mem _ member)) (fun g member => once g (List.mem_cons_of_mem _ member))
      (fun g member => present g (List.mem_cons_of_mem _ member)) tail
    rw [List.foldlM_cons, batch_fecSet, addBatch_eq _ _ (recovers f (List.mem_cons_self ..)), cut_eq ⟨closed, extend last (data f)⟩ values filled,
      List.map_cons, cutSets]
    by_cases complete : (ascendingShreds (data f)).getLast?.any Shred.dataComplete = true
    · rw [if_pos complete, if_pos complete]
      obtain ⟨partition, done, groups⟩ := @further (closed ++ [extend last (data f)]) ∅ indexed_empty
        (fun g member s none => by
          have empty : (∅ : TreeMap UInt32 Shred).values = [] := rfl
          rw [empty] at none
          cases none)
      refine ⟨partition, done, ?_⟩
      rw [groups, List.map_append, List.append_assoc, List.map_singleton, values]
      rfl
    · rw [if_neg complete, if_neg complete]
      obtain ⟨partition, done, groups⟩ := @further closed (extend last (data f)) (indexed_extend indexed (data f))
        (fun g member s old t new => by
          rw [values] at old
          rcases List.mem_append.mp old with before | here
          · exact later g (List.mem_cons_of_mem _ member) s before t new
          · exact apart g member s ((inSet s).mp here) t new)
      refine ⟨partition, done, ?_⟩
      rw [groups, values]

theorem groupByCompletion_eq (shreds : List Shred) :
    groupByCompletion (gather Shred.fecSetIndex BatchMeta.add shreds) =
      (fecSets shreds).foldlM (fun partition f => partition.addBatch (batch Shred.fecSetIndex BatchMeta.add f shreds))
        ⟨[], ∅⟩ := by
  rw [groupByCompletion, values_gather, List.foldlM_map]
  rfl

/-! ### Groups as a partition -/

omit [SolanaLedger] in
/-- Nothing is dropped when the last set closes the last group. -/
theorem flatten_cutSets {sets : List (List Shred)} {last : List Shred} (empty : sets = [] → last = [])
    (closes : ∀ final, sets.getLast? = some final → final.getLast?.any Shred.dataComplete = true) :
    (cutSets last sets).flatten = last ++ sets.flatten := by
  induction sets generalizing last with
  | nil => rw [empty rfl]; rfl
  | cons first rest ih =>
    have further : ∀ final, rest.getLast? = some final → final.getLast?.any Shred.dataComplete = true := by
      intro final ends
      refine closes final ?_
      rw [List.getLast?_cons, ends]
      rfl
    rw [cutSets]
    split
    · rw [List.flatten_cons, ih (fun _ => rfl) further, List.nil_append, List.flatten_cons, List.append_assoc]
    next unclosed =>
      rw [ih ?_ further, List.flatten_cons, List.append_assoc]
      rintro rfl
      exact absurd (closes first rfl) unclosed

/-- A list of shreds that ends in its only data-complete one. -/
def EndsOnce (shreds : List Shred) : Prop :=
  ∃ front last, shreds = front ++ [last] ∧ last.dataComplete = true ∧ ∀ shred ∈ front, shred.dataComplete = false

omit [SolanaLedger] in
theorem endsOnce_cutSets {sets : List (List Shred)} {last : List Shred} (unclosed : ∀ shred ∈ last, shred.dataComplete = false)
    (flags : ∀ added ∈ sets, ∀ front final, added = front ++ [final] → ∀ shred ∈ front, shred.dataComplete = false) :
    ∀ group ∈ cutSets last sets, EndsOnce group := by
  induction sets generalizing last with
  | nil => exact fun group member => (List.not_mem_nil member).elim
  | cons first rest ih =>
    have further := fun added member => flags added (List.mem_cons_of_mem _ member)
    rw [cutSets]
    rcases List.eq_nil_or_concat first with rfl | ⟨front, final, same⟩
    · rw [if_neg (by simp)]
      exact ih (by simpa using unclosed) further
    · rw [List.concat_eq_append] at same
      subst same
      have before := flags _ (List.mem_cons_self ..) front final rfl
      rw [List.getLast?_concat, Option.any_some]
      by_cases complete : final.dataComplete = true
      · rw [if_pos complete]
        intro group member
        rcases List.mem_cons.mp member with rfl | later
        · refine ⟨last ++ front, final, (List.append_assoc ..).symm, complete, fun shred inside => ?_⟩
          rcases List.mem_append.mp inside with old | new
          · exact unclosed shred old
          · exact before shred new
        · exact ih (fun shred none => (List.not_mem_nil none).elim) further group later
      · rw [if_neg complete]
        refine ih (fun shred inside => ?_) further
        rcases List.mem_append.mp inside with old | new
        · exact unclosed shred old
        · rcases List.mem_append.mp new with new | same
          · exact before shred new
          · rw [List.mem_singleton.mp same]
            exact Bool.eq_false_iff.mpr complete

/-! ### The other way to the data shreds -/

omit [SolanaLedger] in
theorem eq_map_of_mapM {recovered : List (Except String Shred)} {shreds : List Shred}
    (read : recovered.mapM id = .ok shreds) : recovered = shreds.map .ok := by
  have each := mapM_ok_iff.mp read
  clear read
  induction each with
  | nil => rfl
  | cons here _ ih =>
    rw [List.map_cons, ← ih]
    exact congrArg (· :: _) here

omit [SolanaLedger] in
/-- What a set lacks is put beside what it has. -/
theorem addRecovered_all {dataShreds : TreeMap UInt32 Shred} {seen : List Shred}
    (holds : ∀ index shred, dataShreds[index]? = some shred ↔ shred ∈ seen ∧ shred.index = index) (recovered : List Shred)
    (once : ((seen ++ dataOf recovered).map Shred.index).Nodup) :
    ∃ dataShreds', (recovered.map Except.ok).foldlM FecBatch.addRecovered dataShreds = .ok dataShreds' ∧
      ∀ index shred, dataShreds'[index]? = some shred ↔ shred ∈ seen ++ dataOf recovered ∧ shred.index = index := by
  induction recovered generalizing dataShreds seen with
  | nil =>
    refine ⟨dataShreds, rfl, ?_⟩
    rw [show dataOf [] = [] from rfl, List.append_nil]
    exact holds
  | cons shred rest ih =>
    by_cases data : shred.shredType = .data
    · have split : seen ++ dataOf (shred :: rest) = (seen ++ [shred]) ++ dataOf rest := by simp [dataOf, data]
      rw [split] at once ⊢
      have unseen : shred.index ∉ dataShreds := by
        intro present
        obtain ⟨other, found⟩ := Option.isSome_iff_exists.mp (TreeMap.isSome_getElem?_iff_mem.mpr present)
        obtain ⟨member, here⟩ := (holds shred.index other).mp found
        rw [List.map_append, List.map_append] at once
        have apart := (List.nodup_append.mp (List.nodup_append.mp once).1).2.2
        exact apart _ (List.mem_map_of_mem member) _ (by simp) here
      obtain ⟨dataShreds', done, filled⟩ := @ih (dataShreds.insertIfNew shred.index shred) (seen ++ [shred])
        (fun index other => by
          rw [TreeMap.getElem?_insertIfNew, List.mem_append, List.mem_singleton]
          split
          next new =>
            have here : shred.index = index := LawfulEqOrd.compare_eq_iff_eq.mp new.1
            constructor
            · intro same
              cases same
              exact ⟨.inr rfl, here⟩
            · rintro ⟨old | same, there⟩
              · have found := (holds index other).mpr ⟨old, there⟩
                rw [← here] at found
                exact absurd (TreeMap.isSome_getElem?_iff_mem.mp (by rw [found]; rfl)) unseen
              · rw [same]
          next elsewhere =>
            rw [holds]
            constructor
            · rintro ⟨old, here⟩
              exact ⟨.inl old, here⟩
            · rintro ⟨old | same, here⟩
              · exact ⟨old, here⟩
              · rw [same] at here
                exact absurd ⟨LawfulEqOrd.compare_eq_iff_eq.mpr here, unseen⟩ elsewhere) once
      refine ⟨dataShreds', ?_, filled⟩
      rw [List.map_cons, List.foldlM_cons, FecBatch.addRecovered]
      simp only [Except.mapError, bind, Except.bind, pure, Except.pure, if_pos data]
      exact done
    · have split : dataOf (shred :: rest) = dataOf rest := by simp [dataOf, data]
      rw [split] at once ⊢
      obtain ⟨dataShreds', done, filled⟩ := ih holds once
      refine ⟨dataShreds', ?_, filled⟩
      rw [List.map_cons, List.foldlM_cons, FecBatch.addRecovered]
      simp only [Except.mapError, bind, Except.bind, pure, Except.pure, if_neg data]
      exact done

/-- Both ways recover a set to the same shreds. -/
theorem recover_eq {shreds data : List Shred} {f : UInt32} (own : ∀ shred ∈ shreds, shred.fecSetIndex = f)
    (distinct : (shreds.map Shred.key).Nodup) (recovers : recoveredSet shreds = .ok data)
    (once : (data.map Shred.index).Nodup) :
    ∃ dataShreds, (shreds.foldl FecBatch.add default).recover = .ok dataShreds ∧
      dataShreds.values = ascendingShreds data := by
  have given : ∀ index shred, (shreds.foldl FecBatch.add default).dataShreds[index]? = some shred ↔
      shred ∈ dataOf shreds ∧ shred.index = index := by
    intro index shred
    rw [getElem?_dataShreds own distinct, dataOf, List.mem_filter, decide_eq_true_eq, and_assoc]
  have size : (shreds.foldl FecBatch.add default).dataShreds.size = (dataOf shreds).length := by
    have indexed : Indexed (shreds.foldl FecBatch.add default).dataShreds :=
      fun index shred found => ((given index shred).mp found).2
    have nodup : (dataOf shreds).Nodup := (List.Nodup.of_map Shred.key distinct).sublist List.filter_sublist
    have perm : (shreds.foldl FecBatch.add default).dataShreds.values.Perm (dataOf shreds) := by
      refine (List.perm_ext_iff_of_nodup ?_ nodup).mpr (fun shred => ?_)
      · refine (ascending_values indexed).imp ?_
        intro s t less same
        rw [same] at less
        exact UInt32.lt_irrefl _ less
      · rw [mem_values indexed, given]
        simp
    rw [← perm.length_eq, values_eq_toList, List.length_map, TreeMap.length_toList]
  have listed : ∀ {dataShreds : TreeMap UInt32 Shred},
      (∀ index shred, dataShreds[index]? = some shred ↔ shred ∈ data ∧ shred.index = index) →
      dataShreds.values = ascendingShreds data := by
    intro dataShreds holds
    refine values_eq_of_ascending (ascending_values (indexed_extend indexed_empty data)) (fun index shred => ?_)
    rw [holds, mem_ascendingShreds once]
  unfold recoveredSet at recovers
  rw [FecBatch.recover, size, show dataShredsPerFecBlock = 32 from rfl]
  split at recovers
  next few =>
    rw [if_pos few]
    cases back : recoverShreds shreds with
    | error e =>
      rw [back] at recovers
      cases recovers
    | ok recovered =>
      rw [back] at recovers
      cases read : (recovered.mapM id : Except String (List Shred)) with
      | error e =>
        simp only [bind, Except.bind, read] at recovers
        cases recovers
      | ok missing =>
        simp only [bind, Except.bind, read] at recovers
        cases recovers
        have distinctOnce : ((dataOf shreds ++ dataOf missing).map Shred.index).Nodup :=
          ((List.perm_append_comm.map Shred.index).nodup_iff).mp once
        obtain ⟨dataShreds, done, filled⟩ := addRecovered_all given missing distinctOnce
        refine ⟨dataShreds, ?_, listed (fun index shred => ?_)⟩
        · rw [shreds_foldl, show (default : FecBatch).shreds = [] from rfl, List.nil_append, back]
          rw [eq_map_of_mapM read]
          exact done
        · rw [filled, List.mem_append, List.mem_append, or_comm]
  next many =>
    cases recovers
    rw [if_neg many]
    exact ⟨_, rfl, listed given⟩

/-! ### The slot -/

omit [SolanaLedger] in
theorem ascending_fecSets (shreds : List Shred) : (fecSets shreds).Pairwise (· < ·) := by
  have ordered := (gather Shred.fecSetIndex BatchMeta.add shreds).ordered_keys
  exact ordered.imp (fun less => compare_eq_lt.mp less)

/-- The shreds of a slot that was sent as a leader should: told apart by type, FEC set and index; every set recovers, its
data shreds lie from its own index up to the next set's, and only the last of them may be data-complete; the last set
ends in one that is. -/
structure Regular (shreds : List Shred) (data : UInt32 → List Shred) : Prop where
  distinct : (shreds.map Shred.key).Nodup
  recovers : ∀ f ∈ fecSets shreds, recoveredSet (ofKey Shred.fecSetIndex f shreds) = .ok (data f)
  once : ∀ f ∈ fecSets shreds, ((data f).map Shred.index).Nodup
  present : ∀ f ∈ fecSets shreds, data f ≠ []
  starts : ∀ f ∈ fecSets shreds, ∀ shred ∈ data f, f ≤ shred.index
  stops : ∀ f ∈ fecSets shreds, ∀ g ∈ fecSets shreds, f < g → ∀ shred ∈ data f, shred.index < g
  flags : ∀ f ∈ fecSets shreds, ∀ shred ∈ data f, shred.dataComplete = true → ∀ other ∈ data f, other.index ≤ shred.index
  closes : ∀ f ∈ fecSets shreds, (∀ g ∈ fecSets shreds, g ≤ f) → ∃ shred ∈ data f, shred.dataComplete = true

variable {shreds : List Shred} {data : UInt32 → List Shred}

/-- The sets of a regular slot, each in the order of its indices. -/
def setsOf (shreds : List Shred) (data : UInt32 → List Shred) : List (List Shred) :=
  (fecSets shreds).map (fun f => ascendingShreds (data f))

theorem ordered_sets (regular : Regular shreds data) :
    (fecSets shreds).Pairwise (fun f g => ∀ s ∈ data f, ∀ t ∈ data g, s.index < t.index) := by
  refine List.Pairwise.imp_of_mem ?_ (ascending_fecSets shreds)
  intro f g left right less s early t late
  exact UInt32.lt_of_lt_of_le (regular.stops f left g right less s early) (regular.starts g right t late)

theorem groupByCompletion_regular (regular : Regular shreds data) :
    ∃ partition, groupByCompletion (gather Shred.fecSetIndex BatchMeta.add shreds) = .ok partition ∧
      partition.closed.map TreeMap.values = cutSets [] (setsOf shreds data) := by
  rw [groupByCompletion_eq]
  refine foldlM_addBatch (fecSets shreds) regular.recovers regular.once regular.present (ordered_sets regular)
    indexed_empty (fun f _ s none => ?_)
  have empty : (∅ : TreeMap UInt32 Shred).values = [] := rfl
  rw [empty] at none
  cases none

theorem ascending_setsOf (regular : Regular shreds data) :
    (setsOf shreds data).flatten.Pairwise (fun s t => s.index < t.index) := by
  rw [setsOf, List.pairwise_flatten]
  constructor
  · intro set member
    obtain ⟨f, _, rfl⟩ := List.mem_map.mp member
    exact ascending_values (indexed_extend indexed_empty (data f))
  · rw [List.pairwise_map]
    refine List.Pairwise.imp_of_mem ?_ (ordered_sets regular)
    intro f g left right apart s early t late
    exact apart s ((mem_ascendingShreds (regular.once f left) s).mp early) t
      ((mem_ascendingShreds (regular.once g right) t).mp late)

theorem mem_setsOf (regular : Regular shreds data) (shred : Shred) :
    shred ∈ (setsOf shreds data).flatten ↔ ∃ f ∈ fecSets shreds, shred ∈ data f := by
  rw [setsOf, List.mem_flatten]
  constructor
  · rintro ⟨set, member, inside⟩
    obtain ⟨f, present, rfl⟩ := List.mem_map.mp member
    exact ⟨f, present, (mem_ascendingShreds (regular.once f present) shred).mp inside⟩
  · rintro ⟨f, present, inside⟩
    exact ⟨_, List.mem_map_of_mem present, (mem_ascendingShreds (regular.once f present) shred).mpr inside⟩

/-- The data-complete shred of a set is its last one. -/
theorem flags_setsOf (regular : Regular shreds data) : ∀ added ∈ setsOf shreds data, ∀ front final,
    added = front ++ [final] → ∀ shred ∈ front, shred.dataComplete = false := by
  intro added member front final split shred inside
  obtain ⟨f, present, rfl⟩ := List.mem_map.mp member
  have own := mem_ascendingShreds (regular.once f present)
  have ascending := ascending_values (indexed_extend indexed_empty (data f))
  rw [show (extend ∅ (data f)).values = front ++ [final] from split, List.pairwise_append] at ascending
  have less := ascending.2.2 shred inside final (by simp)
  by_contra complete
  have first : shred ∈ data f := (own shred).mp (split ▸ List.mem_append_left _ inside)
  have last : final ∈ data f := (own final).mp (split ▸ List.mem_append_right _ (by simp))
  exact UInt32.not_le.mpr less (regular.flags f present shred first (Bool.eq_true_of_not_eq_false complete) final last)

theorem closes_setsOf (regular : Regular shreds data) : ∀ final, (setsOf shreds data).getLast? = some final →
    final.getLast?.any Shred.dataComplete = true := by
  intro final ends
  rw [setsOf, List.getLast?_map] at ends
  obtain ⟨f, last, rfl⟩ := Option.map_eq_some_iff.mp ends
  obtain ⟨front, split⟩ := List.getLast?_eq_some_iff.mp last
  have present : f ∈ fecSets shreds := List.mem_of_getLast? last
  have highest : ∀ g ∈ fecSets shreds, g ≤ f := by
    intro g member
    have ordered := ascending_fecSets shreds
    rw [split, List.pairwise_append] at ordered
    rw [split] at member
    rcases List.mem_append.mp member with before | same
    · exact UInt32.le_of_lt (ordered.2.2 g before f (by simp))
    · rw [List.mem_singleton.mp same]
      exact UInt32.le_refl f
  obtain ⟨shred, inside, complete⟩ := regular.closes f present highest
  have listed := (mem_ascendingShreds (regular.once f present) shred).mpr inside
  rcases List.eq_nil_or_concat (ascendingShreds (data f)) with none | ⟨front, top, whole⟩
  · rw [none] at listed
    cases listed
  · rw [List.concat_eq_append] at whole
    have before := flags_setsOf regular _ (List.mem_map_of_mem present) front top whole
    rw [whole] at listed ⊢
    rw [List.getLast?_concat, Option.any_some]
    rcases List.mem_append.mp listed with early | same
    · rw [before shred early] at complete
      cases complete
    · rw [← List.mem_singleton.mp same]
      exact complete

theorem flatten_groups (regular : Regular shreds data) :
    (cutSets [] (setsOf shreds data)).flatten = (setsOf shreds data).flatten := by
  rw [flatten_cutSets (fun _ => rfl) (closes_setsOf regular)]
  rfl

/-! ### The two ways -/

theorem readShreds_eq {raws : List PacketInfo} (read : raws.mapM parseShred = .ok shreds) :
    (raws.map PacketView.bytes).mapM readShred = .ok shreds := by
  rw [mapM_ok_iff, List.forall₂_map_left_iff]
  refine List.Forall₂.imp (fun raw shred here => ?_) (mapM_ok_iff.mp read)
  cases parsed : SolanaLedger.newFromSerializedShred raw.bytes with
  | error e =>
    rw [parseShred, parsed] at here
    cases here
  | ok shred' =>
    rw [parseShred, parsed] at here
    cases here
    rw [readShred, parsed]
    rfl

/-- The completion groups of raw shreds. -/
def completionGroups (raws : List PacketInfo) : Except Stop (List (TreeMap UInt32 Shred)) := do
  let shredsForSlot ← (raws.map PacketView.bytes).foldlM addShred ∅
  recoverShredsAndGroupByCompletion shredsForSlot

theorem completionGroups_regular {raws : List PacketInfo} (read : raws.mapM parseShred = .ok shreds)
    (regular : Regular shreds data) :
    ∃ groups, completionGroups raws = .ok groups ∧ groups.map TreeMap.values = cutSets [] (setsOf shreds data) := by
  obtain ⟨partition, done, groups⟩ := groupByCompletion_regular regular
  refine ⟨partition.closed, ?_, groups⟩
  have gathered : (raws.map PacketView.bytes).foldlM addShred ∅ =
      .ok (gather Shred.fecSetIndex BatchMeta.add shreds) := by
    refine (foldlM_read (f := readShred) (g := add Shred.fecSetIndex BatchMeta.add) _ _).trans ?_
    rw [readShreds_eq read]
    rfl
  rw [completionGroups, gathered]
  exact congrArg (Except.map Partition.closed) done

theorem recoverDataShreds_regular {raws : List PacketInfo} (read : raws.mapM parseShred = .ok shreds)
    (regular : Regular shreds data) :
    recoverDataShreds raws = (setsOf shreds data).flatten.mapM packetInfoFromShred := by
  have sets : (gather Shred.fecSetIndex FecBatch.add shreds).keys = fecSets shreds := keys_gather (fun _ => Iff.rfl)
  have each : ∀ f ∈ fecSets shreds,
      (do (← (batch Shred.fecSetIndex FecBatch.add f shreds).recover).values.mapM packetInfoFromShred) =
        (ascendingShreds (data f)).mapM packetInfoFromShred := by
    intro f member
    have own : ∀ shred ∈ ofKey Shred.fecSetIndex f shreds, shred.fecSetIndex = f :=
      fun shred member => of_decide_eq_true (List.mem_filter.mp member).2
    obtain ⟨dataShreds, done, values⟩ := recover_eq own (regular.distinct.sublist (List.filter_sublist.map Shred.key)) (regular.recovers f member) (regular.once f member)
    rw [batch, done, ← values]
    rfl
  have values : (gather Shred.fecSetIndex FecBatch.add shreds).values =
      (fecSets shreds).map (fun f => batch Shred.fecSetIndex FecBatch.add f shreds) := by
    rw [values_gather, sets]
  rw [recoverDataShreds, batches_eq, read, ← mapM_flatten, setsOf, List.mapM_map]
  dsimp only [Except.map, bind, Except.bind]
  rw [values, List.mapM_map]
  exact congrArg (fun recovered : Except String (List (List PacketInfo)) => do return (← recovered).flatten)
    (mapM_congr each)

/-! ### Another order -/

omit [SolanaLedger] in
theorem ascendingShreds_perm {shreds shreds' : List Shred} (perm : shreds.Perm shreds')
    (once : (shreds.map Shred.index).Nodup) : ascendingShreds shreds' = ascendingShreds shreds := by
  have once' := (perm.map Shred.index).nodup_iff.mp once
  have indexed := indexed_extend indexed_empty shreds'
  refine values_eq_of_ascending (ascending_values (indexed_extend indexed_empty shreds)) (fun index shred => ?_)
  rw [mem_ascendingShreds once, perm.mem_iff, ← mem_ascendingShreds once' shred, ascendingShreds, mem_values indexed]
  constructor
  · intro found
    have own := indexed index shred found
    rw [own]
    exact ⟨found, rfl⟩
  · rintro ⟨found, rfl⟩
    exact found

theorem recoveredSet_agree (unordered : RecoversUnordered) {shreds shreds' : List Shred} (perm : shreds.Perm shreds') :
    Agree List.Perm (recoveredSet shreds) (recoveredSet shreds') := by
  have given : (dataOf shreds).Perm (dataOf shreds') := perm.filter _
  unfold recoveredSet
  rw [given.length_eq]
  split
  · refine agree_bind (recoverShreds_agree unordered perm) (fun recovered recovered' same => ?_)
    rw [same]
    refine agree_bind (agree_refl (R := Eq) (fun _ => rfl) _) (fun missing missing' here => agree_ok ?_)
    rw [here]
    exact given.append_left _
  · exact agree_ok given

/-- The same shreds in another order are a regular slot with the same sets. -/
theorem regular_perm (unordered : RecoversUnordered) {shreds' : List Shred} (perm : shreds.Perm shreds')
    (regular : Regular shreds data) :
    ∃ data', Regular shreds' data' ∧ setsOf shreds' data' = setsOf shreds data := by
  have sets : fecSets shreds' = fecSets shreds := keys_gather (fun _ => perm.mem_iff.symm)
  have each : ∀ f, ∃ shuffled, f ∈ fecSets shreds →
      recoveredSet (ofKey Shred.fecSetIndex f shreds') = .ok shuffled ∧ (data f).Perm shuffled := by
    intro f
    by_cases member : f ∈ fecSets shreds
    · have agree := recoveredSet_agree unordered (perm.filter (fun shred => shred.fecSetIndex = f))
      rw [show recoveredSet (shreds.filter (fun shred => shred.fecSetIndex = f)) = _ from regular.recovers f member] at agree
      cases there : recoveredSet (ofKey Shred.fecSetIndex f shreds') with
      | error e =>
        rw [show recoveredSet (shreds'.filter (fun shred => shred.fecSetIndex = f)) = _ from there] at agree
        exact agree.elim
      | ok shuffled =>
        rw [show recoveredSet (shreds'.filter (fun shred => shred.fecSetIndex = f)) = _ from there] at agree
        exact ⟨shuffled, fun _ => ⟨rfl, agree⟩⟩
    · exact ⟨[], fun present => absurd present member⟩
  choose data' known using each
  refine ⟨data', ?_, ?_⟩
  · constructor
    · exact (perm.map Shred.key).nodup_iff.mp regular.distinct
    · rw [sets]
      exact fun f member => (known f member).1
    · rw [sets]
      exact fun f member => ((known f member).2.map Shred.index).nodup_iff.mp (regular.once f member)
    · rw [sets]
      intro f member empty
      have whole := (known f member).2
      rw [empty] at whole
      exact regular.present f member whole.eq_nil
    · rw [sets]
      exact fun f member shred inside => regular.starts f member shred ((known f member).2.mem_iff.mpr inside)
    · rw [sets]
      exact fun f member g other less shred inside =>
        regular.stops f member g other less shred ((known f member).2.mem_iff.mpr inside)
    · rw [sets]
      exact fun f member shred inside complete other there =>
        regular.flags f member shred ((known f member).2.mem_iff.mpr inside) complete other
          ((known f member).2.mem_iff.mpr there)
    · rw [sets]
      intro f member highest
      obtain ⟨shred, inside, complete⟩ := regular.closes f member highest
      exact ⟨shred, (known f member).2.mem_iff.mp inside, complete⟩
  · rw [setsOf, setsOf, sets]
    exact List.map_congr_left (fun f member => ascendingShreds_perm (known f member).2 (regular.once f member))

/-- The completion groups are the data shreds, cut after each data-complete one, whatever the order they arrived in. -/
theorem completion_groups_partition (unordered : RecoversUnordered) (raws : List PacketInfo)
    (read : raws.mapM parseShred = .ok shreds) (regular : Regular shreds data) :
    ∃ groups, completionGroups raws = .ok groups ∧
      recoverDataShreds raws = (groups.flatMap TreeMap.values).mapM packetInfoFromShred ∧
      (groups.flatMap TreeMap.values).Pairwise (fun s t => s.index < t.index) ∧
      (∀ shred, shred ∈ groups.flatMap TreeMap.values ↔ ∃ f ∈ fecSets shreds, shred ∈ data f) ∧
      (∀ group ∈ groups, EndsOnce group.values) ∧
      ∀ raws' : List PacketInfo, raws.Perm raws' → ∃ groups', completionGroups raws' = .ok groups' ∧
        groups'.map TreeMap.values = groups.map TreeMap.values := by
  obtain ⟨groups, done, values⟩ := completionGroups_regular read regular
  have flat : groups.flatMap TreeMap.values = (setsOf shreds data).flatten := by
    rw [List.flatMap_def, values, flatten_groups regular]
  refine ⟨groups, done, ?_, ?_, ?_, ?_, ?_⟩
  · rw [flat]
    exact recoverDataShreds_regular read regular
  · rw [flat]
    exact ascending_setsOf regular
  · rw [flat]
    exact mem_setsOf regular
  · intro group member
    have unclosed : ∀ shred ∈ ([] : List Shred), shred.dataComplete = false :=
      fun shred none => (List.not_mem_nil none).elim
    have ends := endsOnce_cutSets unclosed (flags_setsOf regular)
    rw [← values] at ends
    exact ends _ (List.mem_map_of_mem member)
  · intro raws' perm
    have agree := agree_perm parseShred perm
    rw [read] at agree
    cases read' : raws'.mapM parseShred with
    | error e =>
      rw [read'] at agree
      exact agree.elim
    | ok shreds' =>
      rw [read'] at agree
      obtain ⟨data', regular', sets⟩ := regular_perm unordered agree regular
      obtain ⟨groups', done', values'⟩ := completionGroups_regular read' regular'
      exact ⟨groups', done', by rw [values', values, sets]⟩

end

/-! ### A set that lacks a data shred -/

def codedShreds : List Shred := (codedSet.mapM (@parseShred codedLedger)).toOption.getD []

def codedData (f : UInt32) : List Shred :=
  (@recoveredSet codedLedger (ofKey Shred.fecSetIndex f codedShreds)).toOption.getD []

theorem ok_of_toOption {ε α : Type} {a : Except ε α} {x : α} (there : a.toOption.isSome = true) :
    a = .ok (a.toOption.getD x) := by
  cases a with
  | error e => cases there
  | ok y => rfl

/-- The part of `Regular` that speaks of the data shreds of one set. -/
def regularSet (sets : List UInt32) (data : UInt32 → List Shred) (f : UInt32) : Bool :=
  decide ((data f).map Shred.index).Nodup && !(data f).isEmpty &&
    (data f).all (fun shred => decide (f ≤ shred.index)) &&
    sets.all (fun g => !decide (f < g) || (data f).all (fun shred => decide (shred.index < g))) &&
    (data f).all (fun shred => !shred.dataComplete || (data f).all (fun other => decide (other.index ≤ shred.index))) &&
    (!sets.all (fun g => decide (g ≤ f)) || (data f).any Shred.dataComplete)

theorem regular_of_sets [SolanaLedger] {shreds : List Shred} {data : UInt32 → List Shred}
    (distinct : (shreds.map Shred.key).Nodup)
    (recovers : ∀ f ∈ fecSets shreds, recoveredSet (ofKey Shred.fecSetIndex f shreds) = .ok (data f))
    (sets : (fecSets shreds).all (regularSet (fecSets shreds) data) = true) : Regular shreds data := by
  have each := List.all_eq_true.mp sets
  simp only [regularSet, Bool.and_eq_true, Bool.or_eq_true, Bool.not_eq_true', List.all_eq_true, List.any_eq_true,
    decide_eq_true_eq, decide_eq_false_iff_not, List.isEmpty_eq_false_iff] at each
  constructor
  · exact distinct
  · exact recovers
  · exact fun f member => (each f member).1.1.1.1.1
  · exact fun f member => (each f member).1.1.1.1.2
  · exact fun f member => (each f member).1.1.1.2
  · intro f member g other less
    exact ((each f member).1.1.2 g other).resolve_left (not_not_intro less)
  · intro f member shred inside complete
    refine ((each f member).1.2 shred inside).resolve_left (fun incomplete => ?_)
    rw [complete] at incomplete
    cases incomplete
  · intro f member highest
    refine (each f member).2.resolve_left (fun lower => ?_)
    rw [List.all_eq_true.mpr (fun g other => decide_eq_true (highest g other))] at lower
    cases lower

theorem regular_codedShreds : @Regular codedLedger codedShreds codedData := by
  have recovered : (fecSets codedShreds).all
      (fun f => (@recoveredSet codedLedger (ofKey Shred.fecSetIndex f codedShreds)).toOption.isSome) = true := by
    decide +kernel
  refine @regular_of_sets codedLedger codedShreds codedData (by decide +kernel) (fun f member => ?_) (by decide +kernel)
  exact ok_of_toOption (List.all_eq_true.mp recovered f member)

theorem completion_groups_codedSet :
    ∃ groups, @completionGroups codedLedger codedSet = .ok groups ∧
      (groups.flatMap TreeMap.values).Pairwise (fun s t => s.index < t.index) ∧
      (∀ group ∈ groups, EndsOnce group.values) := by
  have read : codedSet.mapM (@parseShred codedLedger) = .ok codedShreds := ok_of_toOption (by decide +kernel)
  obtain ⟨groups, done, _, ascending, _, ends, _⟩ :=
    @completion_groups_partition codedLedger codedShreds codedData recoversUnordered_codedLedger codedSet read
      regular_codedShreds
  exact ⟨groups, done, ascending, ends⟩

end Lightbringer.Util
