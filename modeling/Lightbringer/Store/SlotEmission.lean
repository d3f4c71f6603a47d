import Lightbringer.Store.SlotRun
import Lightbringer.Lib.Grouping

/-!
# What a slot entry hands on

Over the whole life of an entry a FEC set goes to the store at most once and whole, and the shreds drained when
the slot completes are exactly those recorded.
-/

namespace Lightbringer.Store
open Std Machine SlotMetadata

/-- The batch a result sends to the store. -/
def SlotMetaStoreRes.storeBatch : SlotMetaStoreRes → Option BatchRaw
  | .complete storeBatch _ => some storeBatch
  | .batchComplete batch => some batch
  | .incomplete | .ignored => none

def SlotMetaStoreRes.isComplete : SlotMetaStoreRes → Bool
  | .complete _ _ => true
  | _ => false

/-- The call hands the FEC set of its shred to the store. `Complete` may carry an empty batch. -/
def Stored.emits (o : Stored) : Bool := o.result.storeBatch.any (fun batch => !batch.shreds.isEmpty)

def emittedSets (out : List Stored) : List UInt32 := (out.filter (·.emits)).map (·.arrival.fec)

/-- The arrivals of a FEC set that were recorded, in order. -/
def recordedIn (out : List Stored) (f : UInt32) : List Arrival :=
  (out.filter (fun o => o.recorded && o.arrival.fec == f)).map (·.arrival)

def recordedShreds (out : List Stored) : List PacketInfo := (out.filter (·.recorded)).map (·.arrival.shred)

section

variable (out : List Stored) (o : Stored)

theorem emittedSets_concat :
    emittedSets (out ++ [o]) = if o.emits then emittedSets out ++ [o.arrival.fec] else emittedSets out := by
  cases emits : o.emits <;> simp [emittedSets, emits]

theorem recordedIn_concat (f : UInt32) :
    recordedIn (out ++ [o]) f =
      if o.recorded ∧ o.arrival.fec = f then recordedIn out f ++ [o.arrival] else recordedIn out f := by
  by_cases here : o.recorded = true ∧ o.arrival.fec = f
  · simp [recordedIn, here]
  · rw [if_neg here]
    have skipped : (o.recorded && o.arrival.fec == f) = false := by
      simpa using here
    simp [recordedIn, skipped]

theorem recordedShreds_concat :
    recordedShreds (out ++ [o]) =
      if o.recorded then recordedShreds out ++ [o.arrival.shred] else recordedShreds out := by
  cases recorded : o.recorded <;> simp [recordedShreds, recorded]

end

/-- The entry holds exactly what the calls so far recorded and did not drain. -/
structure Conserved (out : List Stored) (m : SlotMetadata) : Prop where
  ids : ∀ f, m.shredIds f = ((recordedIn out f).map Arrival.id).toFinset
  distinct : ∀ f, ((recordedIn out f).map Arrival.id).Nodup
  emitted : ∀ f, f ∈ m.completedBatches ↔ f ∈ emittedSets out
  once : (emittedSets out).Nodup
  short : ∀ f ∉ m.completedBatches, (recordedIn out f).length < dataShredsPerFecSet
  buffered : m.isComplete = false → ∀ f,
    Grouping.group m.batchShreds f = (recordedIn out f).map (·.shred)
  drains : m.isComplete = false → m.allShreds.Perm (recordedShreds out)
  finished : ∀ o ∈ out, o.result.isComplete = true → m.isComplete = true

/-- What a call may do after the calls in `before`. -/
structure Emission (before : List Stored) (o : Stored) : Prop where
  batch : ∀ batch, o.result.storeBatch = some batch → batch.shreds ≠ [] →
    o.arrival.fec ∉ emittedSets before ∧
    batch.shreds = (recordedIn (before ++ [o]) o.arrival.fec).map (·.shred) ∧
    (recordedIn (before ++ [o]) o.arrival.fec).length = dataShredsPerFecSet ∧
    ((recordedIn (before ++ [o]) o.arrival.fec).map Arrival.id).Nodup
  afterwards : (∃ p ∈ before, p.result.isComplete = true) → o.result = .ignored
  grpc : ∀ storeBatch grpcSlot, o.result = .complete storeBatch grpcSlot →
    grpcSlot.shreds.Perm (recordedShreds (before ++ [o]))
  late : o.arrival.fec ∈ emittedSets before → o.recorded = false

theorem conserved_new (slot : UInt64) (createdMs : Nat) : Conserved [] (SlotMetadata.new slot createdMs) where
  ids _ := rfl
  distinct _ := List.nodup_nil
  emitted f := by simp [SlotMetadata.new, emittedSets]
  once := List.nodup_nil
  short _ _ := (by decide : 0 < dataShredsPerFecSet)
  buffered _ f := by simp [SlotMetadata.new, Grouping.group, recordedIn]
  drains _ := .refl _
  finished o member := by simp at member

/-- A call that neither records nor emits keeps conservation. -/
theorem conserved_skip {out : List Stored} {m after : SlotMetadata} {o : Stored} (held : Conserved out m)
    (recorded : o.recorded = false) (emits : o.emits = false)
    (ids : ∀ f, after.shredIds f = m.shredIds f) (completed : after.completedBatches = m.completedBatches)
    (buffers : after.isComplete = true ∨ m.isComplete = false ∧ after.batchShreds = m.batchShreds)
    (finished : ∀ p ∈ out ++ [o], p.result.isComplete = true → after.isComplete = true) :
    Conserved (out ++ [o]) after := by
  have records : ∀ f, recordedIn (out ++ [o]) f = recordedIn out f := by
    intro f
    rw [recordedIn_concat, if_neg (by simp [recorded])]
  have sets : emittedSets (out ++ [o]) = emittedSets out := by rw [emittedSets_concat, if_neg (by simp [emits])]
  have open' : after.isComplete = false → m.isComplete = false ∧ after.batchShreds = m.batchShreds := by
    intro unfinished
    rcases buffers with done | same
    · rw [unfinished] at done
      cases done
    · exact same
  refine ⟨?_, ?_, ?_, ?_, ?_, ?_, ?_, finished⟩
  · intro f
    rw [ids, records, held.ids]
  · intro f
    rw [records]
    exact held.distinct f
  · intro f
    rw [completed, sets]
    exact held.emitted f
  · rw [sets]
    exact held.once
  · intro f absent
    rw [completed] at absent
    rw [records]
    exact held.short f absent
  · intro unfinished f
    obtain ⟨before, same⟩ := open' unfinished
    rw [same, records]
    exact held.buffered before f
  · intro unfinished
    obtain ⟨before, same⟩ := open' unfinished
    rw [recordedShreds_concat, if_neg (by simp [recorded])]
    unfold allShreds
    rw [same]
    exact held.drains before

section

variable [ShredLayout] {out : List Stored} {m : SlotMetadata} {a : Arrival}

/-- The FEC set of a recorded shred counts one more, which is at most 32. -/
theorem absorb_batchCount (held : Conserved out m) (fresh : m.Fresh a) :
    (m.absorb a).batchCount a.fec = (recordedIn out a.fec).length + 1 := by
  have count : (m.shredIds a.fec).card = (recordedIn out a.fec).length := by
    rw [held.ids, List.toFinset_card_of_nodup (held.distinct _), List.length_map]
  rw [← card_shredIds, absorb_shredIds, if_pos rfl, Finset.card_insert_of_notMem fresh.2, count]

omit [ShredLayout] in
theorem none_finished (held : Conserved out m) (unfinished : m.isComplete = false) :
    ¬ ∃ p ∈ out, p.result.isComplete = true := by
  rintro ⟨p, member, complete⟩
  have done := held.finished p member complete
  rw [unfinished] at done
  cases done

omit [ShredLayout] in
theorem recordedIn_fresh {o : Stored} (arrival : o.arrival = a) (recorded : o.recorded = true) (f : UInt32) :
    recordedIn (out ++ [o]) f = if a.fec = f then recordedIn out f ++ [a] else recordedIn out f := by
  rw [recordedIn_concat, arrival]
  simp [recorded]

/-- A recorded shred, whether or not the entry is drained right after it. -/
theorem conserved_absorb {after : SlotMetadata} {o : Stored} (held : Conserved out m)
    (unfinished : m.isComplete = false) (fresh : m.Fresh a) (arrival : o.arrival = a)
    (recorded : o.recorded = true)
    (emits : o.emits = true ↔ dataShredsPerFecSet ≤ (m.absorb a).batchCount a.fec)
    (ids : ∀ f, after.shredIds f = (m.absorb a).shredIds f)
    (completed : after.completedBatches = (m.absorb a).completedBatches)
    (buffers : after.isComplete = true ∨ after.batchShreds = (m.absorb a).batchShreds)
    (finished : o.result.isComplete = true → after.isComplete = true) :
    Conserved (out ++ [o]) after := by
  have unseen : a.id ∉ (recordedIn out a.fec).map Arrival.id := by
    intro member
    apply fresh.2
    rw [held.ids]
    exact List.mem_toFinset.mpr member
  have sets : emittedSets (out ++ [o]) =
      if dataShredsPerFecSet ≤ (m.absorb a).batchCount a.fec then emittedSets out ++ [a.fec]
      else emittedSets out := by
    rw [emittedSets_concat, arrival]
    simp only [emits]
  have same : after.isComplete = false → after.batchShreds = Grouping.push m.batchShreds a.fec a.shred := by
    intro open'
    rcases buffers with done | same
    · rw [open'] at done
      cases done
    · rw [same, absorb_batchShreds]
      rfl
  refine ⟨?_, ?_, ?_, ?_, ?_, ?_, ?_, ?_⟩
  · intro f
    rw [ids, absorb_shredIds, recordedIn_fresh arrival recorded, held.ids]
    split
    · ext id
      simp
    · rfl
  · intro f
    rw [recordedIn_fresh arrival recorded]
    split
    next here =>
      subst here
      rw [List.map_append]
      exact List.nodup_append.mpr ⟨held.distinct _, List.nodup_singleton _, by
        intro id member other single
        rw [List.map_singleton, List.mem_singleton] at single
        rintro rfl
        exact unseen (single ▸ member)⟩
    next => exact held.distinct f
  · intro f
    rw [completed, absorb_completedBatches, sets]
    split
    · rw [Finset.mem_insert, List.mem_append, List.mem_singleton, held.emitted, or_comm]
    · exact held.emitted f
  · rw [sets]
    split
    · have unemitted : a.fec ∉ emittedSets out := fun member => fresh.1 ((held.emitted _).mpr member)
      exact List.nodup_append.mpr ⟨held.once, List.nodup_singleton _, by
        intro f member other single
        rw [List.mem_singleton] at single
        rintro rfl
        exact unemitted (single ▸ member)⟩
    · exact held.once
  · intro f absent
    rw [completed, absorb_completedBatches] at absent
    rw [recordedIn_fresh arrival recorded]
    by_cases here : a.fec = f
    · subst here
      rw [if_pos rfl, List.length_append, List.length_singleton, ← absorb_batchCount held fresh]
      split at absent
      · simp at absent
      · omega
    · rw [if_neg here]
      apply held.short
      split at absent
      · exact fun member => absent (Finset.mem_insert_of_mem member)
      · exact absent
  · intro open' f
    rw [same open', Grouping.group_push, recordedIn_fresh arrival recorded, held.buffered unfinished]
    split
    · rw [List.map_append, List.map_singleton]
    · rfl
  · intro open'
    have pushed := Grouping.drain_push_perm m.batchShreds a.fec a.shred
    rw [recordedShreds_concat, if_pos recorded, arrival]
    unfold allShreds
    rw [same open']
    exact pushed.trans ((held.drains unfinished).append_right _)
  · intro p member complete
    rcases List.mem_append.mp member with old | last
    · exact absurd ⟨p, old, complete⟩ (none_finished held unfinished)
    · rw [List.mem_singleton] at last
      subst last
      exact finished complete

/-- The batch a recorded shred hands on: empty, or its whole FEC set. -/
theorem closedShreds_eq (held : Conserved out m) (unfinished : m.isComplete = false) :
    m.closedShreds a =
      if dataShredsPerFecSet ≤ (m.absorb a).batchCount a.fec then
        (recordedIn out a.fec ++ [a]).map (·.shred)
      else [] := by
  have buffer : ((m.absorb a).batchShreds[a.fec]?).getD [] = (recordedIn out a.fec ++ [a]).map (·.shred) := by
    rw [absorb_batchShreds]
    have pushed := Grouping.group_push m.batchShreds a.fec a.fec a.shred
    rw [if_pos rfl, held.buffered unfinished] at pushed
    rw [List.map_append, List.map_singleton]
    exact pushed
  unfold closedShreds
  rw [buffer]

theorem storeStep_skipped {after : SlotMetadata} {result : SlotMetaStoreRes}
    (h : m.storeShred a.timestampMs a.hdr a.shred = (after, result))
    (same : after.shredIds a.fec = m.shredIds a.fec) : storeStep m a = (after, [⟨a, false, result⟩]) := by
  simp [storeStep, h, same]

theorem storeStep_recorded {after : SlotMetadata} {result : SlotMetaStoreRes}
    (h : m.storeShred a.timestampMs a.hdr a.shred = (after, result)) (inside : a.id ∈ after.shredIds a.fec)
    (unseen : a.id ∉ m.shredIds a.fec) : storeStep m a = (after, [⟨a, true, result⟩]) := by
  simp [storeStep, h, inside, unseen]

omit [ShredLayout] in
theorem emission_ignored {o : Stored} (recorded : o.recorded = false) (result : o.result = .ignored) :
    Emission out o where
  batch batch sent := by simp [result, SlotMetaStoreRes.storeBatch] at sent
  afterwards _ := result
  grpc storeBatch grpcSlot complete := by simp [result] at complete
  late _ := recorded

/-- An ignored shred changes at most what is known of the required batches. -/
theorem carry_ignored {after : SlotMetadata} (held : Conserved out m)
    (after_eq : after = m ∨ m.isComplete = false ∧ after = m.learnRequired a.hdr a.shred)
    (h : m.storeShred a.timestampMs a.hdr a.shred = (after, .ignored)) :
    Conserved (out ++ (storeStep m a).2) (storeStep m a).1 ∧ ∀ o ∈ (storeStep m a).2, Emission out o := by
  have ids : ∀ f, after.shredIds f = m.shredIds f := by
    rcases after_eq with rfl | ⟨_, rfl⟩
    · exact fun _ => rfl
    · exact learnRequired_shredIds m a.hdr a.shred
  have completed : after.completedBatches = m.completedBatches := by
    rcases after_eq with rfl | ⟨_, rfl⟩
    · rfl
    · exact learnRequired_completedBatches m a.hdr a.shred
  rw [storeStep_skipped h (ids a.fec)]
  refine ⟨conserved_skip held rfl rfl ids completed ?_ ?_, ?_⟩
  · rcases after_eq with rfl | ⟨unfinished, rfl⟩
    · cases done : after.isComplete
      · exact .inr ⟨rfl, rfl⟩
      · exact .inl rfl
    · exact .inr ⟨unfinished, learnRequired_batchShreds m a.hdr a.shred⟩
  · intro p member complete
    rcases List.mem_append.mp member with old | last
    · rcases after_eq with rfl | ⟨unfinished, _⟩
      · exact held.finished p old complete
      · exact absurd ⟨p, old, complete⟩ (none_finished held unfinished)
    · rw [List.mem_singleton] at last
      subst last
      cases complete
  · intro o member
    rw [List.mem_singleton] at member
    subst member
    exact emission_ignored rfl rfl

/-- A shred of a completed batch that makes the slot complete is not recorded, and the slot is drained. -/
theorem carry_late (held : Conserved out m) (unfinished : m.isComplete = false)
    (done : (m.learnRequired a.hdr a.shred).isComplete = true)
    (h : m.storeShred a.timestampMs a.hdr a.shred =
      (m.learnRequired a.hdr a.shred).makeComplete { shreds := [], slot := a.hdr.slot }) :
    Conserved (out ++ (storeStep m a).2) (storeStep m a).1 ∧ ∀ o ∈ (storeStep m a).2, Emission out o := by
  rw [makeComplete_eq] at h
  have ids := learnRequired_shredIds m a.hdr a.shred
  rw [storeStep_skipped h (ids a.fec)]
  have drained : (m.learnRequired a.hdr a.shred).allShreds.Perm (recordedShreds out) := by
    unfold allShreds
    rw [learnRequired_batchShreds]
    exact held.drains unfinished
  refine ⟨conserved_skip held rfl rfl ids ?_ (.inl done) (fun _ _ _ => done), ?_⟩
  · exact learnRequired_completedBatches m a.hdr a.shred
  · intro p member
    rw [List.mem_singleton] at member
    subst member
    refine ⟨?_, ?_, ?_, fun _ => rfl⟩
    · intro batch sent nonempty
      cases sent
      exact absurd rfl nonempty
    · exact fun complete => absurd complete (none_finished held unfinished)
    · intro storeBatch grpcSlot complete
      cases complete
      rw [recordedShreds_concat, if_neg (by simp)]
      exact drained

theorem carry_fresh (held : Conserved out m) (unfinished : m.isComplete = false) (fresh : m.Fresh a)
    {after : SlotMetadata} {result : SlotMetaStoreRes}
    (h : m.storeShred a.timestampMs a.hdr a.shred = (after, result))
    (ids : ∀ f, after.shredIds f = (m.absorb a).shredIds f)
    (completed : after.completedBatches = (m.absorb a).completedBatches)
    (buffers : after.isComplete = true ∨ after.batchShreds = (m.absorb a).batchShreds)
    (finished : result.isComplete = true → after.isComplete = true)
    (sent : ∀ batch, result.storeBatch = some batch → batch.shreds = m.closedShreds a)
    (closes : dataShredsPerFecSet ≤ (m.absorb a).batchCount a.fec → result.storeBatch ≠ none)
    (grpc : ∀ storeBatch grpcSlot, result = .complete storeBatch grpcSlot →
      grpcSlot.shreds = (m.absorb a).allShreds) :
    Conserved (out ++ (storeStep m a).2) (storeStep m a).1 ∧ ∀ o ∈ (storeStep m a).2, Emission out o := by
  have inside : a.id ∈ after.shredIds a.fec := by
    rw [ids, absorb_shredIds, if_pos rfl]
    exact Finset.mem_insert_self _ _
  rw [storeStep_recorded h inside fresh.2]
  have shreds := closedShreds_eq held unfinished (a := a)
  have emits : (⟨a, true, result⟩ : Stored).emits = true ↔
      dataShredsPerFecSet ≤ (m.absorb a).batchCount a.fec := by
    cases batch : result.storeBatch with
    | none =>
      have short : ¬ dataShredsPerFecSet ≤ (m.absorb a).batchCount a.fec := fun full => closes full batch
      simp [Stored.emits, batch, short]
    | some batch' =>
      simp only [Stored.emits, batch, Option.any_some, sent batch' batch, shreds]
      split
      next full => simp [full]
      next short => simp [short]
  refine ⟨conserved_absorb held unfinished fresh rfl rfl emits ids completed buffers finished, ?_⟩
  intro o member
  rw [List.mem_singleton] at member
  subst member
  have records : recordedIn (out ++ [⟨a, true, result⟩]) a.fec = recordedIn out a.fec ++ [a] := by
    rw [recordedIn_fresh rfl rfl, if_pos rfl]
  have kept := conserved_absorb held unfinished fresh rfl rfl emits ids completed buffers finished
  have unemitted : a.fec ∉ emittedSets out := fun earlier => fresh.1 ((held.emitted _).mpr earlier)
  refine ⟨?_, ?_, ?_, ?_⟩
  · intro batch present nonempty
    rw [sent batch present, shreds] at nonempty ⊢
    split at nonempty
    next full =>
      have count := absorb_batchCount held fresh
      have below := held.short _ fresh.1
      refine ⟨unemitted, ?_, ?_, kept.distinct _⟩
      · rw [if_pos full, records]
      · rw [records, List.length_append, List.length_singleton]
        omega
    next => exact absurd rfl nonempty
  · exact fun complete => absurd complete (none_finished held unfinished)
  · intro storeBatch grpcSlot complete
    rw [grpc storeBatch grpcSlot complete, recordedShreds_concat, if_pos rfl]
    unfold allShreds
    rw [absorb_batchShreds]
    exact (Grouping.drain_push_perm m.batchShreds a.fec a.shred).trans
      ((held.drains unfinished).append_right _)
  · exact fun earlier => absurd earlier unemitted

/-- Every call keeps conservation and emits as it may. -/
theorem conserved_step (held : Conserved out m) (a : Arrival) :
    Conserved (out ++ (storeStep m a).2) (storeStep m a).1 ∧ ∀ o ∈ (storeStep m a).2, Emission out o := by
  cases before : m.isComplete with
  | true => exact carry_ignored held (.inl rfl) (storeShred_frozen before)
  | false =>
    by_cases late : m.Late a
    · have h := storeShred_late before late
      split at h
      next done => exact carry_late held before done h
      next => exact carry_ignored held (.inr ⟨before, rfl⟩) h
    by_cases seen : a.id ∈ m.shredIds a.fec
    · exact carry_ignored held (.inr ⟨before, rfl⟩) (storeShred_duplicate before late seen)
    have fresh : m.Fresh a := ⟨late, seen⟩
    have h := storeShred_fresh before fresh
    split at h
    next done =>
      rw [makeComplete_eq] at h
      refine carry_fresh held before fresh h (fun _ => rfl) rfl (.inl done) (fun _ => done) ?_ ?_ ?_
      · rintro batch ⟨⟩
        rfl
      · exact fun _ => Option.some_ne_none _
      · rintro storeBatch grpcSlot ⟨⟩
        rfl
    split at h
    · refine carry_fresh held before fresh h (fun _ => rfl) rfl (.inr rfl) ?_ ?_ ?_ ?_
      · intro complete
        cases complete
      · rintro batch ⟨⟩
        rfl
      · exact fun _ => Option.some_ne_none _
      · intro storeBatch grpcSlot complete
        cases complete
    next short =>
      refine carry_fresh held before fresh h (fun _ => rfl) rfl (.inr rfl) ?_ ?_ ?_ ?_
      · intro complete
        cases complete
      · intro batch sent
        cases sent
      · exact fun full => absurd full short
      · intro storeBatch grpcSlot complete
        cases complete

/-- Over the life of an entry: every FEC set goes to the store at most once and then as its 32 distinct shreds; after
`Complete` every shred is ignored; the shreds sent on with `Complete` are those recorded so far, each once; and
a shred of a FEC set already handed on is never recorded. -/
theorem slot_emissions (slot : UInt64) (createdMs : Nat) (arrivals : List Arrival) :
    let out := (slotRun slot createdMs arrivals).2
    out.map (·.arrival) = arrivals ∧ (emittedSets out).Nodup ∧ Prefixwise Emission out := by
  have history := @run_history _ _ _ storeStep (fun _ _ => True) (SlotMetadata.new slot createdMs)
    (fun xs m out => Conserved out m ∧ out.map (·.arrival) = xs ∧ Prefixwise Emission out)
    ⟨conserved_new slot createdMs, rfl, prefixwise_nil⟩
    (by
      intro xs m out a held _
      obtain ⟨conserved, inputs, earlier⟩ := held
      obtain ⟨kept, emission⟩ := conserved_step conserved a
      refine ⟨kept, ?_, ?_⟩
      · rw [List.map_append, inputs]
        rfl
      · exact prefixwise_concat earlier (emission _ (List.mem_singleton_self _)))
    arrivals (meets_true arrivals)
  exact ⟨history.2.1, history.1.once, history.2.2⟩

end

end Lightbringer.Store
