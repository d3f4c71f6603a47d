import Lightbringer.LeaderSchedule.Sync

/-!
# Schedules and epochs

Whether `store_leaders` is only called with a schedule and the start of the same epoch. Every answer of the node is
true of the moment it is given, and epochs may begin between any two.
-/

namespace Lightbringer.LeaderSchedule
open Machine

namespace Cluster

variable (cluster : Cluster)

/-- The start of an epoch, with the schedule of that epoch. -/
def Paired (schedule : RpcLeaderSchedule) (epochStartSlot : UInt64) : Prop :=
  cluster.epochStart epochStartSlot = epochStartSlot ∧ schedule = cluster.schedule epochStartSlot

theorem paired_epochStart_iff (schedule : RpcLeaderSchedule) (current : UInt64) :
    cluster.Paired schedule (cluster.epochStart current) ↔ schedule = cluster.scheduleOf current :=
  and_iff_right (cluster.start_of_start current)

/-- A slot and its leader in the schedule of its epoch. -/
def TruePair [PubkeyText] (pair : UInt64 × Pubkey) : Prop :=
  ∃ epochStartSlot, cluster.epochStart epochStartSlot = epochStartSlot ∧
    pair ∈ LeaderScheduleStore.scheduled (cluster.schedule epochStartSlot) epochStartSlot

/-- Where the step stores a schedule, the epoch it is of and the epoch the node was in when it described its epoch have
one schedule. -/
def NoBoundaryBetween (sync : LeaderScheduleSync) (event : Event) : Prop :=
  match sync.awaits, event with
  | .firstEpochInfo schedule, .answered (.up current) => schedule = cluster.scheduleOf current
  | .leaderSchedule slot epochInfo, .answered (.up _) => cluster.scheduleOf slot = cluster.scheduleOf epochInfo.absoluteSlot
  | _, _ => True

/-- Every call of `store_leaders` pairs a schedule with its epoch. -/
def AllPaired (outputs : List Output) : Prop :=
  ∀ schedule epochStartSlot, .stored schedule epochStartSlot ∈ outputs → cluster.Paired schedule epochStartSlot

@[simp] theorem allPaired_nil : cluster.AllPaired [] := by
  intro _ _ member
  cases member

theorem allPaired_append (out tail : List Output) :
    cluster.AllPaired (out ++ tail) ↔ cluster.AllPaired out ∧ cluster.AllPaired tail := by
  constructor
  · intro all
    constructor
    · exact fun schedule start member => all schedule start (List.mem_append_left _ member)
    · exact fun schedule start member => all schedule start (List.mem_append_right _ member)
  · rintro ⟨before, after⟩ schedule start member
    cases List.mem_append.mp member with
    | inl member => exact before schedule start member
    | inr member => exact after schedule start member

@[simp] theorem allPaired_returned (leader : Option Pubkey) : cluster.AllPaired [.returned leader] := by
  intro schedule start member
  simp at member

theorem allPaired_stored_iff (schedule : RpcLeaderSchedule) (start : UInt64) :
    cluster.AllPaired [.stored schedule start] ↔ cluster.Paired schedule start := by
  constructor
  · exact fun all => all schedule start (List.mem_singleton.mpr rfl)
  · rintro paired schedule' start' member
    cases List.mem_singleton.mp member
    exact paired

/-- The epoch info held across a call is the node's own. -/
def Informed (sync : LeaderScheduleSync) : Prop :=
  ∀ slot epochInfo, sync.awaits = .leaderSchedule slot epochInfo → epochInfo = cluster.epochInfo epochInfo.absoluteSlot

end Cluster

variable {cluster : Cluster} {sync : LeaderScheduleSync}

namespace LeaderScheduleSync

theorem lookup_awaits (slot : UInt64) :
    (sync.getLeaderForSlotEnsureSynced slot).1.awaits = sync.awaits ∨
      (sync.getLeaderForSlotEnsureSynced slot).1.awaits = .lookup ∨
      (sync.getLeaderForSlotEnsureSynced slot).1.awaits = .epochInfo slot := by
  unfold getLeaderForSlotEnsureSynced
  split
  · simp only [finish]
    split
    · exact .inr (.inl rfl)
    · split
      · exact .inr (.inl rfl)
      · exact .inr (.inr rfl)
  · exact .inl rfl

theorem lookup_out (slot : UInt64) :
    (sync.getLeaderForSlotEnsureSynced slot).2 = [] ∨
      ∃ leader, (sync.getLeaderForSlotEnsureSynced slot).2 = [.returned leader] := by
  unfold getLeaderForSlotEnsureSynced
  split
  · simp only [finish]
    split
    · exact .inr ⟨_, rfl⟩
    · split
      · exact .inr ⟨_, rfl⟩
      · exact .inl rfl
  · exact .inl rfl

end LeaderScheduleSync

variable [PubkeyText]

theorem informed_step (held : cluster.Informed sync) (event : Event) : cluster.Informed (step cluster sync event).1 := by
  cases event with
  | lookup slot =>
    intro slot' epochInfo awaits
    obtain same | idle | asking := sync.lookup_awaits slot
    · exact held slot' epochInfo (same ▸ awaits)
    · cases idle.symm.trans awaits
    · cases asking.symm.trans awaits
  | answered moment =>
    intro slot' epochInfo awaits
    unfold step at awaits
    cases waiting : sync.awaits with
    | firstSchedule =>
      cases moment <;> simp [waiting, Awaits.request, Cluster.answer, LeaderScheduleSync.resume] at awaits
    | firstEpochInfo schedule =>
      cases moment <;> simp [waiting, Awaits.request, Cluster.answer, LeaderScheduleSync.resume] at awaits
    | failed => simp [waiting, Awaits.request] at awaits
    | lookup => simp [waiting, Awaits.request] at awaits
    | epochInfo slot =>
      cases moment with
      | up current =>
        simp only [waiting, Awaits.request, Cluster.answer, LeaderScheduleSync.resume] at awaits
        split at awaits
        · cases waiting.symm.trans awaits
        · cases awaits
          rfl
      | null =>
        simp [waiting, Awaits.request, Cluster.answer, LeaderScheduleSync.resume] at awaits
      | failing failure =>
        simp only [waiting, Awaits.request, Cluster.answer, LeaderScheduleSync.resume] at awaits
        split at awaits
        · cases waiting.symm.trans awaits
        · cases awaits
    | leaderSchedule slot info =>
      cases moment <;>
        simp [waiting, Awaits.request, Cluster.answer, LeaderScheduleSync.resume, LeaderScheduleSync.finish] at awaits

/-- A step stores a true pairing exactly when no boundary came between. -/
theorem allPaired_step_iff (held : cluster.Informed sync) (event : Event) :
    cluster.AllPaired (step cluster sync event).2 ↔ cluster.NoBoundaryBetween sync event := by
  cases event with
  | lookup slot =>
    have quiet : cluster.AllPaired (step cluster sync (.lookup slot)).2 := by
      obtain silent | ⟨leader, returned⟩ := sync.lookup_out slot
      · simp [step, silent]
      · simp [step, returned]
    simp [quiet, Cluster.NoBoundaryBetween]
  | answered moment =>
    unfold step Cluster.NoBoundaryBetween
    cases waiting : sync.awaits with
    | firstSchedule =>
      cases moment <;> simp [Awaits.request, Cluster.answer, LeaderScheduleSync.resume, waiting]
    | firstEpochInfo schedule =>
      cases moment with
      | up current =>
        simp [Awaits.request, Cluster.answer, LeaderScheduleSync.resume, LeaderScheduleSync.storeLeaders, waiting,
          Cluster.allPaired_stored_iff, -Cluster.epochInfo_absoluteSlot, Cluster.paired_epochStart_iff]
      | null => simp [Awaits.request, Cluster.answer, LeaderScheduleSync.resume, waiting]
      | failing failure => simp [Awaits.request, Cluster.answer, LeaderScheduleSync.resume, waiting]
    | failed => simp [Awaits.request]
    | lookup => simp [Awaits.request]
    | epochInfo slot =>
      have quiet : ∀ answer, cluster.AllPaired (sync.resume (.epochInfo answer)).2 := by
        intro answer
        unfold LeaderScheduleSync.resume
        rw [waiting]
        rcases answer with failure | _ | info
        · by_cases early : failure = minContextSlotNotReached <;> simp [early, LeaderScheduleSync.finish]
        · simp
        · by_cases early : info.absoluteSlot < slot <;> simp [early]
      cases moment <;> simp [Awaits.request, Cluster.answer, quiet]
    | leaderSchedule slot info =>
      cases moment with
      | up current =>
        have own := held slot info waiting
        have start : info.absoluteSlot - info.slotIndex = cluster.epochStart info.absoluteSlot := by
          conv_lhs => rw [own]
          exact cluster.epochInfo_start _
        simp only [Awaits.request, Cluster.answer, LeaderScheduleSync.resume, LeaderScheduleSync.storeLeaders,
          LeaderScheduleSync.finish, waiting, start]
        rw [Cluster.allPaired_append, Cluster.allPaired_stored_iff, Cluster.paired_epochStart_iff]
        simp
      | null => simp [Awaits.request, Cluster.answer, LeaderScheduleSync.resume, waiting]
      | failing failure =>
        simp [Awaits.request, Cluster.answer, LeaderScheduleSync.resume, LeaderScheduleSync.finish, waiting]

theorem allPaired_run_iff (held : cluster.Informed sync) (events : List Event) :
    cluster.AllPaired (run (step cluster) sync events).2 ↔
      Meets (step cluster) cluster.NoBoundaryBetween sync events := by
  induction events generalizing sync with
  | nil => simp
  | cons event rest ih =>
    rw [run_cons, Cluster.allPaired_append, meets_cons, allPaired_step_iff held, ih (informed_step held event)]

/-! ### Where the stored pairs come from -/

omit [PubkeyText] in
theorem mem_foldl_push {pairs : List (UInt64 × Pubkey)} {store : LeaderScheduleStore} {pair : UInt64 × Pubkey}
    (member : pair ∈ (pairs.foldl (fun store (slot, leader) => store.push slot leader) store).leaders.entries) :
    pair ∈ pairs ∨ pair ∈ store.leaders.entries := by
  induction pairs generalizing store with
  | nil => exact .inr member
  | cons first rest ih =>
    obtain later | before := ih member
    · exact .inl (List.mem_cons_of_mem _ later)
    · obtain new | old := Lru.mem_of_mem_push before
      · exact .inl (new ▸ List.mem_cons_self ..)
      · exact .inr old

omit [PubkeyText] in
theorem stored_lookup {slot : UInt64} {pair : UInt64 × Pubkey}
    (member : pair ∈ (sync.getLeaderForSlotEnsureSynced slot).1.store.leaders.entries) :
    pair ∈ sync.store.leaders.entries := by
  unfold LeaderScheduleSync.getLeaderForSlotEnsureSynced at member
  split at member
  · apply Lru.mem_of_mem_get (k := slot)
    simp only [Lru.get_value, LeaderScheduleSync.finish] at member
    split at member
    · exact member
    · split at member
      · exact member
      · exact member
  · exact member

theorem stored_resume {answer : Answer} {pair : UInt64 × Pubkey}
    (member : pair ∈ (sync.resume answer).1.store.leaders.entries) :
    pair ∈ sync.store.leaders.entries ∨ ∃ schedule epochStartSlot,
      .stored schedule epochStartSlot ∈ (sync.resume answer).2 ∧
        pair ∈ LeaderScheduleStore.scheduled schedule epochStartSlot := by
  obtain ⟨store, awaits⟩ := sync
  cases awaits with
  | firstSchedule =>
    rcases answer with _ | (_ | _ | _) <;> exact .inl member
  | firstEpochInfo schedule =>
    rcases answer with (_ | _ | info) | _
    · exact .inl member
    · exact .inl member
    · obtain new | old := mem_foldl_push member
      · exact .inr ⟨_, _, List.mem_singleton.mpr rfl, new⟩
      · exact .inl old
    · exact .inl member
  | failed => exact .inl member
  | lookup => exact .inl member
  | epochInfo slot =>
    left
    rcases answer with (failure | _ | info) | _
    · by_cases early : failure = minContextSlotNotReached <;>
        simpa [LeaderScheduleSync.resume, early, LeaderScheduleSync.finish] using member
    · exact member
    · by_cases early : info.absoluteSlot < slot <;> simpa [LeaderScheduleSync.resume, early] using member
    · exact member
  | leaderSchedule slot info =>
    rcases answer with _ | (_ | _ | schedule)
    · exact .inl member
    · exact .inl member
    · exact .inl member
    · obtain new | old := mem_foldl_push (Lru.mem_of_mem_get member)
      · exact .inr ⟨_, _, List.mem_cons_self .., new⟩
      · exact .inl old

/-- A stored pair was stored before or is of a schedule that the step stores. -/
theorem stored_step {event : Event} {pair : UInt64 × Pubkey}
    (member : pair ∈ (step cluster sync event).1.store.leaders.entries) :
    pair ∈ sync.store.leaders.entries ∨ ∃ schedule epochStartSlot,
      .stored schedule epochStartSlot ∈ (step cluster sync event).2 ∧
        pair ∈ LeaderScheduleStore.scheduled schedule epochStartSlot := by
  cases event with
  | lookup slot => exact .inl (stored_lookup member)
  | answered moment =>
    unfold step at member ⊢
    cases waiting : sync.awaits.request with
    | none =>
      simp only [waiting] at member
      exact .inl member
    | some request =>
      simp only [waiting] at member
      exact stored_resume member

theorem stored_run {events : List Event} {pair : UInt64 × Pubkey}
    (member : pair ∈ (run (step cluster) sync events).1.store.leaders.entries) :
    pair ∈ sync.store.leaders.entries ∨ ∃ schedule epochStartSlot,
      .stored schedule epochStartSlot ∈ (run (step cluster) sync events).2 ∧
        pair ∈ LeaderScheduleStore.scheduled schedule epochStartSlot := by
  induction events generalizing sync with
  | nil => exact .inl member
  | cons event rest ih =>
    rw [run_cons] at member ⊢
    obtain here | ⟨schedule, start, stored, listed⟩ := ih member
    · obtain before | ⟨schedule, start, stored, listed⟩ := stored_step here
      · exact .inl before
      · exact .inr ⟨schedule, start, List.mem_append_left _ stored, listed⟩
    · exact .inr ⟨schedule, start, List.mem_append_right _ stored, listed⟩

theorem truePair_of_allPaired {events : List Event} (paired : cluster.AllPaired (run (step cluster) .new events).2)
    {pair : UInt64 × Pubkey} (member : pair ∈ (run (step cluster) .new events).1.store.leaders.entries) :
    cluster.TruePair pair := by
  obtain before | ⟨schedule, start, stored, listed⟩ := stored_run member
  · cases before
  · obtain ⟨own, same⟩ := paired schedule start stored
    exact ⟨start, own, same ▸ listed⟩

omit [PubkeyText] in
theorem informed_new : cluster.Informed .new := by
  intro slot epochInfo awaits
  cases awaits

/-- In a run `store_leaders` pairs every schedule with its epoch exactly when no epoch with another schedule begins
between the slot a schedule is for and the node's description of its epoch; and then every pair that is ever held is one
of the true schedule. -/
theorem leaders_paired_iff (cluster : Cluster) (events : List Event) :
    (cluster.AllPaired (run (step cluster) .new events).2 ↔
        Meets (step cluster) cluster.NoBoundaryBetween .new events) ∧
      (cluster.AllPaired (run (step cluster) .new events).2 →
        ∀ pair ∈ (run (step cluster) .new events).1.store.leaders.entries, cluster.TruePair pair) :=
  ⟨allPaired_run_iff informed_new events, fun paired _ member => truePair_of_allPaired paired member⟩

omit [PubkeyText] in
/-- The schedule is fetched in the last slot of an epoch and the epoch info in the first slot of the next. -/
theorem boundary_between_first_calls :
    ¬ usualCluster.AllPaired (run (@step base58Text usualCluster) .new [.answered (.up 431999), .answered (.up 432000)]).2 := by
  intro paired
  have stored : (run (@step base58Text usualCluster) .new [.answered (.up 431999), .answered (.up 432000)]).2 =
      [.stored (usualCluster.schedule 0) 432000] := rfl
  rw [stored, Cluster.allPaired_stored_iff] at paired
  have leaders := congrArg (List.map Prod.fst) paired.2
  revert leaders
  simp only [usualCluster, List.map_cons, List.map_nil]
  decide

end Lightbringer.LeaderSchedule
