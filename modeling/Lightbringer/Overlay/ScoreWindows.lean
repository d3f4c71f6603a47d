import Mathlib.Data.List.Perm.Subperm
import Mathlib.Logic.Function.Basic
import Mathlib.Order.Basic
import Lightbringer.Lib.Machine
import Lightbringer.Overlay.PeerSample

/-!
# The windows that peers are scored by

The counters of a peer start again at every hundredth request, while requests of the old window still are in flight. They
are right exactly if each timeout comes within the window of its request; a later one is charged to the next window.
-/

namespace Lightbringer.Overlay
open Std Machine

/-! ### Windows -/

/-- The requests of a peer since its counters last started, and those of them that have timed out. -/
structure ScoreWindow where
  sent : List ℕ
  timedOut : List ℕ

namespace ScoreWindow

def new : ScoreWindow := ⟨[], []⟩

/-- The request that fills the window closes it. -/
def request (window : ScoreWindow) (id : ℕ) : ScoreWindow :=
  if window.sent.length + 1 < loadWindow.toNat then { window with sent := window.sent ++ [id] } else new

/-- Only requests of the window count. -/
def timeout (window : ScoreWindow) (id : ℕ) : ScoreWindow :=
  if id ∈ window.sent then { window with timedOut := window.timedOut ++ [id] } else window

/-- More than half of at least ten requests timed out. -/
def Failing (window : ScoreWindow) : Prop :=
  hardFilterMinSamples.toNat ≤ window.sent.length ∧ window.sent.length < 2 * window.timedOut.length

structure WellFormed (window : ScoreWindow) : Prop where
  short : window.sent.length < loadWindow.toNat
  once : window.timedOut.Nodup
  own : ∀ id ∈ window.timedOut, id ∈ window.sent

variable {window : ScoreWindow} {id : ℕ}

theorem wellFormed_new : new.WellFormed := ⟨by decide, List.nodup_nil, nofun⟩

theorem WellFormed.request (h : window.WellFormed) (id : ℕ) : (window.request id).WellFormed := by
  unfold ScoreWindow.request
  split
  next room =>
    refine ⟨by simpa using room, h.once, fun other member => ?_⟩
    exact List.mem_append_left _ (h.own other member)
  next => exact wellFormed_new

theorem WellFormed.timeout (h : window.WellFormed) (fresh : id ∉ window.timedOut) : (window.timeout id).WellFormed := by
  unfold ScoreWindow.timeout
  split
  next sent =>
    refine ⟨h.short, ?_, fun other member => ?_⟩
    · rw [List.nodup_append]
      refine ⟨h.once, List.nodup_singleton id, fun other member last equal same => ?_⟩
      exact fresh (by rw [← List.mem_singleton.mp equal, ← same]; exact member)
    · rcases List.mem_append.mp member with before | here
      · exact h.own other before
      · rwa [List.mem_singleton.mp here]
  next => exact h

theorem WellFormed.length_le (h : window.WellFormed) : window.timedOut.length ≤ window.sent.length :=
  (List.subperm_of_subset h.once h.own).length_le

theorem mem_timedOut_request {other : ℕ} (member : other ∈ (window.request id).timedOut) : other ∈ window.timedOut := by
  unfold request at member
  split at member
  · exact member
  · cases member

theorem mem_timedOut_timeout {other : ℕ} (member : other ∈ (window.timeout id).timedOut) :
    other ∈ window.timedOut ∨ other = id := by
  unfold timeout at member
  split at member
  · rcases List.mem_append.mp member with before | here
    · exact .inl before
    · exact .inr (List.mem_singleton.mp here)
  · exact .inl member

end ScoreWindow

/-! ### Counters -/

/-- The counters are those of the window, and the score is by them, or that of a peer nothing is known of. -/
structure PeerStats.Coherent (stats : PeerStats) (window : ScoreWindow) : Prop where
  sent : stats.requestsSent.toNat = window.sent.length
  timedOut : stats.requestsTimedOut.toNat = window.timedOut.length
  ordered : stats.requestsTimedOut ≤ stats.requestsSent
  bounded : stats.requestsSent < loadWindow
  floor : window.Failing → stats.score = hardFilterFloor
  computed : ¬ window.Failing → stats.score = stats.computedScore ∨ stats = .new

namespace PeerStats

variable {stats : PeerStats} {window : ScoreWindow} {id : ℕ}

theorem hardFiltered_iff (sent : stats.requestsSent.toNat = window.sent.length)
    (timedOut : stats.requestsTimedOut.toNat = window.timedOut.length) : stats.hardFiltered = true ↔ window.Failing := by
  rw [hardFiltered, Bool.and_eq_true, decide_eq_true_iff, decide_eq_true_iff, UInt32.le_iff_toNat_le, sent, timedOut]
  rfl

/-- Counters that are those of the window give the score that is due. -/
theorem coherent_updateScore (wellFormed : window.WellFormed) (sent : stats.requestsSent.toNat = window.sent.length)
    (timedOut : stats.requestsTimedOut.toNat = window.timedOut.length) : stats.updateScore.Coherent window := by
  have filtered := hardFiltered_iff sent timedOut
  have few := wellFormed.length_le
  refine ⟨sent, timedOut, ?_, ?_, fun failing => ?_, fun passing => .inl ?_⟩
  · rw [UInt32.le_iff_toNat_le]
    exact (timedOut.trans_le few).trans_eq sent.symm
  · rw [UInt32.lt_iff_toNat_lt]
    exact sent.trans_lt wellFormed.short
  · exact if_pos (filtered.mpr failing)
  · exact if_neg (fun hard => passing (filtered.mp hard))

theorem coherent_new : PeerStats.new.Coherent .new where
  sent := rfl
  timedOut := rfl
  ordered := by decide
  bounded := by decide
  floor := fun failing => absurd failing.1 (by decide)
  computed := fun _ => .inr rfl

theorem coherent_request (h : stats.Coherent window) (wellFormed : window.WellFormed) (id : ℕ) :
    stats.request.Coherent (window.request id) := by
  have after := wellFormed.request id
  have short := wellFormed.short
  have limit : loadWindow.toNat = 100 := rfl
  have counted : (stats.requestsSent + 1).toNat = window.sent.length + 1 := by
    rw [UInt32.toNat_add, h.sent]
    exact Nat.mod_eq_of_lt (by rw [UInt32.toNat_one]; omega)
  unfold request
  unfold ScoreWindow.request at after ⊢
  dsimp only
  split
  next full =>
    rw [UInt32.le_iff_toNat_le, counted] at full
    rw [if_neg (by omega)] at after ⊢
    exact coherent_updateScore after rfl rfl
  next room =>
    rw [UInt32.le_iff_toNat_le, counted] at room
    rw [if_pos (by omega)] at after ⊢
    exact coherent_updateScore after (by simpa using counted) h.timedOut

theorem coherent_response (h : stats.Coherent window) (wellFormed : window.WellFormed) (latencyMs : Float) :
    (stats.response latencyMs).Coherent window := coherent_updateScore wellFormed h.sent h.timedOut

/-- A timeout is charged rightly if and only if its request is of the window. -/
theorem coherent_timeout_iff (h : stats.Coherent window) (wellFormed : window.WellFormed) (fresh : id ∉ window.timedOut) :
    stats.timeout.Coherent (window.timeout id) ↔ id ∈ window.sent := by
  have few := wellFormed.length_le
  have short := wellFormed.short
  have limit : loadWindow.toNat = 100 := rfl
  have counted : (stats.requestsTimedOut + 1).toNat = window.timedOut.length + 1 := by
    rw [UInt32.toNat_add, h.timedOut]
    exact Nat.mod_eq_of_lt (by rw [UInt32.toNat_one]; omega)
  have after := wellFormed.timeout fresh
  unfold ScoreWindow.timeout at after ⊢
  constructor
  · intro coherent
    by_contra late
    have same := coherent.timedOut
    rw [if_neg late] at same
    have shown : stats.timeout.requestsTimedOut.toNat = window.timedOut.length + 1 := counted
    omega
  · intro sent
    rw [if_pos sent] at after ⊢
    exact coherent_updateScore after h.sent (by simpa using counted)

end PeerStats

/-! ### Runs -/

/-- The calls, with names for the requests. An observation comes with the order in which the hash map is iterated. -/
inductive SampleCall where
  | observe (pubkey : Pubkey) (iteration : List Pubkey)
  | request (pubkey : Pubkey) (id : ℕ)
  | response (pubkey : Pubkey) (latencyMs : Float)
  | timeout (pubkey : Pubkey) (id : ℕ)

def SampleCall.request? : SampleCall → Option (Pubkey × ℕ)
  | .request pubkey id => some (pubkey, id)
  | _ => none

def SampleCall.timeout? : SampleCall → Option (Pubkey × ℕ)
  | .timeout pubkey id => some (pubkey, id)
  | _ => none

/-- Each timeout follows its own request. -/
structure TimeoutsFollow (history : List SampleCall) : Prop where
  distinct : (history.filterMap SampleCall.request?).Nodup
  once : (history.filterMap SampleCall.timeout?).Nodup
  follows : ∀ pre pubkey id post, history = pre ++ .timeout pubkey id :: post →
    (pubkey, id) ∈ pre.filterMap SampleCall.request?

theorem TimeoutsFollow.init {calls more : List SampleCall} (follow : TimeoutsFollow (calls ++ more)) : TimeoutsFollow calls where
  distinct := by
    have all := follow.distinct
    rw [List.filterMap_append] at all
    exact (List.nodup_append.mp all).1
  once := by
    have all := follow.once
    rw [List.filterMap_append] at all
    exact (List.nodup_append.mp all).1
  follows pre pubkey id post split := follow.follows pre pubkey id (post ++ more) (by rw [split]; simp)

/-- What the last call adds to a list of pairs is at most one pair. -/
theorem nodup_concat {f : SampleCall → Option (Pubkey × ℕ)} {calls : List SampleCall} {call : SampleCall}
    (before : (calls.filterMap f).Nodup) (fresh : ∀ pair ∈ f call, pair ∉ calls.filterMap f) :
    ((calls ++ [call]).filterMap f).Nodup := by
  rw [List.filterMap_append]
  cases last : f call with
  | none => rwa [List.filterMap_cons_none last, List.filterMap_nil, List.append_nil]
  | some pair =>
    rw [List.filterMap_cons_some last, List.filterMap_nil, List.nodup_append]
    refine ⟨before, List.nodup_singleton pair, fun other member added here same => ?_⟩
    rw [List.mem_singleton.mp here] at same
    exact fresh pair last (by rwa [← same])

theorem TimeoutsFollow.concat {calls : List SampleCall} {call : SampleCall} (follow : TimeoutsFollow calls)
    (fresh : ∀ pair ∈ call.request?, pair ∉ calls.filterMap SampleCall.request?)
    (own : ∀ pair ∈ call.timeout?,
      pair ∉ calls.filterMap SampleCall.timeout? ∧ pair ∈ calls.filterMap SampleCall.request?) :
    TimeoutsFollow (calls ++ [call]) where
  distinct := nodup_concat follow.distinct fresh
  once := nodup_concat follow.once (fun pair last => (own pair last).1)
  follows pre pubkey id post split := by
    rcases List.eq_nil_or_concat post with rfl | ⟨more, last, rfl⟩
    · obtain ⟨rfl, ends⟩ := List.append_inj' split rfl
      cases ends
      exact (own (pubkey, id) rfl).2
    · rw [List.concat_eq_append, ← List.cons_append, ← List.append_assoc] at split
      exact follow.follows pre pubkey id more (List.append_inj' split rfl).1

/-- The sample, and the window of each peer that it has. -/
structure WindowedSample where
  sample : PeerSample
  windows : Pubkey → ScoreWindow

namespace WindowedSample

def start : WindowedSample := ⟨.new, fun _ => .new⟩

/-- A peer's window is opened as the peer comes in. -/
def step (s : WindowedSample) : SampleCall → WindowedSample × List Empty
  | .observe pubkey iteration =>
    ({ sample := s.sample.observe pubkey iteration
       windows := if s.sample.peers.contains pubkey then s.windows else Function.update s.windows pubkey .new },
      [])
  | .request pubkey id =>
    ({ sample := s.sample.recordRequest pubkey
       windows := Function.update s.windows pubkey ((s.windows pubkey).request id) },
      [])
  | .response pubkey latencyMs => ({ s with sample := s.sample.recordResponse pubkey latencyMs }, [])
  | .timeout pubkey id =>
    ({ sample := s.sample.recordTimeout pubkey
       windows := Function.update s.windows pubkey ((s.windows pubkey).timeout id) },
      [])

/-- A timeout of a peer that is known comes within the window of its request. -/
def Punctual (s : WindowedSample) : SampleCall → Prop
  | .timeout pubkey id => s.sample.peers.contains pubkey = true → id ∈ (s.windows pubkey).sent
  | _ => True

def Coherent (s : WindowedSample) : Prop :=
  ∀ (pubkey : Pubkey) (stats : PeerStats), s.sample.peers[pubkey]? = some stats → stats.Coherent (s.windows pubkey)

/-- The windows are well formed, and what timed out in them did so in the run. -/
structure Recorded (s : WindowedSample) (history : List SampleCall) : Prop where
  wellFormed : ∀ pubkey, (s.windows pubkey).WellFormed
  timedOut : ∀ pubkey, ∀ id ∈ (s.windows pubkey).timedOut, (pubkey, id) ∈ history.filterMap SampleCall.timeout?

variable {s : WindowedSample} {history : List SampleCall} {pubkey : Pubkey} {id : ℕ}

theorem recorded_start : start.Recorded [] := ⟨fun _ => ScoreWindow.wellFormed_new, nofun⟩

/-- The timeout that comes next is not yet in the window. -/
theorem Recorded.fresh (h : s.Recorded history) (follow : TimeoutsFollow (history ++ [.timeout pubkey id])) :
    id ∉ (s.windows pubkey).timedOut := by
  intro member
  have once := follow.once
  rw [List.filterMap_append, List.nodup_append] at once
  exact once.2.2 (pubkey, id) (h.timedOut pubkey id member) (pubkey, id) (List.mem_singleton_self _) rfl

/-- A call replaces the window of its peer. -/
theorem Recorded.update {window : ScoreWindow} {call : SampleCall} (h : s.Recorded history) (wellFormed : window.WellFormed)
    (timedOut : ∀ id ∈ window.timedOut, (pubkey, id) ∈ (history ++ [call]).filterMap SampleCall.timeout?)
    (sample : PeerSample) : Recorded ⟨sample, Function.update s.windows pubkey window⟩ (history ++ [call]) where
  wellFormed := by
    refine (Function.forall_update_iff s.windows (fun _ held => held.WellFormed)).mpr ⟨wellFormed, ?_⟩
    exact fun other _ => h.wellFormed other
  timedOut := by
    refine (Function.forall_update_iff s.windows (fun other held =>
      ∀ id ∈ held.timedOut, (other, id) ∈ (history ++ [call]).filterMap SampleCall.timeout?)).mpr ⟨timedOut, ?_⟩
    intro other _ id member
    rw [List.filterMap_append]
    exact List.mem_append_left _ (h.timedOut other id member)

theorem Recorded.keep (h : s.Recorded history) (sample : PeerSample) (call : SampleCall) :
    Recorded ⟨sample, s.windows⟩ (history ++ [call]) where
  wellFormed := h.wellFormed
  timedOut pubkey id member := by
    rw [List.filterMap_append]
    exact List.mem_append_left _ (h.timedOut pubkey id member)

theorem recorded_step {call : SampleCall} (h : s.Recorded history) (follow : TimeoutsFollow (history ++ [call])) :
    (s.step call).1.Recorded (history ++ [call]) := by
  have earlier : ∀ pubkey, ∀ id ∈ (s.windows pubkey).timedOut,
      (pubkey, id) ∈ (history ++ [call]).filterMap SampleCall.timeout? := by
    intro pubkey id member
    rw [List.filterMap_append]
    exact List.mem_append_left _ (h.timedOut pubkey id member)
  cases call with
  | observe pubkey iteration =>
    dsimp only [step]
    split
    · exact h.keep _ _
    · exact h.update ScoreWindow.wellFormed_new nofun _
  | request pubkey id =>
    exact h.update ((h.wellFormed pubkey).request id)
      (fun other member => earlier pubkey other (ScoreWindow.mem_timedOut_request member)) _
  | response pubkey latencyMs => exact h.keep _ _
  | timeout pubkey id =>
    refine h.update ((h.wellFormed pubkey).timeout (h.fresh follow)) (fun other member => ?_) _
    rcases ScoreWindow.mem_timedOut_timeout member with before | rfl
    · exact earlier pubkey other before
    · rw [List.filterMap_append]
      exact List.mem_append_right _ (List.mem_singleton_self _)

theorem recorded_run (follow : TimeoutsFollow history) : (run step start history).1.Recorded history := by
  induction history using List.reverseRecOn with
  | nil => exact recorded_start
  | append_singleton calls call ih =>
    rw [run_concat]
    exact recorded_step (ih follow.init) follow

/-! ### Coherence -/

/-- A peer that an observation leaves is as it was, or new. -/
theorem getElem?_observe {sample : PeerSample} {iteration : List Pubkey} {other : Pubkey} {stats : PeerStats}
    (unknown : sample.peers.contains pubkey = false) (found : (sample.observe pubkey iteration).peers[other]? = some stats) :
    (other = pubkey ∧ stats = .new) ∨ (other ≠ pubkey ∧ sample.peers[other]? = some stats) := by
  have inserted : ∀ peers : TreeMap Pubkey PeerStats, (peers.insert pubkey .new)[other]? = some stats →
      (other = pubkey ∧ stats = .new) ∨ (other ≠ pubkey ∧ peers[other]? = some stats) := by
    intro peers found
    rw [Entries.getElem?_insert] at found
    split at found
    next same =>
      cases found
      exact .inl ⟨same.symm, rfl⟩
    next apart => exact .inr ⟨Ne.symm apart, found⟩
  unfold PeerSample.observe at found
  rw [if_neg (by simp [unknown])] at found
  split at found
  · split at found
    · exact inserted _ found
    · split at found
      · refine (inserted _ found).imp id (And.imp_right (fun kept => ?_))
        rw [Entries.getElem?_erase] at kept
        split at kept
        · cases kept
        · exact kept
      · refine .inr ⟨?_, found⟩
        rintro rfl
        rw [TreeMap.contains_eq_isSome_getElem?, found] at unknown
        cases unknown
  · exact inserted _ found

theorem coherent_observe (h : s.Coherent) (pubkey : Pubkey) (iteration : List Pubkey) :
    (s.step (.observe pubkey iteration)).1.Coherent := by
  intro other stats found
  dsimp only [step] at found ⊢
  cases known : s.sample.peers.contains pubkey with
  | true =>
    rw [PeerSample.observe, if_pos known] at found
    rw [if_pos rfl]
    exact h other stats found
  | false =>
    rw [if_neg Bool.false_ne_true]
    rcases getElem?_observe known found with ⟨rfl, rfl⟩ | ⟨apart, before⟩
    · rw [Function.update_self]
      exact PeerStats.coherent_new
    · rw [Function.update_of_ne apart]
      exact h other stats before

theorem coherent_modify_iff {window : ScoreWindow} {change : PeerStats → PeerStats} (h : s.Coherent) :
    Coherent ⟨⟨s.sample.peers.modify pubkey change⟩, Function.update s.windows pubkey window⟩ ↔
      ∀ stats : PeerStats, s.sample.peers[pubkey]? = some stats → (change stats).Coherent window := by
  constructor
  · intro after stats found
    have changed := after pubkey (change stats) (by rw [Entries.getElem?_modify, if_pos rfl, found, Option.map_some])
    dsimp only at changed
    rwa [Function.update_self] at changed
  · intro each other stats found
    dsimp only at found ⊢
    rw [Entries.getElem?_modify] at found
    split at found
    next same =>
      subst same
      obtain ⟨before, known, rfl⟩ := Option.map_eq_some_iff.mp found
      rw [Function.update_self]
      exact each before known
    next apart =>
      rw [Function.update_of_ne (Ne.symm apart)]
      exact h other stats found

theorem coherent_step_iff {call : SampleCall} (h : s.Coherent) (recorded : s.Recorded history)
    (follow : TimeoutsFollow (history ++ [call])) : (s.step call).1.Coherent ↔ s.Punctual call := by
  cases call with
  | observe pubkey iteration => exact iff_of_true (coherent_observe h pubkey iteration) trivial
  | request pubkey id =>
    refine iff_of_true ((coherent_modify_iff h).mpr (fun stats found => ?_)) trivial
    exact PeerStats.coherent_request (h pubkey stats found) (recorded.wellFormed pubkey) id
  | response pubkey latencyMs =>
    have each : ∀ stats : PeerStats, s.sample.peers[pubkey]? = some stats →
        (stats.response latencyMs).Coherent (s.windows pubkey) := fun stats found =>
      PeerStats.coherent_response (h pubkey stats found) (recorded.wellFormed pubkey) latencyMs
    have changed := (coherent_modify_iff h).mpr each
    rw [Function.update_eq_self] at changed
    exact iff_of_true changed trivial
  | timeout pubkey id =>
    have charged : ∀ stats : PeerStats, s.sample.peers[pubkey]? = some stats →
        (stats.timeout.Coherent ((s.windows pubkey).timeout id) ↔ id ∈ (s.windows pubkey).sent) := fun stats found =>
      PeerStats.coherent_timeout_iff (h pubkey stats found) (recorded.wellFormed pubkey) (recorded.fresh follow)
    refine (coherent_modify_iff h).trans ⟨fun each known => ?_, fun punctual stats found => ?_⟩
    · rw [TreeMap.contains_eq_isSome_getElem?, Option.isSome_iff_exists] at known
      obtain ⟨stats, found⟩ := known
      exact (charged stats found).mp (each stats found)
    · refine (charged stats found).mpr (punctual ?_)
      rw [TreeMap.contains_eq_isSome_getElem?, found, Option.isSome_some]

theorem coherent_start : start.Coherent := by
  intro pubkey stats found
  simp [start, PeerSample.new] at found

theorem coherent_run (follow : TimeoutsFollow history) (punctual : Meets step Punctual start history) :
    (run step start history).1.Coherent := by
  induction history using List.reverseRecOn with
  | nil => exact coherent_start
  | append_singleton calls call ih =>
    obtain ⟨before, here⟩ := (meets_concat calls call).mp punctual
    rw [run_concat]
    exact (coherent_step_iff (ih follow.init before) (recorded_run follow.init) follow).mpr here

/-- The counters count the window, and the filter is applied as it should be, all through a run in which every timeout comes
within the window of its request, and in no other run. -/
theorem coherent_iff_punctual (history : List SampleCall) (follow : TimeoutsFollow history) :
    Meets step Punctual start history ↔ ∀ calls, calls <+: history → (run step start calls).1.Coherent := by
  constructor
  · rintro punctual calls ⟨more, rfl⟩
    exact coherent_run follow.init ((meets_append calls more).mp punctual).1
  · intro coherent
    refine (meets_iff_prefixes history).mpr (fun pre call post split => ?_)
    have whole : history = (pre ++ [call]) ++ post := by rw [split]; simp
    rw [whole] at follow
    have here := follow.init
    have before := coherent pre ⟨call :: post, split.symm⟩
    have after := coherent (pre ++ [call]) ⟨post, whole.symm⟩
    rw [run_concat] at after
    exact (coherent_step_iff before (recorded_run here.init) here).mp after

/-! ### Late timeouts -/

/-- Requests to a peer, and then timeouts of the first of them. -/
def lateTimeouts (pubkey : Pubkey) (sent late : ℕ) : List SampleCall :=
  .observe pubkey [] :: (List.range sent).map (.request pubkey) ++ (List.range late).map (.timeout pubkey)

theorem requests_lateTimeouts (pubkey : Pubkey) (sent late : ℕ) :
    (lateTimeouts pubkey sent late).filterMap SampleCall.request? = (List.range sent).map (fun id => (pubkey, id)) := by
  simp [lateTimeouts, SampleCall.request?, List.filterMap_cons, List.filterMap_map, Function.comp_def]

theorem timeouts_lateTimeouts (pubkey : Pubkey) (sent late : ℕ) :
    (lateTimeouts pubkey sent late).filterMap SampleCall.timeout? = (List.range late).map (fun id => (pubkey, id)) := by
  simp [lateTimeouts, SampleCall.timeout?, List.filterMap_cons, List.filterMap_map, Function.comp_def]

theorem follow_lateTimeouts (pubkey : Pubkey) {sent late : ℕ} (sends : late ≤ sent) :
    TimeoutsFollow (lateTimeouts pubkey sent late) := by
  induction late with
  | zero =>
    clear sends
    induction sent with
    | zero => exact ⟨List.nodup_nil, List.nodup_nil, fun pre pubkey' id post split => by
        cases pre with
        | nil => cases split
        | cons _ rest => cases rest <;> cases split⟩
    | succ sent ih =>
      have grown : lateTimeouts pubkey (sent + 1) 0 = lateTimeouts pubkey sent 0 ++ [.request pubkey sent] := by
        simp [lateTimeouts, List.range_succ]
      rw [grown]
      refine ih.concat (fun pair last => ?_) nofun
      cases last
      rw [requests_lateTimeouts]
      simp
  | succ late ih =>
    have grown : lateTimeouts pubkey sent (late + 1) = lateTimeouts pubkey sent late ++ [.timeout pubkey late] := by
      simp [lateTimeouts, List.range_succ]
    rw [grown]
    refine (ih (Nat.le_of_succ_le sends)).concat nofun (fun pair last => ?_)
    cases last
    rw [timeouts_lateTimeouts, requests_lateTimeouts]
    simpa using Nat.lt_of_succ_le sends

/-- A peer whose window is punctual. -/
theorem coherent_lateTimeouts_two_one : (run step start (lateTimeouts 7 2 1)).1.Coherent := by
  have punctual : Meets step Punctual start (lateTimeouts 7 2 1) :=
    ⟨trivial, trivial, trivial, fun _ => by decide, trivial⟩
  have coherent := (coherent_iff_punctual (lateTimeouts 7 2 1) (follow_lateTimeouts 7 (by decide))).mp punctual
  exact coherent _ (List.prefix_refl _)

/-- After a hundred requests a timeout outnumbers them. Six timeouts of the first hundred requests filter a peer of whose
next ten none timed out. -/
theorem late_timeouts_charged :
    (¬ ∀ history, TimeoutsFollow history → ∀ (pubkey : Pubkey) (stats : PeerStats),
      (run step start history).1.sample.peers[pubkey]? = some stats → stats.requestsTimedOut ≤ stats.requestsSent) ∧
    ¬ ∀ history, TimeoutsFollow history → ∀ (pubkey : Pubkey) (stats : PeerStats),
      (run step start history).1.sample.peers[pubkey]? = some stats →
        stats.hardFiltered = true → ((run step start history).1.windows pubkey).Failing := by
  constructor
  · intro bounded
    have counts : ((run step start (lateTimeouts 7 100 1)).1.sample.peers[(7 : Pubkey)]?).map
        (fun stats => (stats.requestsSent, stats.requestsTimedOut)) = some (0, 1) := by decide +kernel
    obtain ⟨stats, found, same⟩ := Option.map_eq_some_iff.mp counts
    have few := bounded _ (follow_lateTimeouts 7 (by decide)) 7 stats found
    obtain ⟨sent, timedOut⟩ := Prod.mk.inj same
    rw [sent, timedOut] at few
    exact absurd few (by decide)
  · intro fair
    have filtered : ((run step start (lateTimeouts 7 110 6)).1.sample.peers[(7 : Pubkey)]?).map PeerStats.hardFiltered =
        some true := by decide +kernel
    have answered : ((run step start (lateTimeouts 7 110 6)).1.windows 7).timedOut = [] := by decide +kernel
    obtain ⟨stats, found, hard⟩ := Option.map_eq_some_iff.mp filtered
    have failing := (fair _ (follow_lateTimeouts 7 (by decide)) 7 stats found hard).2
    rw [answered] at failing
    exact absurd failing (Nat.not_lt_zero _)

end WindowedSample

end Lightbringer.Overlay
