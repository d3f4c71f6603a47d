import Lightbringer.Alpenglow.BlockId

/-!
# The order of a block's markers

A slot's parent is what is left after all of its markers have been applied. The fold remembers only the marker that wins,
and every marker is compared with that one alone. With one block header this is enough to find every conflict.
-/

namespace Lightbringer.Alpenglow

namespace ParentInfo

/-- A marker that is valid on its own. -/
structure Valid (slot shredParentSlot : UInt64) (info : ParentInfo) : Prop where
  leader : info.validateUpdateParentSlot slot = .ok ()
  parent : info.validateShredParent slot shredParentSlot = .ok ()

/-- What is asked of an update-parent marker and a block header. -/
def Updates (updateParent blockHeader : ParentInfo) : Prop :=
  updateParent.block ≠ blockHeader.block ∧ updateParent.parentSlot ≤ blockHeader.parentSlot

/-- Two markers of a slot do not contradict each other. -/
def Agrees (a b : ParentInfo) : Prop :=
  match a.populatedFromBlockHeader, b.populatedFromBlockHeader with
  | true, false => Updates b a
  | false, true => Updates a b
  | _, _ => a = b

theorem agrees_refl (a : ParentInfo) : Agrees a a := by
  unfold Agrees
  cases a.populatedFromBlockHeader <;> rfl

theorem agrees_symm {a b : ParentInfo} (agree : Agrees a b) : Agrees b a := by
  unfold Agrees at *
  cases h : a.populatedFromBlockHeader <;> cases h' : b.populatedFromBlockHeader <;>
    simp only [h, h'] at agree ⊢ <;> first | exact agree | exact agree.symm

theorem hasUpdateParent_eq (info : ParentInfo) : info.hasUpdateParent = !info.populatedFromBlockHeader := by
  unfold hasUpdateParent populatedFromBlockHeader
  by_cases zero : info.replayFecSetIndex = 0
  · simp [zero]
  · simp [zero, UInt32.pos_iff_ne_zero]

theorem validateReplacement_of_updates {slot : UInt64} {updateParent blockHeader : ParentInfo} (replace : Bool)
    (fine : Updates updateParent blockHeader) :
    validateReplacement slot updateParent blockHeader replace = .ok replace := by
  rw [validateReplacement, if_neg fine.1, if_neg (UInt64.not_lt.mpr fine.2)]

theorem validateReplacement_fails {slot : UInt64} {updateParent blockHeader : ParentInfo} {replace : Bool}
    (conflict : ¬ Updates updateParent blockHeader) :
    ∃ error, validateReplacement slot updateParent blockHeader replace = .error error := by
  unfold validateReplacement
  split
  · exact ⟨_, rfl⟩
  next apart =>
    split
    · exact ⟨_, rfl⟩
    next ahead => exact (conflict ⟨apart, UInt64.not_lt.mp ahead⟩).elim

/-- Only an update-parent marker takes the place of a block header. -/
theorem shouldReplace_of_agrees {slot : UInt64} {new prev : ParentInfo} (agree : Agrees new prev) :
    shouldReplace slot new prev = .ok (!new.populatedFromBlockHeader && prev.populatedFromBlockHeader) := by
  unfold Agrees at agree
  unfold shouldReplace
  cases newHeader : new.populatedFromBlockHeader <;> cases prevHeader : prev.populatedFromBlockHeader <;>
    simp only [newHeader, prevHeader] at agree ⊢
  · rw [if_pos agree]; rfl
  · exact validateReplacement_of_updates true agree
  · exact validateReplacement_of_updates false agree
  · rw [if_pos agree]; rfl

theorem shouldReplace_fails (slot : UInt64) {new prev : ParentInfo} (conflict : ¬ Agrees new prev) :
    ∃ error, shouldReplace slot new prev = .error error := by
  unfold Agrees at conflict
  unfold shouldReplace
  cases newHeader : new.populatedFromBlockHeader <;> cases prevHeader : prev.populatedFromBlockHeader <;>
    simp only [newHeader, prevHeader] at conflict ⊢
  · exact ⟨_, if_neg conflict⟩
  · exact validateReplacement_fails conflict
  · exact validateReplacement_fails conflict
  · exact ⟨_, if_neg conflict⟩

end ParentInfo

/-! ### The fold -/

section
variable (slot shredParentSlot : UInt64)

def applyParentInfos (infos : List ParentInfo) : Except String (Option ParentInfo) :=
  infos.foldlM (fun parentInfo info => applyParentInfo slot shredParentSlot parentInfo (some info)) none

/-- The markers are valid and none contradicts another. -/
structure Consistent (infos : List ParentInfo) : Prop where
  valid : ∀ info ∈ infos, info.Valid slot shredParentSlot
  agree : ∀ a ∈ infos, ∀ b ∈ infos, ParentInfo.Agrees a b

end

/-- The update-parent marker if there is one, and the block header otherwise. -/
structure Settled (infos : List ParentInfo) (final : Option ParentInfo) : Prop where
  member : ∀ info, final = some info → info ∈ infos
  update : ∀ info ∈ infos, info.hasUpdateParent = true → final = some info
  header : (∀ info ∈ infos, info.hasUpdateParent = false) → ∀ info ∈ infos, final = some info

def OneBlockHeader (infos : List ParentInfo) : Prop :=
  ∀ a ∈ infos, ∀ b ∈ infos, a.populatedFromBlockHeader = true → b.populatedFromBlockHeader = true → a = b

variable {slot shredParentSlot : UInt64} {infos others : List ParentInfo} {final : Option ParentInfo}

theorem settled_nil : Settled [] none := ⟨nofun, nofun, fun _ _ => nofun⟩

theorem Settled.perm (settled : Settled infos final) (perm : others.Perm infos) : Settled others final where
  member info same := perm.mem_iff.mpr (settled.member info same)
  update info member := settled.update info (perm.mem_iff.mp member)
  header none info member := settled.header (fun other there => none other (perm.mem_iff.mpr there)) info
    (perm.mem_iff.mp member)

theorem Settled.winner {info : ParentInfo} (settled : Settled infos final) (member : info ∈ infos) :
    ∃ winner, final = some winner := by
  by_cases updated : ∃ info ∈ infos, info.hasUpdateParent = true
  · obtain ⟨winner, there, updates⟩ := updated
    exact ⟨winner, settled.update winner there updates⟩
  · have headers : ∀ info ∈ infos, info.hasUpdateParent = false := fun other there =>
      Bool.eq_false_iff.mpr (fun updates => updated ⟨other, there, updates⟩)
    exact ⟨info, settled.header headers info member⟩

/-- A block header wins only where there is nothing else. -/
theorem Settled.headers {winner : ParentInfo} (settled : Settled infos (some winner))
    (header : winner.hasUpdateParent = false) : ∀ info ∈ infos, info.hasUpdateParent = false := by
  intro info member
  refine Bool.eq_false_iff.mpr (fun updates => ?_)
  cases settled.update info member updates
  rw [updates] at header
  cases header

theorem Settled.unique {final' : Option ParentInfo} (settled : Settled infos final) (settled' : Settled infos final') :
    final = final' := by
  cases final with
  | none =>
    cases final' with
    | none => rfl
    | some info =>
      obtain ⟨winner, same⟩ := settled.winner (settled'.member info rfl)
      cases same
  | some winner =>
    have there := settled.member winner rfl
    cases updates : winner.hasUpdateParent with
    | true => exact (settled'.update winner there updates).symm
    | false => exact (settled'.header (settled.headers updates) winner there).symm

theorem Consistent.perm (consistent : Consistent slot shredParentSlot infos) (perm : others.Perm infos) :
    Consistent slot shredParentSlot others where
  valid info member := consistent.valid info (perm.mem_iff.mp member)
  agree a first b second := consistent.agree a (perm.mem_iff.mp first) b (perm.mem_iff.mp second)

theorem consistent_nil : Consistent slot shredParentSlot [] := ⟨nofun, nofun⟩

theorem Consistent.init {info : ParentInfo} (consistent : Consistent slot shredParentSlot (infos ++ [info])) :
    Consistent slot shredParentSlot infos where
  valid other member := consistent.valid other (List.mem_append_left _ member)
  agree a first b second := consistent.agree a (List.mem_append_left _ first) b (List.mem_append_left _ second)

/-- The winner speaks for all markers before: what agrees with it agrees with each of them. -/
theorem agrees_of_winner {info winner : ParentInfo} (oneHeader : OneBlockHeader (infos ++ [info]))
    (consistent : Consistent slot shredParentSlot infos) (settled : Settled infos (some winner))
    (agree : ParentInfo.Agrees info winner) : ∀ other ∈ infos, ParentInfo.Agrees info other := by
  intro other member
  have winning := settled.member winner rfl
  cases updates : winner.hasUpdateParent with
  | false =>
    -- No update-parent marker was seen, so the winner is the only one before.
    cases settled.header (settled.headers updates) other member
    exact agree
  | true =>
    cases otherUpdates : other.hasUpdateParent with
    | true =>
      cases settled.update other member otherUpdates
      exact agree
    | false =>
      rw [ParentInfo.hasUpdateParent_eq, Bool.not_eq_false'] at otherUpdates
      rw [ParentInfo.hasUpdateParent_eq, Bool.not_eq_true'] at updates
      cases header : info.populatedFromBlockHeader with
      | true =>
        have same := oneHeader info (by simp) other (List.mem_append_left _ member) header otherUpdates
        rw [same]
        exact ParentInfo.agrees_refl other
      | false =>
        unfold ParentInfo.Agrees at agree
        rw [header, updates] at agree
        dsimp only at agree
        rw [agree]
        exact consistent.agree winner winning other member

theorem consistent_concat {info : ParentInfo} (consistent : Consistent slot shredParentSlot infos)
    (valid : info.Valid slot shredParentSlot) (agree : ∀ other ∈ infos, ParentInfo.Agrees info other) :
    Consistent slot shredParentSlot (infos ++ [info]) := by
  refine ⟨fun other member => ?_, fun a first b second => ?_⟩
  · rcases List.mem_append.mp member with old | new
    · exact consistent.valid other old
    · rw [List.mem_singleton.mp new]
      exact valid
  · rcases List.mem_append.mp first with old | new <;> rcases List.mem_append.mp second with old' | new'
    · exact consistent.agree a old b old'
    · rw [List.mem_singleton.mp new']
      exact ParentInfo.agrees_symm (agree a old)
    · rw [List.mem_singleton.mp new]
      exact agree b old'
    · rw [List.mem_singleton.mp new, List.mem_singleton.mp new']
      exact ParentInfo.agrees_refl info

/-! ### What applying a marker does -/

theorem applyParentInfo_eq (prev : Option ParentInfo) {info : ParentInfo} (valid : info.Valid slot shredParentSlot) :
    applyParentInfo slot shredParentSlot prev (some info) =
      match prev with
      | none => .ok (some info)
      | some prev =>
        (ParentInfo.shouldReplace slot info prev).map (fun replace => if replace then some info else some prev) := by
  unfold applyParentInfo
  dsimp only
  rw [valid.leader, valid.parent]
  cases prev with
  | none => rfl
  | some prev => cases checked : ParentInfo.shouldReplace slot info prev <;>
      simp [checked, bind, Except.bind, Except.map, pure, Except.pure]

theorem applyParentInfo_fails (prev : Option ParentInfo) {info : ParentInfo}
    (invalid : ¬ info.Valid slot shredParentSlot) :
    ∃ error, applyParentInfo slot shredParentSlot prev (some info) = .error error := by
  unfold applyParentInfo
  dsimp only
  cases leader : info.validateUpdateParentSlot slot with
  | error error => exact ⟨error, rfl⟩
  | ok _ =>
    cases parent : info.validateShredParent slot shredParentSlot with
    | error error => exact ⟨error, rfl⟩
    | ok _ => exact (invalid ⟨leader, parent⟩).elim

/-- In consistent markers an update-parent marker settles the matter, and so does a block header on its own. -/
theorem settled_of_winner {winner : ParentInfo} (consistent : Consistent slot shredParentSlot infos)
    (member : winner ∈ infos)
    (best : winner.hasUpdateParent = false → ∀ info ∈ infos, info.hasUpdateParent = false) :
    Settled infos (some winner) := by
  refine ⟨fun info same => ?_, fun info there updates => ?_, fun headers info there => ?_⟩
  · cases same
    exact member
  · have winnerUpdates : winner.hasUpdateParent = true := by
      refine Bool.eq_true_of_not_eq_false (fun header => ?_)
      rw [best header info there] at updates
      cases updates
    have agree := consistent.agree winner member info there
    rw [ParentInfo.hasUpdateParent_eq, Bool.not_eq_true'] at updates winnerUpdates
    unfold ParentInfo.Agrees at agree
    rw [updates, winnerUpdates] at agree
    exact congrArg some agree
  · have header := headers info there
    have winnerHeader := headers winner member
    have agree := consistent.agree winner member info there
    rw [ParentInfo.hasUpdateParent_eq, Bool.not_eq_false'] at header winnerHeader
    unfold ParentInfo.Agrees at agree
    rw [header, winnerHeader] at agree
    exact congrArg some agree

/-- The winner after one more marker that is in order. -/
theorem settled_concat {info : ParentInfo} (settled : Settled infos final)
    (consistent : Consistent slot shredParentSlot (infos ++ [info])) :
    ∃ next, applyParentInfo slot shredParentSlot final (some info) = .ok next ∧ Settled (infos ++ [info]) next := by
  have last : info ∈ infos ++ [info] := by simp
  rw [applyParentInfo_eq final (consistent.valid info last)]
  cases final with
  | none =>
    refine ⟨some info, rfl, settled_of_winner consistent last (fun header other member => ?_)⟩
    rcases List.mem_append.mp member with old | new
    · obtain ⟨winner, same⟩ := settled.winner old
      cases same
    · rw [List.mem_singleton.mp new]
      exact header
  | some prev =>
    have before : prev ∈ infos ++ [info] := List.mem_append_left _ (settled.member prev rfl)
    dsimp only
    rw [ParentInfo.shouldReplace_of_agrees (consistent.agree info last prev before)]
    refine ⟨_, rfl, ?_⟩
    dsimp only
    split
    next replaced =>
      refine settled_of_winner consistent last (fun header => ?_)
      rw [ParentInfo.hasUpdateParent_eq] at header
      simp [header] at replaced
    next kept =>
      refine settled_of_winner consistent before (fun header other member => ?_)
      rcases List.mem_append.mp member with old | new
      · exact settled.headers header other old
      · rw [List.mem_singleton.mp new, ParentInfo.hasUpdateParent_eq]
        rw [ParentInfo.hasUpdateParent_eq, Bool.not_eq_false'] at header
        simpa [header] using kept

/-- A conflict with any marker before is found out. -/
theorem applyParentInfo_conflict {info : ParentInfo} (oneHeader : OneBlockHeader (infos ++ [info]))
    (consistent : Consistent slot shredParentSlot infos) (settled : Settled infos final)
    (inconsistent : ¬ Consistent slot shredParentSlot (infos ++ [info])) :
    ∃ error, applyParentInfo slot shredParentSlot final (some info) = .error error := by
  by_cases valid : info.Valid slot shredParentSlot
  · rw [applyParentInfo_eq final valid]
    cases final with
    | none =>
      refine (inconsistent (consistent_concat consistent valid (fun other member => ?_))).elim
      obtain ⟨winner, same⟩ := settled.winner member
      cases same
    | some prev =>
      have conflict : ¬ ParentInfo.Agrees info prev := fun agree =>
        inconsistent (consistent_concat consistent valid (agrees_of_winner oneHeader consistent settled agree))
      obtain ⟨error, failed⟩ := ParentInfo.shouldReplace_fails slot conflict
      dsimp only
      rw [failed]
      exact ⟨error, rfl⟩
  · exact applyParentInfo_fails final valid

theorem applyParentInfos_concat (infos : List ParentInfo) (info : ParentInfo) :
    applyParentInfos slot shredParentSlot (infos ++ [info]) =
      (applyParentInfos slot shredParentSlot infos).bind
        (fun parentInfo => applyParentInfo slot shredParentSlot parentInfo (some info)) := by
  unfold applyParentInfos
  rw [List.foldlM_append]
  simp only [List.foldlM_cons, List.foldlM_nil, bind_pure]
  rfl

/-- With one block header, the fold fails exactly on markers that are not consistent. -/
theorem applyParentInfos_outcome (oneHeader : OneBlockHeader infos) :
    (Consistent slot shredParentSlot infos →
      ∃ final, applyParentInfos slot shredParentSlot infos = .ok final ∧ Settled infos final) ∧
    (¬ Consistent slot shredParentSlot infos → ∃ error, applyParentInfos slot shredParentSlot infos = .error error) := by
  induction infos using List.reverseRecOn with
  | nil => exact ⟨fun _ => ⟨none, rfl, settled_nil⟩, fun wrong => (wrong consistent_nil).elim⟩
  | append_singleton infos info ih =>
    have earlier := ih (fun a first b second =>
      oneHeader a (List.mem_append_left _ first) b (List.mem_append_left _ second))
    rw [applyParentInfos_concat]
    refine ⟨fun consistent => ?_, fun wrong => ?_⟩
    · obtain ⟨current, reached, settled⟩ := earlier.1 consistent.init
      rw [reached]
      exact settled_concat settled consistent
    · by_cases before : Consistent slot shredParentSlot infos
      · obtain ⟨current, reached, settled⟩ := earlier.1 before
        rw [reached]
        exact applyParentInfo_conflict oneHeader before settled wrong
      · obtain ⟨error, failed⟩ := earlier.2 before
        rw [failed]
        exact ⟨error, rfl⟩

/-- The parent of a slot does not depend on the order in which its markers are applied. -/
theorem parent_independent_of_order (slot shredParentSlot : UInt64) (infos : List ParentInfo)
    (oneHeader : OneBlockHeader infos) :
    (∀ others : List ParentInfo, others.Perm infos →
      ∃ error, applyParentInfos slot shredParentSlot others = .error error) ∨
    ∃ final, Settled infos final ∧ ∀ others : List ParentInfo, others.Perm infos →
      applyParentInfos slot shredParentSlot others = .ok final := by
  have still : ∀ others : List ParentInfo, others.Perm infos → OneBlockHeader others :=
    fun others perm a first b second => oneHeader a (perm.mem_iff.mp first) b (perm.mem_iff.mp second)
  by_cases consistent : Consistent slot shredParentSlot infos
  · obtain ⟨final, _, settled⟩ := (applyParentInfos_outcome oneHeader).1 consistent
    refine .inr ⟨final, settled, fun others perm => ?_⟩
    obtain ⟨final', reached, settled'⟩ := (applyParentInfos_outcome (still others perm)).1 (consistent.perm perm)
    rw [reached, (settled'.perm perm.symm).unique settled]
  · refine .inl (fun others perm => (applyParentInfos_outcome (still others perm)).2 (fun fine => ?_))
    exact consistent (fine.perm perm.symm)

/-- A block header and an update-parent marker that is looked at twice. -/
theorem parent_independent_of_order_updated :
    OneBlockHeader [⟨7, 1, 0⟩, ⟨5, 2, 32⟩, ⟨5, 2, 32⟩] ∧
      applyParentInfos 8 7 [⟨5, 2, 32⟩, ⟨7, 1, 0⟩, ⟨5, 2, 32⟩] = .ok (some ⟨5, 2, 32⟩) := by
  have oneHeader : OneBlockHeader [⟨7, 1, 0⟩, ⟨5, 2, 32⟩, ⟨5, 2, 32⟩] := by unfold OneBlockHeader; decide
  refine ⟨oneHeader, ?_⟩
  rcases parent_independent_of_order 8 7 [⟨7, 1, 0⟩, ⟨5, 2, 32⟩, ⟨5, 2, 32⟩] oneHeader with fails | ⟨final, settled, reached⟩
  · obtain ⟨error, failed⟩ := fails _ (List.Perm.refl _)
    cases failed
  · rw [reached _ (List.Perm.swap ..), settled.update ⟨5, 2, 32⟩ (by decide) rfl]

end Lightbringer.Alpenglow
