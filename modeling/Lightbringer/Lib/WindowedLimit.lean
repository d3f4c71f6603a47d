import Lightbringer.Lib.Machine

/-!
# A limit on how often in a window

A window begins at the first use and admits `most` uses; the first use `span` or more after its beginning begins the
next. Windows do not overlap, so any stretch of length `span` meets two of them at most.
-/

namespace WindowedLimit
open Machine

structure Window where
  start : ℕ
  count : ℕ

/-- A use, the window it fell into and whether it was admitted. -/
structure Verdict where
  now : ℕ
  start : ℕ
  admitted : Bool
  deriving DecidableEq

section
variable (span most : ℕ)

/-- The window that a use falls into, which is a new one if the last is over. -/
def current (found : Option Window) (now : ℕ) : Window :=
  let window := found.getD ⟨now, 0⟩
  if span ≤ now - window.start then ⟨now, 0⟩ else window

def use (found : Option Window) (now : ℕ) : Window × Bool :=
  let window := current span found now
  if most ≤ window.count then (window, false) else ({ window with count := window.count + 1 }, true)

def step (found : Option Window) (now : ℕ) : Option Window × List Verdict :=
  (some (use span most found now).1, [⟨now, (use span most found now).1.start, (use span most found now).2⟩])

end

/-- How many admitted verdicts there are of a kind. -/
def admitted (kind : Verdict → Bool) (log : List Verdict) : ℕ := log.countP (fun v => v.admitted && kind v)

theorem admitted_concat (kind : Verdict → Bool) (log : List Verdict) (v : Verdict) :
    admitted kind (log ++ [v]) = admitted kind log + if v.admitted = true ∧ kind v = true then 1 else 0 := by
  simp [admitted, List.countP_append]

theorem admitted_mono {kind wider : Verdict → Bool} {log : List Verdict} (implies : ∀ v ∈ log, kind v = true → wider v = true) :
    admitted kind log ≤ admitted wider log := by
  refine List.countP_mono_left (fun v member held => ?_)
  rw [Bool.and_eq_true] at held ⊢
  exact ⟨held.1, implies v member held.2⟩

/-- What the window has to do with the verdicts given so far. -/
structure Tallied (span most : ℕ) (found : Option Window) (log : List Verdict) (clock : ℕ) : Prop where
  fresh : found = none → log = []
  past : ∀ v ∈ log, v.now ≤ clock
  inside : ∀ v ∈ log, v.start ≤ v.now ∧ v.now < v.start + span
  apart : ∀ v ∈ log, ∀ w ∈ log, v.start = w.start ∨ v.start + span ≤ w.start ∨ w.start + span ≤ v.start
  begun : ∀ window, found = some window → window.start ≤ clock
  last : ∀ window, found = some window → ∀ v ∈ log, v.start = window.start ∨ v.start + span ≤ window.start
  count : ∀ window, found = some window → admitted (fun v => v.start = window.start) log = window.count
  few : ∀ start, admitted (fun v => v.start = start) log ≤ most

variable {span most : ℕ} {found : Option Window} {log : List Verdict} {clock now : ℕ}

theorem tallied_nil : Tallied span most none [] clock where
  fresh _ := rfl
  past v member := by cases member
  inside v member := by cases member
  apart v member := by cases member
  begun window same := by cases same
  last window same := by cases same
  count window same := by cases same
  few start := Nat.zero_le most

theorem current_cases (span : ℕ) (found : Option Window) (now : ℕ) :
    current span found now = ⟨now, 0⟩ ∧ (∀ window, found = some window → span ≤ now - window.start) ∨
      found = some (current span found now) ∧ now - (current span found now).start < span := by
  unfold current
  cases found with
  | none => exact .inl ⟨ite_self _, nofun⟩
  | some window =>
    dsimp only [Option.getD_some]
    split
    next lapsed =>
      refine .inl ⟨rfl, fun _ same => ?_⟩
      cases same
      exact lapsed
    next lasts => exact .inr ⟨rfl, Nat.lt_of_not_le lasts⟩

/-- The window of a use began no later and is not over, and it has counted what fell into it. -/
theorem Tallied.current (held : Tallied span most found log clock) (later : clock ≤ now) (positive : 0 < span) :
    (current span found now).start ≤ now ∧ now < (current span found now).start + span ∧
      (∀ v ∈ log, v.start = (current span found now).start ∨ v.start + span ≤ (current span found now).start) ∧
      admitted (fun v => v.start = (current span found now).start) log = (current span found now).count := by
  rcases current_cases span found now with ⟨new, lapsed⟩ | ⟨same, lasts⟩
  · have before : ∀ v ∈ log, v.start + span ≤ now := by
      intro v member
      cases found with
      | none =>
        rw [held.fresh rfl] at member
        cases member
      | some window =>
        have := lapsed window rfl
        have := held.last window rfl v member
        omega
    have unused : admitted (fun v => v.start = now) log = 0 := by
      refine List.countP_eq_zero.mpr (fun v member => ?_)
      have := before v member
      simp only [Bool.and_eq_true, decide_eq_true_eq, not_and]
      omega
    simp only [new]
    exact ⟨Nat.le_refl now, Nat.lt_add_of_pos_right positive, fun v member => .inr (before v member), unused⟩
  · have begun := held.begun _ same
    exact ⟨Nat.le_trans begun later, by omega, held.last _ same, held.count _ same⟩

theorem use_start (found : Option Window) (now : ℕ) : (use span most found now).1.start = (current span found now).start := by
  unfold use
  dsimp only
  split <;> rfl

theorem use_admitted (found : Option Window) (now : ℕ) :
    (use span most found now).2 = true ↔ (current span found now).count < most := by
  unfold use
  dsimp only
  split
  next full => simp [full]
  next room => simpa using room

theorem use_count (found : Option Window) (now : ℕ) :
    (use span most found now).1.count =
      (current span found now).count + if (use span most found now).2 = true then 1 else 0 := by
  unfold use
  dsimp only
  split
  · rfl
  · rfl

theorem tallied_step (held : Tallied span most found log clock) (later : clock ≤ now) (positive : 0 < span) :
    Tallied span most (step span most found now).1 (log ++ (step span most found now).2) now := by
  obtain ⟨begun, open_, behind, count⟩ := held.current later positive
  have member : ∀ v ∈ log ++ (step span most found now).2, v ∈ log ∨
      v = ⟨now, (WindowedLimit.current span found now).start, (use span most found now).2⟩ := by
    intro v there
    rw [step, use_start] at there
    simpa using there
  have counted : ∀ start, admitted (fun v => v.start = start) (log ++ (step span most found now).2) =
      admitted (fun v => v.start = start) log +
        if (use span most found now).2 = true ∧ (WindowedLimit.current span found now).start = start then 1 else 0 := by
    intro start
    rw [step, admitted_concat, use_start]
    simp only [decide_eq_true_eq]
  refine ⟨nofun, fun v there => ?_, fun v there => ?_, fun v there w there' => ?_, fun window same => ?_,
    fun window same v there => ?_, fun window same => ?_, fun start => ?_⟩
  · rcases member v there with old | rfl
    · exact Nat.le_trans (held.past v old) later
    · exact Nat.le_refl now
  · rcases member v there with old | rfl
    · exact held.inside v old
    · exact ⟨begun, open_⟩
  · rcases member v there with old | rfl <;> rcases member w there' with old' | rfl
    · exact held.apart v old w old'
    · exact (behind v old).imp_right .inl
    · exact (behind w old').imp Eq.symm .inr
    · exact .inl rfl
  · cases same
    rw [use_start]
    exact begun
  · cases same
    rw [use_start]
    rcases member v there with old | rfl
    · exact behind v old
    · exact .inl rfl
  · cases same
    rw [counted, use_start, use_count, count]
    simp
  · rw [counted]
    split
    next both =>
      have room := (use_admitted found now).mp both.1
      rw [← both.2, count]
      omega
    next => exact held.few start

/-- The time of the last use. -/
def clockAfter (times : List ℕ) : ℕ := times.getLast?.getD 0

theorem clockAfter_le {times : List ℕ} (passed : ∀ time ∈ times, time ≤ now) : clockAfter times ≤ now := by
  unfold clockAfter
  cases latest : times.getLast? with
  | none => exact Nat.zero_le now
  | some time => exact passed time (List.mem_of_getLast? latest)

theorem tallied_run (most : ℕ) (positive : 0 < span) {times : List ℕ} (ordered : times.Pairwise (fun a b => a ≤ b)) :
    Tallied span most (run (step span most) none times).1 (run (step span most) none times).2 (clockAfter times) := by
  induction times using List.reverseRecOn with
  | nil => exact tallied_nil
  | append_singleton times now ih =>
    obtain ⟨before, _, passed⟩ := List.pairwise_append.mp ordered
    have latest : clockAfter (times ++ [now]) = now := by simp [clockAfter]
    rw [run_concat, latest]
    exact tallied_step (ih before) (clockAfter_le (fun time member => passed time member now (by simp))) positive

/-! ### What is admitted -/

theorem admitted_split (kind part : Verdict → Bool) (log : List Verdict) :
    admitted kind log = admitted (fun v => kind v && part v) log + admitted (fun v => kind v && !part v) log := by
  induction log with
  | nil => rfl
  | cons v rest ih =>
    unfold admitted at ih ⊢
    simp only [List.countP_cons, ih]
    cases v.admitted <;> cases kind v <;> cases part v <;> simp <;> omega

theorem Tallied.admitted_le (held : Tallied span most found log clock) {kind : Verdict → Bool}
    (one : ∀ v ∈ log, ∀ w ∈ log, kind v = true → kind w = true → v.start = w.start) : admitted kind log ≤ most := by
  by_cases some : ∃ v ∈ log, kind v = true
  · obtain ⟨v, member, here⟩ := some
    refine Nat.le_trans (admitted_mono (fun w there same => ?_)) (held.few v.start)
    exact decide_eq_true (one w there v member same here)
  · have nothing : admitted kind log = 0 := by
      refine List.countP_eq_zero.mpr (fun v member both => some ⟨v, member, ?_⟩)
      exact (Bool.and_eq_true _ _ ▸ both).2
    omega

/-- A stretch as long as a window meets one that began before it and one that began inside it. -/
theorem Tallied.span_le (held : Tallied span most found log clock) (t : ℕ) :
    admitted (fun v => t ≤ v.now ∧ v.now < t + span) log ≤ 2 * most := by
  rw [admitted_split _ (fun v => v.start ≤ t)]
  have early : admitted (fun v => (decide (t ≤ v.now ∧ v.now < t + span)) && decide (v.start ≤ t)) log ≤ most := by
    refine held.admitted_le (fun v member w member' first second => ?_)
    simp only [Bool.and_eq_true, decide_eq_true_eq] at first second
    have := held.inside v member
    have := held.inside w member'
    have := held.apart v member w member'
    omega
  have late : admitted (fun v => (decide (t ≤ v.now ∧ v.now < t + span)) && !decide (v.start ≤ t)) log ≤ most := by
    refine held.admitted_le (fun v member w member' first second => ?_)
    simp only [Bool.and_eq_true, decide_eq_true_eq, Bool.not_eq_true', decide_eq_false_iff_not] at first second
    have := held.inside v member
    have := held.inside w member'
    have := held.apart v member w member'
    omega
  omega

/-- A use is refused only if the last stretch has admitted as many as a window does. -/
theorem Tallied.admits (held : Tallied span most found log clock) (later : clock ≤ now) (positive : 0 < span)
    (few : admitted (fun v => now < v.now + span) log < most) : (use span most found now).2 = true := by
  obtain ⟨begun, open_, _, count⟩ := held.current later positive
  rw [use_admitted, ← count]
  refine Nat.lt_of_le_of_lt (admitted_mono (fun v member same => ?_)) few
  have inside := held.inside v member
  simp only [decide_eq_true_eq] at same ⊢
  omega

/-! ### Runs -/

/-- What a limit promises of its verdicts. -/
structure Respects (span most : ℕ) (log : List Verdict) : Prop where
  window : ∀ start, admitted (fun v => v.start = start) log ≤ most
  stretch : ∀ t, admitted (fun v => t ≤ v.now ∧ v.now < t + span) log ≤ 2 * most
  admits : Prefixwise (fun before v => admitted (fun w => v.now < w.now + span) before < most → v.admitted = true) log

theorem exists_use {times : List ℕ} {before after : List Verdict} {v : Verdict}
    (split : (run (step span most) found times).2 = before ++ v :: after) :
    ∃ earlier now later, times = earlier ++ now :: later ∧ (run (step span most) found earlier).2 = before ∧
      v.now = now ∧ v.admitted = (use span most (run (step span most) found earlier).1 now).2 := by
  induction times generalizing found before with
  | nil => simp at split
  | cons now rest ih =>
    rw [run_cons] at split
    cases before with
    | nil =>
      obtain ⟨rfl, _⟩ := List.cons.inj split
      exact ⟨[], now, rest, rfl, rfl, rfl, rfl⟩
    | cons first before =>
      obtain ⟨same, split⟩ := List.cons.inj split
      obtain ⟨earlier, now', later, rfl, log, at_, verdict⟩ := ih split
      refine ⟨now :: earlier, now', later, rfl, ?_, at_, verdict⟩
      rw [run_cons, log, ← same]
      rfl

theorem respects_run (positive : 0 < span) {times : List ℕ} (ordered : times.Pairwise (fun a b => a ≤ b)) :
    Respects span most (run (step span most) none times).2 := by
  have held := tallied_run most positive ordered
  refine ⟨held.few, held.span_le, fun before v after split few => ?_⟩
  obtain ⟨earlier, now, later, rfl, rfl, rfl, verdict⟩ := exists_use split
  obtain ⟨before, _, passed⟩ := List.pairwise_append.mp ordered
  have behind := clockAfter_le (fun time member => passed time member v.now (by simp))
  rw [verdict]
  exact (tallied_run most positive before).admits behind positive few

end WindowedLimit
