import Lightbringer.Overlay.Core

/-!
# What a rate limit admits

A peer's window goes on, full or not, until a check finds it a second old; then the next begins. A limiter may forget a
window, but it never takes one up again.
-/

namespace Lightbringer.Overlay
namespace RepairRateLimiter

/-- What a check makes of the peer's window. -/
inductive Checked (most : Nat) (now : Instant) : Option RateWindow → RateWindow → Bool → Prop
  | counted {window : RateWindow} (room : window.count < most) :
      Checked most now (some window) { window with count := window.count + 1 } true
  | refused {window : RateWindow} (full : most ≤ window.count) : Checked most now (some window) window false
  | begun {found : Option RateWindow} (old : ∀ window, found = some window → window.windowStart < now) :
      Checked most now found ⟨now, 1⟩ true

/-- No window admits more than the limit, and there is room for every peer the source allows for. -/
structure Limited (most : Nat) (limiter : RepairRateLimiter) : Prop where
  limit : limiter.maxPerWindow = most
  capacity : limiter.peers.capacity = maxRateLimitPeers
  counts : ∀ peer window, limiter.peers.peek peer = some window → window.count ≤ most

variable {most : Nat} {limiter : RepairRateLimiter}

theorem limited_new (most : Nat) : Limited most (.new most) where
  limit := rfl
  capacity := rfl
  counts _ _ found := by cases found

theorem Limited.length_le (held : Limited most limiter) : limiter.peers.entries.length ≤ maxRateLimitPeers := by
  rw [← held.capacity]
  exact limiter.peers.bounded

/-- A push forgets other peers or leaves them as they are. -/
theorem peek_push_of_other {m : Lru Pubkey RateWindow} {peer other : Pubkey} {window found : RateWindow}
    (apart : other ≠ peer) (left : (m.push peer window).peek other = some found) : m.peek other = some found := by
  rcases Lru.mem_of_mem_push (Lru.mem_of_peek left) with same | old
  · exact (apart (congrArg Prod.fst same)).elim
  · exact Lru.peek_of_mem old

theorem peek_get_of_other {m : Lru Pubkey RateWindow} {peer other : Pubkey} {found : RateWindow}
    (apart : other ≠ peer) (left : (m.get peer).1.peek other = some found) : m.peek other = some found := by
  unfold Lru.get at left
  split at left
  · exact peek_push_of_other apart left
  · exact left

theorem capacity_get (m : Lru Pubkey RateWindow) (peer : Pubkey) : (m.get peer).1.capacity = m.capacity := by
  unfold Lru.get
  split
  · rfl
  · rfl

/-- The window that a check looks at, which is a new one if the last is over. -/
def current (limiter : RepairRateLimiter) (peer : Pubkey) (now : Instant) : RateWindow :=
  let window := (limiter.peers.peek peer).getD ⟨now, 0⟩
  if rateLimitWindow ≤ now - window.windowStart then ⟨now, 0⟩ else window

theorem checkAndIncrement_eq (limiter : RepairRateLimiter) (peer : Pubkey) (now : Instant) :
    limiter.checkAndIncrement peer now =
      if limiter.maxPerWindow ≤ (limiter.current peer now).count then
        ({ limiter with peers := (limiter.peers.get peer).1.push peer (limiter.current peer now) }, false)
      else
        ({ limiter with
            peers := (limiter.peers.get peer).1.push peer
              ⟨(limiter.current peer now).windowStart, (limiter.current peer now).count + 1⟩ }, true) := by
  rw [checkAndIncrement, current, ← Lru.get_value]

theorem peek_checkAndIncrement_other {peer other : Pubkey} {now : Instant} {found : RateWindow} (apart : other ≠ peer)
    (left : (limiter.checkAndIncrement peer now).1.peers.peek other = some found) :
    limiter.peers.peek other = some found := by
  rw [checkAndIncrement_eq] at left
  split at left
  · exact peek_get_of_other apart (peek_push_of_other apart left)
  · exact peek_get_of_other apart (peek_push_of_other apart left)

theorem current_cases (limiter : RepairRateLimiter) (peer : Pubkey) (now : Instant) :
    limiter.peers.peek peer = some (limiter.current peer now) ∨ limiter.current peer now = ⟨now, 0⟩ ∧
      ∀ window, limiter.peers.peek peer = some window → window.windowStart < now := by
  unfold current
  cases limiter.peers.peek peer with
  | none =>
    refine .inr ⟨?_, fun window found => nomatch found⟩
    dsimp only [Option.getD_none]
    split
    · rfl
    · rfl
  | some window =>
    dsimp only [Option.getD_some]
    split
    next old =>
      refine .inr ⟨rfl, fun other found => ?_⟩
      cases found
      have positive : 0 < rateLimitWindow := by decide
      exact Nat.lt_of_sub_pos (Nat.lt_of_lt_of_le positive old)
    · exact .inl rfl

theorem peek_checkAndIncrement (held : Limited most limiter) (positive : 0 < most) (peer : Pubkey) (now : Instant) :
    ∃ window, (limiter.checkAndIncrement peer now).1.peers.peek peer = some window ∧
      Checked most now (limiter.peers.peek peer) window (limiter.checkAndIncrement peer now).2 := by
  have room : 0 < (limiter.peers.get peer).1.capacity := by
    rw [capacity_get, held.capacity]
    decide
  rw [checkAndIncrement_eq, held.limit]
  rcases limiter.current_cases peer now with found | ⟨fresh, old⟩
  · rw [found]
    split
    next full => exact ⟨_, Lru.peek_push_self room _ _, .refused full⟩
    next spare => exact ⟨_, Lru.peek_push_self room _ _, .counted (Nat.lt_of_not_le spare)⟩
  · rw [fresh, if_neg (Nat.not_le.mpr positive)]
    exact ⟨_, Lru.peek_push_self room _ _, .begun old⟩

theorem limited_checkAndIncrement (held : Limited most limiter) (positive : 0 < most) (peer : Pubkey) (now : Instant) :
    Limited most (limiter.checkAndIncrement peer now).1 := by
  obtain ⟨window, mine, checked⟩ := peek_checkAndIncrement held positive peer now
  refine ⟨?_, ?_, fun other found there => ?_⟩
  · rw [checkAndIncrement_eq]
    split
    · exact held.limit
    · exact held.limit
  · rw [checkAndIncrement_eq]
    split
    · exact (capacity_get _ _).trans held.capacity
    · exact (capacity_get _ _).trans held.capacity
  · by_cases same : other = peer
    · subst same
      cases mine.symm.trans there
      generalize before : limiter.peers.peek other = earlier at checked
      generalize (limiter.checkAndIncrement other now).2 = granted at checked
      cases checked with
      | counted room => exact room
      | refused => exact held.counts other window before
      | begun => exact positive
    · exact held.counts other found (peek_checkAndIncrement_other same there)

/-! ### What was admitted in one window -/

/-- The peer is in the window that began then. -/
def InWindow (limiter : RepairRateLimiter) (peer : Pubkey) (start : Instant) : Prop :=
  (limiter.peers.peek peer).map RateWindow.windowStart = some start

/-- Of the window that began then `admitted` are remembered; if it has not begun there are none. -/
structure Remembers (limiter : RepairRateLimiter) (peer : Pubkey) (start : Instant) (admitted : Nat) : Prop where
  begun : admitted = 0 ∨ limiter.InWindow peer start
  counted : ∀ window, limiter.peers.peek peer = some window → window.windowStart = start → admitted ≤ window.count

theorem remembers_none (limiter : RepairRateLimiter) (peer : Pubkey) (start : Instant) :
    limiter.Remembers peer start 0 := ⟨.inl rfl, fun _ _ _ => Nat.zero_le _⟩

theorem Remembers.le {peer : Pubkey} {start : Instant} {admitted : Nat} (remembers : limiter.Remembers peer start admitted)
    (held : Limited most limiter) : admitted ≤ most := by
  rcases remembers.begun with rfl | begun
  · exact Nat.zero_le most
  · obtain ⟨window, found, same⟩ := Option.map_eq_some_iff.mp begun
    exact Nat.le_trans (remembers.counted window found same) (held.counts peer window found)

theorem remembers_checkAndIncrement {peer checked : Pubkey} {start now : Instant} {admitted : Nat}
    (held : Limited most limiter) (positive : 0 < most) (remembers : limiter.Remembers peer start admitted)
    (stays : (limiter.checkAndIncrement checked now).1.InWindow peer start) :
    (limiter.checkAndIncrement checked now).1.Remembers peer start
      (admitted + if checked = peer ∧ (limiter.checkAndIncrement checked now).2 = true then 1 else 0) := by
  refine ⟨.inr stays, fun window found begins => ?_⟩
  by_cases same : checked = peer
  · subst same
    obtain ⟨window', mine, checks⟩ := peek_checkAndIncrement held positive checked now
    cases mine.symm.trans found
    generalize before : limiter.peers.peek checked = earlier at checks
    generalize (limiter.checkAndIncrement checked now).2 = granted at checks ⊢
    cases checks with
    | @counted window room =>
      rw [if_pos ⟨rfl, rfl⟩]
      exact Nat.succ_le_succ (remembers.counted window before begins)
    | refused full =>
      rw [if_neg (fun both => Bool.false_ne_true both.2)]
      exact remembers.counted window before begins
    | begun old =>
      rw [if_pos ⟨rfl, rfl⟩]
      rcases remembers.begun with rfl | begun
      · exact Nat.le_refl _
      · obtain ⟨last, there, starts⟩ := Option.map_eq_some_iff.mp begun
        have earlier := old last (before.symm.trans there)
        rw [starts] at earlier
        exact (Nat.ne_of_lt earlier begins.symm).elim
  · rw [if_neg (fun both => same both.1)]
    exact remembers.counted window (peek_checkAndIncrement_other (Ne.symm same) found) begins

theorem Remembers.mono {peer : Pubkey} {start : Instant} {admitted fewer : Nat}
    (remembers : limiter.Remembers peer start admitted) (le : fewer ≤ admitted) : limiter.Remembers peer start fewer := by
  refine ⟨?_, fun window found begins => Nat.le_trans le (remembers.counted window found begins)⟩
  rcases remembers.begun with rfl | begun
  · exact .inl (Nat.le_zero.mp le)
  · exact .inr begun

/-- A user of the limiter checks at most once, and goes on for the peer that passed. -/
inductive Asked (limiter : RepairRateLimiter) : RepairRateLimiter → Option Pubkey → Prop
  | unasked : Asked limiter limiter none
  | idle (peer : Pubkey) (now : Instant) : Asked limiter (limiter.checkAndIncrement peer now).1 none
  | granted {peer : Pubkey} {now : Instant} (admitted : (limiter.checkAndIncrement peer now).2 = true) :
      Asked limiter (limiter.checkAndIncrement peer now).1 (some peer)

theorem limited_asked {limiter' : RepairRateLimiter} {served : Option Pubkey} (held : Limited most limiter)
    (positive : 0 < most) (asked : limiter.Asked limiter' served) : Limited most limiter' := by
  cases asked with
  | unasked => exact held
  | idle peer now => exact limited_checkAndIncrement held positive peer now
  | granted => exact limited_checkAndIncrement held positive _ _

theorem remembers_asked {limiter' : RepairRateLimiter} {served : Option Pubkey} {peer : Pubkey} {start : Instant}
    {admitted : Nat} (held : Limited most limiter) (positive : 0 < most)
    (remembers : limiter.Remembers peer start admitted) (asked : limiter.Asked limiter' served)
    (stays : limiter'.InWindow peer start) :
    limiter'.Remembers peer start (admitted + if served = some peer then 1 else 0) := by
  cases asked with
  | unasked => exact remembers
  | idle checked now =>
    refine (remembers_checkAndIncrement held positive remembers stays).mono ?_
    exact Nat.le_add_right admitted _
  | @granted checked now granted =>
    have counted := remembers_checkAndIncrement held positive remembers stays
    simp only [granted, and_true] at counted
    simpa only [Option.some.injEq] using counted

end RepairRateLimiter

end Lightbringer.Overlay
