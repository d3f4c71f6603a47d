import Mathlib.Data.List.Nodup
import Mathlib.Logic.Function.Basic

/-!
# Lines and the streams on them

Lines are kept by address and found by handle; streams are numbered over all lines, and each line knows its own by an
id that the other end chooses or grants. `Isolated` says that the two directories agree. `Steady` says of a change that
every stream that was there before it and still is has kept its line.
-/

namespace Switchboard

/-- `offers` are the ids under which the next streams may start. -/
structure Line (η κ : Type) where
  handle : η
  streams : κ → Option Nat
  offers : List κ

@[ext]
structure Board (α η κ : Type) where
  handles : η → Option α
  lines : α → Option (Line η κ)
  places : Nat → Option (α × κ)
  next : Nat

variable {α η κ : Type}

structure Isolated (b : Board α η κ) : Prop where
  handles : ∀ handle addr, b.handles handle = some addr ↔ ∃ line, b.lines addr = some line ∧ line.handle = handle
  streams : ∀ stream addr id, b.places stream = some (addr, id) ↔
    ∃ line, b.lines addr = some line ∧ line.streams id = some stream
  numbered : ∀ stream place, b.places stream = some place → stream < b.next
  offered : ∀ addr line, b.lines addr = some line → line.offers.Nodup ∧ ∀ id ∈ line.offers, line.streams id = none

def handleAt (b : Board α η κ) (addr : α) : Option η := (b.lines addr).map Line.handle

structure Steady (b b' : Board α η κ) : Prop where
  isolated : Isolated b'
  grows : b.next ≤ b'.next
  stays : ∀ stream place, b'.places stream = some place → b.next ≤ stream ∨
    b.places stream = some place ∧ handleAt b' place.1 = handleAt b place.1

variable {b b' b'' : Board α η κ}

theorem Steady.refl (held : Isolated b) : Steady b b :=
  ⟨held, Nat.le_refl _, fun _ _ placed => .inr ⟨placed, rfl⟩⟩

theorem Steady.trans (first : Steady b b') (second : Steady b' b'') : Steady b b'' := by
  refine ⟨second.isolated, Nat.le_trans first.grows second.grows, fun stream place placed => ?_⟩
  rcases second.stays stream place placed with fresh | ⟨before, same⟩
  · exact .inl (Nat.le_trans first.grows fresh)
  · rcases first.stays stream place before with fresh | ⟨earlier, kept⟩
    · exact .inl fresh
    · exact .inr ⟨earlier, same.trans kept⟩

/-! ### Lines come and go -/

variable [DecidableEq α]

section

variable [DecidableEq η]

def connect (b : Board α η κ) (peer : α) (handle : η) (offers : List κ) : Board α η κ :=
  { b with
    handles := Function.update b.handles handle (some peer)
    lines := Function.update b.lines peer (some ⟨handle, fun _ => none, offers⟩) }

theorem steady_connect (held : Isolated b) {peer : α} {handle : η} {offers : List κ} (vacant : b.lines peer = none)
    (unused : b.handles handle = none) (distinct : offers.Nodup) : Steady b (connect b peer handle offers) := by
  have apart : ∀ stream addr id, b.places stream = some (addr, id) → addr ≠ peer := by
    rintro stream addr id placed rfl
    obtain ⟨line, found, _⟩ := (held.streams stream addr id).mp placed
    rw [vacant] at found
    cases found
  refine ⟨⟨fun other addr => ?_, fun stream addr id => ?_, held.numbered, fun addr line found => ?_⟩, Nat.le_refl _, ?_⟩
  · by_cases same : other = handle
    · subst same
      constructor
      · intro found
        obtain rfl : peer = addr := by simpa [connect] using found
        exact ⟨_, Function.update_self .., rfl⟩
      · rintro ⟨line, found, own⟩
        by_cases here : addr = peer
        · subst here
          simp [connect]
        · have old : b.lines addr = some line := by simpa [connect, here] using found
          rw [(held.handles other addr).mpr ⟨line, old, own⟩] at unused
          cases unused
    · have kept : (connect b peer handle offers).handles other = b.handles other := Function.update_of_ne same _ _
      rw [kept, held.handles]
      by_cases here : addr = peer
      · subst here
        simp [connect, vacant, Ne.symm same]
      · simp [connect, here]
  · show b.places stream = some (addr, id) ↔ _
    by_cases here : addr = peer
    · subst here
      constructor
      · exact fun placed => (apart stream addr id placed rfl).elim
      · rintro ⟨line, found, listed⟩
        have fresh : ⟨handle, fun _ => none, offers⟩ = line := by simpa [connect] using found
        subst fresh
        cases listed
    · rw [held.streams]
      simp [connect, here]
  · by_cases here : addr = peer
    · subst here
      have fresh : ⟨handle, fun _ => none, offers⟩ = line := by simpa [connect] using found
      subst fresh
      exact ⟨distinct, fun _ _ => rfl⟩
    · exact held.offered addr line (by simpa [connect, here] using found)
  · rintro stream ⟨addr, id⟩ placed
    have here := apart stream addr id placed
    exact .inr ⟨placed, by simp [handleAt, connect, here]⟩

/-- The line at `peer` and the streams on it are gone. -/
def disconnect (b : Board α η κ) (peer : α) (line : Line η κ) : Board α η κ :=
  { b with
    handles := Function.update b.handles line.handle none
    lines := Function.update b.lines peer none
    places := fun stream => (b.places stream).filter (fun place => place.1 ≠ peer) }

theorem steady_disconnect (held : Isolated b) {peer : α} {line : Line η κ} (there : b.lines peer = some line) :
    Steady b (disconnect b peer line) := by
  have handled : ∀ addr other, b.lines addr = some other → other.handle = line.handle → addr = peer := by
    intro addr other found same
    have mine := (held.handles line.handle peer).mpr ⟨line, there, rfl⟩
    have theirs := (held.handles line.handle addr).mpr ⟨other, found, same⟩
    exact Option.some.inj (theirs.symm.trans mine)
  have placed : ∀ stream addr id, (disconnect b peer line).places stream = some (addr, id) ↔
      b.places stream = some (addr, id) ∧ addr ≠ peer := by
    intro stream addr id
    simp [disconnect, Option.filter_eq_some_iff]
  refine ⟨⟨fun handle addr => ?_, fun stream addr id => ?_, ?_, fun addr other found => ?_⟩, Nat.le_refl _, ?_⟩
  · by_cases same : handle = line.handle
    · subst same
      constructor
      · intro found
        simp [disconnect] at found
      · rintro ⟨other, found, own⟩
        by_cases here : addr = peer
        · subst here
          simp [disconnect] at found
        · exact (here (handled addr other (by simpa [disconnect, here] using found) own)).elim
    · have kept : (disconnect b peer line).handles handle = b.handles handle := Function.update_of_ne same _ _
      rw [kept, held.handles]
      by_cases here : addr = peer
      · subst here
        simp [disconnect, there, Ne.symm same]
      · simp [disconnect, here]
  · rw [placed, held.streams]
    by_cases here : addr = peer
    · subst here
      simp [disconnect]
    · simp [disconnect, here]
  · rintro stream ⟨addr, id⟩ still
    exact held.numbered stream _ ((placed stream addr id).mp still).1
  · by_cases here : addr = peer
    · subst here
      simp [disconnect] at found
    · exact held.offered addr other (by simpa [disconnect, here] using found)
  · rintro stream ⟨addr, id⟩ still
    obtain ⟨before, here⟩ := (placed stream addr id).mp still
    exact .inr ⟨before, by simp [handleAt, disconnect, here]⟩

end

/-! ### Streams on a line -/

/-- Other ids are on offer. -/
def offer (b : Board α η κ) (peer : α) (line : Line η κ) (offers : List κ) : Board α η κ :=
  { b with lines := Function.update b.lines peer (some { line with offers := offers }) }

theorem steady_offer (held : Isolated b) {peer : α} {line : Line η κ} (there : b.lines peer = some line)
    {offers : List κ} (distinct : offers.Nodup) (unused : ∀ id ∈ offers, line.streams id = none) :
    Steady b (offer b peer line offers) := by
  refine ⟨⟨fun handle addr => ?_, fun stream addr id => ?_, held.numbered, fun addr other found => ?_⟩, Nat.le_refl _, ?_⟩
  · show b.handles handle = some addr ↔ _
    rw [held.handles]
    by_cases here : addr = peer
    · subst here
      simp [offer, there]
    · simp [offer, here]
  · show b.places stream = some (addr, id) ↔ _
    rw [held.streams]
    by_cases here : addr = peer
    · subst here
      simp [offer, there]
    · simp [offer, here]
  · by_cases here : addr = peer
    · subst here
      have changed : { line with offers := offers } = other := by simpa [offer] using found
      subst changed
      exact ⟨distinct, unused⟩
    · exact held.offered addr other (by simpa [offer, here] using found)
  · rintro stream ⟨addr, id⟩ placed
    refine .inr ⟨placed, ?_⟩
    by_cases here : addr = peer
    · subst here
      simp [handleAt, offer, there]
    · simp [handleAt, offer, here]

variable [DecidableEq κ]

/-- A stream starts on the line at `peer`. -/
def allocate (b : Board α η κ) (peer : α) (line : Line η κ) (id : κ) : Board α η κ :=
  { b with
    lines := Function.update b.lines peer (some { line with streams := Function.update line.streams id (some b.next) })
    places := Function.update b.places b.next (some (peer, id))
    next := b.next + 1 }

theorem steady_allocate (held : Isolated b) {peer : α} {line : Line η κ} (there : b.lines peer = some line) {id : κ}
    (unused : line.streams id = none) (taken : id ∉ line.offers) : Steady b (allocate b peer line id) := by
  have unnumbered : b.places b.next = none := by
    cases placed : b.places b.next with
    | none => rfl
    | some place => exact (Nat.lt_irrefl _ (held.numbered _ place placed)).elim
  have unlisted : ∀ addr other key, b.lines addr = some other → other.streams key ≠ some b.next := by
    intro addr other key found listed
    rw [(held.streams b.next addr key).mpr ⟨other, found, listed⟩] at unnumbered
    cases unnumbered
  refine ⟨⟨fun handle addr => ?_, fun stream addr key => ?_, fun stream place placed => ?_, fun addr other found => ?_⟩,
    Nat.le_succ _, ?_⟩
  · show b.handles handle = some addr ↔ _
    rw [held.handles]
    by_cases here : addr = peer
    · subst here
      simp [allocate, there]
    · simp [allocate, here]
  · by_cases new : stream = b.next
    · subst new
      by_cases here : addr = peer
      · subst here
        by_cases same : key = id
        · subst same
          simp [allocate]
        · have old := unlisted addr line key there
          simp [allocate, same, Ne.symm same, old]
      · have old : ∀ other, b.lines addr = some other → other.streams key ≠ some b.next :=
          fun other found => unlisted addr other key found
        simpa [allocate, here, Ne.symm here] using old
    · have kept : (allocate b peer line id).places stream = b.places stream := Function.update_of_ne new _ _
      rw [kept, held.streams]
      by_cases here : addr = peer
      · subst here
        by_cases same : key = id
        · subst same
          simp [allocate, there, unused, Ne.symm new]
        · simp [allocate, there, same]
      · simp [allocate, here]
  · by_cases new : stream = b.next
    · subst new
      exact Nat.lt_succ_self _
    · have kept : b.places stream = some place := by simpa [allocate, new] using placed
      exact Nat.lt_succ_of_lt (held.numbered stream place kept)
  · by_cases here : addr = peer
    · subst here
      have changed : { line with streams := Function.update line.streams id (some b.next) } = other := by
        simpa [allocate] using found
      subst changed
      obtain ⟨distinct, none⟩ := held.offered addr line there
      refine ⟨distinct, fun key member => ?_⟩
      have apart : key ≠ id := by
        rintro rfl
        exact taken member
      show Function.update line.streams id (some b.next) key = Option.none
      rw [Function.update_of_ne apart]
      exact none key member
    · exact held.offered addr other (by simpa [allocate, here] using found)
  · rintro stream ⟨addr, key⟩ placed
    by_cases new : stream = b.next
    · exact .inl (Nat.le_of_eq new.symm)
    · refine .inr ⟨by simpa [allocate, new] using placed, ?_⟩
      by_cases here : addr = peer
      · subst here
        simp [handleAt, allocate, there]
      · simp [handleAt, allocate, here]

/-- The stream kept under `id` by the line at `peer` ends. -/
def release (b : Board α η κ) (peer : α) (line : Line η κ) (id : κ) (stream : Nat) : Board α η κ :=
  { b with
    lines := Function.update b.lines peer (some { line with streams := Function.update line.streams id none })
    places := Function.update b.places stream none }

theorem steady_release (held : Isolated b) {peer : α} {line : Line η κ} (there : b.lines peer = some line) {id : κ}
    {stream : Nat} (listed : line.streams id = some stream) : Steady b (release b peer line id stream) := by
  have own := (held.streams stream peer id).mpr ⟨line, there, listed⟩
  have sole : ∀ addr other key, b.lines addr = some other → other.streams key = some stream → addr = peer ∧ key = id := by
    intro addr other key found also
    have placed := (held.streams stream addr key).mpr ⟨other, found, also⟩
    rw [own] at placed
    cases placed
    exact ⟨rfl, rfl⟩
  refine ⟨⟨fun handle addr => ?_, fun other addr key => ?_, fun other place placed => ?_, fun addr other found => ?_⟩,
    Nat.le_refl _, ?_⟩
  · show b.handles handle = some addr ↔ _
    rw [held.handles]
    by_cases here : addr = peer
    · subst here
      simp [release, there]
    · simp [release, here]
  · by_cases ended : other = stream
    · subst ended
      constructor
      · intro placed
        simp [release] at placed
      · rintro ⟨after, found, also⟩
        by_cases here : addr = peer
        · subst here
          have changed : { line with streams := Function.update line.streams id none } = after := by
            simpa [release] using found
          subst changed
          by_cases same : key = id
          · subst same
            simp at also
          · have before : line.streams key = some other := by simpa [same] using also
            exact (same (sole addr line key there before).2).elim
        · exact (here (sole addr after key (by simpa [release, here] using found) also).1).elim
    · have kept : (release b peer line id stream).places other = b.places other := Function.update_of_ne ended _ _
      rw [kept, held.streams]
      by_cases here : addr = peer
      · subst here
        by_cases same : key = id
        · subst same
          simp [release, there, listed, Ne.symm ended]
        · simp [release, there, same]
      · simp [release, here]
  · by_cases ended : other = stream
    · subst ended
      simp [release] at placed
    · exact held.numbered other place (by simpa [release, ended] using placed)
  · by_cases here : addr = peer
    · subst here
      have changed : { line with streams := Function.update line.streams id none } = other := by
        simpa [release] using found
      subst changed
      obtain ⟨distinct, unused⟩ := held.offered addr line there
      refine ⟨distinct, fun key member => ?_⟩
      show Function.update line.streams id none key = Option.none
      rw [Function.update_apply]
      split
      · rfl
      · exact unused key member
    · exact held.offered addr other (by simpa [release, here] using found)
  · rintro other ⟨addr, key⟩ placed
    by_cases ended : other = stream
    · subst ended
      simp [release] at placed
    · refine .inr ⟨by simpa [release, ended] using placed, ?_⟩
      by_cases here : addr = peer
      · subst here
        simp [handleAt, release, there]
      · simp [handleAt, release, here]

end Switchboard
