import Lightbringer.GrpcSlotStream.ShredSource
import Lightbringer.Lib.Machine
import Lightbringer.Util.Completeness

/-!
# Broadcasting slots

The task of `SlotStreamService::new`: each slot of a source is deshredded, held against the blockhash expected of it, if
any, and broadcast to the subscribers.
-/

namespace Lightbringer.GrpcSlotStream
open Alpenglow Util Store Machine

/-- The hash of an entry, and the entry as it goes to the subscribers. -/
class GrpcEntries [SolanaEntries] where
  hash : SolanaEntries.Entry → Hash
  /-- `slot_entry::Entry`. -/
  Entry : Type
  into : SolanaEntries.Entry → Entry

/-- What is broadcast: the entries, the slot and its parent. -/
abbrev Message [SolanaEntries] [GrpcEntries] := List GrpcEntries.Entry × UInt64 × UInt64

inductive Handled [SolanaEntries] [GrpcEntries] where
  | broadcast (message : Message)
  | skipped
  /-- The task unwraps the result of a call that panicked. -/
  | panicked

/-- `last_hash.and_then(|h| Some(h != expected?)).unwrap_or_default()`. -/
def hashMismatch (lastHash expectedBlockhash : Option Hash) : Bool :=
  (lastHash.bind (fun h => expectedBlockhash.bind (fun expected => some (h != expected)))).getD false

theorem hashMismatch_iff {lastHash : Hash} {expected : Hash} :
    hashMismatch (some lastHash) (some expected) = false ↔ lastHash = expected := by
  simp [hashMismatch]

/-- With no entry there is no hash to compare. -/
theorem hashMismatch_none (expectedBlockhash : Option Hash) : hashMismatch none expectedBlockhash = false := rfl

section

variable [SolanaLedger] [SolanaEntries] [GrpcEntries]

variable {Shred : Type} (shredBytes : Shred → List UInt8)

def deshredded (slotRaw : SlotForGrpc Shred) : Except Stop (List SolanaEntries.Entry × UInt64) :=
  getSlotEntriesAndParentSlotFromRawShreds (slotRaw.shreds.map shredBytes)

def handleSlot (slotRaw : SlotForGrpc Shred) : Handled :=
  match deshredded shredBytes slotRaw with
  | .error .panic => .panicked
  | .error (.err _) => .skipped
  | .ok (entries, parentSlot) =>
    if hashMismatch (entries.getLast?.map GrpcEntries.hash) slotRaw.expectedBlockhash then .skipped
    else .broadcast (entries.map GrpcEntries.into, slotRaw.slot, parentSlot)

/-- A slot comes from the source, while the task runs. -/
def serviceStep (running : Bool) (slotRaw : SlotForGrpc Shred) : Bool × List (SlotForGrpc Shred × Message) :=
  if running then
    match handleSlot shredBytes slotRaw with
    | .broadcast message => (true, [(slotRaw, message)])
    | .skipped => (true, [])
    | .panicked => (false, [])
  else (false, [])

/-- Where a blockhash is expected, the slot was deshredded to entries the last of which has it. -/
def Confirmed (slotRaw : SlotForGrpc Shred) : Prop :=
  ∀ expected, slotRaw.expectedBlockhash = some expected →
    ∃ entries parentSlot last, deshredded shredBytes slotRaw = .ok (entries, parentSlot) ∧ entries.getLast? = some last ∧
      GrpcEntries.hash last = expected

/-- A blockhash is expected of a slot that is deshredded to no entries at all. -/
def Hollow (slotRaw : SlotForGrpc Shred) : Prop :=
  slotRaw.expectedBlockhash.isSome = true ∧ ∃ parentSlot, deshredded shredBytes slotRaw = .ok ([], parentSlot)

omit [GrpcEntries] in
/-- What makes a slot hollow, said of its shreds: no set of it closes a group, or no closed group holds an entry. -/
theorem hollow_iff (slotRaw : SlotForGrpc Shred) :
    Hollow shredBytes slotRaw ↔ slotRaw.expectedBlockhash.isSome = true ∧
      ∃ shreds groups last, Reads (slotRaw.shreds.map shredBytes) shreds ∧ Grouping (slotSets shreds) groups last ∧
        ParentsRead 0 groups ∧ ∀ group ∈ groups, deshredToEntries group = .ok [] :=
  and_congr_right (fun _ => no_entries_iff (slotRaw.shreds.map shredBytes))

theorem handleSlot_broadcast {slotRaw : SlotForGrpc Shred} :
    (∃ message, handleSlot shredBytes slotRaw = .broadcast message) ↔
      ∃ entries parentSlot, deshredded shredBytes slotRaw = .ok (entries, parentSlot) ∧
        hashMismatch (entries.getLast?.map GrpcEntries.hash) slotRaw.expectedBlockhash = false := by
  unfold handleSlot
  cases read : deshredded shredBytes slotRaw with
  | error stop => cases stop <;> simp
  | ok result =>
    obtain ⟨entries, parentSlot⟩ := result
    cases compared : hashMismatch (entries.getLast?.map GrpcEntries.hash) slotRaw.expectedBlockhash with
    | true => simp [compared]
    | false => simp [compared]

/-- A slot that is broadcast is confirmed unless it is hollow. -/
theorem confirmed_iff {slotRaw : SlotForGrpc Shred} {message : Message}
    (sent : handleSlot shredBytes slotRaw = .broadcast message) : Confirmed shredBytes slotRaw ↔ ¬ Hollow shredBytes slotRaw := by
  obtain ⟨entries, parentSlot, read, compared⟩ := (handleSlot_broadcast shredBytes).mp ⟨message, sent⟩
  constructor
  · rintro confirmed ⟨asked, otherParent, hollow⟩
    obtain ⟨expected, known⟩ := Option.isSome_iff_exists.mp asked
    obtain ⟨others, parent, last, read', ends, _⟩ := confirmed expected known
    rw [hollow] at read'
    cases read'
    cases ends
  · intro filled expected known
    cases ends : entries.getLast? with
    | none =>
      rw [List.getLast?_eq_none_iff.mp ends] at read
      exact absurd ⟨by rw [known]; rfl, parentSlot, read⟩ filled
    | some last =>
      rw [ends, known] at compared
      exact ⟨entries, parentSlot, last, read, ends, hashMismatch_iff.mp compared⟩

theorem hollow_broadcast {slotRaw : SlotForGrpc Shred} (hollow : Hollow shredBytes slotRaw) :
    ∃ message, handleSlot shredBytes slotRaw = .broadcast message := by
  obtain ⟨_, parentSlot, read⟩ := hollow
  exact (handleSlot_broadcast shredBytes).mpr ⟨[], parentSlot, read, hashMismatch_none _⟩

theorem step_confirmed_iff (running : Bool) (slotRaw : SlotForGrpc Shred) :
    (∀ sent ∈ (serviceStep shredBytes running slotRaw).2, Confirmed shredBytes sent.1) ↔
      (running = true → ¬ Hollow shredBytes slotRaw) := by
  unfold serviceStep
  cases running with
  | false => simp
  | true =>
    cases handled : handleSlot shredBytes slotRaw with
    | broadcast message => simpa using confirmed_iff shredBytes handled
    | skipped =>
      have filled : ¬ Hollow shredBytes slotRaw := by
        intro hollow
        obtain ⟨message, sent⟩ := hollow_broadcast shredBytes hollow
        rw [handled] at sent
        cases sent
      simpa using filled
    | panicked =>
      have filled : ¬ Hollow shredBytes slotRaw := by
        intro hollow
        obtain ⟨message, sent⟩ := hollow_broadcast shredBytes hollow
        rw [handled] at sent
        cases sent
      simpa using filled

/-- In a run every slot that is broadcast is confirmed exactly if none the task comes to is hollow. -/
theorem broadcasts_confirmed_iff (slots : List (SlotForGrpc Shred)) :
    (∀ sent ∈ (run (serviceStep shredBytes) true slots).2, Confirmed shredBytes sent.1) ↔
      Meets (serviceStep shredBytes) (fun running slotRaw => running = true → ¬ Hollow shredBytes slotRaw) true slots := by
  rw [forall_outputs_iff]
  exact meets_congr (fun running slotRaw => step_confirmed_iff shredBytes running slotRaw) slots

end

/-- An entry is its own hash. -/
abbrev byteGrpcEntries : @GrpcEntries byteEntries :=
  @GrpcEntries.mk byteEntries (fun entry => BitVec.ofNat 256 entry.toNat) UInt8 id

/-- A confirmed slot whose shreds the store did not have. -/
def withoutShreds : SlotForGrpc ShredInfoView := ⟨7, [], some 5⟩

/-- The slot is broadcast, with no entries, although a blockhash is expected of it. -/
theorem slot_without_entries_broadcast :
    (@run _ _ _ (@serviceStep codedLedger byteEntries byteGrpcEntries _ id) true [withoutShreds]).2 =
      [(withoutShreds, ([], 7, 0))] ∧
    ¬ @Confirmed codedLedger byteEntries byteGrpcEntries _ id withoutShreds := by
  refine ⟨rfl, ?_⟩
  intro confirmed
  obtain ⟨entries, parentSlot, last, read, ends, _⟩ := confirmed 5 rfl
  cases read
  cases ends

end Lightbringer.GrpcSlotStream
