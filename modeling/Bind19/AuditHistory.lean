/-
**The audit log as a window on a chain.**

What the log is for is a complete record: every event since it was last emptied, in the order of
the triggers, each entry carrying the digest of the one before.  That record is the *chain* of this
module. It is unbounded, and the log of `Bind19.AuditLog` is an implementation of it that forgets:
it keeps the last entries of the chain, the digest the chain ends in and the length of the chain.

The implementation is proved to represent the chain after every run.  Its chain check is then a
statement about a window of the chain.  The check starts at the zero digest, where the chain starts
and the window does not, so that it accepts the log exactly as long as nothing has been forgotten.

Main definitions:

* `Bind19.AuditChain.chain` — the entries for a list of events;
* `Bind19.CatastrophicAuditLog.Represents` — a log stands for the events since it was emptied;
* `Bind19.AuditOp.eventsSinceClear` — the events that a run leaves on record.

Main results:

* `Bind19.AuditChain.linked_chain` — the chain is verified from the zero digest;
* `Bind19.CatastrophicAuditLog.represents_run` — **the log represents the chain after every run**;
* `Bind19.CatastrophicAuditLog.verifyChain_run_iff` — **the chain check accepts the log exactly as
  long as the window is the whole chain**.
-/

import Bind19.AuditLog
import Mathlib.Data.List.DropRight

set_option relaxedAutoImplicit false
set_option autoImplicit false

namespace Bind19

open ByteLayout

variable (sha256 : List UInt8 → Digest)

/-- The hash function never gives the digest that stands for the start of the chain. -/
def NeverZero : Prop := ∀ bs, sha256 bs ≠ zeroDigest

/-! ### The chain -/

namespace AuditChain

/-- The digest the entries end in. -/
abbrev lastHash (entries : List AuditEntry) : Digest :=
  HashChain.endHash AuditEntry.hash zeroDigest entries

/-- The entries followed by the one for an event. -/
def extend (entries : List AuditEntry) (event : CatastrophicEvent) : List AuditEntry :=
  entries ++ [AuditEntry.new sha256 (UInt64.ofNat entries.length) event (lastHash entries)]

/-- **The chain of a list of events**: one entry for each. -/
def chain (events : List CatastrophicEvent) : List AuditEntry :=
  events.foldl (extend sha256) []

theorem chain_concat (events : List CatastrophicEvent) (event : CatastrophicEvent) :
    chain sha256 (events ++ [event]) = extend sha256 (chain sha256 events) event := by
  rw [chain, List.foldl_append]
  rfl

@[simp] theorem length_chain (events : List CatastrophicEvent) :
    (chain sha256 events).length = events.length := by
  induction events using List.reverseRecOn with
  | nil => rfl
  | append_singleton events event ih =>
      rw [chain_concat, extend, List.length_append, ih, List.length_append]
      rfl

/-- The entries of a chain are for its events, in order. -/
theorem map_event_chain (events : List CatastrophicEvent) :
    (chain sha256 events).map AuditEntry.event = events := by
  induction events using List.reverseRecOn with
  | nil => rfl
  | append_singleton events event ih =>
      rw [chain_concat, extend, List.map_append, ih]
      rfl

/-- The entries of a chain are numbered from zero. -/
theorem map_sequence_chain (events : List CatastrophicEvent) :
    (chain sha256 events).map AuditEntry.sequence =
      (List.range events.length).map UInt64.ofNat := by
  induction events using List.reverseRecOn with
  | nil => rfl
  | append_singleton events event ih =>
      rw [chain_concat, extend, List.map_append, ih, length_chain, List.length_append,
        List.length_singleton, List.range_succ, List.map_append]
      rfl

/-- The chain is verified from the zero digest. -/
theorem linked_chain (events : List CatastrophicEvent) :
    CatastrophicAuditLog.Chained sha256 zeroDigest (chain sha256 events) := by
  induction events using List.reverseRecOn with
  | nil => exact HashChain.linked_nil _ _ _ _
  | append_singleton events event ih =>
      rw [chain_concat, extend]
      refine (HashChain.linked_concat _ _ _ _ _ _).2 ⟨ih, ?_, rfl⟩
      exact AuditEntry.verifyHash_new sha256 _ event _

end AuditChain

/-- A verified entry does not have the start value for its digest. -/
theorem AuditEntry.hash_ne_zeroDigest {sha256 : List UInt8 → Digest} (hzero : NeverZero sha256)
    {entry : AuditEntry} (h : entry.verifyHash sha256 = true) : entry.hash ≠ zeroDigest := by
  rw [← (AuditEntry.verifyHash_iff sha256 entry).1 h]
  exact hzero _

/-! ### Representation -/

namespace CatastrophicAuditLog

/-- The log stands for `events`, out of `triggers` triggers in all. -/
structure Represents (log : CatastrophicAuditLog) (events : List CatastrophicEvent)
    (triggers : ℕ) : Prop where
  entries : log.entries = (AuditChain.chain sha256 events).rtake auditLogMaxEntries
  nextSequence : log.nextSequence = UInt64.ofNat events.length
  lastHash : log.lastHash = AuditChain.lastHash (AuditChain.chain sha256 events)
  totalTriggers : log.totalTriggers = UInt64.ofNat triggers

/-- Rotation keeps the log a window on the last entries. -/
theorem rotate_rtake (entries : List AuditEntry) (entry : AuditEntry) :
    rotate (entries.rtake auditLogMaxEntries ++ [entry]) =
      (entries ++ [entry]).rtake auditLogMaxEntries := by
  rw [rotate, List.rtake, List.rtake, List.length_append, List.length_append, List.length_drop]
  by_cases hfull : entries.length < auditLogMaxEntries
  · -- nothing is dropped on either side
    rw [if_neg (by simp only [List.length_singleton]; omega), Nat.sub_eq_zero_of_le (by omega),
      Nat.sub_eq_zero_of_le (by simp only [List.length_singleton]; omega), List.drop_zero,
      List.drop_zero]
  · have hpos : 0 < auditLogMaxEntries := by decide
    rw [if_pos (by simp only [List.length_singleton]; omega), List.eraseIdx_zero,
      List.drop_append_of_le_length (by simp only [List.length_singleton]; omega),
      List.length_singleton, Nat.sub_add_comm (by omega), ← List.tail_drop,
      List.tail_append_of_ne_nil]
    rw [Ne, List.drop_eq_nil_iff]
    omega

variable {sha256} {log : CatastrophicAuditLog} {events : List CatastrophicEvent} {triggers : ℕ}

theorem represents_new : Represents sha256 new [] 0 where
  entries := (List.rtake_nil _).symm
  nextSequence := rfl
  lastHash := rfl
  totalTriggers := rfl

/-- The next entry of a log is the next entry of its chain. -/
theorem Represents.nextEntry (h : Represents sha256 log events triggers)
    (event : CatastrophicEvent) :
    AuditChain.chain sha256 events ++ [log.nextEntry sha256 event] =
      AuditChain.chain sha256 (events ++ [event]) := by
  rw [CatastrophicAuditLog.nextEntry, h.nextSequence, h.lastHash, AuditChain.chain_concat,
    AuditChain.extend, AuditChain.length_chain]

/-- An append is one more event on record. -/
theorem Represents.append (h : Represents sha256 log events triggers)
    (event : CatastrophicEvent) :
    Represents sha256 (log.append sha256 event).2 (events ++ [event]) (triggers + 1) := by
  constructor
  · rw [← h.nextEntry event, ← rotate_rtake, ← h.entries]
    rfl
  · rw [List.length_append, List.length_singleton, UInt64.ofNat_add, ← h.nextSequence]
    rfl
  · rw [← h.nextEntry event, AuditChain.lastHash, HashChain.endHash_concat]
    rfl
  · rw [UInt64.ofNat_add, ← h.totalTriggers]
    rfl

/-- Clearing forgets the events and keeps the count. -/
theorem Represents.clear (h : Represents sha256 log events triggers) :
    Represents sha256 log.clear [] triggers where
  entries := (List.rtake_nil _).symm
  nextSequence := rfl
  lastHash := rfl
  totalTriggers := h.totalTriggers

end CatastrophicAuditLog

/-! ### Runs -/

namespace AuditOp

/-- The events on record after one more operation. -/
def recordEvents (events : List CatastrophicEvent) : AuditOp → List CatastrophicEvent
  | .append event => events ++ [event]
  | .clear => []

/-- The number of triggers after one more operation. -/
def countTriggers (triggers : ℕ) : AuditOp → ℕ
  | .append _ => triggers + 1
  | .clear => triggers

/-- The events appended since the last `clear`. -/
def eventsSinceClear (ops : List AuditOp) : List CatastrophicEvent := ops.foldl recordEvents []

/-- The number of events ever appended. -/
def triggers (ops : List AuditOp) : ℕ := ops.foldl countTriggers 0

end AuditOp

namespace CatastrophicAuditLog

variable {sha256} {log : CatastrophicAuditLog} {events : List CatastrophicEvent} {triggers : ℕ}

/-- What one operation does to the log, it does to the events on record. -/
theorem Represents.apply (h : Represents sha256 log events triggers) (op : AuditOp) :
    Represents sha256 (log.apply sha256 op) (op.recordEvents events)
      (op.countTriggers triggers) := by
  cases op with
  | append event => exact h.append event
  | clear => exact h.clear

variable (sha256)

/-- **The log represents the chain of the events since the last `clear`, after every run.** -/
theorem represents_run (ops : List AuditOp) :
    Represents sha256 (run sha256 ops) (AuditOp.eventsSinceClear ops) (AuditOp.triggers ops) := by
  induction ops using List.reverseRecOn with
  | nil => exact represents_new
  | append_singleton ops op ih =>
      rw [run, AuditOp.eventsSinceClear, AuditOp.triggers, List.foldl_concat, List.foldl_concat,
        List.foldl_concat]
      exact ih.apply op

variable {sha256}

/-- **The chain check is a check of the window.**  It accepts a log exactly when no event on record
has been forgotten. -/
theorem Represents.verifyChain_iff (h : Represents sha256 log events triggers)
    (hzero : NeverZero sha256) :
    log.verifyChain sha256 = true ↔ events.length ≤ auditLogMaxEntries := by
  have hstart : ∀ e ∈ AuditChain.chain sha256 events, e.hash ≠ zeroDigest := by
    intro e he
    exact AuditEntry.hash_ne_zeroDigest hzero
      (HashChain.Linked.ok_of_mem (AuditChain.linked_chain sha256 events) he)
  have hpos : 0 < auditLogMaxEntries := by decide
  rw [verifyChain_iff_linked, h.entries, Chained, List.rtake,
    HashChain.linked_drop_iff (AuditChain.linked_chain sha256 events) hstart,
    AuditChain.length_chain]
  omega

end CatastrophicAuditLog

/-! ### A log of two events -/

/-- A hard override as a sender reports it. -/
def sampleEvent : CatastrophicEvent :=
  { timestamp := 1700000000
    timestampNanos := 250
    pfpBytes := (PfpHeader.new .executive .catastrophic .moving .criticalEdge .external
      .hardOverride true).encode
    seqCounter := none
    sensorContext := none
    source := "tuck" }

/-- The same override one second later. -/
def laterEvent : CatastrophicEvent := { sampleEvent with timestamp := 1700000001 }

/-- A digest, as it is usually printed. -/
def digestOfNat (n : ℕ) : Digest := ⟨(beBytes digestSize n).toArray, by simp⟩

/-- The SHA-256 digests of the two events, of the entries of a log that records both, and of the
entry of a log that records the later one only.  Every other byte string has the digest of all
ones. -/
def sampleSha256 (bs : List UInt8) : Digest :=
  let sampleHash :=
    digestOfNat 0x3178d4f865c24a40c6a3519745a36586bf7cec5697c0bc1763556c12ccaf2e0f
  let laterHash :=
    digestOfNat 0xad8811892004a58f3eee80635e6f42c8d9c5b724d6fab7946177d43f7f718241
  let firstHash :=
    digestOfNat 0xf437b030ab78e71e601fecb371acb058739d6a720226a4ff30ee393a1fc17fa4
  if bs = sampleEvent.bytes then sampleHash
  else if bs = laterEvent.bytes then laterHash
  else if bs = AuditEntry.record 0 sampleHash zeroDigest then firstHash
  else if bs = AuditEntry.record 1 laterHash firstHash then
    digestOfNat 0x7b057c39107e226fde2362294f8869a1aea1a24e8b7f35c53a5a6e306d998dd6
  else if bs = AuditEntry.record 0 laterHash zeroDigest then
    digestOfNat 0x9a0004c0eaf1a4fd2a481578ae4a49ad02b5ff600c333aeb2da97a6892c200ac
  else Vector.replicate digestSize 0xFF

theorem neverZero_sampleSha256 : NeverZero sampleSha256 := by
  intro bs
  unfold sampleSha256
  dsimp only
  split_ifs <;> decide

/-! ### When the chain check accepts -/

namespace CatastrophicAuditLog

/-- **When the chain check accepts.**  After any run, the check accepts the log exactly when at most
`auditLogMaxEntries` events were appended since the last `clear`. -/
theorem verifyChain_run_iff {sha256 : List UInt8 → Digest} (hzero : NeverZero sha256)
    (ops : List AuditOp) :
    (run sha256 ops).verifyChain sha256 = true ↔
      (AuditOp.eventsSinceClear ops).length ≤ auditLogMaxEntries :=
  (represents_run sha256 ops).verifyChain_iff hzero

/-- The chain check accepts the log of the two events. -/
theorem verifyChain_run_iff_sample :
    (run sampleSha256 [.append sampleEvent, .append laterEvent]).verifyChain sampleSha256 = true ↔
      [sampleEvent, laterEvent].length ≤ auditLogMaxEntries :=
  verifyChain_run_iff neverZero_sampleSha256 [.append sampleEvent, .append laterEvent]

/-- A run of appends leaves all its events on record. -/
theorem eventsSinceClear_map_append (events : List CatastrophicEvent) :
    AuditOp.eventsSinceClear (events.map .append) = events := by
  induction events using List.reverseRecOn with
  | nil => rfl
  | append_singleton events event ih =>
      rw [AuditOp.eventsSinceClear, List.map_append, List.foldl_append]
      rw [AuditOp.eventsSinceClear] at ih
      rw [ih]
      rfl

/-- One append more than the log holds, on a log that was never cleared. -/
def rotatedOps : List AuditOp :=
  (List.replicate (auditLogMaxEntries + 1) sampleEvent).map .append

/-- The chain check refuses a log that has rotated once, for every hash function. -/
theorem verifyChain_rotatedOps :
    NeverZero sampleSha256 ∧ ∀ sha256, NeverZero sha256 →
      (run sha256 rotatedOps).verifyChain sha256 = false := by
  refine ⟨neverZero_sampleSha256, fun sha256 hzero => ?_⟩
  have hiff := (represents_run sha256 rotatedOps).verifyChain_iff hzero
  rw [rotatedOps, eventsSinceClear_map_append, List.length_replicate, ← rotatedOps] at hiff
  rw [← Bool.not_eq_true, hiff]
  omega

end CatastrophicAuditLog

end Bind19
