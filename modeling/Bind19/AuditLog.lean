/-
**The audit log of hard-override events.**

Every catastrophic trigger is recorded.  An event is serialised and hashed; the log entry hashes a
sequence number, the digest of the event and the digest of the entry before it, so that the entries
form a chain.  The log keeps the most recent `auditLogMaxEntries` entries in memory, together with
the next sequence number, the digest of the last entry and a count of all triggers.

SHA-256 comes from outside the repository.  It is a parameter here: a function from byte strings to
digests.  A call of the incremental interface that feeds several fields one after the other hashes
their concatenation.  The two counters of the log are 64-bit words that wrap around.

Main definitions:

* `Bind19.CatastrophicEvent`, `Bind19.CatastrophicEvent.hash` — the event and its digest;
* `Bind19.AuditEntry.new`, `Bind19.AuditEntry.verifyHash` — an entry of the chain;
* `Bind19.CatastrophicAuditLog` with `new`, `append`, `verifyChain`, `clear`, …;
* `Bind19.AuditOp`, `Bind19.CatastrophicAuditLog.run` — a sequence of operations on a new log.

Main results:

* `Bind19.AuditEntry.verifyHash_new` — a new entry is verified;
* `Bind19.CatastrophicAuditLog.verifyChain_iff_linked` — verification accepts the chains that start
  at the zero digest, and no other entries.
-/

import Bind19.ByteLayout
import Bind19.HashChain
import Bind19.Pfp

set_option relaxedAutoImplicit false
set_option autoImplicit false

namespace Bind19

open ByteLayout

/-- The most entries the log keeps in memory. -/
def auditLogMaxEntries : ℕ := 10000

/-- The size of a digest in bytes. -/
abbrev digestSize : ℕ := 32

/-- A SHA-256 digest. -/
abbrev Digest := Vector UInt8 digestSize

/-- The digest that stands before the first entry. -/
def zeroDigest : Digest := Vector.replicate digestSize 0

/-! ### Events -/

/-- A hard-override event. -/
structure CatastrophicEvent where
  timestamp : UInt64
  timestampNanos : UInt32
  pfpBytes : Vector UInt8 pfpSize
  seqCounter : Option UInt16
  sensorContext : Option (List UInt8)
  source : String
  deriving DecidableEq

variable (sha256 : List UInt8 → Digest)

namespace CatastrophicEvent

/-- The fields of an event in the order in which they are hashed.  A missing sequence counter is
hashed as two zero bytes, a missing sensor context as nothing. -/
def bytes (event : CatastrophicEvent) : List UInt8 :=
  leBytes 8 event.timestamp.toNat ++ leBytes 4 event.timestampNanos.toNat ++
    event.pfpBytes.toList ++
    (match event.seqCounter with
      | some seq => leBytes 2 seq.toNat
      | none => [0, 0]) ++
    (match event.sensorContext with
      | some ctx => ctx
      | none => []) ++
    event.source.toByteArray.data.toList

/-- The digest of an event. -/
def hash (event : CatastrophicEvent) : Digest := sha256 event.bytes

end CatastrophicEvent

/-! ### Entries -/

/-- An entry of the audit log. -/
structure AuditEntry where
  sequence : UInt64
  event : CatastrophicEvent
  prevHash : Digest
  hash : Digest
  deriving DecidableEq

namespace AuditEntry

/-- What the digest of an entry covers: the sequence number, the digest of the event and the digest
of the entry before. -/
def record (sequence : UInt64) (eventHash prevHash : Digest) : List UInt8 :=
  leBytes 8 sequence.toNat ++ eventHash.toList ++ prevHash.toList

/-- The entry for an event. -/
def new (sequence : UInt64) (event : CatastrophicEvent) (prevHash : Digest) : AuditEntry :=
  { sequence, event, prevHash, hash := sha256 (record sequence (event.hash sha256) prevHash) }

/-- Whether the digest of an entry is the one its fields give. -/
def verifyHash (entry : AuditEntry) : Bool :=
  sha256 (record entry.sequence (entry.event.hash sha256) entry.prevHash) == entry.hash

theorem verifyHash_iff (entry : AuditEntry) : entry.verifyHash sha256 = true ↔
    sha256 (record entry.sequence (entry.event.hash sha256) entry.prevHash) = entry.hash :=
  beq_iff_eq

/-- A new entry is verified. -/
@[simp] theorem verifyHash_new (sequence : UInt64) (event : CatastrophicEvent) (prev : Digest) :
    (new sha256 sequence event prev).verifyHash sha256 = true := beq_self_eq_true _

end AuditEntry

/-! ### The log -/

/-- The audit log. -/
structure CatastrophicAuditLog where
  entries : List AuditEntry
  nextSequence : UInt64
  lastHash : Digest
  totalTriggers : UInt64
  deriving DecidableEq

namespace CatastrophicAuditLog

/-- The empty log. -/
def new : CatastrophicAuditLog :=
  { entries := [], nextSequence := 0, lastHash := zeroDigest, totalTriggers := 0 }

/-- The oldest entry gives way once there are too many. -/
def rotate (entries : List AuditEntry) : List AuditEntry :=
  if entries.length > auditLogMaxEntries then entries.eraseIdx 0 else entries

/-- The entry the log would record next for an event. -/
def nextEntry (log : CatastrophicAuditLog) (event : CatastrophicEvent) : AuditEntry :=
  AuditEntry.new sha256 log.nextSequence event log.lastHash

/-- Record an event: the last entry of the log afterwards, and the log. -/
def append (log : CatastrophicAuditLog) (event : CatastrophicEvent) :
    Option AuditEntry × CatastrophicAuditLog :=
  let entry := log.nextEntry sha256 event
  let entries := rotate (log.entries ++ [entry])
  (entries.getLast?,
    { entries
      nextSequence := log.nextSequence + 1
      lastHash := entry.hash
      totalTriggers := log.totalTriggers + 1 })

/-- The most recent entry. -/
def last (log : CatastrophicAuditLog) : Option AuditEntry := log.entries.getLast?

/-- The loop of the chain check, at the digest of the entry before. -/
def verifyChainFrom (prevHash : Digest) : List AuditEntry → Bool
  | [] => true
  | entry :: entries =>
      if !entry.verifyHash sha256 then false
      else if entry.prevHash ≠ prevHash then false
      else verifyChainFrom entry.hash entries

/-- The chain check: every entry has the digest of its fields and refers to the one before. -/
def verifyChain (log : CatastrophicAuditLog) : Bool := verifyChainFrom sha256 zeroDigest log.entries

/-- Empty the log.  The count of triggers is kept. -/
def clear (log : CatastrophicAuditLog) : CatastrophicAuditLog :=
  { log with entries := [], nextSequence := 0, lastHash := zeroDigest }

end CatastrophicAuditLog

/-- The operations that change the log. -/
inductive AuditOp
  | append (event : CatastrophicEvent)
  | clear
  deriving DecidableEq

namespace CatastrophicAuditLog

/-- The log after one operation. -/
def apply (log : CatastrophicAuditLog) : AuditOp → CatastrophicAuditLog
  | .append event => (log.append sha256 event).2
  | .clear => log.clear

/-- The log after a sequence of operations on a new log. -/
def run (ops : List AuditOp) : CatastrophicAuditLog := ops.foldl (apply sha256) new

/-! ### What verification accepts -/

/-- The entries form a verified chain from a digest. -/
abbrev Chained (start : Digest) (entries : List AuditEntry) : Prop :=
  HashChain.Linked AuditEntry.prevHash AuditEntry.hash (fun e => e.verifyHash sha256 = true) start
    entries

theorem verifyChainFrom_iff (start : Digest) (entries : List AuditEntry) :
    verifyChainFrom sha256 start entries = true ↔ Chained sha256 start entries := by
  induction entries generalizing start with
  | nil => simp [verifyChainFrom]
  | cons entry entries ih =>
      unfold Chained at ih ⊢
      rw [verifyChainFrom, HashChain.linked_cons, ← ih]
      by_cases hok : entry.verifyHash sha256 = true <;>
        by_cases hprev : entry.prevHash = start <;> simp [hok, hprev]

/-- **What verification accepts**: the chains that start at the zero digest. -/
theorem verifyChain_iff_linked (log : CatastrophicAuditLog) :
    log.verifyChain sha256 = true ↔ Chained sha256 zeroDigest log.entries :=
  verifyChainFrom_iff sha256 zeroDigest log.entries

end CatastrophicAuditLog

end Bind19
