/-
**What the audit log holds.**

Four things in the log summarise a history that it does not keep: the retained entries, the next
sequence number, the digest of the last entry and the count of triggers.  They are updated
separately; rotation touches the first only, and emptying the log resets all but the last.

Here the entries that an append returns are collected, until the log is emptied.  The collection is
the chain of `Bind19.AuditHistory`, and after every run the log is the summary of it that it is
meant to be.

Main definitions:

* `Bind19.AuditTrail` — the log, and the entries appended since it was last emptied;
* `Bind19.AuditTrail.Summary` — the log is a summary of them.

Main results:

* `Bind19.AuditTrail.run_appended` — the appended entries are the chain of their events;
* `Bind19.AuditTrail.run_window` — **what the log holds after every run**.
-/

import Bind19.AuditHistory

set_option relaxedAutoImplicit false
set_option autoImplicit false

namespace Bind19

variable (sha256 : List UInt8 → Digest)

/-! ### The appended entries -/

/-- The log, and the entries that were appended since it was last emptied. -/
structure AuditTrail where
  log : CatastrophicAuditLog
  appended : List AuditEntry

namespace AuditTrail

/-- A new log. -/
def new : AuditTrail := { log := CatastrophicAuditLog.new, appended := [] }

/-- One operation.  An append returns the entry that it has made. -/
def apply (trail : AuditTrail) : AuditOp → AuditTrail
  | .append event =>
      let (entry, log) := trail.log.append sha256 event
      { log, appended := trail.appended ++ entry.toList }
  | .clear => { log := trail.log.clear, appended := [] }

/-- A run on a new log. -/
def run (ops : List AuditOp) : AuditTrail := ops.foldl (apply sha256) new

end AuditTrail

/-- The entry that is added last survives rotation. -/
theorem CatastrophicAuditLog.getLast?_rotate (entries : List AuditEntry) (entry : AuditEntry) :
    (rotate (entries ++ [entry])).getLast? = some entry := by
  unfold rotate
  split
  · rename_i hfull
    cases entries with
    | nil => simp [auditLogMaxEntries] at hfull
    | cons e es => rw [List.cons_append, List.eraseIdx_zero, List.tail_cons, List.getLast?_concat]
  · exact List.getLast?_concat

/-- An append returns the entry for its event. -/
theorem CatastrophicAuditLog.append_fst (log : CatastrophicAuditLog) (event : CatastrophicEvent) :
    (log.append sha256 event).1 = some (log.nextEntry sha256 event) := getLast?_rotate _ _

namespace AuditTrail

/-- The log of a trail is the log after the run. -/
theorem run_log (ops : List AuditOp) :
    (run sha256 ops).log = CatastrophicAuditLog.run sha256 ops := by
  induction ops using List.reverseRecOn with
  | nil => rfl
  | append_singleton ops op ih =>
      rw [run, CatastrophicAuditLog.run, List.foldl_concat, List.foldl_concat, ← run,
        ← CatastrophicAuditLog.run, ← ih]
      cases op with
      | append event => rfl
      | clear => rfl

/-- The appended entries are the chain of their events. -/
theorem run_appended (ops : List AuditOp) :
    (run sha256 ops).appended = AuditChain.chain sha256 (AuditOp.eventsSinceClear ops) := by
  induction ops using List.reverseRecOn with
  | nil => rfl
  | append_singleton ops op ih =>
      rw [run, AuditOp.eventsSinceClear, List.foldl_concat, List.foldl_concat, ← run,
        ← AuditOp.eventsSinceClear]
      cases op with
      | clear => rfl
      | append event =>
          rw [AuditOp.recordEvents,
            ← (CatastrophicAuditLog.represents_run sha256 ops).nextEntry event, ← ih, ← run_log]
          exact congrArg _ (congrArg Option.toList
            (CatastrophicAuditLog.append_fst sha256 (run sha256 ops).log event))

/-! ### The window -/

/-- The last numbers below `m`. -/
theorem rtake_range (m n : ℕ) : (List.range m).rtake n = List.range' (m - min m n) (min m n) := by
  rw [List.rtake, List.length_range, List.range_eq_range', List.drop_range']
  congr 1 <;> omega

theorem map_rtake {B : Type} (f : AuditEntry → B) (entries : List AuditEntry) (n : ℕ) :
    (entries.rtake n).map f = (entries.map f).rtake n := by
  rw [List.rtake, List.rtake, List.map_drop, List.length_map]

/-- The log is a summary of the appended entries, which are those for `events`, out of `triggers`
triggers in all. -/
structure Summary (trail : AuditTrail) (events : List CatastrophicEvent) (triggers : ℕ) : Prop where
  event : trail.appended.map AuditEntry.event = events
  /-- The last entries are retained, as many as there is room for. -/
  entries : trail.log.entries = trail.appended.rtake auditLogMaxEntries
  retained : trail.log.entries.map AuditEntry.event = events.rtake auditLogMaxEntries
  length : trail.log.entries.length = min events.length auditLogMaxEntries
  /-- Their numbers are consecutive and end at the number of events less one. -/
  sequence : trail.log.entries.map AuditEntry.sequence =
    (List.range' (events.length - min events.length auditLogMaxEntries)
      (min events.length auditLogMaxEntries)).map UInt64.ofNat
  verified : ∀ e ∈ trail.log.entries, e.verifyHash sha256 = true
  first : ∀ e, trail.appended[0]? = some e → e.prevHash = zeroDigest
  /-- Every other entry refers to the one appended before it, be it retained or not. -/
  linked : ∀ i e e', trail.appended[i]? = some e → trail.appended[i + 1]? = some e' →
    e'.prevHash = e.hash
  lastHash : trail.log.lastHash = (trail.appended.getLast?.map AuditEntry.hash).getD zeroDigest
  totalTriggers : trail.log.totalTriggers = UInt64.ofNat triggers

/-- **What the log holds after every run.**  Let `m` events have been appended since the log was
last emptied.  The log holds the entries for the last of them, as many as it has room for, in order,
and their sequence numbers are consecutive and end at `m - 1`.  Every retained entry is verified;
the first entry that was appended refers to the zero digest, and every other one to the entry that
was appended before it, be it retained or not.  The digest of the last entry is kept, or the zero
digest if there is none, and the count of triggers is that of all appends ever made. -/
theorem run_window (ops : List AuditOp) :
    (run sha256 ops).log = CatastrophicAuditLog.run sha256 ops ∧
      Summary sha256 (run sha256 ops) (AuditOp.eventsSinceClear ops) (AuditOp.triggers ops) := by
  have h := CatastrophicAuditLog.represents_run sha256 ops
  have hchain := AuditChain.linked_chain sha256 (AuditOp.eventsSinceClear ops)
  have hevents := AuditChain.map_event_chain sha256 (AuditOp.eventsSinceClear ops)
  have hsequence := AuditChain.map_sequence_chain sha256 (AuditOp.eventsSinceClear ops)
  rw [← run_log] at h
  rw [← run_appended] at hchain hevents hsequence
  have hentries : (run sha256 ops).log.entries =
      (run sha256 ops).appended.rtake auditLogMaxEntries := by
    rw [run_appended]
    exact h.entries
  have hlength : (run sha256 ops).appended.length = (AuditOp.eventsSinceClear ops).length := by
    rw [run_appended, AuditChain.length_chain]
  refine ⟨run_log sha256 ops, ?_⟩
  constructor
  case event => exact hevents
  case entries => exact hentries
  case retained => rw [hentries, map_rtake, hevents]
  case length =>
    rw [hentries, List.rtake, List.length_drop, hlength]
    omega
  case sequence =>
    rw [hentries, map_rtake, hsequence, ← rtake_range, List.rtake, List.rtake, List.map_drop,
      List.length_map]
  case verified =>
    intro e he
    rw [hentries] at he
    exact hchain.ok_of_mem (List.mem_of_mem_drop he)
  case first =>
    intro e he
    exact hchain.prev_of_getElem?_zero he
  case linked =>
    intro i e e' he he'
    exact hchain.prev_of_getElem?_succ he he'
  case lastHash =>
    rw [run_appended]
    exact h.lastHash
  case totalTriggers => exact h.totalTriggers

end AuditTrail

end Bind19
