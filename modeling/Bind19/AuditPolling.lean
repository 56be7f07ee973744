/-
**An auditor that looks at the log from time to time.**

The audit log forgets: it holds a window on the record, and the chain check accepts it only as long
as nothing has been forgotten.  An auditor that takes a snapshot now and then sees one window after
another, while calls go on handling frames on the manager and its clones.

This module shows what such an auditor can rely on.  All snapshots are windows on one record, which
is verified from the zero digest and only grows, so that two snapshots never contradict each other;
and if no more events are recorded before the first snapshot and between two snapshots than the log
holds, then every entry that was recorded up to the last of them is in one, long after the chain
check has begun to refuse the log.

Main definitions:

* `Bind19.ManagerState.recordedCount` — how many events have been recorded;
* `Bind19.ManagerState.InTime` — no more events between two snapshots than the log holds, nor
  before the first.

Main results:

* `Bind19.ManagerState.appended_of_step` — the record only grows;
* `Bind19.ManagerState.run_polled` — **what an auditor sees**.
-/

import Bind19.CatastrophicAccounting

set_option relaxedAutoImplicit false
set_option autoImplicit false

namespace Bind19

namespace ManagerState

variable {sha256 : List UInt8 → Digest} {s s' : ManagerState} {a : ManagerAction}

/-- How many events have been recorded. -/
def recordedCount (s : ManagerState) : ℕ :=
  s.threads.countP fun call => call.recordedEvent.isSome

/-- There is an entry for every recorded event. -/
theorem Accounted.length_eq (h : s.Accounted sha256) :
    s.shared.appended.length = s.recordedCount := by
  have hlength := h.recorded.length_eq
  rwa [List.length_map, List.length_filterMap_eq_countP] at hlength

/-- The record only grows. -/
theorem appended_of_step (hstep : s.step sha256 a = some s') :
    s.shared.appended <+: s'.shared.appended := by
  cases a with
  | call action =>
      rcases Threads.step_cases hstep with
        ⟨request, rfl, rfl⟩ | ⟨i, clock, call, g, call', rfl, hi, htick, rfl⟩
      · exact List.prefix_rfl
      · cases FrameCall.tick_cases htick with
        | ignore | trigger => exact List.prefix_rfl
        | send event hfrom =>
            have hsame : (s.shared.send event).appended = s.shared.appended := by
              rw [ManagerShared.send, CatastrophicEventBus.send]
              cases s.shared.manager.eventBus.receiverAlive <;> rfl
            exact hsame ▸ List.prefix_rfl
        | record event hfrom => exact List.prefix_append _ _
  | recv =>
      rw [ManagerState.step] at hstep
      cases hrecv : s.shared.manager.eventBus.recv with
      | none =>
          rw [hrecv] at hstep
          cases hstep
      | some answer =>
          rw [hrecv] at hstep
          obtain rfl := Option.some.inj hstep
          exact List.prefix_rfl
  | dropReceiver =>
      obtain rfl := Option.some.inj hstep
      exact List.prefix_rfl

/-- A snapshot is a window on any later record. -/
theorem Accounted.auditEntries_eq (h : s.Accounted sha256) {record : List AuditEntry}
    (hupto : s.shared.appended <+: record) :
    s.recordedCount ≤ record.length ∧
      s.shared.manager.auditEntries = (record.take s.recordedCount).rtake auditLogMaxEntries := by
  have hlength := h.length_eq
  refine ⟨hlength ▸ hupto.length_le, ?_⟩
  rw [CatastrophicManager.auditEntries, h.log.entries, ← h.chain, ← hlength,
    ← List.prefix_iff_eq_take.1 hupto]

/-- The chain check accepts a log that has forgotten nothing. -/
theorem Accounted.verifyAuditChain_iff (h : s.Accounted sha256) (hzero : NeverZero sha256) :
    s.shared.manager.verifyAuditChain sha256 = true ↔ s.recordedCount ≤ auditLogMaxEntries := by
  have hiff := h.log.verifyChain_iff hzero
  rwa [List.length_map, h.length_eq] at hiff

/-! ### Windows -/

/-- No more events are recorded between two snapshots than the log holds, nor before the first one:
the start counts as a snapshot. -/
def InTime (counts : List ℕ) : Prop :=
  (0 :: counts).IsChain fun m n => n ≤ m + auditLogMaxEntries

/-- Windows that overlap, or touch, miss nothing. -/
theorem exists_window {w m : ℕ} {counts : List ℕ}
    (h : (m :: counts).IsChain fun m n => n ≤ m + w) {j : ℕ} (hm : m ≤ j)
    (hj : ∃ n ∈ counts, j < n) : ∃ n ∈ counts, j < n ∧ n ≤ j + w := by
  induction counts generalizing m with
  | nil =>
      obtain ⟨n, hn, -⟩ := hj
      cases hn
  | cons n counts ih =>
      obtain ⟨hgap, hrest⟩ := List.isChain_cons_cons.1 h
      rcases Nat.lt_or_ge j n with hlt | hge
      · exact ⟨n, List.mem_cons_self, hlt, by omega⟩
      · obtain ⟨n', hn', hlt⟩ := hj
        have hlater : ∃ n ∈ counts, j < n := by
          rcases List.mem_cons.1 hn' with rfl | hn'
          · omega
          · exact ⟨n', hn', hlt⟩
        obtain ⟨k, hk, hwindow⟩ := ih hrest hge hlater
        exact ⟨k, List.mem_cons_of_mem n hk, hwindow⟩

/-- What is at a place in a list is in the window that covers the place. -/
theorem getElem_mem_window {α : Type*} {record : List α} {j n w : ℕ} (hj : j < record.length)
    (hlt : j < n) (hn : n ≤ j + w) (hle : n ≤ record.length) :
    record[j] ∈ (record.take n).rtake w := by
  rw [List.rtake, List.mem_iff_getElem?]
  refine ⟨j - ((record.take n).length - w), ?_⟩
  rw [List.getElem?_drop, List.length_take, Nat.min_eq_left hle,
    Nat.add_sub_cancel' (show n - w ≤ j by omega), List.getElem?_take_of_lt hlt,
    List.getElem?_eq_getElem hj]

/-! ### What an auditor sees -/

/-- The record that a list of snapshots ends in. -/
def finalRecord (polls : List ManagerState) : List AuditEntry :=
  (polls.getLast?.map fun s => s.shared.appended).getD []

/-- The final record continues that of every snapshot. -/
theorem appended_prefix_finalRecord {polls : List ManagerState}
    (h : polls.Pairwise fun s s' => s.shared.appended <+: s'.shared.appended)
    (hs : s ∈ polls) : s.shared.appended <+: finalRecord polls := by
  obtain ⟨last, hlast⟩ : ∃ last, polls.getLast? = some last :=
    Option.isSome_iff_exists.1 (List.getLast?_isSome.2 (List.ne_nil_of_mem hs))
  rw [finalRecord, hlast]
  obtain ⟨init, rfl⟩ := List.getLast?_eq_some_iff.1 hlast
  rcases List.mem_append.1 hs with hs | hs
  · exact (List.pairwise_append.1 h).2.2 s hs last (List.mem_singleton_self last)
  · rw [List.mem_singleton.1 hs]
    exact List.prefix_rfl

/-- **What an auditor sees.**  Take any run of calls on a manager and its clones, with their steps
in any order and with the receiver taking events or going away at any moment, and let an auditor
look at the log from time to time.  There is one record, numbered from zero and verified from the
zero digest, on which every snapshot is a window: the last entries of what had been recorded by
then, and what had been recorded only grows.  The chain check accepts the log as long as no more
events have been recorded than the log holds.  And if no more than that are recorded before the
first snapshot and between two snapshots, no entry that was recorded by the last is missed. -/
theorem run_polled (sha256 : List UInt8 → Digest) (parts : List (List ManagerAction))
    (polls : List ManagerState)
    (hpolls : Runs.checkpoints (ManagerState.step sha256) init parts = some polls) :
    ∃ record : List AuditEntry,
      CatastrophicAuditLog.Chained sha256 zeroDigest record ∧
      record.map AuditEntry.sequence = (List.range record.length).map UInt64.ofNat ∧
      (polls.map recordedCount).Pairwise (· ≤ ·) ∧
      (∀ s ∈ polls, s.recordedCount ≤ record.length ∧
        s.shared.manager.auditEntries =
          (record.take s.recordedCount).rtake auditLogMaxEntries) ∧
      (NeverZero sha256 → ∀ s ∈ polls,
        (s.shared.manager.verifyAuditChain sha256 = true ↔
          s.recordedCount ≤ auditLogMaxEntries)) ∧
      (InTime (polls.map recordedCount) →
        ∀ entry ∈ record, ∃ s ∈ polls, entry ∈ s.shared.manager.auditEntries) := by
  have haccounted : ∀ s ∈ polls, s.Accounted sha256 :=
    Runs.invariant_checkpoints (fun _ _ _ h hstep => Accounted.step h hstep)
      (accounted_init sha256) hpolls
  have hfrom : (init :: polls).Pairwise fun s s' => s.shared.appended <+: s'.shared.appended :=
    Runs.pairwise_checkpoints
      (R := fun s s' : ManagerState => s.shared.appended <+: s'.shared.appended)
      (fun _ => List.prefix_rfl) (fun _ _ _ => List.IsPrefix.trans)
      (fun _ _ _ => appended_of_step) hpolls
  have hgrows := hfrom.tail
  have hupto : ∀ s ∈ polls, s.shared.appended <+: finalRecord polls :=
    fun s hs => appended_prefix_finalRecord hgrows hs
  have hwindow : ∀ s ∈ polls, s.recordedCount ≤ (finalRecord polls).length ∧
      s.shared.manager.auditEntries =
        ((finalRecord polls).take s.recordedCount).rtake auditLogMaxEntries :=
    fun s hs => (haccounted s hs).auditEntries_eq (hupto s hs)
  refine ⟨finalRecord polls, ?_, ?_, ?_, hwindow,
    fun hzero s hs => (haccounted s hs).verifyAuditChain_iff hzero, fun htime entry hentry => ?_⟩
  · rw [finalRecord]
    cases hlast : polls.getLast? with
    | none => exact HashChain.linked_nil _ _ _ _
    | some last =>
        rw [Option.map_some, Option.getD_some,
          (haccounted last (List.mem_of_getLast? hlast)).chain]
        exact AuditChain.linked_chain sha256 _
  · rw [finalRecord]
    cases hlast : polls.getLast? with
    | none => rfl
    | some last =>
        rw [Option.map_some, Option.getD_some]
        exact (haccounted last (List.mem_of_getLast? hlast)).map_sequence
  · rw [List.pairwise_map]
    refine hgrows.imp_of_mem fun hs hs' hle => ?_
    rw [← (haccounted _ hs).length_eq, ← (haccounted _ hs').length_eq]
    exact hle.length_le
  · obtain ⟨j, hj, rfl⟩ := List.mem_iff_getElem.1 hentry
    -- the last snapshot is late enough for every entry of the record
    have hlate : ∃ n ∈ polls.map recordedCount, j < n := by
      cases hlast : polls.getLast? with
      | none =>
          rw [finalRecord, hlast] at hj
          cases hj
      | some last =>
          have hmem := List.mem_of_getLast? hlast
          rw [finalRecord, hlast, Option.map_some, Option.getD_some,
            (haccounted last hmem).length_eq] at hj
          exact ⟨_, List.mem_map_of_mem hmem, hj⟩
    obtain ⟨n, hn, hlt, hle⟩ := exists_window htime (Nat.zero_le j) hlate
    obtain ⟨s, hs, rfl⟩ := List.mem_map.1 hn
    refine ⟨s, hs, ?_⟩
    rw [(hwindow s hs).2]
    exact getElem_mem_window hj hlt hle (hwindow s hs).1

/-- Two overrides; the auditor looks at the log after each. -/
def polledCalls : List (List ManagerAction) :=
  [[.call (.spawn (overrideRequest true)), .call (.advance 0 none), .call (.advance 0 none),
      .call (.advance 0 none)],
    [.call (.spawn (overrideRequest true)), .dropReceiver, .call (.advance 1 (some (1, 0))),
      .call (.advance 1 none), .call (.advance 1 none)]]

/-- What the auditor finds. -/
def polledStates : List ManagerState :=
  (Runs.checkpoints (ManagerState.step sampleSha256) init polledCalls).get (by decide +kernel)

/-- No entry is missed. -/
theorem run_polled_polledCalls :
    ∃ record : List AuditEntry, CatastrophicAuditLog.Chained sampleSha256 zeroDigest record ∧
      ∀ entry ∈ record, ∃ s ∈ polledStates, entry ∈ s.shared.manager.auditEntries := by
  obtain ⟨record, hchained, -, -, -, -, hseen⟩ :=
    run_polled sampleSha256 polledCalls polledStates (Option.some_get _).symm
  have hcounts : polledStates.map recordedCount = [1, 2] := by decide +kernel
  refine ⟨record, hchained, hseen ?_⟩
  rw [hcounts]
  exact List.isChain_cons_cons.2 ⟨by decide, List.isChain_cons_cons.2
    ⟨by decide, List.IsChain.singleton 2⟩⟩

end ManagerState

end Bind19
