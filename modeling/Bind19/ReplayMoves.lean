/-
**The steps of a check, one by one.**

What a step of a check does to the numbers on record is all that the agreement of concurrent checks
rests on.  Other results need more: which entry the check has found, whether it had room, whether a
reference was held.  This module lists the ten steps of a check with everything that the program has
tested when it takes them, and shows that a check takes exactly these.

Main definitions:

* `Bind19.CheckMove` — a step of a check, with what was tested.

Main results:

* `Bind19.CheckCall.tick_eq_some_iff` — **a check takes exactly these steps**;
* `Bind19.CheckMove.known`, `Bind19.CheckMove.get?_of_ne` — what a step leaves as it is.
-/

import Bind19.ReplayCapacity

set_option relaxedAutoImplicit false
set_option autoImplicit false

namespace Bind19

/-- A step of `call`, with what it has tested. -/
inductive CheckMove (shard : ReplayKey → ℕ) (s : CheckState) (call : CheckCall) (now : Instant) :
    CheckShared → CheckCall → Prop
  /-- It has found an entry with a number that is not smaller. -/
  | reject (entry : ReplayEntry) (hfrom : call.phase = .started)
      (hentry : s.shared.cache.entries.get? call.key = some entry)
      (hle : call.seq ≤ entry.lastSeq) :
      CheckMove shard s call now s.shared (call.goto (.returned .rejected))
  /-- It has found an entry with a smaller number, and keeps the reference. -/
  | load (entry : ReplayEntry) (hfrom : call.phase = .started)
      (hentry : s.shared.cache.entries.get? call.key = some entry)
      (hlt : entry.lastSeq < call.seq) :
      CheckMove shard s call now s.shared (call.goto .loaded)
  /-- It has found no entry. -/
  | miss (hfrom : call.phase = .started)
      (hentry : s.shared.cache.entries.get? call.key = none) :
      CheckMove shard s call now s.shared (call.goto .missed)
  /-- It stores its number in the entry it refers to. -/
  | store (entry : ReplayEntry) (hfrom : call.phase = .loaded)
      (hentry : s.shared.cache.entries.get? call.key = some entry) :
      CheckMove shard s call now
        ((s.shared.put call.key (entry.updateSeq call.seq now)).note call.key call.seq)
        (call.goto (.returned .allowed))
  /-- There is no room for a new entry. -/
  | full (hfrom : call.phase = .missed)
      (hfull : replayCacheMaxCapacity ≤ s.shared.cache.entries.len) :
      CheckMove shard s call now s.shared (call.goto (.returned .cacheFull))
  /-- There is room for a new entry. -/
  | count (hfrom : call.phase = .missed)
      (hroom : s.shared.cache.entries.len < replayCacheMaxCapacity) :
      CheckMove shard s call now s.shared (call.goto .counted)
  /-- It inserts the first entry of its source. -/
  | register (hfrom : call.phase = .counted)
      (hfree : CheckCall.shardHeld shard s call.key = false)
      (hentry : s.shared.cache.entries.get? call.key = none) :
      CheckMove shard s call now
        ((s.shared.put call.key (ReplayEntry.new call.seq now)).note call.key call.seq)
        (call.goto (.returned .allowed))
  /-- It inserts an entry in the place of one with a smaller number. -/
  | replace (oldEntry : ReplayEntry) (hfrom : call.phase = .counted)
      (hfree : CheckCall.shardHeld shard s call.key = false)
      (hentry : s.shared.cache.entries.get? call.key = some oldEntry)
      (hlt : oldEntry.lastSeq < call.seq) :
      CheckMove shard s call now
        ((s.shared.put call.key (ReplayEntry.new call.seq now)).note call.key call.seq)
        (call.goto (.returned .allowed))
  /-- It inserts an entry in the place of one with a number that is not smaller. -/
  | displace (oldEntry : ReplayEntry) (hfrom : call.phase = .counted)
      (hfree : CheckCall.shardHeld shard s call.key = false)
      (hentry : s.shared.cache.entries.get? call.key = some oldEntry)
      (hle : call.seq ≤ oldEntry.lastSeq) :
      CheckMove shard s call now (s.shared.put call.key (ReplayEntry.new call.seq now))
        (call.goto (.displaced oldEntry))
  /-- It puts back the entry it has displaced. -/
  | restore (oldEntry : ReplayEntry) (hfrom : call.phase = .displaced oldEntry)
      (hfree : CheckCall.shardHeld shard s call.key = false) :
      CheckMove shard s call now (s.shared.put call.key oldEntry)
        (call.goto (.returned .rejected))

namespace CheckCall

variable {shard : ReplayKey → ℕ} {s : CheckState} {call call' : CheckCall} {now : Instant}
  {g : CheckShared}

/-- Every step is one of these. -/
theorem tick_moves (h : tick shard s call now = some (g, call')) :
    CheckMove shard s call now g call' := by
  unfold tick at h
  dsimp only at h
  cases hphase : call.phase with
  | started =>
      rw [hphase] at h
      dsimp only at h
      cases hentry : s.shared.cache.entries.get? call.key with
      | some entry =>
          rw [hentry] at h
          dsimp only at h
          split at h <;> rename_i hle <;> cases h
          · exact .reject entry hphase hentry hle
          · exact .load entry hphase hentry (UInt16.not_le.1 hle)
      | none =>
          rw [hentry] at h
          cases h
          exact .miss hphase hentry
  | loaded =>
      rw [hphase] at h
      dsimp only at h
      cases hentry : s.shared.cache.entries.get? call.key with
      | some entry =>
          rw [hentry] at h
          cases h
          exact .store entry hphase hentry
      | none =>
          rw [hentry] at h
          cases h
  | missed =>
      rw [hphase] at h
      dsimp only at h
      split at h <;> rename_i hfull <;> cases h
      · exact .full hphase hfull
      · exact .count hphase (Nat.not_le.1 hfull)
  | counted =>
      rw [hphase] at h
      dsimp only at h
      split at h <;> rename_i hfree
      · cases h
      · rw [Bool.not_eq_true] at hfree
        cases hentry : s.shared.cache.entries.get? call.key with
        | none =>
            rw [hentry] at h
            cases h
            exact .register hphase hfree hentry
        | some oldEntry =>
            rw [hentry] at h
            dsimp only at h
            split at h <;> rename_i hle <;> cases h
            · exact .displace oldEntry hphase hfree hentry hle
            · exact .replace oldEntry hphase hfree hentry (UInt16.not_le.1 hle)
  | displaced oldEntry =>
      rw [hphase] at h
      dsimp only at h
      split at h <;> rename_i hfree
      · cases h
      · cases h
        exact .restore oldEntry hphase (Bool.not_eq_true _ ▸ hfree)
  | returned result =>
      rw [hphase] at h
      cases h

/-- **A check takes exactly these steps.** -/
theorem tick_eq_some_iff :
    tick shard s call now = some (g, call') ↔ CheckMove shard s call now g call' := by
  refine ⟨tick_moves, fun h => ?_⟩
  cases h with
  | reject entry hfrom hentry hle => simp [tick, hfrom, hentry, hle]
  | load entry hfrom hentry hlt => simp [tick, hfrom, hentry, UInt16.not_le.2 hlt]
  | miss hfrom hentry => simp [tick, hfrom, hentry]
  | store entry hfrom hentry => simp [tick, hfrom, hentry]
  | full hfrom hfull => simp [tick, hfrom, hfull]
  | count hfrom hroom => simp [tick, hfrom, Nat.not_le.2 hroom]
  | register hfrom hfree hentry => simp [tick, hfrom, hfree, hentry]
  | replace oldEntry hfrom hfree hentry hlt =>
      simp [tick, hfrom, hfree, hentry, UInt16.not_le.2 hlt]
  | displace oldEntry hfrom hfree hentry hle => simp [tick, hfrom, hfree, hentry, hle]
  | restore oldEntry hfrom hfree => simp [tick, hfrom, hfree]

end CheckCall

namespace CheckMove

variable {shard : ReplayKey → ℕ} {s : CheckState} {call call' : CheckCall} {now : Instant}
  {g : CheckShared} {key : ReplayKey}

theorem tick_eq (h : CheckMove shard s call now g call') :
    CheckCall.tick shard s call now = some (g, call') := CheckCall.tick_eq_some_iff.2 h

/-- What a step does to the numbers on record. -/
theorem checkStep (h : CheckMove shard s call now g call') : CheckStep s.shared call g call' :=
  CheckCall.tick_cases h.tick_eq

/-- The check stays the same check. -/
theorem request_eq (h : CheckMove shard s call now g call') :
    (call'.key, call'.seq) = (call.key, call.seq) := by
  cases h <;> rfl

/-- A source on record stays on record. -/
theorem known (h : CheckMove shard s call now g call') (hkey : s.shared.lastSeq key ≠ none) :
    g.lastSeq key ≠ none := h.checkStep.known hkey

/-- Entries of other sources stay as they are. -/
theorem get?_of_ne (h : CheckMove shard s call now g call') (hkey : key ≠ call.key) :
    g.cache.entries.get? key = s.shared.cache.entries.get? key := by
  have hput (entry : ReplayEntry) : (s.shared.put call.key entry).cache.entries.get? key =
      s.shared.cache.entries.get? key := by
    rw [CheckShared.put, FiniteMap.get?_insert, if_neg hkey]
  cases h with
  | reject | load | miss | full | count => rfl
  | store | register | replace | displace | restore => exact hput _

end CheckMove

end Bind19
