/-
**The replay cache.**

The cache holds, for every source it has seen, the last sequence number it accepted from that
source and the time of that frame.  A frame is accepted when its number is greater, and a source
that is not yet known is accepted and registered as long as there is room.  Sources that have been
silent for longer than the time to live are dropped by a clean-up, single sources and the whole
cache can be dropped by hand.

This module is the cache as one thread sees it.  The map is a finite map, a moment in time and a
duration are numbers of nanoseconds, and every operation that reads the clock takes the reading as
an argument.  A clean-up reads the clock once for every entry it looks at.

Main definitions:

* `Bind19.ReplayKey`, `Bind19.ReplayEntry`, `Bind19.ReplayCache`;
* `Bind19.ReplayCache.checkAndUpdate`, `checkOnly`, `lastSeq`, `cleanupExpired`, `remove`, `clear`;
* `Bind19.ReplayCache.Fresh`, `Bind19.ReplayCache.Crowded` — a number is accepted, a source is
  turned away.

Main results:

* `Bind19.ReplayCache.checkAndUpdate_cases` — **a check accepts a greater number and records it, or
  leaves the cache as it is**;
* `Bind19.ReplayCache.lastSeq_register`, `lastSeq_remove`, `lastSeq_cleanupExpired`, … — what is on
  record after each operation.
-/

import Bind19.FiniteMap

set_option relaxedAutoImplicit false
set_option autoImplicit false

namespace Bind19

/-- A moment in time, in nanoseconds. -/
abbrev Instant := ℕ

/-- A span of time, in nanoseconds. -/
abbrev Duration := ℕ

/-- The most sources the cache holds. -/
def replayCacheMaxCapacity : ℕ := 100000

/-- The time to live of an entry by default: sixty seconds. -/
def replayCacheDefaultTtl : Duration := 60000000000

/-- A source of a tenant. -/
structure ReplayKey where
  tenantId : UInt64
  sourceId : UInt64
  deriving DecidableEq

/-- What the cache holds for a source. -/
structure ReplayEntry where
  lastSeq : UInt16
  lastUpdate : Instant
  deriving DecidableEq

namespace ReplayEntry

/-- The entry of a source seen for the first time. -/
def new (seq : UInt16) (now : Instant) : ReplayEntry := { lastSeq := seq, lastUpdate := now }

/-- The entry after another accepted frame. -/
def updateSeq (_entry : ReplayEntry) (seq : UInt16) (now : Instant) : ReplayEntry :=
  { lastSeq := seq, lastUpdate := now }

/-- Whether the source has been silent for longer than the time to live.  A clock that runs behind
the entry reads as no time elapsed. -/
def isExpired (entry : ReplayEntry) (ttl : Duration) (now : Instant) : Bool :=
  now - entry.lastUpdate > ttl

end ReplayEntry

/-- The answer of a check. -/
inductive ReplayCheckResult
  | allowed
  | rejected
  | cacheFull
  deriving DecidableEq, Repr

/-- The replay cache. -/
structure ReplayCache where
  entries : FiniteMap ReplayKey ReplayEntry
  ttl : Duration

namespace ReplayCache

/-- The empty cache with a given time to live. -/
def withTtl (ttl : Duration) : ReplayCache := { entries := FiniteMap.empty, ttl }

/-- The empty cache with the default time to live. -/
def new : ReplayCache := withTtl replayCacheDefaultTtl

/-- The number of sources in the cache. -/
def len (cache : ReplayCache) : ℕ := cache.entries.len

/-- The last sequence number on record for a source. -/
def lastSeq (cache : ReplayCache) (key : ReplayKey) : Option UInt16 :=
  (cache.entries.get? key).map ReplayEntry.lastSeq

/-- Check a sequence number and record it if it is accepted. -/
def checkAndUpdate (cache : ReplayCache) (key : ReplayKey) (seq : UInt16) (now : Instant) :
    ReplayCheckResult × ReplayCache :=
  match cache.entries.get? key with
  | some entry =>
      if seq ≤ entry.lastSeq then (.rejected, cache)
      else (.allowed, { cache with entries := cache.entries.insert key (entry.updateSeq seq now) })
  | none =>
      if cache.entries.len ≥ replayCacheMaxCapacity then (.cacheFull, cache)
      else
        match cache.entries.insertFetch key (ReplayEntry.new seq now) with
        | (none, entries) => (.allowed, { cache with entries })
        | (some oldEntry, entries) =>
            -- another thread has registered the source in between
            if seq ≤ oldEntry.lastSeq then
              (.rejected, { cache with entries := entries.insert key oldEntry })
            else (.allowed, { cache with entries })

/-- Check a sequence number without recording it. -/
def checkOnly (cache : ReplayCache) (key : ReplayKey) (seq : UInt16) : ReplayCheckResult :=
  match cache.entries.get? key with
  | some entry => if seq ≤ entry.lastSeq then .rejected else .allowed
  | none => if cache.entries.len ≥ replayCacheMaxCapacity then .cacheFull else .allowed

/-- Drop the expired entries, and count them.  The clock is read once for each entry. -/
def cleanupExpired (cache : ReplayCache) (clock : ReplayKey → Instant) : ℕ × ReplayCache :=
  let before := cache.entries.len
  let entries := cache.entries.retain fun key entry => !entry.isExpired cache.ttl (clock key)
  (before - entries.len, { cache with entries })

/-- Drop a source, and say whether it was there. -/
def remove (cache : ReplayCache) (key : ReplayKey) : Bool × ReplayCache :=
  ((cache.entries.get? key).isSome, { cache with entries := cache.entries.remove key })

/-- Drop all sources. -/
def clear (cache : ReplayCache) : ReplayCache := { cache with entries := FiniteMap.empty }

/-! ### What a check does -/

/-- The cache with a sequence number on record. -/
def register (cache : ReplayCache) (key : ReplayKey) (seq : UInt16) (now : Instant) : ReplayCache :=
  { cache with entries := cache.entries.insert key (ReplayEntry.new seq now) }

/-- The sequence number is greater than the one on record, or there is none and there is room. -/
def Fresh (cache : ReplayCache) (key : ReplayKey) (seq : UInt16) : Prop :=
  match cache.lastSeq key with
  | some last => last < seq
  | none => cache.len < replayCacheMaxCapacity

/-- The source is not on record, and there is no room for it. -/
def Crowded (cache : ReplayCache) (key : ReplayKey) : Prop :=
  cache.lastSeq key = none ∧ replayCacheMaxCapacity ≤ cache.len

instance (cache : ReplayCache) (key : ReplayKey) : Decidable (cache.Crowded key) :=
  inferInstanceAs (Decidable (_ ∧ _))

variable {cache : ReplayCache} {key key' : ReplayKey} {seq : UInt16} {now : Instant}

theorem lastSeq_eq_some {entry : ReplayEntry} (h : cache.entries.get? key = some entry) :
    cache.lastSeq key = some entry.lastSeq := by
  rw [lastSeq, h]
  rfl

theorem lastSeq_eq_none (h : cache.entries.get? key = none) : cache.lastSeq key = none := by
  rw [lastSeq, h]
  rfl

/-- The preview of a number of a source on record. -/
theorem checkOnly_of_lastSeq_eq_some {last : UInt16} (h : cache.lastSeq key = some last) :
    cache.checkOnly key seq = if seq ≤ last then .rejected else .allowed := by
  obtain ⟨entry, hentry, rfl⟩ := Option.map_eq_some_iff.1 h
  rw [checkOnly, hentry]

/-- The preview of a number of a source that is not on record. -/
theorem checkOnly_of_lastSeq_eq_none (h : cache.lastSeq key = none) :
    cache.checkOnly key seq =
      if cache.len ≥ replayCacheMaxCapacity then .cacheFull else .allowed := by
  rw [checkOnly, Option.map_eq_none_iff.1 h]
  rfl

/-- The preview accepts the fresh numbers. -/
theorem checkOnly_eq_allowed_iff : cache.checkOnly key seq = .allowed ↔ cache.Fresh key seq := by
  unfold Fresh
  cases hlast : cache.lastSeq key with
  | some last =>
      rw [checkOnly_of_lastSeq_eq_some hlast]
      simp
  | none =>
      rw [checkOnly_of_lastSeq_eq_none hlast]
      simp

/-- Where there is room, the fresh numbers are those above the one on record. -/
theorem fresh_iff_of_not_crowded (hroom : ¬ cache.Crowded key) :
    cache.Fresh key seq ↔ ∀ last, cache.lastSeq key = some last → last < seq := by
  unfold Fresh
  cases hlast : cache.lastSeq key with
  | some last => simp
  | none =>
      have hlt : cache.len < replayCacheMaxCapacity :=
        Nat.not_le.1 fun hfull => hroom ⟨hlast, hfull⟩
      simp [hlt]

/-- Where there is no room, the preview says so. -/
theorem checkOnly_of_crowded (h : cache.Crowded key) : cache.checkOnly key seq = .cacheFull := by
  rw [checkOnly_of_lastSeq_eq_none h.1, if_pos h.2]

/-- Where there is room, the preview depends on the number on record only. -/
theorem checkOnly_congr {cache' : ReplayCache} (hlast : cache.lastSeq key = cache'.lastSeq key')
    (hroom : ¬ cache.Crowded key) (hroom' : ¬ cache'.Crowded key') :
    cache.checkOnly key seq = cache'.checkOnly key' seq := by
  cases hrecord : cache.lastSeq key with
  | some last =>
      rw [checkOnly_of_lastSeq_eq_some hrecord,
        checkOnly_of_lastSeq_eq_some (hlast.symm.trans hrecord)]
  | none =>
      have hrecord' := hlast.symm.trans hrecord
      rw [checkOnly_of_lastSeq_eq_none hrecord, checkOnly_of_lastSeq_eq_none hrecord',
        if_neg fun hfull => hroom ⟨hrecord, hfull⟩, if_neg fun hfull => hroom' ⟨hrecord', hfull⟩]

/-- **A check accepts a fresh number and records it, or leaves the cache as it is.** -/
theorem checkAndUpdate_cases (cache : ReplayCache) (key : ReplayKey) (seq : UInt16)
    (now : Instant) :
    (cache.Fresh key seq ∧
        cache.checkAndUpdate key seq now = (.allowed, cache.register key seq now)) ∨
      ∃ result, result ≠ ReplayCheckResult.allowed ∧ ¬ cache.Fresh key seq ∧
        cache.checkAndUpdate key seq now = (result, cache) := by
  unfold checkAndUpdate Fresh
  cases hentry : cache.entries.get? key with
  | some entry =>
      rw [lastSeq_eq_some hentry]
      dsimp only
      by_cases hle : seq ≤ entry.lastSeq
      · refine Or.inr ⟨.rejected, by decide, UInt16.not_lt.2 hle, ?_⟩
        rw [if_pos hle]
      · refine Or.inl ⟨UInt16.not_le.1 hle, ?_⟩
        rw [if_neg hle]
        rfl
  | none =>
      rw [lastSeq_eq_none hentry]
      dsimp only
      by_cases hfull : cache.entries.len ≥ replayCacheMaxCapacity
      · refine Or.inr ⟨.cacheFull, by decide, Nat.not_lt.2 hfull, ?_⟩
        rw [if_pos hfull]
      · refine Or.inl ⟨Nat.not_le.1 hfull, ?_⟩
        -- a source that was not there a moment ago is not displaced by its own registration
        rw [if_neg hfull, FiniteMap.insertFetch, hentry]
        rfl

/-- A check answers as the preview does. -/
theorem checkAndUpdate_fst (cache : ReplayCache) (key : ReplayKey) (seq : UInt16) (now : Instant) :
    (cache.checkAndUpdate key seq now).1 = cache.checkOnly key seq := by
  unfold checkAndUpdate checkOnly
  cases hentry : cache.entries.get? key with
  | some entry =>
      dsimp only
      split <;> rfl
  | none =>
      dsimp only
      split
      · rfl
      · rw [FiniteMap.insertFetch, hentry]

/-- A check records what the preview accepts. -/
theorem checkAndUpdate_snd (cache : ReplayCache) (key : ReplayKey) (seq : UInt16) (now : Instant) :
    (cache.checkAndUpdate key seq now).2 =
      if cache.checkOnly key seq = .allowed then cache.register key seq now else cache := by
  rcases checkAndUpdate_cases cache key seq now with ⟨hfresh, heq⟩ | ⟨result, -, hfresh, heq⟩
  · rw [if_pos (checkOnly_eq_allowed_iff.2 hfresh), heq]
  · rw [if_neg (mt checkOnly_eq_allowed_iff.1 hfresh), heq]

/-- An accepted number is fresh, and it is recorded. -/
theorem checkAndUpdate_of_allowed (h : (cache.checkAndUpdate key seq now).1 = .allowed) :
    cache.Fresh key seq ∧ (cache.checkAndUpdate key seq now).2 = cache.register key seq now := by
  rcases checkAndUpdate_cases cache key seq now with ⟨hfresh, heq⟩ | ⟨result, hresult, -, heq⟩
  · exact ⟨hfresh, by rw [heq]⟩
  · rw [heq] at h
    exact absurd h hresult

/-- A check that does not accept leaves the cache as it is. -/
theorem checkAndUpdate_of_not_allowed (h : (cache.checkAndUpdate key seq now).1 ≠ .allowed) :
    (cache.checkAndUpdate key seq now).2 = cache := by
  rcases checkAndUpdate_cases cache key seq now with ⟨-, heq⟩ | ⟨result, -, -, heq⟩
  · rw [heq] at h
    exact absurd rfl h
  · rw [heq]

/-! ### What is on record afterwards -/

theorem lastSeq_register (cache : ReplayCache) (key key' : ReplayKey) (seq : UInt16)
    (now : Instant) :
    (cache.register key seq now).lastSeq key' =
      if key' = key then some seq else cache.lastSeq key' := by
  rw [lastSeq, register, FiniteMap.get?_insert]
  by_cases h : key' = key
  · rw [if_pos h, if_pos h]
    rfl
  · rw [if_neg h, if_neg h, lastSeq]

/-- A check changes nothing for other sources. -/
theorem lastSeq_checkAndUpdate_of_ne (hkey : key' ≠ key) :
    (cache.checkAndUpdate key seq now).2.lastSeq key' = cache.lastSeq key' := by
  rw [checkAndUpdate_snd]
  split
  · rw [lastSeq_register, if_neg hkey]
  · rfl

theorem lastSeq_remove (cache : ReplayCache) (key key' : ReplayKey) :
    (cache.remove key).2.lastSeq key' = if key' = key then none else cache.lastSeq key' := by
  rw [lastSeq, remove, FiniteMap.get?_remove]
  by_cases h : key' = key
  · rw [if_pos h, if_pos h]
    rfl
  · rw [if_neg h, if_neg h, lastSeq]

/-- An entry survives a clean-up unchanged, or not at all. -/
theorem lastSeq_cleanupExpired (cache : ReplayCache) (clock : ReplayKey → Instant)
    (key : ReplayKey) :
    (cache.cleanupExpired clock).2.lastSeq key = cache.lastSeq key ∨
      (cache.cleanupExpired clock).2.lastSeq key = none := by
  rw [lastSeq, lastSeq, cleanupExpired, FiniteMap.get?_retain]
  cases cache.entries.get? key with
  | none => exact Or.inr rfl
  | some entry =>
      rw [Option.filter]
      split
      · exact Or.inl rfl
      · exact Or.inr rfl

/-! ### How many sources there are -/

theorem len_register (cache : ReplayCache) (key : ReplayKey) (seq : UInt16) (now : Instant) :
    (cache.register key seq now).len =
      if (cache.lastSeq key).isSome then cache.len else cache.len + 1 := by
  rw [len, register, FiniteMap.len_insert, lastSeq, Option.isSome_map]
  rfl

/-- There is room for every one of few sources. -/
theorem not_crowded {sources : Finset ReplayKey}
    (hknown : ∀ key, (cache.lastSeq key).isSome = true → key ∈ sources)
    (hcard : sources.card ≤ replayCacheMaxCapacity) (hkey : key ∈ sources) :
    ¬ cache.Crowded key := by
  rintro ⟨hlast, hfull⟩
  have hlt : cache.len < sources.card := by
    refine FiniteMap.len_lt_card (fun key' hkey' => hknown key' ?_) hkey
      (Option.map_eq_none_iff.1 hlast)
    rw [lastSeq, Option.isSome_map]
    exact hkey'
  omega

/-- A fresh number does not take the cache beyond its capacity. -/
theorem len_register_le (hlen : cache.len ≤ replayCacheMaxCapacity) (hfresh : cache.Fresh key seq) :
    (cache.register key seq now).len ≤ replayCacheMaxCapacity := by
  rw [len, register]
  unfold Fresh at hfresh
  cases hentry : cache.entries.get? key with
  | some entry =>
      rw [FiniteMap.len_insert_of_some hentry]
      exact hlen
  | none =>
      rw [lastSeq_eq_none hentry] at hfresh
      rw [FiniteMap.len_insert_of_none hentry]
      exact hfresh

theorem len_remove_le (cache : ReplayCache) (key : ReplayKey) :
    (cache.remove key).2.len ≤ cache.len := FiniteMap.len_remove_le _ _

theorem len_cleanupExpired_le (cache : ReplayCache) (clock : ReplayKey → Instant) :
    (cache.cleanupExpired clock).2.len ≤ cache.len := FiniteMap.len_retain_le _ _

end ReplayCache

end Bind19
