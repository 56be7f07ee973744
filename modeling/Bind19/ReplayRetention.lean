/-
**What a clean-up leaves.**

The clean-up is there to bound the memory of the cache.  What it leaves behind depends on what the
cache had on record before, and so on all operations and on all clean-ups before it.  Here it is
told from the answers alone: for each source, the last check that was accepted since the source was
last dropped by hand.  If that is not longer ago than the time to live, its number and its time are
on record, and otherwise nothing is.  Earlier clean-ups make no difference, because the clock does
not go back: what they have dropped would be dropped now.  So there are never more sources on record
after a clean-up than had a check accepted within the time to live.

Main definitions:

* `Bind19.CacheOp.reading` — the reading of the clock that an operation takes for a source;
* `Bind19.ReplayCache.lastAccepted` — the last accepted check of a source;
* `Bind19.ReplayCache.Retains` — the invariant.

Main results:

* `Bind19.ReplayCache.Retains.respond` — what one operation preserves;
* `Bind19.ReplayCache.run_retained` — **what a clean-up leaves**.
-/

import Bind19.ReplayExpiry

set_option relaxedAutoImplicit false
set_option autoImplicit false

namespace Bind19

/-- The reading of the clock that an operation takes for a source. -/
def CacheOp.reading (key : ReplayKey) : CacheOp → Option Instant
  | .checkAndUpdate _ _ now => some now
  | .checkOnly _ _ => none
  | .remove _ => none
  | .clear => none
  | .cleanupExpired clock => some (clock key)

namespace ReplayCache

/-- The last accepted check of a source after one more exchange. -/
def nextAccepted (key : ReplayKey) (last : Option (UInt16 × Instant)) (e : CacheExchange) :
    Option (UInt16 × Instant) :=
  match e.call with
  | .remove key' => if key' = key then none else last
  | .clear => none
  | _ => (acceptedOf key e).or last

/-- The last accepted check of a source since it was last dropped by hand. -/
def lastAccepted (key : ReplayKey) (es : List CacheExchange) : Option (UInt16 × Instant) :=
  es.foldl (nextAccepted key) none

/-- The source of a check that was accepted within the time to live. -/
def recentSource (ttl : Duration) (clock : ReplayKey → Instant) (e : CacheExchange) :
    Option ReplayKey :=
  match e.call with
  | .checkAndUpdate key _ now =>
      if e.answer = some .allowed ∧ clock key ≤ now + ttl then some key else none
  | _ => none

/-- An entry as an accepted check leaves it. -/
def entryOf (a : UInt16 × Instant) : ReplayEntry := { lastSeq := a.1, lastUpdate := a.2 }

variable {cache : ReplayCache} {key key' : ReplayKey} {es : List CacheExchange}
  {ops : List CacheOp} {readings : List Instant} {e : CacheExchange}

theorem lastAccepted_concat (key : ReplayKey) (es : List CacheExchange) (e : CacheExchange) :
    lastAccepted key (es ++ [e]) = nextAccepted key (lastAccepted key es) e := by
  rw [lastAccepted, List.foldl_append]
  rfl

/-- The last accepted check is an accepted check. -/
theorem exists_of_lastAccepted {last : UInt16 × Instant} (h : lastAccepted key es = some last) :
    ∃ e ∈ es, acceptedOf key e = some last := by
  induction es using List.reverseRecOn with
  | nil => cases h
  | append_singleton es e ih =>
      have hkeep (hlast : lastAccepted key es = some last) :
          ∃ e' ∈ es ++ [e], acceptedOf key e' = some last := by
        obtain ⟨e', he', haccepted⟩ := ih hlast
        exact ⟨e', List.mem_append_left _ he', haccepted⟩
      have hcheck (hor : (acceptedOf key e).or (lastAccepted key es) = some last) :
          ∃ e' ∈ es ++ [e], acceptedOf key e' = some last := by
        rcases Option.or_eq_some_iff.1 hor with haccepted | ⟨-, hlast⟩
        · exact ⟨e, List.mem_append_right _ (List.mem_singleton_self e), haccepted⟩
        · exact hkeep hlast
      rw [lastAccepted_concat, nextAccepted] at h
      cases hcall : e.call with
      | remove key' =>
          rw [hcall] at h
          dsimp only at h
          split at h
          · cases h
          · exact hkeep h
      | clear =>
          rw [hcall] at h
          cases h
      | checkAndUpdate | checkOnly | cleanupExpired =>
          rw [hcall] at h
          exact hcheck h

/-- An accepted check that is recent is one of a recent source. -/
theorem recentSource_of_acceptedOf {a : UInt16 × Instant} {ttl : Duration}
    {clock : ReplayKey → Instant} (h : acceptedOf key e = some a)
    (hrecent : clock key ≤ a.2 + ttl) :
    recentSource ttl clock e = some key := by
  rw [acceptedOf] at h
  rw [recentSource]
  cases hcall : e.call with
  | checkAndUpdate key' seq now =>
      rw [hcall] at h
      dsimp only at h ⊢
      split at h
      · rename_i hallowed
        obtain rfl := Option.some.inj h
        obtain ⟨rfl, hanswer⟩ := hallowed
        rw [if_pos ⟨hanswer, hrecent⟩]
      · cases h
  | checkOnly | remove | clear | cleanupExpired =>
      rw [hcall] at h
      cases h

/-! ### The invariant -/

/-- What is on record for a source is its last accepted check; if that is not on record, a clean-up
has found it expired. -/
structure Retains (key : ReplayKey) (es : List CacheExchange) (readings : List Instant)
    (cache : ReplayCache) : Prop where
  onRecord : ∀ entry, cache.entries.get? key = some entry →
    ∃ last, lastAccepted key es = some last ∧ entryOf last = entry
  expired : ∀ last, lastAccepted key es = some last → cache.entries.get? key = none →
    ∃ r ∈ readings, last.2 + cache.ttl < r

theorem retains_withTtl (key : ReplayKey) (ttl : Duration) : Retains key [] [] (withTtl ttl) where
  onRecord _ h := nomatch h
  expired _ h := nomatch h

/-- What does not touch the source preserves the invariant. -/
theorem Retains.keep {cache' : ReplayCache} (h : Retains key es readings cache)
    (hlast : nextAccepted key (lastAccepted key es) e = lastAccepted key es)
    (hentry : cache'.entries.get? key = cache.entries.get? key) (httl : cache'.ttl = cache.ttl)
    (more : List Instant) : Retains key (es ++ [e]) (readings ++ more) cache' where
  onRecord entry hget := by
    rw [lastAccepted_concat, hlast]
    exact h.onRecord entry (hentry ▸ hget)
  expired last hlast' hnone := by
    rw [lastAccepted_concat, hlast] at hlast'
    obtain ⟨r, hr, hlt⟩ := h.expired last hlast' (hentry ▸ hnone)
    exact ⟨r, List.mem_append_left _ hr, httl ▸ hlt⟩

/-- What drops the source by hand preserves it. -/
theorem Retains.drop {cache' : ReplayCache}
    (hlast : nextAccepted key (lastAccepted key es) e = none)
    (hentry : cache'.entries.get? key = none) (more : List Instant) :
    Retains key (es ++ [e]) (readings ++ more) cache' where
  onRecord entry hget := by
    rw [hentry] at hget
    cases hget
  expired last hlast' _ := by
    rw [lastAccepted_concat, hlast] at hlast'
    cases hlast'

/-- What a check preserves. -/
theorem Retains.respond_check (h : Retains key es readings cache) (key' : ReplayKey) (seq : UInt16)
    (now : Instant) (more : List Instant) :
    Retains key
      (es ++ [{ before := cache, call := .checkAndUpdate key' seq now
                answer := some (cache.checkAndUpdate key' seq now).1 }])
      (readings ++ more) (cache.checkAndUpdate key' seq now).2 := by
  by_cases hallowed : (cache.checkAndUpdate key' seq now).1 = .allowed
  · obtain ⟨-, hregister⟩ := checkAndUpdate_of_allowed hallowed
    rw [hallowed, hregister]
    by_cases hkey : key' = key
    · -- the check is now the last accepted one, and it is on record
      subst hkey
      have hget : (cache.register key' seq now).entries.get? key' =
          some (ReplayEntry.new seq now) := (FiniteMap.get?_insert _ _ _ _).trans (if_pos rfl)
      refine ⟨fun entry hentry => ⟨(seq, now), ?_, ?_⟩, fun last _ hnone => ?_⟩
      · rw [lastAccepted_concat]
        simp [nextAccepted, acceptedOf]
      · rw [hget] at hentry
        exact Option.some.inj hentry
      · rw [hget] at hnone
        cases hnone
    · have hget : (cache.register key' seq now).entries.get? key = cache.entries.get? key :=
        (FiniteMap.get?_insert _ _ _ _).trans (if_neg fun heq => hkey heq.symm)
      refine h.keep ?_ hget rfl more
      simp [nextAccepted, acceptedOf, hkey]
  · rw [checkAndUpdate_of_not_allowed hallowed]
    refine h.keep ?_ rfl rfl more
    simp [nextAccepted, acceptedOf, hallowed]

/-- What a clean-up preserves. -/
theorem Retains.respond_cleanup (h : Retains key es readings cache) (clock : ReplayKey → Instant) :
    Retains key (es ++ [{ before := cache, call := .cleanupExpired clock, answer := none }])
      (readings ++ [clock key]) (cache.cleanupExpired clock).2 := by
  have hget : (cache.cleanupExpired clock).2.entries.get? key =
      (cache.entries.get? key).filter fun entry => !entry.isExpired cache.ttl (clock key) :=
    FiniteMap.get?_retain _ _ _
  have hlast : nextAccepted key (lastAccepted key es)
      { before := cache, call := .cleanupExpired clock, answer := none } =
        lastAccepted key es := rfl
  refine ⟨fun entry hentry => ?_, fun last hlast' hnone => ?_⟩
  · rw [hget, Option.filter_eq_some_iff] at hentry
    rw [lastAccepted_concat, hlast]
    exact h.onRecord entry hentry.1
  · rw [lastAccepted_concat, hlast] at hlast'
    cases hentry : cache.entries.get? key with
    | none =>
        -- an earlier clean-up has dropped it
        obtain ⟨r, hr, hlt⟩ := h.expired last hlast' hentry
        exact ⟨r, List.mem_append_left _ hr, hlt⟩
    | some entry =>
        obtain ⟨last', hlast'', rfl⟩ := h.onRecord entry hentry
        obtain rfl := Option.some.inj (hlast'.symm.trans hlast'')
        refine ⟨clock key, List.mem_append_right _ (List.mem_singleton_self _), ?_⟩
        refine (isExpired_iff (entryOf last) cache.ttl (clock key)).1 ?_
        rw [hget, hentry, Option.filter_some] at hnone
        by_contra hfresh
        rw [Bool.not_eq_true] at hfresh
        rw [hfresh] at hnone
        cases hnone

/-- **What one operation preserves.** -/
theorem Retains.respond (h : Retains key es readings cache) (op : CacheOp) :
    Retains key (es ++ [{ before := cache, call := op, answer := (cache.respond op).1 }])
      (readings ++ (op.reading key).toList) (cache.respond op).2 := by
  cases op with
  | checkAndUpdate key' seq now => exact h.respond_check key' seq now [now]
  | checkOnly key' seq => exact h.keep rfl rfl rfl []
  | remove key' =>
      have hget : (cache.remove key').2.entries.get? key =
          if key = key' then none else cache.entries.get? key := FiniteMap.get?_remove _ _ _
      have hlast : nextAccepted key (lastAccepted key es)
          { before := cache, call := .remove key', answer := none } =
            if key' = key then none else lastAccepted key es := rfl
      by_cases hkey : key' = key
      · exact .drop (hlast.trans (if_pos hkey)) (hget.trans (if_pos hkey.symm)) []
      · exact h.keep (hlast.trans (if_neg hkey))
          (hget.trans (if_neg fun heq => hkey heq.symm)) rfl []
  | clear => exact .drop rfl rfl []
  | cleanupExpired clock => exact h.respond_cleanup clock

/-- The invariant holds after every run. -/
theorem retains_final (key : ReplayKey) (ttl : Duration) (ops : List CacheOp) :
    Retains key (Transcript.transcript ReplayCache.respond (withTtl ttl) ops)
      (ops.filterMap (CacheOp.reading key))
      (Transcript.final ReplayCache.respond (withTtl ttl) ops) := by
  induction ops using List.reverseRecOn with
  | nil => exact retains_withTtl key ttl
  | append_singleton ops op ih =>
      have hreadings : (ops ++ [op]).filterMap (CacheOp.reading key) =
          ops.filterMap (CacheOp.reading key) ++ (op.reading key).toList := by
        cases h : op.reading key <;> simp [h]
      rw [Transcript.transcript_concat, Transcript.final_concat, hreadings]
      exact ih.respond op

/-! ### What a clean-up leaves -/

/-- What a clean-up leaves for one source. -/
theorem Retains.get?_cleanupExpired (h : Retains key es readings cache)
    {clock : ReplayKey → Instant} (hclock : ∀ r ∈ readings, r ≤ clock key) :
    (cache.cleanupExpired clock).2.entries.get? key =
      ((lastAccepted key es).filter fun a => decide (clock key ≤ a.2 + cache.ttl)).map entryOf := by
  have hget : (cache.cleanupExpired clock).2.entries.get? key =
      (cache.entries.get? key).filter fun entry => !entry.isExpired cache.ttl (clock key) :=
    FiniteMap.get?_retain _ _ _
  rw [hget]
  cases hentry : cache.entries.get? key with
  | some entry =>
      obtain ⟨last, hlast, rfl⟩ := h.onRecord entry hentry
      have hkept : (!(entryOf last).isExpired cache.ttl (clock key)) =
          decide (clock key ≤ last.2 + cache.ttl) := by
        rw [Bool.eq_iff_iff, Bool.not_eq_true', ← Bool.not_eq_true, isExpired_iff, Nat.not_lt,
          decide_eq_true_iff]
        rfl
      rw [hlast, Option.filter_some, Option.filter_some, hkept]
      split <;> rfl
  | none =>
      cases hlast : lastAccepted key es with
      | none => rfl
      | some last =>
          -- it was expired then, and the clock has not gone back
          obtain ⟨r, hr, hlt⟩ := h.expired last hlast hentry
          have hlate := Nat.not_le.2 (Nat.lt_of_lt_of_le hlt (hclock r hr))
          rw [Option.filter_some, if_neg (by simpa using hlate)]
          rfl

/-- **What a clean-up leaves.**  Take any operations on a new cache, with any time to live, and a
clean-up after them, where the readings of the clock never go back.  For each source the clean-up
leaves the number and the time of the last check accepted since the source was last dropped by hand
if that is not longer ago than the time to live, and nothing otherwise; and no more sources are left
than had a check accepted within the time to live. -/
theorem run_retained (ttl : Duration) (ops : List CacheOp) (clock : ReplayKey → Instant)
    (hclock : ∀ key, ((ops ++ [CacheOp.cleanupExpired clock]).filterMap
      (CacheOp.reading key)).Pairwise (· ≤ ·)) :
    let es := Transcript.transcript ReplayCache.respond (withTtl ttl) ops
    let cache := Transcript.final ReplayCache.respond (withTtl ttl)
      (ops ++ [.cleanupExpired clock])
    (∀ key, cache.entries.get? key =
        ((lastAccepted key es).filter fun a => decide (clock key ≤ a.2 + ttl)).map entryOf) ∧
      cache.len ≤ (es.filterMap (recentSource ttl clock)).toFinset.card := by
  intro es cache
  have hreadings : ∀ key, ∀ r ∈ ops.filterMap (CacheOp.reading key), r ≤ clock key := by
    intro key r hr
    have hpairwise := hclock key
    rw [List.filterMap_append, List.pairwise_append] at hpairwise
    exact hpairwise.2.2 r hr (clock key) (List.mem_singleton_self _)
  have hget : ∀ key, cache.entries.get? key =
      ((lastAccepted key es).filter fun a => decide (clock key ≤ a.2 + ttl)).map entryOf := by
    intro key
    have hleft := (retains_final key ttl ops).get?_cleanupExpired (hreadings key)
    rw [ttl_final] at hleft
    have hfinal : cache =
        ((Transcript.final ReplayCache.respond (withTtl ttl) ops).cleanupExpired clock).2 :=
      Transcript.final_concat _ _ _ _
    rw [hfinal, hleft]
    rfl
  refine ⟨hget, ?_⟩
  have hsub : (AList.keys cache.entries).toFinset ⊆
      (es.filterMap (recentSource ttl clock)).toFinset := by
    intro key hkey
    rw [List.mem_toFinset, ← FiniteMap.get?_isSome_iff, hget key, Option.isSome_map,
      Option.isSome_iff_exists] at hkey
    obtain ⟨last, hlast⟩ := hkey
    obtain ⟨hlast, hrecent⟩ := Option.filter_eq_some_iff.1 hlast
    obtain ⟨e, he, haccepted⟩ := exists_of_lastAccepted hlast
    rw [List.mem_toFinset]
    exact List.mem_filterMap.2
      ⟨e, he, recentSource_of_acceptedOf haccepted (of_decide_eq_true hrecent)⟩
  have hcard := Finset.card_le_card hsub
  rwa [List.toFinset_card_of_nodup (AList.keys_nodup _), ← FiniteMap.len_eq_length_keys] at hcard

/-- A source sends a frame and is dropped after a minute; it sends the same frame again, and half a
minute later there is another clean-up. -/
def replayedOps : List CacheOp :=
  [.checkAndUpdate quietKey 42 0, .cleanupExpired fun _ => 61000000000,
    .checkAndUpdate quietKey 42 61000000000]

/-- One source is left. -/
theorem run_retained_replayedOps :
    (Transcript.final ReplayCache.respond (withTtl replayCacheDefaultTtl)
      (replayedOps ++ [.cleanupExpired fun _ => 91000000000])).len ≤ 1 := by
  have hleft := run_retained replayCacheDefaultTtl replayedOps (fun _ => 91000000000) fun key => by
    change ([0, 61000000000, 61000000000, 91000000000] : List ℕ).Pairwise (· ≤ ·)
    decide
  exact hleft.2

end ReplayCache

end Bind19
