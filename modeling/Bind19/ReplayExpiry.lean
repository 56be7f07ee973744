/-
**Expiry and replay.**

The number on record for a source is all that keeps its old frames out.  The clean-up drops the
sources that have been silent for longer than the time to live, and the number goes with them: the
next frame of such a source is accepted whatever its number.  This is how the cache bounds its
memory.

What is left is said of the operations between two drops.  When a source is dropped is told from the
answers alone: a clean-up drops it when it comes more than the time to live after the last check
that was accepted.  As long as that does not happen, and the source is not removed by hand, the
numbers accepted from it ascend.

Main definitions:

* `Bind19.ReplayCache.respond` — an operation and what it answers;
* `Bind19.ReplayCache.accepted` — the accepted checks of a source;
* `Bind19.ReplayCache.Drops` — an operation drops a source.

Main results:

* `Bind19.ReplayCache.held_of_not_drops` — the last accepted check is on record;
* `Bind19.ReplayCache.accepted_ascending` — **the numbers accepted from a source ascend for as long
  as it is not dropped**.
-/

import Bind19.ReplayHistory
import Bind19.Transcript

set_option relaxedAutoImplicit false
set_option autoImplicit false

namespace Bind19

namespace ReplayCache

/-- One operation, and its answer if it is a check. -/
def respond (cache : ReplayCache) (op : CacheOp) : Option ReplayCheckResult × ReplayCache :=
  match op with
  | .checkAndUpdate key seq now => (some (cache.checkAndUpdate key seq now).1, cache.apply op)
  | .checkOnly key seq => (some (cache.checkOnly key seq), cache.apply op)
  | .remove _ => (none, cache.apply op)
  | .clear => (none, cache.apply op)
  | .cleanupExpired _ => (none, cache.apply op)

/-- An operation, the cache it met, and its answer. -/
abbrev CacheExchange := Exchange ReplayCache CacheOp (Option ReplayCheckResult)

/-- The number and the time of an accepted check of a source. -/
def acceptedOf (key : ReplayKey) (e : CacheExchange) : Option (UInt16 × Instant) :=
  match e.call with
  | .checkAndUpdate key' seq now =>
      if key' = key ∧ e.answer = some .allowed then some (seq, now) else none
  | _ => none

/-- The accepted checks of a source. -/
def accepted (key : ReplayKey) (es : List CacheExchange) : List (UInt16 × Instant) :=
  es.filterMap (acceptedOf key)

/-- The operation drops the source: by hand, or because it comes more than the time to live after
the last accepted check. -/
def Drops (key : ReplayKey) (ttl : Duration) (earlier : List CacheExchange) : CacheOp → Prop
  | .checkAndUpdate _ _ _ => False
  | .checkOnly _ _ => False
  | .remove key' => key' = key
  | .clear => True
  | .cleanupExpired clock =>
      ∃ last, (accepted key earlier).getLast? = some last ∧ last.2 + ttl < clock key

variable {cache : ReplayCache} {key key' : ReplayKey} {seq : UInt16} {now : Instant}
  {ops : List CacheOp} {op : CacheOp}

theorem respond_snd (cache : ReplayCache) (op : CacheOp) :
    (cache.respond op).2 = cache.apply op := by
  cases op <;> rfl

theorem ttl_apply (cache : ReplayCache) (op : CacheOp) : (cache.apply op).ttl = cache.ttl := by
  cases op with
  | checkAndUpdate key seq now =>
      change (cache.checkAndUpdate key seq now).2.ttl = cache.ttl
      rw [checkAndUpdate_snd]
      split <;> rfl
  | checkOnly | remove | clear | cleanupExpired => rfl

theorem ttl_final (cache : ReplayCache) (ops : List CacheOp) :
    (Transcript.final respond cache ops).ttl = cache.ttl := by
  induction ops using List.reverseRecOn with
  | nil => rfl
  | append_singleton ops op ih => rw [Transcript.final_concat, respond_snd, ttl_apply, ih]

theorem accepted_concat (key : ReplayKey) (es : List CacheExchange) (e : CacheExchange) :
    accepted key (es ++ [e]) = accepted key es ++ (acceptedOf key e).toList := by
  cases h : acceptedOf key e <;> simp [accepted, h]

/-- An entry is expired when more than the time to live has passed. -/
theorem isExpired_iff (entry : ReplayEntry) (ttl : Duration) (now : Instant) :
    entry.isExpired ttl now = true ↔ entry.lastUpdate + ttl < now := by
  rw [ReplayEntry.isExpired, decide_eq_true_iff]
  exact Nat.lt_sub_iff_add_lt'

/-! ### The last accepted check is on record -/

/-- The accepted numbers of the source ascend, and the last of them is on record. -/
structure Held (key : ReplayKey) (es : List CacheExchange) (cache : ReplayCache) : Prop where
  ascending : ((accepted key es).map Prod.fst).Pairwise (· < ·)
  onRecord : ∀ last, (accepted key es).getLast? = some last →
    cache.entries.get? key = some { lastSeq := last.1, lastUpdate := last.2 }

variable {es : List CacheExchange}

/-- What is no accepted check of the source, and keeps its entry, preserves that. -/
theorem Held.keep {e : CacheExchange} {cache' : ReplayCache} (h : Held key es cache)
    (he : acceptedOf key e = none)
    (hentry : (accepted key es).getLast? ≠ none →
      cache'.entries.get? key = cache.entries.get? key) : Held key (es ++ [e]) cache' := by
  have haccepted : accepted key (es ++ [e]) = accepted key es := by
    rw [accepted_concat, he, Option.toList_none, List.append_nil]
  refine ⟨?_, ?_⟩
  · rw [haccepted]
    exact h.ascending
  · intro last hlast
    rw [haccepted] at hlast
    rw [hentry (by simp [hlast])]
    exact h.onRecord last hlast

/-- What an accepted check of the source preserves. -/
theorem Held.checkAndUpdate (h : Held key es cache)
    (hallowed : (cache.checkAndUpdate key seq now).1 = .allowed) :
    Held key
      (es ++ [{ before := cache, call := .checkAndUpdate key seq now, answer := some .allowed }])
      (cache.checkAndUpdate key seq now).2 := by
  obtain ⟨hfresh, hregister⟩ := checkAndUpdate_of_allowed hallowed
  rw [hregister]
  have haccepted : accepted key (es ++
      [{ before := cache, call := .checkAndUpdate key seq now, answer := some .allowed }]) =
      accepted key es ++ [(seq, now)] := by
    simp [accepted_concat, acceptedOf]
  refine ⟨?_, ?_⟩
  · rw [haccepted, List.map_append, List.map_singleton,
      Ascending.pairwise_concat_iff (r := fun a b : UInt16 => a < b) UInt16.lt_trans]
    refine ⟨h.ascending, fun y hy => ?_⟩
    rw [List.getLast?_map, Option.map_eq_some_iff] at hy
    obtain ⟨last, hlast, rfl⟩ := hy
    unfold Fresh at hfresh
    rwa [lastSeq_eq_some (h.onRecord last hlast)] at hfresh
  · intro last hlast
    rw [haccepted, List.getLast?_concat] at hlast
    obtain rfl := Option.some.inj hlast
    exact (FiniteMap.get?_insert _ _ _ _).trans (if_pos rfl)

/-- What a check preserves. -/
theorem Held.respond_check (h : Held key es cache) (key' : ReplayKey) (seq : UInt16)
    (now : Instant) :
    Held key
      (es ++ [{ before := cache, call := .checkAndUpdate key' seq now
                answer := some (cache.checkAndUpdate key' seq now).1 }])
      (cache.checkAndUpdate key' seq now).2 := by
  by_cases hkey : key' = key
  · subst hkey
    by_cases hallowed : (cache.checkAndUpdate key' seq now).1 = .allowed
    · rw [hallowed]
      exact h.checkAndUpdate hallowed
    · refine h.keep ?_ fun _ => ?_
      · simp [acceptedOf, hallowed]
      · rw [checkAndUpdate_of_not_allowed hallowed]
  · refine h.keep ?_ fun _ => ?_
    · simp [acceptedOf, hkey]
    · rw [checkAndUpdate_snd]
      split
      · exact (FiniteMap.get?_insert _ _ _ _).trans (if_neg fun heq => hkey heq.symm)
      · rfl

/-- What a clean-up in time preserves. -/
theorem Held.respond_cleanup (h : Held key es cache) {clock : ReplayKey → Instant}
    (hdrops : ¬ Drops key cache.ttl es (.cleanupExpired clock)) :
    Held key (es ++ [{ before := cache, call := .cleanupExpired clock, answer := none }])
      (cache.cleanupExpired clock).2 := by
  refine h.keep rfl fun hne => ?_
  obtain ⟨last, hlast⟩ := Option.ne_none_iff_exists'.1 hne
  have hentry := h.onRecord last hlast
  have hkept : ReplayEntry.isExpired { lastSeq := last.1, lastUpdate := last.2 } cache.ttl
      (clock key) = false := by
    rw [← Bool.not_eq_true, isExpired_iff]
    exact fun hlt => hdrops ⟨last, hlast, hlt⟩
  rw [cleanupExpired, FiniteMap.get?_retain, hentry]
  simp [hkept]

/-- **What an operation preserves that does not drop the source.** -/
theorem Held.respond (h : Held key es cache) (hdrops : ¬ Drops key cache.ttl es op) :
    Held key (es ++ [{ before := cache, call := op, answer := (cache.respond op).1 }])
      (cache.respond op).2 := by
  cases op with
  | checkAndUpdate key' seq now => exact h.respond_check key' seq now
  | checkOnly key' seq => exact h.keep rfl fun _ => rfl
  | remove key' =>
      refine h.keep rfl fun _ => ?_
      exact (FiniteMap.get?_remove _ _ _).trans (if_neg fun heq => hdrops heq.symm)
  | clear => exact absurd trivial hdrops
  | cleanupExpired clock => exact h.respond_cleanup hdrops

/-- The last accepted check is on record for as long as the source is not dropped. -/
theorem held_of_not_drops (hkept : ∀ pre op post, ops = pre ++ op :: post →
      ¬ Drops key cache.ttl (Transcript.transcript respond cache pre) op) :
    Held key (Transcript.transcript respond cache ops) (Transcript.final respond cache ops) := by
  induction ops using List.reverseRecOn with
  | nil => exact ⟨List.Pairwise.nil, fun last hlast => by cases hlast⟩
  | append_singleton ops op ih =>
      have hheld := ih fun pre op' post hops => hkept pre op' (post ++ [op]) (by simp [hops])
      rw [Transcript.transcript_concat, Transcript.final_concat]
      refine hheld.respond ?_
      rw [ttl_final]
      exact hkept ops op [] rfl

/-- **The numbers accepted from a source ascend for as long as it is not dropped.**  Take any cache,
any source and any sequence of operations on it, whatever the clock readings.  If none of them
removes the source or clears the cache, and no clean-up reads the clock more than the time to live
after the last accepted check of the source, then the numbers accepted from the source ascend
strictly; so none of them is accepted twice. -/
theorem accepted_ascending (cache : ReplayCache) (key : ReplayKey) (ops : List CacheOp)
    (hkept : ∀ pre op post, ops = pre ++ op :: post →
      ¬ Drops key cache.ttl (Transcript.transcript respond cache pre) op) :
    ((accepted key (Transcript.transcript respond cache ops)).map Prod.fst).Pairwise (· < ·) :=
  (held_of_not_drops hkept).ascending

/-- A source. -/
def quietKey : ReplayKey := { tenantId := 1, sourceId := 100 }

/-- It sends a frame, and another one a minute later, when the clean-up has just been. -/
def cleanedInTime : List CacheOp :=
  [.checkAndUpdate quietKey 42 0, .cleanupExpired fun _ => 60000000000,
    .checkAndUpdate quietKey 43 60000000000]

/-- The clean-up comes in time, and the numbers ascend. -/
theorem accepted_ascending_cleanedInTime :
    ((accepted quietKey (Transcript.transcript respond new cleanedInTime)).map
      Prod.fst).Pairwise (· < ·) := by
  refine accepted_ascending new quietKey cleanedInTime ?_
  intro pre op post hops
  rcases pre with _ | ⟨_, _ | ⟨_, _ | ⟨_, pre⟩⟩⟩
  · cases hops
    exact id
  · cases hops
    rintro ⟨last, hlast, hlt⟩
    have hfirst : last = (42, 0) := (Option.some.inj hlast).symm
    rw [hfirst] at hlt
    exact absurd hlt (by decide)
  · cases hops
    exact id
  · simp [cleanedInTime] at hops

/-- A frame is captured and sent again after a minute and a clean-up.  It is accepted twice. -/
theorem accepted_replayed :
    (accepted quietKey (Transcript.transcript respond new
        [.checkAndUpdate quietKey 42 0, .cleanupExpired fun _ => 61000000000,
          .checkAndUpdate quietKey 42 61000000000])).map Prod.fst = [42, 42] ∧
      ¬ [42, 42].Pairwise fun a b : UInt16 => a < b := by
  decide

end ReplayCache

end Bind19
