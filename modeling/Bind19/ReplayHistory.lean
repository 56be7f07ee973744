/-
**The replay cache over a whole run.**

The cache does not store what it has accepted; it stores one number for each source.  What it is
for is told by the *epoch* of a source: the numbers accepted from it since it was last registered,
in order.  An epoch begins with the first accepted number and is cut by whatever drops the source.
The epochs are followed here along a run, beside the cache, and are proved to ascend; the cache
holds the last element of each.

Main definitions:

* `Bind19.CacheOp` — an operation with the clock readings it makes;
* `Bind19.CacheHistory` — a cache together with the epochs of its sources.

Main results:

* `Bind19.CacheHistory.Sound.step` — what one operation preserves;
* `Bind19.CacheHistory.run_sound` — **after every run the cache is within its capacity and holds the
  last element of every epoch, and the epochs ascend**;
* `Bind19.CacheHistory.run_spec` — the same together with the frame conditions of the checks.
-/

import Bind19.ReplayCache
import Bind19.Ascending
import Mathlib.Logic.Function.Basic

set_option relaxedAutoImplicit false
set_option autoImplicit false

namespace Bind19

/-! ### Operations and epochs -/

/-- The operations on the cache. -/
inductive CacheOp
  | checkAndUpdate (key : ReplayKey) (seq : UInt16) (now : Instant)
  | checkOnly (key : ReplayKey) (seq : UInt16)
  | remove (key : ReplayKey)
  | clear
  | cleanupExpired (clock : ReplayKey → Instant)

/-- The cache after an operation. -/
def ReplayCache.apply (cache : ReplayCache) : CacheOp → ReplayCache
  | .checkAndUpdate key seq now => (cache.checkAndUpdate key seq now).2
  | .checkOnly _ _ => cache
  | .remove key => (cache.remove key).2
  | .clear => cache.clear
  | .cleanupExpired clock => (cache.cleanupExpired clock).2

/-- For each source the numbers accepted from it since it was registered. -/
abbrev Epochs := ReplayKey → List UInt16

/-- A cache and the epochs of its sources. -/
structure CacheHistory where
  cache : ReplayCache
  epochs : Epochs

namespace CacheHistory

/-- The epochs after an operation.  An accepted number extends the epoch of its source, and a source
that is dropped loses its epoch. -/
def nextEpochs (h : CacheHistory) : CacheOp → Epochs
  | .checkAndUpdate key seq now =>
      if (h.cache.checkAndUpdate key seq now).1 = .allowed then
        Function.update h.epochs key (h.epochs key ++ [seq])
      else h.epochs
  | .checkOnly _ _ => h.epochs
  | .remove key => Function.update h.epochs key []
  | .clear => fun _ => []
  | .cleanupExpired clock => fun key =>
      if ((h.cache.cleanupExpired clock).2.lastSeq key).isSome then h.epochs key else []

/-- One operation, followed in the cache and in the epochs. -/
def step (h : CacheHistory) (op : CacheOp) : CacheHistory :=
  { cache := h.cache.apply op, epochs := h.nextEpochs op }

/-- A new cache, before any frame. -/
def init (ttl : Duration) : CacheHistory :=
  { cache := ReplayCache.withTtl ttl, epochs := fun _ => [] }

/-- A run on a new cache. -/
def run (ttl : Duration) (ops : List CacheOp) : CacheHistory := ops.foldl step (init ttl)

/-- The cache is within its capacity, the epochs ascend, and the cache holds the last element of
each. -/
structure Sound (h : CacheHistory) : Prop where
  len_le : h.cache.len ≤ replayCacheMaxCapacity
  ascending : ∀ key, (h.epochs key).Pairwise (· < ·)
  lastSeq : ∀ key, h.cache.lastSeq key = (h.epochs key).getLast?

theorem sound_init (ttl : Duration) : (init ttl).Sound where
  len_le := Nat.zero_le _
  ascending _ := List.Pairwise.nil
  lastSeq _ := rfl

/-! ### What one operation preserves -/

/-- A fresh number of a known source is greater than all its predecessors. -/
theorem Sound.ascending_concat {h : CacheHistory} (hs : h.Sound) {key : ReplayKey} {seq : UInt16}
    (hfresh : h.cache.Fresh key seq) : (h.epochs key ++ [seq]).Pairwise (· < ·) := by
  refine (Ascending.pairwise_concat_iff (r := fun a b : UInt16 => a < b) UInt16.lt_trans _ _).2
    ⟨hs.ascending key, fun y hy => ?_⟩
  have hlast : h.cache.lastSeq key = some y := (hs.lastSeq key).trans hy
  unfold ReplayCache.Fresh at hfresh
  rwa [hlast] at hfresh

/-- An accepted check puts its number on record and extends the epoch. -/
theorem step_of_allowed {h : CacheHistory} {key : ReplayKey} {seq : UInt16} {now : Instant}
    (hallowed : (h.cache.checkAndUpdate key seq now).1 = .allowed) :
    h.step (.checkAndUpdate key seq now) =
      { cache := h.cache.register key seq now
        epochs := Function.update h.epochs key (h.epochs key ++ [seq]) } := by
  change CacheHistory.mk (h.cache.checkAndUpdate key seq now).2 (if _ then _ else _) = _
  rw [if_pos hallowed, (ReplayCache.checkAndUpdate_of_allowed hallowed).2]

/-- Any other check changes nothing. -/
theorem step_of_not_allowed {h : CacheHistory} {key : ReplayKey} {seq : UInt16} {now : Instant}
    (hallowed : (h.cache.checkAndUpdate key seq now).1 ≠ .allowed) :
    h.step (.checkAndUpdate key seq now) = h := by
  change CacheHistory.mk (h.cache.checkAndUpdate key seq now).2 (if _ then _ else _) = _
  rw [if_neg hallowed, ReplayCache.checkAndUpdate_of_not_allowed hallowed]

theorem Sound.checkAndUpdate {h : CacheHistory} (hs : h.Sound) (key : ReplayKey) (seq : UInt16)
    (now : Instant) : (h.step (.checkAndUpdate key seq now)).Sound := by
  by_cases hallowed : (h.cache.checkAndUpdate key seq now).1 = .allowed
  · obtain ⟨hfresh, -⟩ := ReplayCache.checkAndUpdate_of_allowed hallowed
    rw [step_of_allowed hallowed]
    refine ⟨ReplayCache.len_register_le hs.len_le hfresh, fun key' => ?_, fun key' => ?_⟩
    · dsimp only
      by_cases hkey : key' = key
      · rw [hkey, Function.update_self]
        exact hs.ascending_concat hfresh
      · rw [Function.update_of_ne hkey]
        exact hs.ascending key'
    · dsimp only
      rw [ReplayCache.lastSeq_register]
      by_cases hkey : key' = key
      · rw [if_pos hkey, hkey, Function.update_self, List.getLast?_concat]
      · rw [if_neg hkey, Function.update_of_ne hkey]
        exact hs.lastSeq key'
  · rw [step_of_not_allowed hallowed]
    exact hs

theorem Sound.remove {h : CacheHistory} (hs : h.Sound) (key : ReplayKey) :
    (h.step (.remove key)).Sound := by
  change Sound { cache := (h.cache.remove key).2, epochs := Function.update h.epochs key [] }
  refine ⟨Nat.le_trans (ReplayCache.len_remove_le _ _) hs.len_le, fun key' => ?_, fun key' => ?_⟩
  · dsimp only
    by_cases hkey : key' = key
    · rw [hkey, Function.update_self]
      exact List.Pairwise.nil
    · rw [Function.update_of_ne hkey]
      exact hs.ascending key'
  · dsimp only
    rw [ReplayCache.lastSeq_remove]
    by_cases hkey : key' = key
    · rw [if_pos hkey, hkey, Function.update_self]
      rfl
    · rw [if_neg hkey, Function.update_of_ne hkey]
      exact hs.lastSeq key'

theorem Sound.cleanupExpired {h : CacheHistory} (hs : h.Sound) (clock : ReplayKey → Instant) :
    (h.step (.cleanupExpired clock)).Sound := by
  change Sound
    { cache := (h.cache.cleanupExpired clock).2
      epochs := fun key =>
        if ((h.cache.cleanupExpired clock).2.lastSeq key).isSome then h.epochs key else [] }
  refine ⟨Nat.le_trans (ReplayCache.len_cleanupExpired_le _ _) hs.len_le, fun key => ?_,
    fun key => ?_⟩
  · dsimp only
    split
    · exact hs.ascending key
    · exact List.Pairwise.nil
  · dsimp only
    rcases ReplayCache.lastSeq_cleanupExpired h.cache clock key with hkept | hdropped
    · rw [hkept, hs.lastSeq key]
      cases hlast : (h.epochs key).getLast? with
      | none => rfl
      | some y => rw [Option.isSome_some, if_pos rfl, hlast]
    · rw [hdropped]
      rfl

/-- **What one operation preserves.** -/
theorem Sound.step {h : CacheHistory} (hs : h.Sound) (op : CacheOp) : (h.step op).Sound := by
  cases op with
  | checkAndUpdate key seq now => exact hs.checkAndUpdate key seq now
  | checkOnly key seq => exact hs
  | remove key => exact hs.remove key
  | clear => exact sound_init h.cache.ttl
  | cleanupExpired clock => exact hs.cleanupExpired clock

/-! ### Runs -/

/-- **What holds after every run.** -/
theorem run_sound (ttl : Duration) (ops : List CacheOp) : (run ttl ops).Sound :=
  List.foldlRecOn ops step (sound_init ttl) fun _ hs op _ => hs.step op

/-- **The replay cache over a whole run.**  After every run of operations on a new cache, whatever
the clock readings, the cache is within its capacity; for every source the accepted numbers of its
epoch ascend strictly and the last of them is on record; a preview, and a check that is not
accepted, leave the whole cache as it is; and a check does not change what is on record for another
source. -/
theorem run_spec (ttl : Duration) (ops : List CacheOp) :
    (run ttl ops).cache.len ≤ replayCacheMaxCapacity ∧
      (∀ key, ((run ttl ops).epochs key).Pairwise (· < ·) ∧
        (run ttl ops).cache.lastSeq key = ((run ttl ops).epochs key).getLast?) ∧
      (∀ key seq, (run ttl ops).cache.apply (.checkOnly key seq) = (run ttl ops).cache) ∧
      (∀ key seq now, ((run ttl ops).cache.checkAndUpdate key seq now).1 ≠ .allowed →
        ((run ttl ops).cache.checkAndUpdate key seq now).2 = (run ttl ops).cache) ∧
      ∀ key seq now key', key' ≠ key →
        ((run ttl ops).cache.checkAndUpdate key seq now).2.lastSeq key' =
          (run ttl ops).cache.lastSeq key' := by
  have hs := run_sound ttl ops
  refine ⟨hs.len_le, fun key => ⟨hs.ascending key, hs.lastSeq key⟩, fun key seq => rfl,
    fun key seq now h => ReplayCache.checkAndUpdate_of_not_allowed h,
    fun key seq now key' hkey => ?_⟩
  rcases ReplayCache.checkAndUpdate_cases (run ttl ops).cache key seq now with
    ⟨-, heq⟩ | ⟨result, -, -, heq⟩
  · rw [heq]
    exact (ReplayCache.lastSeq_register _ _ _ _ _).trans (if_neg hkey)
  · rw [heq]

end CacheHistory

end Bind19
