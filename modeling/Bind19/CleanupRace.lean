/-
**A clean-up among concurrent checks and removals.**

A clean-up reads the size of the cache, drops the expired entries, reads the size again and returns
the difference.  These are three steps, and between them other calls may register new sources or
remove old ones.  While a check holds a reference to an entry, no entry is dropped from the shard of
that entry.

Along any run the size of the cache changes by the sources that are registered and the entries that
are dropped, so the difference that a clean-up forms can be told from what happened between its two
readings: it is not negative exactly if no more sources were registered than entries were dropped.
A clean-up that no other call interrupts returns the number of expired entries.

Main definitions:

* `Bind19.CleanupPhase`, `Bind19.CacheCall` — a check, a removal or a clean-up, and how far it has
  come;
* `Bind19.CacheCall.tick` — its next atomic step;
* `Bind19.CacheState.registered`, `Bind19.CacheState.dropped` — the sources that a step registers,
  and the entries that it drops;
* `Bind19.ReplayCache.countExpired` — the number of expired entries.

Main results:

* `Bind19.CacheCall.tick_cases` — **what a step can do**;
* `Bind19.CacheState.len_balance` — the size of the cache along a run;
* `Bind19.CacheState.cleanup_eq_sub`, `Bind19.CacheState.exists_run_alone` — what a clean-up
  returns;
* `Bind19.CacheState.cleanup_isOk_iff` — **when the difference is not negative, and what an
  uninterrupted clean-up does**.
-/

import Bind19.Checked
import Bind19.ReplayCapacity

set_option relaxedAutoImplicit false
set_option autoImplicit false

namespace Bind19

open Checked

/-! ### Calls -/

/-- How far a clean-up has come. -/
inductive CleanupPhase
  /-- It has not looked at the cache yet. -/
  | started
  /-- It has read the size of the cache. -/
  | counted (before : ℕ)
  /-- It has dropped the expired entries. -/
  | retained (before : ℕ)
  /-- It has subtracted the size after from the size before, if that was possible. -/
  | returned (removed : Except Fault ℕ)

/-- A call in progress, or finished. -/
inductive CacheCall
  | check (call : CheckCall)
  | remove (key : ReplayKey) (found : Option Bool)
  | cleanup (phase : CleanupPhase)

/-- The calls that can be made. -/
inductive CacheRequest
  | checkAndUpdate (key : ReplayKey) (seq : UInt16)
  | remove (key : ReplayKey)
  | cleanupExpired

/-- The cache and the calls that run on it. -/
abbrev CacheState := Threads.State CheckShared CacheCall

/-- The checks among the calls. -/
def CacheState.checks (s : CacheState) : CheckState :=
  { shared := s.shared
    threads := s.threads.filterMap fun
      | .check call => some call
      | _ => none }

namespace CheckShared

/-- The cache after a removal. -/
def remove (g : CheckShared) (key : ReplayKey) : CheckShared :=
  { g with cache := { g.cache with entries := g.cache.entries.remove key } }

/-- The cache without the entries that are expired.  The clock is read once for each entry. -/
def retain (g : CheckShared) (clock : ReplayKey → Instant) : CheckShared :=
  { g with
    cache := { g.cache with
      entries := g.cache.entries.retain fun key entry =>
        !entry.isExpired g.cache.ttl (clock key) } }

end CheckShared

namespace CacheCall

/-- A new call. -/
def start : CacheRequest → CacheCall
  | .checkAndUpdate key seq => .check (CheckCall.start (key, seq))
  | .remove key => .remove key none
  | .cleanupExpired => .cleanup .started

variable (shard : ReplayKey → ℕ)

/-- Whether some check holds a reference to an entry. -/
def anyHeld (s : CacheState) : Bool := s.checks.threads.any fun c => c.phase == .loaded

/-- The next atomic step of a call. -/
def tick (s : CacheState) (call : CacheCall) (clock : ReplayKey → Instant) :
    Option (CheckShared × CacheCall) :=
  let g := s.shared
  match call with
  | .check c =>
      match CheckCall.tick shard s.checks c (clock c.key) with
      | none => none
      | some (g', c') => some (g', .check c')
  | .remove key none =>
      if CheckCall.shardHeld shard s.checks key then none
      else some (g.remove key, .remove key (some (g.cache.entries.get? key).isSome))
  | .remove _ (some _) => none
  | .cleanup .started => some (g, .cleanup (.counted g.cache.entries.len))
  | .cleanup (.counted before) =>
      if anyHeld s then none else some (g.retain clock, .cleanup (.retained before))
  | .cleanup (.retained before) =>
      some (g, .cleanup (.returned (Checked.sub before g.cache.entries.len)))
  | .cleanup (.returned _) => none

end CacheCall

/-- The actions: a call begins, or takes its next step. -/
abbrev CacheAction := Threads.Action CacheRequest (ReplayKey → Instant)

/-- One action on the cache and its calls. -/
def CacheState.step (shard : ReplayKey → ℕ) : CacheState → CacheAction → Option CacheState :=
  Threads.step CacheCall.start (CacheCall.tick shard)

/-- A cache on which no call has begun. -/
def CacheState.begin (cache : ReplayCache) : CacheState :=
  { shared := (CheckState.begin cache).shared, threads := [] }

/-! ### What a step can do -/

/-- What a step of `call` can do to the shared data and to the call. -/
inductive CacheStep (clock : ReplayKey → Instant) (g : CheckShared) :
    CacheCall → CheckShared → CacheCall → Prop
  /-- It is the step of a check. -/
  | check (c c' : CheckCall) (g' : CheckShared) (hlen : g'.cache.len = g.cache.len + c.growth g) :
      CacheStep clock g (.check c) g' (.check c')
  /-- It drops a source. -/
  | remove (key : ReplayKey) :
      CacheStep clock g (.remove key none) (g.remove key)
        (.remove key (some (g.cache.entries.get? key).isSome))
  /-- It reads the size of the cache. -/
  | count : CacheStep clock g (.cleanup .started) g (.cleanup (.counted g.cache.len))
  /-- It drops the expired entries. -/
  | retain (before : ℕ) :
      CacheStep clock g (.cleanup (.counted before)) (g.retain clock) (.cleanup (.retained before))
  /-- It reads the size of the cache again. -/
  | recount (before : ℕ) :
      CacheStep clock g (.cleanup (.retained before)) g
        (.cleanup (.returned (Checked.sub before g.cache.len)))

namespace CacheCall

variable {shard : ReplayKey → ℕ} {s : CacheState} {call call' : CacheCall}
  {clock : ReplayKey → Instant} {g : CheckShared}

/-- **What a step can do.** -/
theorem tick_cases (h : tick shard s call clock = some (g, call')) :
    CacheStep clock s.shared call g call' := by
  cases call with
  | check c =>
      rw [tick] at h
      cases hc : CheckCall.tick shard s.checks c (clock c.key) with
      | none =>
          rw [hc] at h
          cases h
      | some gc =>
          rw [hc] at h
          cases h
          exact .check c gc.2 gc.1 (CheckCall.len_of_tick hc)
  | remove key found =>
      cases found with
      | none =>
          rw [tick] at h
          split at h
          · cases h
          · cases h
            exact .remove key
      | some found => cases h
  | cleanup phase =>
      cases phase with
      | started =>
          cases h
          exact .count
      | counted before =>
          rw [tick] at h
          split at h
          · cases h
          · cases h
            exact .retain before
      | retained before =>
          cases h
          exact .recount before
      | returned removed => cases h

end CacheCall

/-! ### What is registered and dropped -/

/-- The number of expired entries. -/
def ReplayCache.countExpired (cache : ReplayCache) (clock : ReplayKey → Instant) : ℕ :=
  (cache.entries.retain fun key entry => entry.isExpired cache.ttl (clock key)).len

namespace CacheCall

/-- The number of sources that the next step of a call registers. -/
def registered (g : CheckShared) : CacheCall → ℕ
  | .check c => c.growth g
  | _ => 0

/-- The number of entries that the next step of a call drops. -/
def dropped (clock : ReplayKey → Instant) (g : CheckShared) : CacheCall → ℕ
  | .remove key none => if (g.cache.entries.get? key).isSome then 1 else 0
  | .cleanup (.counted _) => g.cache.countExpired clock
  | _ => 0

end CacheCall

/-- **The size of the cache after a step.** -/
theorem CacheStep.len_balance {clock : ReplayKey → Instant} {g g' : CheckShared}
    {call call' : CacheCall} (h : CacheStep clock g call g' call') :
    g'.cache.len + call.dropped clock g = g.cache.len + call.registered g := by
  cases h with
  | check c c' g' hlen => exact hlen
  | remove key => exact FiniteMap.len_remove_add g.cache.entries key
  | count | recount before => rfl
  | retain before => exact FiniteMap.len_retain_add _ g.cache.entries

namespace CacheState

variable {shard : ReplayKey → ℕ} {s s' u : CacheState} {a : CacheAction} {i before : ℕ}

/-- The number of sources that an action registers. -/
def registered (s : CacheState) : CacheAction → ℕ
  | .spawn _ => 0
  | .advance i _ => (s.threads[i]?.map (CacheCall.registered s.shared)).getD 0

/-- The number of entries that an action drops. -/
def dropped (s : CacheState) : CacheAction → ℕ
  | .spawn _ => 0
  | .advance i clock => (s.threads[i]?.map (CacheCall.dropped clock s.shared)).getD 0

theorem len_step (h : CacheState.step shard s a = some s') :
    s'.shared.cache.len + s.dropped a = s.shared.cache.len + s.registered a := by
  rcases Threads.step_cases h with
    ⟨request, rfl, rfl⟩ | ⟨i, clock, call, g, call', rfl, hi, htick, rfl⟩
  · rfl
  · rw [dropped, registered, hi]
    exact (CacheCall.tick_cases htick).len_balance

/-- The number of sources that a run registers. -/
def registrations (shard : ReplayKey → ℕ) (s : CacheState) (as : List CacheAction) : ℕ :=
  Runs.tally (CacheState.step shard) registered s as

/-- The number of entries that a run drops. -/
def drops (shard : ReplayKey → ℕ) (s : CacheState) (as : List CacheAction) : ℕ :=
  Runs.tally (CacheState.step shard) dropped s as

/-- **The size of the cache along a run.** -/
theorem len_balance {as : List CacheAction}
    (hrun : Runs.run (CacheState.step shard) s as = some u) :
    u.shared.cache.len + drops shard s as = s.shared.cache.len + registrations shard s as :=
  Runs.balance (q := fun v => v.shared.cache.len) (fun _ _ _ hstep => len_step hstep) hrun

/-! ### What a clean-up returns -/

/-- The clean-up has read the size of the cache, and has not forgotten it since. -/
def CleanupAt (s : CacheState) (i before : ℕ) : Prop :=
  s.threads[i]? = some (.cleanup (.counted before)) ∨
    s.threads[i]? = some (.cleanup (.retained before)) ∨
      ∃ removed, s.threads[i]? = some (.cleanup (.returned removed))

/-- What one step preserves, whoever takes it. -/
theorem CleanupAt.step (h : s.CleanupAt i before) (hstep : CacheState.step shard s a = some s') :
    s'.CleanupAt i before := by
  rcases h with hi | hi | ⟨removed, hi⟩
  · rcases Threads.getElem?_step hstep hi with hi' | ⟨clock, g, call', htick, hi'⟩
    · exact Or.inl hi'
    · cases CacheCall.tick_cases htick with
      | retain => exact Or.inr (Or.inl hi')
  · rcases Threads.getElem?_step hstep hi with hi' | ⟨clock, g, call', htick, hi'⟩
    · exact Or.inr (Or.inl hi')
    · cases CacheCall.tick_cases htick with
      | recount => exact Or.inr (Or.inr ⟨_, hi'⟩)
  · rcases Threads.getElem?_step hstep hi with hi' | ⟨clock, g, call', htick, hi'⟩
    · exact Or.inr (Or.inr ⟨removed, hi'⟩)
    · cases htick

/-- The actions from the first reading of the size to the second one. -/
def window (i : ℕ) (first last : ReplayKey → Instant) (mid : List CacheAction) :
    List CacheAction := .advance i first :: (mid ++ [.advance i last])

variable {first last : ReplayKey → Instant} {mid : List CacheAction} {removed : Except Fault ℕ}

/-- **What a clean-up returns**: the size of the cache before it less the size after it. -/
theorem cleanup_eq_sub (hi : s.threads[i]? = some (.cleanup .started))
    (hrun : Runs.run (CacheState.step shard) s (window i first last mid) = some u)
    (hu : u.threads[i]? = some (.cleanup (.returned removed))) :
    removed = Checked.sub s.shared.cache.len u.shared.cache.len := by
  obtain ⟨s₁, hfirst, hrun⟩ := (Runs.run_cons_eq_some_iff _).1 hrun
  obtain ⟨v, hmid, hrun⟩ := (Runs.run_append_eq_some_iff _).1 hrun
  obtain ⟨u', hlast, hnil⟩ := (Runs.run_cons_eq_some_iff _).1 hrun
  obtain rfl := Option.some.inj hnil
  -- the first reading
  have hat : s₁.CleanupAt i s.shared.cache.len := by
    obtain ⟨g, call', htick, -, hi'⟩ := Threads.step_advance hfirst hi
    cases htick
    exact Or.inl hi'
  have hat' : v.CleanupAt i s.shared.cache.len :=
    Runs.invariant (P := fun w => CleanupAt w i s.shared.cache.len)
      (fun _ _ _ hP hstep => hP.step hstep) hat hmid
  -- the second reading
  rcases hat' with hv | hv | ⟨removed', hv⟩
  · obtain ⟨g, call', htick, -, hi'⟩ := Threads.step_advance hlast hv
    rw [hu] at hi'
    cases Option.some.inj hi'
    cases CacheCall.tick_cases htick
  · obtain ⟨g, call', htick, hshared, hi'⟩ := Threads.step_advance hlast hv
    rw [hu] at hi'
    cases Option.some.inj hi'
    cases htick
    rw [hshared]
    rfl
  · obtain ⟨g, call', htick, -⟩ := Threads.step_advance hlast hv
    cases htick

/-- What a clean-up returns is what was dropped between its readings less what was registered. -/
theorem cleanup_eq_sub_drops (hi : s.threads[i]? = some (.cleanup .started))
    (hrun : Runs.run (CacheState.step shard) s (window i first last mid) = some u)
    (hu : u.threads[i]? = some (.cleanup (.returned removed))) :
    removed = Checked.sub (drops shard s (window i first last mid))
      (registrations shard s (window i first last mid)) := by
  rw [cleanup_eq_sub hi hrun hu]
  exact sub_congr (len_balance hrun)

/-- A clean-up that no other call interrupts drops the expired entries. -/
theorem shared_of_alone {clock : ReplayKey → Instant}
    (hi : s.threads[i]? = some (.cleanup .started))
    (hrun : Runs.run (CacheState.step shard) s (window i first last [.advance i clock]) = some u) :
    u.shared = s.shared.retain clock := by
  obtain ⟨s₁, hfirst, hrun⟩ := (Runs.run_cons_eq_some_iff _).1 hrun
  obtain ⟨s₂, hmid, hrun⟩ := (Runs.run_cons_eq_some_iff _).1 hrun
  obtain ⟨u', hlast, hnil⟩ := (Runs.run_cons_eq_some_iff _).1 hrun
  obtain rfl := Option.some.inj hnil
  obtain ⟨g₁, call₁, htick₁, hshared₁, hi₁⟩ := Threads.step_advance hfirst hi
  cases htick₁
  obtain ⟨g₂, call₂, htick₂, hshared₂, hi₂⟩ := Threads.step_advance hmid hi₁
  cases CacheCall.tick_cases htick₂
  obtain ⟨g₃, call₃, htick₃, hshared₃, -⟩ := Threads.step_advance hlast hi₂
  cases CacheCall.tick_cases htick₃
  rw [hshared₃, hshared₂, hshared₁]

/-- A clean-up that no other call interrupts, and that no reference holds up, returns the number of
expired entries. -/
theorem exists_run_alone (hi : s.threads[i]? = some (.cleanup .started))
    (hheld : CacheCall.anyHeld s = false) (first clock last : ReplayKey → Instant) :
    ∃ u, Runs.run (CacheState.step shard) s (window i first last [.advance i clock]) = some u ∧
      u.threads[i]? =
        some (.cleanup (.returned (.ok (s.shared.cache.countExpired clock)))) := by
  obtain ⟨hlt, -⟩ := List.getElem?_eq_some_iff.1 hi
  let before := s.shared.cache.entries.len
  let s₁ : CacheState :=
    { shared := s.shared, threads := s.threads.set i (.cleanup (.counted before)) }
  let s₂ : CacheState :=
    { shared := s.shared.retain clock, threads := s₁.threads.set i (.cleanup (.retained before)) }
  have hi₁ : s₁.threads[i]? = some (.cleanup (.counted before)) := List.getElem?_set_self hlt
  have hlt₁ : i < s₁.threads.length := by rwa [List.length_set]
  have hi₂ : s₂.threads[i]? = some (.cleanup (.retained before)) := List.getElem?_set_self hlt₁
  have hlt₂ : i < s₂.threads.length := by rwa [List.length_set]
  have hheld₁ : CacheCall.anyHeld s₁ = false := by
    have hchecks : s₁.checks.threads = s.checks.threads :=
      Threads.filterMap_set_of_eq hi rfl
    rw [CacheCall.anyHeld, hchecks]
    exact hheld
  have htick₁ : CacheCall.tick shard s₁ (.cleanup (.counted before)) clock
      = some (s₂.shared, .cleanup (.retained before)) := by
    rw [CacheCall.tick, hheld₁]
    rfl
  have hlen : s₂.shared.cache.entries.len + s.shared.cache.countExpired clock = before :=
    FiniteMap.len_retain_add _ s.shared.cache.entries
  have hsub : Checked.sub before s₂.shared.cache.entries.len
      = .ok (s.shared.cache.countExpired clock) := by
    rw [sub_of_le (by omega)]
    congr 1
    omega
  refine ⟨_, (Runs.run_cons_eq_some_iff _).2 ⟨s₁, Threads.step_of_tick hi rfl,
    (Runs.run_cons_eq_some_iff _).2 ⟨s₂, Threads.step_of_tick hi₁ htick₁,
      (Runs.run_cons_eq_some_iff _).2 ⟨_, Threads.step_of_tick hi₂ rfl, rfl⟩⟩⟩, ?_⟩
  rw [← hsub]
  exact List.getElem?_set_self hlt₂

/-- **When the difference is not negative, and what an uninterrupted clean-up does.**  Take a
clean-up that begins in any state, and any interleaving of its three steps with the steps of any
number of other calls.  The difference that it forms of the two sizes is not negative exactly if
between its readings no more sources were registered than entries were dropped.  If no other call
takes a step between its steps, it returns the number of expired entries, and the other entries
stay as they are. -/
theorem cleanup_isOk_iff (shard : ReplayKey → ℕ) (s u : CacheState) (i : ℕ)
    (first last : ReplayKey → Instant) (mid : List CacheAction) (removed : Except Fault ℕ)
    (hi : s.threads[i]? = some (.cleanup .started))
    (hrun : Runs.run (CacheState.step shard) s (window i first last mid) = some u)
    (hu : u.threads[i]? = some (.cleanup (.returned removed))) :
    (removed.isOk = true ↔
        registrations shard s (window i first last mid) ≤
          drops shard s (window i first last mid)) ∧
      ∀ clock, mid = [.advance i clock] →
        removed = .ok (s.shared.cache.countExpired clock) ∧
          ∀ key, u.shared.cache.entries.get? key =
            (s.shared.cache.entries.get? key).filter fun entry =>
              !entry.isExpired s.shared.cache.ttl (clock key) := by
  refine ⟨?_, ?_⟩
  · rw [cleanup_eq_sub_drops hi hrun hu]
    exact isOk_sub_iff
  · rintro clock rfl
    have hshared := shared_of_alone hi hrun
    have hlen : (s.shared.retain clock).cache.len + s.shared.cache.countExpired clock
        = s.shared.cache.len := FiniteMap.len_retain_add _ s.shared.cache.entries
    refine ⟨?_, fun key => ?_⟩
    · rw [cleanup_eq_sub hi hrun hu, hshared, sub_of_le (by omega)]
      congr 1
      omega
    · rw [hshared]
      exact FiniteMap.get?_retain _ s.shared.cache.entries key

/-- A cache with a source that expires and one that does not. -/
def expiringCache : ReplayCache :=
  ((ReplayCache.withTtl 10).register CheckState.firstKey 42 0).register CheckState.secondKey 44 15

/-- A clean-up that has just begun. -/
def cleanupBegun (cache : ReplayCache) : CacheState :=
  { shared := (CacheState.begin cache).shared, threads := [CacheCall.start .cleanupExpired] }

/-- A new source is registered while the clean-up is on its way. -/
def lateRegistration : List CacheAction :=
  [.spawn (.checkAndUpdate { tenantId := 1, sourceId := 9 } 1), .advance 1 fun _ => 20,
    .advance 1 fun _ => 20, .advance 1 fun _ => 20, .advance 0 fun _ => 20]

/-- The state after a clean-up of the cache with one expired source. -/
def cleanupDone : CacheState :=
  (Runs.run (CacheState.step fun _ => 0) (cleanupBegun expiringCache)
    (window 0 (fun _ => 20) (fun _ => 20) lateRegistration)).get (by decide)

/-- The state after a clean-up of the same cache that no other call interrupts. -/
def cleanupDoneAlone : CacheState :=
  (Runs.run (CacheState.step fun _ => 0) (cleanupBegun expiringCache)
    (window 0 (fun _ => 20) (fun _ => 20) [.advance 0 fun _ => 20])).get (by decide)

/-- The expired source and the new one cancel each other out.  Without the new one, the clean-up
returns the number of expired entries, and keeps the others. -/
theorem cleanup_isOk_iff_cleanupDone :
    ((Except.ok 0 : Except Fault ℕ).isOk = true ↔
        registrations (fun _ => 0) (cleanupBegun expiringCache)
            (window 0 (fun _ => 20) (fun _ => 20) lateRegistration) ≤
          drops (fun _ => 0) (cleanupBegun expiringCache)
            (window 0 (fun _ => 20) (fun _ => 20) lateRegistration)) ∧
      (Except.ok 1 : Except Fault ℕ) = .ok (expiringCache.countExpired fun _ => 20) ∧
      ∀ key, cleanupDoneAlone.shared.cache.entries.get? key =
        (expiringCache.entries.get? key).filter fun entry =>
          !entry.isExpired expiringCache.ttl 20 :=
  ⟨(cleanup_isOk_iff (fun _ => 0) (cleanupBegun expiringCache) cleanupDone 0 (fun _ => 20)
      (fun _ => 20) lateRegistration (.ok 0) rfl (Option.some_get _).symm rfl).1,
    (cleanup_isOk_iff (fun _ => 0) (cleanupBegun expiringCache) cleanupDoneAlone 0 (fun _ => 20)
      (fun _ => 20) [.advance 0 fun _ => 20] (.ok 1) rfl (Option.some_get _).symm rfl).2 _ rfl⟩

/-- With nothing expired, the second reading is greater than the first. -/
theorem cleanup_lateRegistration :
    (Runs.run (CacheState.step fun _ => 0) (CacheState.begin ReplayCache.new)
        (.spawn .cleanupExpired :: window 0 (fun _ => 20) (fun _ => 20) lateRegistration)).map
      (fun s => s.threads[0]?) = some (some (.cleanup (.returned (.error .overflow)))) := rfl

end CacheState

end Bind19
