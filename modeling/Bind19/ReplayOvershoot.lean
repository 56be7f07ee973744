/-
**How far the capacity can be exceeded.**

The size test of a check and its insertion are two steps, so several checks can pass the test on the
same last place, and all of them insert.  A removal can take away what a check has inserted in the
place of another entry, and the check puts that entry back without a new test.  This module bounds
what can go wrong: a check adds one entry at most after its size test, and it is in progress from
the test to the insertion.  If at most `k + 1` checks are in progress at any time, the cache holds
at most `k` entries more than its capacity, whatever removals and clean-ups run meanwhile; in
particular the capacity is kept as long as there is one check at a time.  The bound is sharp.

Main definitions:

* `Bind19.CacheState.busy` — the number of checks in progress;
* `Bind19.CacheState.pending` — the number of checks that may still add an entry without a test;
* `Bind19.CacheState.AtMost` — a run in which no more than so many checks are in progress.

Main results:

* `Bind19.CacheState.Bounded.step` — what one step preserves;
* `Bind19.CacheState.run_len_le_add` — **how far the capacity can be exceeded**;
* `Bind19.CacheState.exists_run_len_eq` — **the bound is sharp**.
-/

import Bind19.ReplayProgress

set_option relaxedAutoImplicit false
set_option autoImplicit false

namespace Bind19

variable {shard : ReplayKey → ℕ}

/-! ### Checks in progress -/

/-- Whether the check has passed the size test and may still add an entry. -/
def CheckCall.isPending (call : CheckCall) : Bool :=
  match call.phase with
  | .counted => true
  | .displaced _ => true
  | _ => false

/-- A step adds no more than the check gives up, unless the check passes the size test. -/
theorem CheckMove.growth_add_pending {s : CheckState} {c c' : CheckCall} {now : Instant}
    {g : CheckShared} (h : CheckMove shard s c now g c') :
    c.growth s.shared + c'.isPending.toNat ≤ c.isPending.toNat ∨
      (s.shared.cache.len < replayCacheMaxCapacity ∧ c.phase = .missed ∧
        c.growth s.shared = 0) := by
  cases h with
  | count hfrom hroom =>
      exact Or.inr ⟨hroom, hfrom, CheckCall.growth_of_phase hfrom (by simp) (by simp)⟩
  | reject entry hfrom | load entry hfrom | miss hfrom | store entry hfrom | full hfrom =>
      refine Or.inl ?_
      rw [CheckCall.growth_of_phase hfrom (by simp) (by simp), CheckCall.isPending,
        CheckCall.isPending, hfrom]
      exact Nat.le_refl 0
  | register hfrom hfree hentry | displace oldEntry hfrom hfree hentry =>
      refine Or.inl ?_
      rw [CheckCall.growth_of_counted hfrom, hentry, CheckCall.isPending, CheckCall.isPending,
        hfrom]
      exact Nat.le_refl 1
  | replace oldEntry hfrom hfree hentry =>
      refine Or.inl ?_
      rw [CheckCall.growth_of_counted hfrom, hentry]
      exact Nat.zero_le _
  | restore oldEntry hfrom =>
      refine Or.inl ?_
      rw [CheckCall.growth_of_displaced hfrom, CheckCall.isPending, CheckCall.isPending, hfrom]
      split
      · exact Nat.zero_le 1
      · exact Nat.le_refl 1

namespace CacheCall

/-- Whether the call is a check in progress. -/
def isBusy : CacheCall → Bool
  | .check c => !c.isReturned
  | _ => false

/-- Whether the call is a check that may still add an entry without a test. -/
def isPending : CacheCall → Bool
  | .check c => c.isPending
  | _ => false

theorem isBusy_of_isPending {call : CacheCall} (h : call.isPending = true) :
    call.isBusy = true := by
  cases call with
  | check c =>
      rw [isPending, CheckCall.isPending] at h
      rw [isBusy, CheckCall.isReturned]
      cases hphase : c.phase <;> simp_all
  | remove | cleanup => cases h

end CacheCall

namespace CacheState

/-- The number of checks in progress. -/
def busy (s : CacheState) : ℕ := s.threads.countP CacheCall.isBusy

/-- The number of checks that may still add an entry without a test. -/
def pending (s : CacheState) : ℕ := s.threads.countP CacheCall.isPending

theorem pending_le_busy (s : CacheState) : s.pending ≤ s.busy :=
  List.countP_mono_left fun _ _ h => CacheCall.isBusy_of_isPending h

/-- The cache and the checks that may still add to it stay below a bound. -/
def Bounded (k : ℕ) (s : CacheState) : Prop :=
  s.shared.cache.len + s.pending ≤ replayCacheMaxCapacity + k

variable {s s' t : CacheState} {a : CacheAction} {k : ℕ}

theorem cache_begin (cache : ReplayCache) : (CacheState.begin cache).shared.cache = cache := rfl

theorem bounded_begin {cache : ReplayCache} (hcache : cache.len ≤ replayCacheMaxCapacity) (k : ℕ) :
    (CacheState.begin cache).Bounded k := Nat.le_add_right_of_le hcache

/-- A step of a check, with at most `k + 1` of them in progress. -/
theorem Bounded.move {c c' : CheckCall} {g : CheckShared} {now : Instant} {i : ℕ}
    (h : s.Bounded k) (hbusy : s.busy ≤ k + 1) (hi : s.threads[i]? = some (.check c))
    (hmove : CheckMove shard s.checks c now g c') :
    Bounded k { shared := g, threads := s.threads.set i (.check c') } := by
  have hlen : g.cache.len = s.shared.cache.len + c.growth s.shared :=
    CheckCall.len_of_tick hmove.tick_eq
  have hcount : pending { shared := g, threads := s.threads.set i (.check c') } +
      c.isPending.toNat = s.pending + c'.isPending.toNat :=
    Threads.countP_set_add CacheCall.isPending hi (.check c')
  have hmove' : c.growth s.shared + c'.isPending.toNat ≤ c.isPending.toNat ∨
      (s.shared.cache.len < replayCacheMaxCapacity ∧ c.phase = .missed ∧
        c.growth s.shared = 0) := hmove.growth_add_pending
  unfold Bounded at h ⊢
  dsimp only
  rcases hmove' with hle | ⟨hroom, hphase, hgrowth⟩
  · omega
  · -- the checks that have passed the test are among those in progress
    have hpending := pending_le_busy { shared := g, threads := s.threads.set i (.check c') }
    have hone : busy { shared := g, threads := s.threads.set i (.check c') } +
        (CacheCall.check c).isBusy.toNat = s.busy + (CacheCall.check c').isBusy.toNat :=
      Threads.countP_set_add CacheCall.isBusy hi (.check c')
    have hc : (CacheCall.check c).isBusy = true := by
      rw [CacheCall.isBusy, CheckCall.isReturned, hphase]
      rfl
    have hle := Bool.toNat_le (CacheCall.check c').isBusy
    rw [hc, Bool.toNat_true] at hone
    omega

/-- **What one step preserves**, with at most `k + 1` checks in progress. -/
theorem Bounded.step (h : s.Bounded k) (hbusy : s.busy ≤ k + 1)
    (hstep : CacheState.step shard s a = some s') : s'.Bounded k := by
  rcases Threads.step_cases hstep with
    ⟨request, rfl, rfl⟩ | ⟨i, clock, call, g, call', rfl, hi, htick, rfl⟩
  · have hpending :
        pending { shared := s.shared, threads := s.threads ++ [CacheCall.start request] } =
          s.pending := by
      unfold pending
      rw [List.countP_append]
      cases request <;> rfl
    unfold Bounded
    rw [hpending]
    exact h
  · cases call with
    | check c =>
        obtain ⟨c', hmove, rfl⟩ := CacheCall.tick_check_eq_some_iff.1 htick
        exact h.move hbusy hi hmove
    | remove key found =>
        have hcount := Threads.countP_set_add CacheCall.isPending hi call'
        unfold Bounded pending at *
        cases CacheCall.tick_cases htick with
        | remove =>
            have hlen := ReplayCache.len_remove_le s.shared.cache key
            exact Nat.le_trans (Nat.add_le_add hlen (Nat.le_of_eq hcount)) h
    | cleanup phase =>
        have hcount := Threads.countP_set_add CacheCall.isPending hi call'
        unfold Bounded pending at *
        cases CacheCall.tick_cases htick with
        | count | recount =>
            exact Nat.le_trans (Nat.add_le_add_left (Nat.le_of_eq hcount) _) h
        | retain before =>
            have hlen := ReplayCache.len_cleanupExpired_le s.shared.cache clock
            exact Nat.le_trans (Nat.add_le_add hlen (Nat.le_of_eq hcount)) h

/-- At every step of the run, at most so many checks are in progress. -/
abbrev AtMost (shard : ReplayKey → ℕ) (k : ℕ) (s : CacheState) (as : List CacheAction) : Prop :=
  Runs.Guarded (CacheState.step shard) (fun s _ => s.busy ≤ k) s as

/-- **How far the capacity can be exceeded.**  Take any run of checks, removals and clean-ups on a
cache that holds no more entries than its capacity, with their steps in any order.  If at most
`k + 1` checks are in progress at any time, then the cache holds at most `k` entries more than its
capacity. -/
theorem run_len_le_add (shard : ReplayKey → ℕ) (cache : ReplayCache)
    (hcache : cache.len ≤ replayCacheMaxCapacity) (k : ℕ) (actions : List CacheAction)
    (t : CacheState) (hmost : AtMost shard (k + 1) (CacheState.begin cache) actions)
    (hrun : Runs.run (CacheState.step shard) (CacheState.begin cache) actions = some t) :
    t.shared.cache.len ≤ replayCacheMaxCapacity + k := by
  have hbounded : t.Bounded k :=
    Runs.invariant_of_guarded (P := Bounded k) (fun _ _ _ h hbusy hstep => h.step hbusy hstep)
      (bounded_begin hcache k) hmost hrun
  exact Nat.le_trans (Nat.le_add_right _ _) hbounded

/-- Two checks that register their sources at the same time. -/
def twoAtOnce : List CacheAction :=
  [.spawn (.checkAndUpdate CheckState.firstKey 1), .spawn (.checkAndUpdate CheckState.secondKey 1),
    .advance 0 fun _ => 0, .advance 1 fun _ => 0, .advance 0 fun _ => 0, .advance 1 fun _ => 0,
    .advance 0 fun _ => 0, .advance 1 fun _ => 0]

/-- The state afterwards, on a new cache. -/
def afterTwoAtOnce : CacheState :=
  (Runs.run (CacheState.step fun _ => 0) (CacheState.begin ReplayCache.new) twoAtOnce).get
    (by decide)

/-- At most two checks are in progress. -/
theorem run_len_le_add_twoAtOnce :
    afterTwoAtOnce.shared.cache.len ≤ replayCacheMaxCapacity + 1 :=
  run_len_le_add (fun _ => 0) ReplayCache.new (by decide) 1 twoAtOnce afterTwoAtOnce (by decide)
    (Option.some_get _).symm

/-! ### Many registrations at once -/

/-- The checks of a list of sources, each of which has passed the size test. -/
def counted (requests : List (ReplayKey × UInt16)) : List CacheCall :=
  requests.map fun r => .check ((CheckCall.start r).goto .counted)

/-- The checks of a list of sources begin, each of them up to its size test. -/
def tests (now : Instant) : ℕ → List (ReplayKey × UInt16) → List CacheAction
  | _, [] => []
  | i, (key, seq) :: requests =>
      [.spawn (.checkAndUpdate key seq), .advance i fun _ => now, .advance i fun _ => now] ++
        tests now (i + 1) requests

/-- So many checks insert their entries. -/
def insertions (now : Instant) : ℕ → ℕ → List CacheAction
  | _, 0 => []
  | i, n + 1 => .advance i (fun _ => now) :: insertions now (i + 1) n

variable {now : Instant} {g : CheckShared}

/-- A thread after the others takes its step. -/
theorem step_last {before after : List CacheCall} {call call' : CacheCall} {g' : CheckShared}
    (htick : CacheCall.tick shard { shared := g, threads := before ++ call :: after } call
      (fun _ => now) = some (g', call')) :
    CacheState.step shard { shared := g, threads := before ++ call :: after }
        (.advance before.length fun _ => now) =
      some { shared := g', threads := before ++ call' :: after } := by
  have hi : (before ++ call :: after)[before.length]? = some call := by simp
  have hset : (before ++ call :: after).set before.length call' = before ++ call' :: after := by
    simp
  rw [← hset]
  exact Threads.step_of_tick hi htick

theorem run_tests (shard : ReplayKey → ℕ) (now : Instant) (requests : List (ReplayKey × UInt16))
    (done : List CacheCall)
    (habsent : ∀ r ∈ requests, g.cache.entries.get? r.1 = none)
    (hroom : g.cache.len < replayCacheMaxCapacity) :
    Runs.run (CacheState.step shard) { shared := g, threads := done }
        (tests now done.length requests) =
      some { shared := g, threads := done ++ counted requests } := by
  induction requests generalizing done with
  | nil => simp [tests, counted]
  | cons r requests ih =>
      have hnone : g.cache.entries.get? r.1 = none := habsent r List.mem_cons_self
      have hmiss (s : CacheState) (hs : s.shared = g) : CacheCall.tick shard s
          (CacheCall.start (.checkAndUpdate r.1 r.2)) (fun _ => now) =
            some (g, .check ((CheckCall.start r).goto .missed)) := by
        subst hs
        exact CacheCall.tick_check_eq_some_iff.2 ⟨_, .miss rfl hnone, rfl⟩
      have hcount (s : CacheState) (hs : s.shared = g) : CacheCall.tick shard s
          (.check ((CheckCall.start r).goto .missed)) (fun _ => now) =
            some (g, .check ((CheckCall.start r).goto .counted)) := by
        subst hs
        exact CacheCall.tick_check_eq_some_iff.2 ⟨_, .count rfl hroom, rfl⟩
      have hrest := ih (done ++ [.check ((CheckCall.start r).goto .counted)])
        fun r' hr' => habsent r' (List.mem_cons_of_mem r hr')
      rw [List.length_append, List.length_singleton, List.append_assoc] at hrest
      refine (Runs.run_cons_eq_some_iff _).2 ⟨_, rfl, ?_⟩
      refine (Runs.run_cons_eq_some_iff _).2 ⟨_, step_last (hmiss _ rfl), ?_⟩
      refine (Runs.run_cons_eq_some_iff _).2 ⟨_, step_last (hcount _ rfl), ?_⟩
      exact hrest

/-- Where no check holds a reference, all of them insert. -/
theorem run_insertions (shard : ReplayKey → ℕ) (now : Instant)
    (requests : List (ReplayKey × UInt16)) (done : List CacheCall)
    (hquiet : ∀ c, .check c ∈ done → c.phase ≠ .loaded)
    (habsent : ∀ r ∈ requests, g.cache.entries.get? r.1 = none)
    (hnodup : (requests.map Prod.fst).Nodup) :
    ∃ u, Runs.run (CacheState.step shard) { shared := g, threads := done ++ counted requests }
        (insertions now done.length requests.length) = some u ∧
      u.shared.cache.len = g.cache.len + requests.length := by
  induction requests generalizing done g with
  | nil => exact ⟨_, rfl, rfl⟩
  | cons r requests ih =>
      let call : CheckCall := (CheckCall.start r).goto .counted
      let s : CacheState := { shared := g, threads := done ++ .check call :: counted requests }
      rw [List.map_cons, List.nodup_cons] at hnodup
      have hnone : g.cache.entries.get? r.1 = none := habsent r List.mem_cons_self
      have hfree : CheckCall.shardHeld shard s.checks r.1 = false := by
        refine List.any_eq_false.2 fun c hc => ?_
        have hphase : c.phase ≠ .loaded := by
          rcases List.mem_append.1 (mem_checks.1 hc) with hdone | hcounted
          · exact hquiet c hdone
          · rcases List.mem_cons.1 hcounted with heq | hcounted
            · cases heq
              exact fun h => nomatch h
            · obtain ⟨r', -, heq⟩ := List.mem_map.1 hcounted
              cases heq
              exact fun h => nomatch h
        simp [hphase]
      have hmove : CheckMove shard s.checks call now _ _ := .register rfl hfree hnone
      have htick : CacheCall.tick shard s (.check call) (fun _ => now) = some _ :=
        CacheCall.tick_check_eq_some_iff.2 ⟨_, hmove, rfl⟩
      have hnone' : s.checks.shared.cache.entries.get? call.key = none := hnone
      have hlen := CheckCall.len_of_tick hmove.tick_eq
      rw [CheckCall.growth_of_counted rfl, hnone', if_neg (by simp)] at hlen
      have hquiet' : ∀ c, .check c ∈ done ++ [.check (call.goto (.returned .allowed))] →
          c.phase ≠ .loaded := by
        intro c hc
        rcases List.mem_append.1 hc with hc | hc
        · exact hquiet c hc
        · cases List.mem_singleton.1 hc
          exact fun h => nomatch h
      have habsent' : ∀ r' ∈ requests, ((g.put r.1 (ReplayEntry.new r.2 now)).note r.1 r.2
          ).cache.entries.get? r'.1 = none := by
        intro r' hr'
        have hne : r'.1 ≠ r.1 := fun heq => hnodup.1 (heq ▸ List.mem_map_of_mem hr')
        exact (hmove.get?_of_ne hne).trans (habsent r' (List.mem_cons_of_mem r hr'))
      obtain ⟨u, hrun, hu⟩ := ih _ hquiet' habsent' hnodup.2
      rw [List.length_append, List.length_singleton, List.append_assoc] at hrun
      refine ⟨u, (Runs.run_cons_eq_some_iff _).2 ⟨_, step_last htick, hrun⟩, ?_⟩
      have hlen : ((g.put r.1 (ReplayEntry.new r.2 now)).note r.1 r.2).cache.len =
          g.cache.len + 1 := hlen
      rw [hu, hlen, List.length_cons, Nat.add_assoc, Nat.add_comm 1]

/-- There are no more checks in progress than have begun. -/
theorem atMost_of_spawns {as : List CacheAction}
    (h : s.threads.length + as.countP (fun a => !a.isAdvance) ≤ k) : AtMost shard k s as := by
  induction as generalizing s with
  | nil => trivial
  | cons a as ih =>
      rw [List.countP_cons] at h
      have hbusy : s.busy ≤ s.threads.length := List.countP_le_length
      refine ⟨by omega, fun s' hstep => ih ?_⟩
      rcases Threads.step_cases hstep with
        ⟨request, rfl, rfl⟩ | ⟨i, clock, call, g, call', rfl, hi, htick, rfl⟩
      · have hone : !(Threads.Action.spawn request : CacheAction).isAdvance := rfl
        rw [if_pos hone] at h
        rw [List.length_append, List.length_singleton]
        omega
      · have hnone : ¬ !(Threads.Action.advance i clock : CacheAction).isAdvance :=
          Bool.false_ne_true
        rw [if_neg hnone] at h
        rw [List.length_set]
        omega

theorem countP_tests (i : ℕ) (requests : List (ReplayKey × UInt16)) :
    (tests now i requests).countP (fun a => !a.isAdvance) = requests.length := by
  induction requests generalizing i with
  | nil => rfl
  | cons r requests ih =>
      rw [tests, List.countP_append, ih, List.length_cons, Nat.add_comm]
      rfl

theorem countP_insertions (i n : ℕ) :
    (insertions now i n).countP (fun a => !a.isAdvance) = 0 := by
  induction n generalizing i with
  | zero => rfl
  | succ n ih =>
      rw [insertions, List.countP_cons, ih]
      rfl

/-- The first numbers of so many sources of one tenant. -/
def manySources (n : ℕ) : List (ReplayKey × UInt16) :=
  (List.range n).map fun i => ({ tenantId := 1, sourceId := UInt64.ofNat i }, 1)

theorem nodup_manySources {n : ℕ} (hn : n ≤ 2 ^ 64) : ((manySources n).map Prod.fst).Nodup := by
  rw [manySources, List.map_map]
  refine List.Nodup.map_on ?_ List.nodup_range
  intro i hi j hj heq
  rw [List.mem_range] at hi hj
  have hsource := congrArg (fun key : ReplayKey => key.sourceId.toNat) heq
  simp only [Function.comp, UInt64.toNat_ofNat'] at hsource
  rwa [Nat.mod_eq_of_lt (by omega), Nat.mod_eq_of_lt (by omega)] at hsource

/-- **The bound is sharp.**  For any `k` there is a run of `k + 1` checks on a cache with one place
left at the end of which the cache holds `k` entries more than its capacity. -/
theorem exists_run_len_eq (shard : ReplayKey → ℕ) (k : ℕ) (hk : k < 2 ^ 64) :
    ∃ (cache : ReplayCache) (actions : List CacheAction) (t : CacheState),
      cache.len ≤ replayCacheMaxCapacity ∧
        AtMost shard (k + 1) (CacheState.begin cache) actions ∧
        Runs.run (CacheState.step shard) (CacheState.begin cache) actions = some t ∧
        t.shared.cache.len = replayCacheMaxCapacity + k := by
  obtain ⟨hlen, hknown⟩ :=
    ReplayCache.final_crowd replayCacheDefaultTtl (Nat.sub_le replayCacheMaxCapacity 1)
  have hlen : CheckState.almostFull.len = replayCacheMaxCapacity - 1 := hlen
  have hpos : 0 < replayCacheMaxCapacity := by decide
  have hstart : (CacheState.begin CheckState.almostFull).shared.cache.len =
      replayCacheMaxCapacity - 1 := by
    rw [cache_begin, hlen]
  have habsent : ∀ r ∈ manySources (k + 1),
      CheckState.almostFull.entries.get? r.1 = none := by
    intro r hr
    obtain ⟨i, -, rfl⟩ := List.mem_map.1 hr
    by_contra hsome
    have htenant := (hknown { tenantId := 1, sourceId := UInt64.ofNat i } ?_).1
    · cases htenant
    · rw [ReplayCache.lastSeq, Option.isSome_map]
      exact Option.ne_none_iff_isSome.1 hsome
  have hlength : (manySources (k + 1)).length = k + 1 := by simp [manySources]
  have htests := run_tests shard 0
    (g := (CacheState.begin CheckState.almostFull).shared) (manySources (k + 1)) []
    (cache_begin CheckState.almostFull ▸ habsent) (hstart ▸ Nat.sub_lt hpos Nat.one_pos)
  obtain ⟨t, hinsert, ht⟩ := run_insertions shard 0
    (g := (CacheState.begin CheckState.almostFull).shared) (manySources (k + 1)) [] (by simp)
    (cache_begin CheckState.almostFull ▸ habsent) (nodup_manySources (by omega))
  refine ⟨CheckState.almostFull,
    tests 0 0 (manySources (k + 1)) ++ insertions 0 0 (manySources (k + 1)).length, t,
    by omega, ?_, (Runs.run_append_eq_some_iff _).2 ⟨_, htests, hinsert⟩, ?_⟩
  · refine atMost_of_spawns ?_
    rw [List.countP_append, countP_tests, countP_insertions, hlength]
    exact Nat.le_of_eq (Nat.zero_add _)
  · rw [ht, hstart, hlength]
    omega

/-- Four checks on the last place. -/
theorem exists_run_len_eq_four :
    ∃ (cache : ReplayCache) (actions : List CacheAction) (t : CacheState),
      cache.len ≤ replayCacheMaxCapacity ∧
        AtMost (fun _ => 0) 4 (CacheState.begin cache) actions ∧
        Runs.run (CacheState.step fun _ => 0) (CacheState.begin cache) actions = some t ∧
        t.shared.cache.len = replayCacheMaxCapacity + 3 :=
  exists_run_len_eq (fun _ => 0) 3
    (Nat.lt_of_lt_of_le (by decide : 3 < 2 ^ 2) (Nat.pow_le_pow_right (by decide) (by decide)))

end CacheState

end Bind19
