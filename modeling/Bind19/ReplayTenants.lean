/-
**Tenants that share a replay cache.**

The sources of all tenants are kept in one cache, under keys that name the tenant.  What is on
record for one tenant is therefore not changed by the frames of another; but the cache has one
capacity for all of them, and a source that is not yet known is turned away when it is reached.

This module compares what a tenant is answered with what it would be answered if the calls of all
others were left out.  The two runs are compared by what is on record for the tenant: it is the same
in both, except for sources that the shared cache has no room for.

Main definitions:

* `Bind19.CheckOp`, `Bind19.ReplayCache.check` — a check or a preview;
* `Bind19.ReplayCache.Alongside` — the shared cache beside the one of a tenant alone.

Main results:

* `Bind19.ReplayCache.Alongside.check`, `Bind19.ReplayCache.Alongside.check_other` — what a call of
  the tenant and a call of another preserve;
* `Bind19.ReplayCache.tenant_answers` — **what a tenant is answered is what it would be answered
  alone, unless there is no room for the source**, and there is if there are few sources.
-/

import Bind19.ReplayCache
import Bind19.Transcript

set_option relaxedAutoImplicit false
set_option autoImplicit false

namespace Bind19

/-- A check of a sequence number. -/
inductive CheckOp
  | checkAndUpdate (key : ReplayKey) (seq : UInt16) (now : Instant)
  | checkOnly (key : ReplayKey) (seq : UInt16)
  deriving DecidableEq

namespace CheckOp

/-- The source that is checked. -/
def key : CheckOp → ReplayKey
  | checkAndUpdate key _ _ => key
  | checkOnly key _ => key

/-- The sequence number that is checked. -/
def seq : CheckOp → UInt16
  | checkAndUpdate _ seq _ => seq
  | checkOnly _ seq => seq

/-- Whether the source is one of a tenant. -/
def ofTenant (tenant : UInt64) (op : CheckOp) : Bool := op.key.tenantId == tenant

end CheckOp

namespace ReplayCache

/-- One check. -/
def check (cache : ReplayCache) : CheckOp → ReplayCheckResult × ReplayCache
  | .checkAndUpdate key seq now => cache.checkAndUpdate key seq now
  | .checkOnly key seq => (cache.checkOnly key seq, cache)

variable {cache shared alone : ReplayCache} {op : CheckOp} {key : ReplayKey} {seq : UInt16}
  {now : Instant} {tenant : UInt64}

/-! ### What a check does -/

theorem check_fst (cache : ReplayCache) (op : CheckOp) :
    (cache.check op).1 = cache.checkOnly op.key op.seq := by
  cases op with
  | checkAndUpdate key seq now => exact checkAndUpdate_fst cache key seq now
  | checkOnly key seq => rfl

/-- A check leaves the cache as it is, or puts a fresh number on record. -/
theorem check_snd (cache : ReplayCache) (op : CheckOp) :
    (cache.check op).2 = cache ∨
      ∃ now, cache.Fresh op.key op.seq ∧ (cache.check op).2 = cache.register op.key op.seq now := by
  cases op with
  | checkAndUpdate key seq now =>
      rcases checkAndUpdate_cases cache key seq now with ⟨hfresh, heq⟩ | ⟨result, -, -, heq⟩
      · exact Or.inr ⟨now, hfresh, congrArg Prod.snd heq⟩
      · exact Or.inl (congrArg Prod.snd heq)
  | checkOnly key seq => exact Or.inl rfl

/-- A check changes nothing for other sources. -/
theorem lastSeq_check_of_ne (cache : ReplayCache) (hkey : key ≠ op.key) :
    (cache.check op).2.lastSeq key = cache.lastSeq key := by
  cases op with
  | checkAndUpdate key' seq now => exact lastSeq_checkAndUpdate_of_ne hkey
  | checkOnly key' seq => rfl

theorem len_le_check (cache : ReplayCache) (op : CheckOp) : cache.len ≤ (cache.check op).2.len := by
  rcases check_snd cache op with heq | ⟨now, -, heq⟩
  · rw [heq]
  · rw [heq, len_register]
    split
    · exact Nat.le_refl _
    · exact Nat.le_succ _

/-- A check of a source that there is no room for leaves the cache as it is. -/
theorem check_snd_of_crowded (h : cache.Crowded op.key) : (cache.check op).2 = cache := by
  rcases check_snd cache op with heq | ⟨now, hfresh, -⟩
  · exact heq
  · rw [← checkOnly_eq_allowed_iff, checkOnly_of_crowded h] at hfresh
    cases hfresh

/-- A source that there is no room for does not get any. -/
theorem Crowded.check (h : cache.Crowded key) (op : CheckOp) : (cache.check op).2.Crowded key := by
  refine ⟨?_, Nat.le_trans h.2 (len_le_check cache op)⟩
  by_cases hkey : key = op.key
  · subst hkey
    rw [check_snd_of_crowded h]
    exact h.1
  · rw [lastSeq_check_of_ne cache hkey]
    exact h.1

/-! ### Two runs beside each other -/

/-- The cache that all tenants share, beside the one of a single tenant: what is on record for the
tenant is the same, except for sources that the shared cache has no room for.  The sources on record
are among the given ones. -/
structure Alongside (tenant : UInt64) (sources : Finset ReplayKey) (shared alone : ReplayCache) :
    Prop where
  slice : ∀ key, key.tenantId = tenant →
    alone.lastSeq key = shared.lastSeq key ∨ shared.Crowded key
  len_le : alone.len ≤ shared.len
  known : ∀ key, (shared.lastSeq key).isSome = true → key ∈ sources

variable {sources : Finset ReplayKey}

theorem alongside_withTtl (ttl : Duration) :
    Alongside tenant sources (withTtl ttl) (withTtl ttl) where
  slice _ _ := Or.inl rfl
  len_le := Nat.le_refl _
  known _ hkey := by cases hkey

theorem known_check (hknown : ∀ key, (shared.lastSeq key).isSome = true → key ∈ sources)
    (hop : op.key ∈ sources) :
    ∀ key, ((shared.check op).2.lastSeq key).isSome = true → key ∈ sources := by
  intro key hkey
  by_cases heq : key = op.key
  · rw [heq]
    exact hop
  · rw [lastSeq_check_of_ne shared heq] at hkey
    exact hknown key hkey

/-- Where there is room for the source, the tenant is answered as it would be alone. -/
theorem Alongside.checkOnly_eq (h : Alongside tenant sources shared alone)
    (htenant : key.tenantId = tenant) (hroom : ¬ shared.Crowded key) :
    shared.checkOnly key seq = alone.checkOnly key seq := by
  have hslice : alone.lastSeq key = shared.lastSeq key := (h.slice key htenant).resolve_right hroom
  refine checkOnly_congr hslice.symm hroom ?_
  rintro ⟨hlast, hfull⟩
  exact hroom ⟨hslice.symm.trans hlast, Nat.le_trans hfull h.len_le⟩

/-- What a call preserves when the shared cache has no room for the source. -/
theorem Alongside.check_of_crowded (h : Alongside tenant sources shared alone)
    (hcrowded : shared.Crowded op.key) :
    Alongside tenant sources (shared.check op).2 (alone.check op).2 := by
  rw [check_snd_of_crowded hcrowded]
  refine ⟨fun key htenant => ?_, ?_, h.known⟩
  · by_cases hkey : key = op.key
    · rw [hkey]
      exact Or.inr hcrowded
    · rw [lastSeq_check_of_ne alone hkey]
      exact h.slice key htenant
  · rcases check_snd alone op with heq | ⟨now, hfresh, heq⟩
    · rw [heq]
      exact h.len_le
    · -- the tenant alone has room for one source more, so it is below the shared cache by one
      rw [heq, len_register]
      unfold Fresh at hfresh
      cases hlast : alone.lastSeq op.key with
      | some last => exact h.len_le
      | none =>
          rw [hlast] at hfresh
          exact Nat.le_trans hfresh hcrowded.2

/-- What a call preserves when the shared cache has room for the source. -/
theorem Alongside.check_of_room (h : Alongside tenant sources shared alone)
    (htenant : op.key.tenantId = tenant) (hop : op.key ∈ sources)
    (hroom : ¬ shared.Crowded op.key) :
    Alongside tenant sources (shared.check op).2 (alone.check op).2 := by
  have hslice : alone.lastSeq op.key = shared.lastSeq op.key :=
    (h.slice op.key htenant).resolve_right hroom
  refine ⟨fun key htenant' => ?_, ?_, known_check h.known hop⟩
  · by_cases hkey : key = op.key
    · rw [hkey]
      refine Or.inl ?_
      cases op with
      | checkOnly key seq => exact hslice
      | checkAndUpdate key seq now =>
          have hanswer : shared.checkOnly key seq = alone.checkOnly key seq :=
            h.checkOnly_eq htenant hroom
          change (alone.checkAndUpdate key seq now).2.lastSeq key =
            (shared.checkAndUpdate key seq now).2.lastSeq key
          rw [checkAndUpdate_snd, checkAndUpdate_snd, hanswer]
          split
          · rw [lastSeq_register, lastSeq_register, if_pos rfl, if_pos rfl]
          · exact hslice
    · rw [lastSeq_check_of_ne alone hkey, lastSeq_check_of_ne shared hkey]
      exact (h.slice key htenant').imp_right fun hcrowded => hcrowded.check op
  · cases op with
    | checkOnly key seq => exact h.len_le
    | checkAndUpdate key seq now =>
        have hanswer : shared.checkOnly key seq = alone.checkOnly key seq :=
          h.checkOnly_eq htenant hroom
        have hlast : alone.lastSeq key = shared.lastSeq key := hslice
        have hlen := h.len_le
        change (alone.checkAndUpdate key seq now).2.len ≤ (shared.checkAndUpdate key seq now).2.len
        rw [checkAndUpdate_snd, checkAndUpdate_snd, hanswer]
        split
        · rw [len_register, len_register, hlast]
          split <;> omega
        · exact hlen

/-- **What a call of the tenant preserves.** -/
theorem Alongside.check (h : Alongside tenant sources shared alone)
    (htenant : op.key.tenantId = tenant) (hop : op.key ∈ sources) :
    Alongside tenant sources (shared.check op).2 (alone.check op).2 := by
  by_cases hcrowded : shared.Crowded op.key
  · exact h.check_of_crowded hcrowded
  · exact h.check_of_room htenant hop hcrowded

/-- **What a call of another tenant preserves.** -/
theorem Alongside.check_other (h : Alongside tenant sources shared alone)
    (htenant : op.key.tenantId ≠ tenant) (hop : op.key ∈ sources) :
    Alongside tenant sources (shared.check op).2 alone where
  slice key htenant' := by
    have hkey : key ≠ op.key := fun heq => htenant (heq ▸ htenant')
    rw [lastSeq_check_of_ne shared hkey]
    exact (h.slice key htenant').imp_right fun hcrowded => hcrowded.check op
  len_le := Nat.le_trans h.len_le (len_le_check shared op)
  known := known_check h.known hop

/-! ### The answers -/

/-- The answer in the shared cache and the answer alone belong to the same call, and they are the
same unless the shared cache had no room for the source. -/
def AnsweredAlike (shared alone : Exchange ReplayCache CheckOp ReplayCheckResult) : Prop :=
  shared.call = alone.call ∧
    shared.answer = if shared.before.Crowded shared.call.key then .cacheFull else alone.answer

theorem Alongside.answeredAlike (h : Alongside tenant sources shared alone)
    (htenant : op.key.tenantId = tenant) :
    AnsweredAlike { before := shared, call := op, answer := (shared.check op).1 }
      { before := alone, call := op, answer := (alone.check op).1 } := by
  refine ⟨rfl, ?_⟩
  dsimp only
  rw [check_fst, check_fst]
  by_cases hcrowded : shared.Crowded op.key
  · rw [if_pos hcrowded, checkOnly_of_crowded hcrowded]
  · rw [if_neg hcrowded, h.checkOnly_eq htenant hcrowded]

/-- The calls of the tenant, beside its calls alone: answered alike, and with room for every source
if there are few of them. -/
theorem forall₂_answeredAlike (ttl : Duration) (ops : List CheckOp) (tenant : UInt64) :
    List.Forall₂
      (fun shared alone => AnsweredAlike shared alone ∧
        ((ops.map CheckOp.key).toFinset.card ≤ replayCacheMaxCapacity →
          ¬ shared.before.Crowded shared.call.key))
      ((Transcript.transcript check (withTtl ttl) ops).filter fun e => e.call.ofTenant tenant)
      (Transcript.transcript check (withTtl ttl) (ops.filter fun op => op.ofTenant tenant)) := by
  have hsource : ∀ op ∈ ops, op.key ∈ (ops.map CheckOp.key).toFinset := fun op hop =>
    List.mem_toFinset.2 (List.mem_map_of_mem hop)
  refine Transcript.forall₂_of_unwinding
    (r := Alongside tenant (ops.map CheckOp.key).toFinset) ?_ ?_ (alongside_withTtl ttl)
  · intro shared alone op hop htenant h
    have htenant : op.key.tenantId = tenant := by simpa [CheckOp.ofTenant] using htenant
    exact ⟨⟨h.answeredAlike htenant, fun hcard => not_crowded h.known hcard (hsource op hop)⟩,
      h.check htenant (hsource op hop)⟩
  · intro shared alone op hop htenant h
    have htenant : op.key.tenantId ≠ tenant := by simpa [CheckOp.ofTenant] using htenant
    exact h.check_other htenant (hsource op hop)

/-- **What a tenant is answered.**  In every run of checks and previews by any number of tenants on
a new cache, each answer to a call of one tenant is the one that the call would get if the calls of
all other tenants were left out, unless the source is not on record and the cache is full, when it
is that there is no room.  If the calls name no more sources than the cache holds, the answers are
exactly those that the tenant would get alone. -/
theorem tenant_answers (ttl : Duration) (ops : List CheckOp) (tenant : UInt64) :
    List.Forall₂ AnsweredAlike
        ((Transcript.transcript check (withTtl ttl) ops).filter fun e => e.call.ofTenant tenant)
        (Transcript.transcript check (withTtl ttl) (ops.filter fun op => op.ofTenant tenant)) ∧
      ((ops.map CheckOp.key).toFinset.card ≤ replayCacheMaxCapacity →
        ((Transcript.transcript check (withTtl ttl) ops).filter
            fun e => e.call.ofTenant tenant).map Exchange.answer =
          (Transcript.transcript check (withTtl ttl)
            (ops.filter fun op => op.ofTenant tenant)).map Exchange.answer) := by
  have hall := forall₂_answeredAlike ttl ops tenant
  refine ⟨hall.imp fun _ _ h => h.1, fun hcard => ?_⟩
  rw [← List.forall₂_eq_eq_eq, List.forall₂_map_left_iff, List.forall₂_map_right_iff]
  refine hall.imp fun shared alone h => ?_
  obtain ⟨⟨-, hanswer⟩, hroom⟩ := h
  rwa [if_neg (hroom hcard)] at hanswer

/-! ### A crowded cache -/

/-- A source of another tenant. -/
def strangeKey (i : ℕ) : ReplayKey := { tenantId := 2, sourceId := UInt64.ofNat i }

/-- The other tenant registers a number of sources. -/
def crowd (n : ℕ) : List CheckOp := (List.range n).map fun i => .checkAndUpdate (strangeKey i) 1 0

/-- The first check of the tenant, of a source of its own. -/
def lateCheck : CheckOp := .checkAndUpdate { tenantId := 1, sourceId := 7 } 1 0

theorem ofTenant_crowd (n : ℕ) : ∀ op ∈ crowd n, op.ofTenant 1 = false := by
  intro op hop
  obtain ⟨i, -, rfl⟩ := List.mem_map.1 hop
  rfl

/-- A source that is not on record is registered if there is room. -/
theorem checkAndUpdate_of_room (hlast : cache.lastSeq key = none)
    (hroom : cache.len < replayCacheMaxCapacity) :
    (cache.checkAndUpdate key seq now).2 = cache.register key seq now := by
  rw [checkAndUpdate_snd, checkOnly_of_lastSeq_eq_none hlast, if_neg (Nat.not_le.2 hroom),
    if_pos rfl]

/-- Each of them is registered, as long as there is room. -/
theorem final_crowd (ttl : Duration) {n : ℕ} (hn : n ≤ replayCacheMaxCapacity) :
    (Transcript.final check (withTtl ttl) (crowd n)).len = n ∧
      ∀ key, ((Transcript.final check (withTtl ttl) (crowd n)).lastSeq key).isSome = true →
        key.tenantId = 2 ∧ key.sourceId.toNat < n := by
  induction n with
  | zero => exact ⟨rfl, fun key hkey => by cases hkey⟩
  | succ n ih =>
      obtain ⟨hlen, hknown⟩ := ih (Nat.le_of_succ_le hn)
      have hid : (strangeKey n).sourceId.toNat = n := by
        rw [strangeKey, UInt64.toNat_ofNat']
        exact Nat.mod_eq_of_lt (Nat.lt_trans hn (by decide))
      have hnone :
          (Transcript.final check (withTtl ttl) (crowd n)).lastSeq (strangeKey n) = none := by
        by_contra hsome
        have hlt := (hknown _ (Option.ne_none_iff_isSome.1 hsome)).2
        rw [hid] at hlt
        exact Nat.lt_irrefl n hlt
      have hcrowd : crowd (n + 1) = crowd n ++ [.checkAndUpdate (strangeKey n) 1 0] := by
        rw [crowd, List.range_succ, List.map_append]
        rfl
      have hroom :
          (Transcript.final check (withTtl ttl) (crowd n)).len < replayCacheMaxCapacity := by
        rw [hlen]
        exact hn
      rw [hcrowd, Transcript.final_concat, check, checkAndUpdate_of_room hnone hroom]
      refine ⟨?_, fun key hkey => ?_⟩
      · rw [len_register, hnone, hlen]
        rfl
      · rw [lastSeq_register] at hkey
        by_cases heq : key = strangeKey n
        · rw [heq, hid]
          exact ⟨rfl, Nat.lt_succ_self n⟩
        · rw [if_neg heq] at hkey
          exact (hknown key hkey).imp_right Nat.lt_succ_of_lt

/-- A tenant is turned away, since another tenant has filled the cache.  Alone it would be
accepted. -/
theorem answers_lateCheck :
    ((Transcript.transcript check (withTtl replayCacheDefaultTtl)
        (crowd replayCacheMaxCapacity ++ [lateCheck])).filter
          fun e => e.call.ofTenant 1).map Exchange.answer = [.cacheFull] ∧
      (Transcript.transcript check (withTtl replayCacheDefaultTtl)
        ((crowd replayCacheMaxCapacity ++ [lateCheck]).filter
          fun op => op.ofTenant 1)).map Exchange.answer = [.allowed] := by
  constructor
  · obtain ⟨hlen, hknown⟩ :=
      final_crowd replayCacheDefaultTtl (Nat.le_refl replayCacheMaxCapacity)
    have hcrowded : Crowded (Transcript.final check (withTtl replayCacheDefaultTtl)
        (crowd replayCacheMaxCapacity)) lateCheck.key := by
      refine ⟨?_, Nat.le_of_eq hlen.symm⟩
      by_contra hsome
      exact absurd (hknown _ (Option.ne_none_iff_isSome.1 hsome)).1 (by decide)
    have hcrowd : (Transcript.transcript check (withTtl replayCacheDefaultTtl)
        (crowd replayCacheMaxCapacity)).filter (fun e => e.call.ofTenant 1) = [] := by
      rw [List.filter_eq_nil_iff]
      intro e he
      simp [ofTenant_crowd _ _ (Transcript.call_mem_of_mem_transcript he)]
    have hlate : lateCheck.ofTenant 1 = true := rfl
    rw [Transcript.transcript_append, List.filter_append, hcrowd, List.nil_append,
      Transcript.transcript_cons, check_fst, checkOnly_of_crowded hcrowded]
    simp [hlate]
  · have hcrowd : (crowd replayCacheMaxCapacity).filter (fun op => op.ofTenant 1) = [] := by
      rw [List.filter_eq_nil_iff]
      intro op hop
      simp [ofTenant_crowd _ op hop]
    rw [List.filter_append, hcrowd]
    rfl

end ReplayCache

end Bind19
