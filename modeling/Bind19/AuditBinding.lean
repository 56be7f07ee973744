/-
**What the digests of the audit log bind.**

An entry hashes a record of three fields of fixed width, so that equal records have equal fields.
If the hash function has no collision among the records at hand, a verified log is then determined
by its last digest, as far as digests go: its length, and in each place the sequence number, the
digest of the event and the two digests of the entry.

An event is hashed differently.  Its first fields have a fixed width, but a missing sequence
counter is hashed as the counter zero, a missing sensor context as an empty one, and nothing
separates the context from the source that follows it.  The digest of an event therefore binds the
event up to these three confusions and no further; this module states exactly which pairs of events
it separates.

Main definitions:

* `Bind19.CatastrophicEvent.Distinguishable` — the pairs of events whose serialisations differ.

Main results:

* `Bind19.AuditEntry.record_inj`, `Bind19.CatastrophicEvent.bytes_eq_iff` — what equal records and
  equal serialisations have in common;
* `Bind19.CatastrophicAuditLog.verifyChain_tamper_evident` — **the last digest determines a verified
  log**;
* `Bind19.AuditEntry.verifyHash_event_iff` — **the events that a digest tells apart**.
-/

import Bind19.AuditHistory

set_option relaxedAutoImplicit false
set_option autoImplicit false

namespace Bind19

open ByteLayout

/-! ### The record of an entry -/

theorem leBytes_toNat_inj64 {a b : UInt64} (h : leBytes 8 a.toNat = leBytes 8 b.toNat) : a = b :=
  UInt64.toNat_inj.1 (leBytes_inj a.toNat_lt b.toNat_lt h)

theorem leBytes_toNat_inj32 {a b : UInt32} (h : leBytes 4 a.toNat = leBytes 4 b.toNat) : a = b :=
  UInt32.toNat_inj.1 (leBytes_inj a.toNat_lt b.toNat_lt h)

theorem leBytes_toNat_inj16 {a b : UInt16} (h : leBytes 2 a.toNat = leBytes 2 b.toNat) : a = b :=
  UInt16.toNat_inj.1 (leBytes_inj a.toNat_lt b.toNat_lt h)

namespace AuditEntry

/-- A record determines its three fields. -/
theorem record_inj {s s' : UInt64} {e e' p p' : Digest} (h : record s e p = record s' e' p') :
    s = s' ∧ e = e' ∧ p = p' := by
  unfold record at h
  obtain ⟨h, hp⟩ := List.append_inj h (by simp)
  obtain ⟨hs, he⟩ := List.append_inj h (by simp)
  exact ⟨leBytes_toNat_inj64 hs, Vector.toList_inj.1 he, Vector.toList_inj.1 hp⟩

/-- The record an entry's digest has to be the digest of. -/
def recordOf (sha256 : List UInt8 → Digest) (entry : AuditEntry) : List UInt8 :=
  record entry.sequence (entry.event.hash sha256) entry.prevHash

end AuditEntry

/-! ### Two logs with the same last digest -/

namespace CatastrophicAuditLog

/-- **The last digest determines a verified log.**  Let two logs with arbitrary fields pass the
chain check, and let the hash function have no collision among the records of their entries.  If
their last entries have the same digest, the logs have the same length and agree, place by place,
on sequence number, event digest, preceding digest and digest. -/
theorem verifyChain_tamper_evident (sha256 : List UInt8 → Digest) (log log' : CatastrophicAuditLog)
    (hzero : NeverZero sha256)
    (hinj : Set.InjOn sha256 {bs | ∃ e ∈ log.entries ++ log'.entries, bs = e.recordOf sha256})
    (hlog : log.verifyChain sha256 = true) (hlog' : log'.verifyChain sha256 = true)
    (hlast : log.last.map AuditEntry.hash = log'.last.map AuditEntry.hash) :
    log.entries.length = log'.entries.length ∧
      ∀ (i : ℕ) (e e' : AuditEntry), log.entries[i]? = some e → log'.entries[i]? = some e' →
        e.sequence = e'.sequence ∧ e.event.hash sha256 = e'.event.hash sha256 ∧
          e.prevHash = e'.prevHash ∧ e.hash = e'.hash := by
  rw [verifyChain_iff_linked, Chained] at hlog hlog'
  have hnonzero : ∀ {es : List AuditEntry}, Chained sha256 zeroDigest es →
      ∀ e ∈ es, e.hash ≠ zeroDigest := fun hes e he =>
    AuditEntry.hash_ne_zeroDigest hzero (HashChain.Linked.ok_of_mem hes he)
  -- equal digests of verified entries come from equal records
  have hfields : ∀ x ∈ log.entries, ∀ y ∈ log'.entries, x.verifyHash sha256 = true →
      y.verifyHash sha256 = true → x.hash = y.hash →
      (x.sequence, x.event.hash sha256, x.prevHash, x.hash) =
        (y.sequence, y.event.hash sha256, y.prevHash, y.hash) ∧ x.prevHash = y.prevHash := by
    intro x hx y hy hokx hoky hxy
    have hrecord : x.recordOf sha256 = y.recordOf sha256 := by
      refine hinj ⟨x, by simp [hx], rfl⟩ ⟨y, by simp [hy], rfl⟩ ?_
      exact ((AuditEntry.verifyHash_iff sha256 x).1 hokx).trans
        (hxy.trans ((AuditEntry.verifyHash_iff sha256 y).1 hoky).symm)
    obtain ⟨hseq, hevent, hprev⟩ := AuditEntry.record_inj hrecord
    exact ⟨by rw [hseq, hevent, hprev, hxy], hprev⟩
  have hend : HashChain.endHash AuditEntry.hash zeroDigest log.entries =
      HashChain.endHash AuditEntry.hash zeroDigest log'.entries :=
    congrArg (Option.getD · zeroDigest) hlast
  have hmap := HashChain.map_eq_of_endHash_eq hfields (hnonzero hlog) (hnonzero hlog') hlog hlog'
    hend
  refine ⟨by simpa using congrArg List.length hmap, fun i e e' he he' => ?_⟩
  have hi := congrArg (·[i]?) hmap
  simp only [List.getElem?_map, he, he', Option.map_some, Option.some.injEq, Prod.mk.injEq] at hi
  exact hi

/-- The log of the two sample events. -/
def sampleLog : CatastrophicAuditLog := run sampleSha256 [.append sampleEvent, .append laterEvent]

/-- The same log with another first event that has the same digest. -/
def forgedLog : CatastrophicAuditLog :=
  run sampleSha256 [.append { sampleEvent with seqCounter := some 0 }, .append laterEvent]

/-- The log of the two events and a forgery of it agree on all digests. -/
theorem verifyChain_tamper_evident_sampleLog :
    sampleLog.entries.length = forgedLog.entries.length ∧
      ∀ (i : ℕ) (e e' : AuditEntry), sampleLog.entries[i]? = some e →
        forgedLog.entries[i]? = some e' →
        e.sequence = e'.sequence ∧ e.event.hash sampleSha256 = e'.event.hash sampleSha256 ∧
          e.prevHash = e'.prevHash ∧ e.hash = e'.hash := by
  refine verifyChain_tamper_evident sampleSha256 sampleLog forgedLog neverZero_sampleSha256 ?_
    (by decide) (by decide) (by decide)
  have hinj : ∀ e ∈ sampleLog.entries ++ forgedLog.entries,
      ∀ e' ∈ sampleLog.entries ++ forgedLog.entries,
        sampleSha256 (e.recordOf sampleSha256) = sampleSha256 (e'.recordOf sampleSha256) →
          e.recordOf sampleSha256 = e'.recordOf sampleSha256 := by decide
  rintro _ ⟨e, he, rfl⟩ _ ⟨e', he', rfl⟩ h
  exact hinj e he e' he' h

end CatastrophicAuditLog

/-! ### The serialisation of an event -/

namespace CatastrophicEvent

/-- The part of the serialisation without a fixed width: the sensor context and the source. -/
def freeBytes (event : CatastrophicEvent) : List UInt8 :=
  event.sensorContext.getD [] ++ event.source.toByteArray.data.toList

/-- A missing counter is hashed as the counter zero, and a missing context as an empty one. -/
theorem bytes_eq (event : CatastrophicEvent) :
    event.bytes = leBytes 8 event.timestamp.toNat ++ leBytes 4 event.timestampNanos.toNat ++
      event.pfpBytes.toList ++ leBytes 2 (event.seqCounter.getD 0).toNat ++ event.freeBytes := by
  unfold bytes freeBytes
  cases event.seqCounter <;> cases event.sensorContext <;> simp [leBytes]

/-- The two events differ in a field of fixed width, in the counter when a missing one is read as
zero, or in the bytes of context and source taken together. -/
def Distinguishable (a b : CatastrophicEvent) : Prop :=
  a.timestamp ≠ b.timestamp ∨ a.timestampNanos ≠ b.timestampNanos ∨ a.pfpBytes ≠ b.pfpBytes ∨
    a.seqCounter.getD 0 ≠ b.seqCounter.getD 0 ∨ a.freeBytes ≠ b.freeBytes

/-- What events with equal serialisations have in common. -/
theorem bytes_eq_iff (a b : CatastrophicEvent) : a.bytes = b.bytes ↔ ¬ Distinguishable a b := by
  rw [Distinguishable, not_or, not_or, not_or, not_or, not_not, not_not, not_not, not_not, not_not]
  constructor
  · intro h
    rw [bytes_eq, bytes_eq] at h
    obtain ⟨h, hfree⟩ := List.append_inj h (by simp)
    obtain ⟨h, hseq⟩ := List.append_inj h (by simp)
    obtain ⟨h, hpfp⟩ := List.append_inj h (by simp)
    obtain ⟨hts, hnanos⟩ := List.append_inj h (by simp)
    exact ⟨leBytes_toNat_inj64 hts, leBytes_toNat_inj32 hnanos, Vector.toList_inj.1 hpfp,
      leBytes_toNat_inj16 hseq, hfree⟩
  · rintro ⟨hts, hnanos, hpfp, hseq, hfree⟩
    rw [bytes_eq, bytes_eq, hts, hnanos, hpfp, hseq, hfree]

/-- Without a collision among the two serialisations, digests tell apart what these do. -/
theorem hash_ne_iff {sha256 : List UInt8 → Digest} {a b : CatastrophicEvent}
    (hinj : Set.InjOn sha256 {a.bytes, b.bytes}) :
    a.hash sha256 ≠ b.hash sha256 ↔ Distinguishable a b := by
  rw [← not_iff_not, not_not, ← bytes_eq_iff]
  exact hinj.eq_iff (by simp) (by simp)

end CatastrophicEvent

/-! ### Replacing an event on record -/

namespace AuditEntry

/-- **The events that a digest tells apart.**  Let the hash function have no collision among the
serialisations of two events, and none among the records of an entry with the one and with the
other. The digests of the events differ, and a verified entry for the first is refused once its
event has been replaced by the second, exactly when the events are distinguishable. -/
theorem verifyHash_event_iff (sha256 : List UInt8 → Digest) (entry : AuditEntry)
    (event : CatastrophicEvent) (hinj : Set.InjOn sha256 {entry.event.bytes, event.bytes})
    (hrec : Set.InjOn sha256
      {entry.recordOf sha256, ({ entry with event } : AuditEntry).recordOf sha256})
    (hok : entry.verifyHash sha256 = true) :
    (entry.event.hash sha256 ≠ event.hash sha256 ↔
        CatastrophicEvent.Distinguishable entry.event event) ∧
      (({ entry with event } : AuditEntry).verifyHash sha256 = false ↔
        CatastrophicEvent.Distinguishable entry.event event) := by
  have hhash := CatastrophicEvent.hash_ne_iff hinj
  refine ⟨hhash, ?_⟩
  rw [← hhash, ← Bool.not_eq_true, verifyHash_iff, ← (verifyHash_iff sha256 entry).1 hok,
    not_iff_not]
  constructor
  · intro h
    exact (record_inj (hrec (Or.inr rfl) (Or.inl rfl) h)).2.1.symm
  · intro h
    rw [h]

/-- The first entry of a log of the sample event. -/
def sampleEntry : AuditEntry := new sampleSha256 0 sampleEvent zeroDigest

/-- The entry is refused with the event of one second later. -/
theorem verifyHash_event_iff_sampleEntry :
    (sampleEntry.event.hash sampleSha256 ≠ laterEvent.hash sampleSha256 ↔
        CatastrophicEvent.Distinguishable sampleEntry.event laterEvent) ∧
      (({ sampleEntry with event := laterEvent } : AuditEntry).verifyHash sampleSha256 = false ↔
        CatastrophicEvent.Distinguishable sampleEntry.event laterEvent) := by
  refine verifyHash_event_iff sampleSha256 sampleEntry laterEvent ?_ ?_ (verifyHash_new _ _ _ _)
  · rw [Set.injOn_pair]
    decide
  · rw [Set.injOn_pair]
    decide

/-- The sample event with the counter zero in place of a missing one. -/
def zeroCounterEvent : CatastrophicEvent := { sampleEvent with seqCounter := some 0 }

/-- The sample event with part of its source moved to the sensor context. -/
def movedBytesEvent : CatastrophicEvent :=
  { sampleEvent with sensorContext := some [116, 117], source := "ck" }

/-- Two different events have the digest of the sample event, and its entry is accepted with either
of them in its place. -/
theorem verifyHash_event_replaced :
    (zeroCounterEvent ≠ sampleEntry.event ∧
        zeroCounterEvent.hash sampleSha256 = sampleEntry.event.hash sampleSha256 ∧
        ({ sampleEntry with event := zeroCounterEvent } : AuditEntry).verifyHash sampleSha256
          = true) ∧
      movedBytesEvent ≠ sampleEntry.event ∧
      movedBytesEvent.hash sampleSha256 = sampleEntry.event.hash sampleSha256 ∧
      ({ sampleEntry with event := movedBytesEvent } : AuditEntry).verifyHash sampleSha256
        = true := by
  decide

end AuditEntry

end Bind19
