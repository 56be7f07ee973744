/-
**The evidence in a frame.**

A SAP carries evidence of the physical context that its frame was sent in: the front of a digest of
the sensor data, and the front of a digest of a signature.  The signature itself is too long for the
header.  A receiver that has it checks the evidence in two layers: first the front of its digest, at
once, and then the signature.

The signature scheme and the hash function are parameters here.  Of the scheme only this is used,
where it is used at all, that a signature is verified with the public key of the pair that made it,
and that the bytes of a key are read back as the key.  What the sender signs is left open as well.
This module shows that the evidence survives the wire, and that the first check protects its eight
bytes of the frame and no other: neither the counter nor the PFP nor the payload.

Main definitions:

* `Bind19.Ed25519` — a signature scheme; `Bind19.KeyPair` — a key pair;
* `Bind19.sign`, `Bind19.verify`, `Bind19.truncateSignature`, `Bind19.verifyTruncatedMatch`,
  `Bind19.computePahHash` — the evidence and its checks;
* `Bind19.BindFrame.signatureBytes` — the bytes of the truncated signature.

Main results:

* `Bind19.BindFrame.pahSignature_of_decode` — the truncated signature of a parsed frame;
* `Bind19.evidence_checked` — **what the two checks say about a frame on its way**.
-/

import Bind19.AuditLog
import Bind19.FrameOverride
import Bind19.FrameRelay

set_option relaxedAutoImplicit false
set_option autoImplicit false

namespace Bind19

open ByteLayout

/-! ### Signatures -/

/-- The length of a truncated signature. -/
abbrev truncatedSigSize : ℕ := 8

/-- The length of a signature. -/
abbrev fullSigSize : ℕ := 64

/-- A signature scheme, as far as it is used. -/
structure Ed25519 (SigningKey VerifyingKey : Type) where
  signingKeyFromBytes : Vector UInt8 32 → SigningKey
  signingKeyToBytes : SigningKey → Vector UInt8 32
  verifyingKey : SigningKey → VerifyingKey
  verifyingKeyFromBytes : Vector UInt8 32 → Option VerifyingKey
  verifyingKeyToBytes : VerifyingKey → Vector UInt8 32
  sign : SigningKey → List UInt8 → Vector UInt8 fullSigSize
  verify : VerifyingKey → List UInt8 → Vector UInt8 fullSigSize → Bool

variable {SigningKey VerifyingKey : Type}

/-- What is relied on: the bytes of a key are read back as the key, and a signature is verified. -/
structure Ed25519.Sound (scheme : Ed25519 SigningKey VerifyingKey) : Prop where
  signingKeyFromBytes : ∀ key : SigningKey,
    scheme.signingKeyFromBytes (scheme.signingKeyToBytes key) = key
  verifyingKeyFromBytes : ∀ key : SigningKey,
    scheme.verifyingKeyFromBytes (scheme.verifyingKeyToBytes (scheme.verifyingKey key)) =
      some (scheme.verifyingKey key)
  verify : ∀ (key : SigningKey) (message : List UInt8),
    scheme.verify (scheme.verifyingKey key) message (scheme.sign key message) = true

/-- A signing key and the verifying key that belongs to it. -/
structure KeyPair (scheme : Ed25519 SigningKey VerifyingKey) where
  signingKey : SigningKey
  verifyingKey : VerifyingKey
  belongs : verifyingKey = scheme.verifyingKey signingKey

variable (scheme : Ed25519 SigningKey VerifyingKey) (sha256 : List UInt8 → Digest)

namespace KeyPair

/-- The key pair of a seed. -/
def fromSeed (seed : Vector UInt8 32) : KeyPair scheme :=
  let signingKey := scheme.signingKeyFromBytes seed
  { signingKey, verifyingKey := scheme.verifyingKey signingKey, belongs := rfl }

variable {scheme}

/-- The bytes of the public key. -/
def publicKey (keypair : KeyPair scheme) : Vector UInt8 32 :=
  scheme.verifyingKeyToBytes keypair.verifyingKey

/-- The seed. -/
def seed (keypair : KeyPair scheme) : Vector UInt8 32 :=
  scheme.signingKeyToBytes keypair.signingKey

/-- A key pair is restored from its seed. -/
theorem fromSeed_seed (hsound : scheme.Sound) (keypair : KeyPair scheme) :
    fromSeed scheme keypair.seed = keypair := by
  obtain ⟨signingKey, verifyingKey, rfl⟩ := keypair
  rw [seed, fromSeed]
  simp only [hsound.signingKeyFromBytes]

end KeyPair

/-- The signature of a message. -/
def sign {scheme : Ed25519 SigningKey VerifyingKey} (keypair : KeyPair scheme)
    (message : List UInt8) : Vector UInt8 fullSigSize :=
  scheme.sign keypair.signingKey message

/-- The front of the digest of a signature. -/
def truncateSignature (fullSignature : Vector UInt8 fullSigSize) :
    Vector UInt8 truncatedSigSize :=
  readArray truncatedSigSize (sha256 fullSignature.toList).toList 0

/-- The truncated signature of a message. -/
def signTruncated {scheme : Ed25519 SigningKey VerifyingKey} (keypair : KeyPair scheme)
    (message : List UInt8) : Vector UInt8 truncatedSigSize :=
  truncateSignature sha256 (sign keypair message)

/-- Verify a signature.  Not every byte string is a public key. -/
def verify (publicKey : Vector UInt8 32) (message : List UInt8)
    (signature : Vector UInt8 fullSigSize) : Bool :=
  match scheme.verifyingKeyFromBytes publicKey with
  | none => false
  | some key => scheme.verify key message signature

/-- Compare a signature with a truncated one. -/
def verifyTruncatedMatch (fullSignature : Vector UInt8 fullSigSize)
    (expectedTruncated : Vector UInt8 truncatedSigSize) : Bool :=
  truncateSignature sha256 fullSignature == expectedTruncated

/-- The front of the digest of the sensor data. -/
def computePahHash (physicalContext : List UInt8) : Vector UInt8 pahSize :=
  readArray pahSize (sha256 physicalContext).toList 0

variable {scheme sha256}

namespace BindFrame

variable {buf : List UInt8} {f : BindFrame} {sap : SapHeader}

/-- The bytes of the truncated signature. -/
def signatureBytes (buf : List UInt8) : List UInt8 :=
  slice buf (sapOffset buf + 6 + pahSize) truncatedSigSize

/-- The bytes before the SAP of a parsed frame, the bytes of the SAP, and those after it. -/
theorem sapBytes_of_decode (h : decode buf = .ok f) (hsap : f.sap = some sap) :
    ∃ front v rest, buf = front ++ (Vector.toList v ++ rest) ∧ front.length = sapOffset buf ∧
      sap = SapHeader.decode v := by
  obtain ⟨pfpBs, sapBs, hpfpWire, hsapWire, htake⟩ := decode_wire h
  obtain ⟨hpfpLen, -⟩ := length_of_wire h hpfpWire hsapWire
  rw [hsap] at hsapWire
  cases hsapWire with
  | present v hmagic hid =>
      refine ⟨f.header.encode.toList ++ pfpBs, v,
        f.payload ++ buf.drop f.header.totalFrameLength, ?_, ?_, rfl⟩
      · conv_lhs => rw [← List.take_append_drop f.header.totalFrameLength buf, htake]
        simp only [List.append_assoc]
      · rw [List.length_append, Vector.length_toList, hpfpLen, hasPfp_of_decode h]
        rfl

/-- The truncated signature of a parsed frame is read right after the hash. -/
theorem pahSignature_of_decode (h : decode buf = .ok f) (hsap : f.sap = some sap) :
    sap.pahSignature.toList = signatureBytes buf := by
  obtain ⟨front, v, rest, hbuf, hfront, rfl⟩ := sapBytes_of_decode h hsap
  obtain ⟨magic, hmagic⟩ : ∃ magic, magic = [v[0], v[1], v[2], v[3], v[4], v[5]] := ⟨_, rfl⟩
  have hfields : v.toList =
      magic ++
        ((SapHeader.decode v).pahHash.toList ++ (SapHeader.decode v).pahSignature.toList) := by
    rw [hmagic, SapHeader.toList_eq_fields v]
  have hsix : magic.length = 6 := by
    rw [hmagic]
    rfl
  have hslice := slice_append (front ++ magic ++ (SapHeader.decode v).pahHash.toList)
    (SapHeader.decode v).pahSignature.toList rest
  rw [List.length_append, List.length_append, hfront, hsix, Vector.length_toList,
    Vector.length_toList] at hslice
  rw [signatureBytes, ← hslice]
  congr 1
  rw [hbuf, hfields]
  simp only [List.append_assoc]

/-- However often a frame is parsed and written again, and whatever follows it at first, its
evidence and its payload arrive. -/
theorem relays_evidence (hf : f.Announced) (ht : ∃ b, f.header.frameType = FrameType.fromByte b)
    (hsap : f.sap = some sap) (hops : ℕ) (rest : List UInt8) :
    ∃ bytes f' sap', relays hops (f.encode ++ rest) = .ok bytes ∧ decode bytes = .ok f' ∧
      f'.sap = some sap' ∧ f'.payload = f.payload ∧ sap'.pahHash = sap.pahHash ∧
      sap'.pahSignature = sap.pahSignature := by
  have hdecode := decode_encode_append hf ht rest
  have hnormal : f.normalize.sap = some { sap with sapVersion := sap.sapVersion &&& 0b1111 } := by
    rw [normalize, hsap]
    rfl
  cases hops with
  | zero => exact ⟨f.encode ++ rest, f.normalize, _, rfl, hdecode, hnormal, rfl, rfl, rfl⟩
  | succ hops =>
      exact ⟨f.normalize.encode, f.normalize.withoutReserved, _, relays_of_decode hdecode hops,
        decode_encode_of_decode hdecode, hnormal, rfl, rfl, rfl⟩

end BindFrame

/-! ### What the two checks say -/

/-- The signature of a sender is verified with its public key. -/
theorem verify_sign (hsound : scheme.Sound) (keypair : KeyPair scheme) (message : List UInt8) :
    verify scheme keypair.publicKey message (sign keypair message) = true := by
  rw [verify, KeyPair.publicKey, keypair.belongs, hsound.verifyingKeyFromBytes]
  exact hsound.verify keypair.signingKey message

/-- The comparison finds the truncated signature of the message, and no other. -/
theorem verifyTruncatedMatch_sign_iff {keypair : KeyPair scheme} {message : List UInt8}
    {truncated : Vector UInt8 truncatedSigSize} :
    verifyTruncatedMatch sha256 (sign keypair message) truncated = true ↔
      signTruncated sha256 keypair message = truncated := by
  rw [verifyTruncatedMatch, signTruncated, beq_iff_eq]

/-- **What the two checks say about a frame on its way.**  Let a frame be built whose SAP carries
any hash and the truncated signature of a message.  The message may be any function of the hash and
of the payload, such as one of the two.  However often the frame is parsed and written again, and
whatever follows it on the wire, it arrives with a truncated signature that the signature of the
sender matches, and the signature is verified with the public key for the message that the arriving
frame gives.  And of any frame with a SAP, such as one that an attacker has made of the first, the
signature matches the truncated one exactly when the eight bytes of that on the wire are those of
the sender: the comparison protects these bytes and no others. -/
theorem evidence_checked (scheme : Ed25519 SigningKey VerifyingKey) (hsound : scheme.Sound)
    (sha256 : List UInt8 → Digest) (keypair : KeyPair scheme)
    (message : Vector UInt8 pahSize → List UInt8 → List UInt8) (seqCounter : UInt16)
    (pahHash : Vector UInt8 pahSize) (b channelId sequenceId : UInt8) (pfp : Option PfpHeader)
    (payload : List UInt8) (f : BindFrame)
    (hnew : BindFrame.new (FrameType.fromByte b) channelId sequenceId pfp
      (some (SapHeader.new seqCounter pahHash
        (signTruncated sha256 keypair (message pahHash payload)))) payload = .ok f) :
    let fullSignature := sign keypair (message pahHash payload)
    (∀ (hops : ℕ) (rest : List UInt8), ∃ bytes f' sap,
        BindFrame.relays hops (f.encode ++ rest) = .ok bytes ∧
          BindFrame.decode bytes = .ok f' ∧ f'.sap = some sap ∧
          verifyTruncatedMatch sha256 fullSignature sap.pahSignature = true ∧
          verify scheme keypair.publicKey (message sap.pahHash f'.payload) fullSignature = true) ∧
      ∀ (buf : List UInt8) (f' : BindFrame) (sap : SapHeader), BindFrame.decode buf = .ok f' →
        f'.sap = some sap →
          (verifyTruncatedMatch sha256 fullSignature sap.pahSignature = true ↔
            BindFrame.signatureBytes buf = BindFrame.signatureBytes f.encode) := by
  intro fullSignature
  have hf := (BindFrame.wellFormed_of_new hnew).announced
  obtain ⟨-, -, rfl⟩ := BindFrame.new_eq_ok_iff.1 hnew
  refine ⟨fun hops rest => ?_, fun buf f' sap hdecode hsap => ?_⟩
  · obtain ⟨bytes, f', sap, hrelays, hdecode, hsap, hpayload, hhash, hsignature⟩ :=
      BindFrame.relays_evidence hf ⟨b, rfl⟩ rfl hops rest
    refine ⟨bytes, f', sap, hrelays, hdecode, hsap, ?_, ?_⟩
    · exact verifyTruncatedMatch_sign_iff.2 hsignature.symm
    · rw [hhash, hpayload]
      exact verify_sign hsound keypair _
  · obtain ⟨bytes, f₀, sap₀, hsent, hdecode₀, hsap₀, -, -, hsignature₀⟩ :=
      BindFrame.relays_evidence hf ⟨b, rfl⟩ rfl 0 []
    rw [List.append_nil] at hsent
    cases hsent
    have hwire := BindFrame.pahSignature_of_decode hdecode hsap
    have hwire₀ := BindFrame.pahSignature_of_decode hdecode₀ hsap₀
    rw [verifyTruncatedMatch_sign_iff, ← hwire, ← hwire₀, hsignature₀, Vector.toList_inj]
    exact eq_comm

/-! ### A scheme to try it on -/

/-- A scheme without secrets: the signature repeats the first byte of the key and the sum of the
message. -/
def sampleScheme : Ed25519 (Vector UInt8 32) (Vector UInt8 32) :=
  let sign (key : Vector UInt8 32) (message : List UInt8) : Vector UInt8 fullSigSize :=
    Vector.replicate fullSigSize (message.foldl (· + ·) (key.get 0))
  { signingKeyFromBytes := id
    signingKeyToBytes := id
    verifyingKey := id
    verifyingKeyFromBytes := some
    verifyingKeyToBytes := id
    sign
    verify := fun key message signature => sign key message == signature }

theorem sound_sampleScheme : sampleScheme.Sound where
  signingKeyFromBytes _ := rfl
  verifyingKeyFromBytes _ := rfl
  verify _ _ := beq_self_eq_true _

/-- A digest that adds up the bytes. -/
def sampleDigest (bs : List UInt8) : Digest := Vector.replicate digestSize (bs.foldl (· + ·) 7)

/-- A key pair of that scheme. -/
def sampleKeyPair : KeyPair sampleScheme := KeyPair.fromSeed sampleScheme (Vector.replicate 32 0x42)

/-- A frame with evidence: the hash of a context, and the truncated signature of the hash. -/
def attestedFrame (seqCounter : UInt16) (riskLevel : RiskLevel) : BindFrame :=
  let pfp := PfpHeader.new .executive riskLevel .moving .warning .external .normal true
  let pahHash := computePahHash sampleDigest [1, 2, 3]
  { header := BindHeader.new .data 1 (flagPfpPresent ||| flagSapPresent) 0 1
    pfp := some pfp
    sap := some (SapHeader.new seqCounter pahHash
      (signTruncated sampleDigest sampleKeyPair pahHash.toList))
    payload := [0xAA] }

/-- Two relays later the evidence still matches, and it matches as well in a frame with another
counter and a lower risk level. -/
theorem evidence_checked_attestedFrame :
    let fullSignature := sign sampleKeyPair (computePahHash sampleDigest [1, 2, 3]).toList
    (∃ bytes f' sap,
        BindFrame.relays 2 ((attestedFrame 42 .critical).encode ++ [0xFF]) = .ok bytes ∧
          BindFrame.decode bytes = .ok f' ∧ f'.sap = some sap ∧
          verifyTruncatedMatch sampleDigest fullSignature sap.pahSignature = true ∧
          verify sampleScheme sampleKeyPair.publicKey sap.pahHash.toList fullSignature = true) ∧
      ∃ f' sap, BindFrame.decode (attestedFrame 99 .low).encode = .ok f' ∧ f'.sap = some sap ∧
        verifyTruncatedMatch sampleDigest fullSignature sap.pahSignature = true := by
  obtain ⟨harrives, hmatches⟩ := evidence_checked sampleScheme sound_sampleScheme sampleDigest
    sampleKeyPair (fun pahHash _ => pahHash.toList) 42 (computePahHash sampleDigest [1, 2, 3])
    0x01 1 0 (attestedFrame 42 .critical).pfp [0xAA] (attestedFrame 42 .critical) rfl
  have hdecode : BindFrame.decode (attestedFrame 99 .low).encode = .ok (attestedFrame 99 .low) := by
    decide +kernel
  exact ⟨harrives 2 [0xFF], _, _, hdecode, rfl, (hmatches _ _ _ hdecode rfl).2 (by decide +kernel)⟩

end Bind19
