/-
**How much a reader has to hold.**

A reader that gets its bytes from a stream appends them to a buffer for as long as the parser
answers that the frame is incomplete.  The payload limit is meant to bound that buffer: a header
that announces more than the limit ought to be refused at once.  The parser compares the length of
the buffer with the announced length first, and the announced length with the limit only
afterwards, so that it asks for more as long as the oversize frame is not there in full.

This module says what the parser answers, condition by condition, and that the buffer is bounded
exactly as long as it is not such a partial oversize frame.

Main definitions:

* `Bind19.BindFrame.announcedHeader` — the header at the front of a buffer;
* `Bind19.BindFrame.wantsMore`, `Bind19.BindFrame.readStream` — a reader;
* `Bind19.BindFrame.isPartialOversize` — a buffer that holds a part of an oversize frame.

Main results:

* `Bind19.BindFrame.decode_eq_incompleteFrame_iff`, `Bind19.BindFrame.decode_eq_bufferOverflow_iff`;
* `Bind19.BindFrame.decode_bounded_iff` — **the limit is enforced on every buffer that does not hold
  a part of an oversize frame, and on no other**.
-/

import Bind19.Frame

set_option relaxedAutoImplicit false
set_option autoImplicit false

namespace Bind19

open ByteLayout

namespace BindFrame

/-! ### What the parser answers -/

/-- The header at the front of a buffer. -/
def announcedHeader (buf : List UInt8) : BindHeader :=
  BindHeader.decode (readArray headerSize buf 0)

/-- The header does not change when bytes are appended. -/
theorem announcedHeader_append {buf : List UInt8} (h : headerSize ≤ buf.length) (t : List UInt8) :
    announcedHeader (buf ++ t) = announcedHeader buf := by
  rw [announcedHeader, announcedHeader, readArray_append_left t (by omega)]

variable {buf : List UInt8}

theorem decodePfp_error {header : BindHeader} {offset : ℕ} {e : FrameError}
    (h : decodePfp header buf offset = .error e) : e = .invalidPfpMagic := by
  unfold decodePfp at h
  split at h
  · dsimp only at h
    split at h <;> cases h
    rfl
  · cases h

theorem decodeSap_error {header : BindHeader} {offset : ℕ} {e : FrameError}
    (h : decodeSap header buf offset = .error e) :
    e = .invalidSapMagic ∨ e = .invalidSapProtocolId := by
  unfold decodeSap at h
  split at h
  · dsimp only at h
    split at h
    · cases h
      exact Or.inl rfl
    · split at h <;> cases h
      exact Or.inr rfl
  · cases h

/-- What the parser answers, and on which buffers. -/
inductive Verdict (buf : List UInt8) : Except FrameError BindFrame → Prop
  | short (hlen : buf.length < headerSize) : Verdict buf (.error .incompleteHeader)
  | incomplete (hlen : headerSize ≤ buf.length)
      (htot : buf.length < (announcedHeader buf).totalFrameLength) :
      Verdict buf (.error .incompleteFrame)
  | oversize (hlen : headerSize ≤ buf.length)
      (htot : (announcedHeader buf).totalFrameLength ≤ buf.length)
      (hmax : maxPayloadSize < (announcedHeader buf).payloadLength.toNat) :
      Verdict buf (.error .bufferOverflow)
  /-- A complete frame within the limit is parsed, or a layer of it is refused. -/
  | complete (answer : Except FrameError BindFrame) (hlen : headerSize ≤ buf.length)
      (htot : (announcedHeader buf).totalFrameLength ≤ buf.length)
      (hmax : (announcedHeader buf).payloadLength.toNat ≤ maxPayloadSize)
      (hanswer : ∀ e, answer = .error e →
        e = .invalidPfpMagic ∨ e = .invalidSapMagic ∨ e = .invalidSapProtocolId) :
      Verdict buf answer

/-- **What the parser answers.** -/
theorem decode_verdict (buf : List UInt8) : Verdict buf (decode buf) := by
  unfold decode
  split
  · rename_i hlen
    exact .short hlen
  · rename_i hlen
    dsimp only
    split
    · rename_i htot
      exact .incomplete (Nat.not_lt.1 hlen) htot
    · rename_i htot
      split
      · rename_i hmax
        exact .oversize (Nat.not_lt.1 hlen) (Nat.not_lt.1 htot) hmax
      · rename_i hmax
        refine .complete _ (Nat.not_lt.1 hlen) (Nat.not_lt.1 htot) (Nat.not_lt.1 hmax) ?_
        intro e he
        split at he
        · rename_i e' hpfp
          cases he
          exact Or.inl (decodePfp_error hpfp)
        · split at he
          · rename_i e' hsap
            cases he
            exact Or.inr (decodeSap_error hsap)
          · cases he

/-- **When the parser asks for the rest of a frame.** -/
theorem decode_eq_incompleteFrame_iff : decode buf = .error .incompleteFrame ↔
    headerSize ≤ buf.length ∧ buf.length < (announcedHeader buf).totalFrameLength := by
  have hverdict := decode_verdict buf
  constructor
  · intro hdec
    rw [hdec] at hverdict
    cases hverdict with
    | incomplete hlen htot => exact ⟨hlen, htot⟩
    | complete _ _ _ _ hanswer => simpa using hanswer _ rfl
  · rintro ⟨hlen, htot⟩
    generalize decode buf = answer at hverdict
    cases hverdict with
    | short hshort => omega
    | incomplete => rfl
    | oversize _ htot' | complete _ _ htot' => omega

/-- **When the parser refuses a payload.** -/
theorem decode_eq_bufferOverflow_iff : decode buf = .error .bufferOverflow ↔
    headerSize ≤ buf.length ∧ (announcedHeader buf).totalFrameLength ≤ buf.length ∧
      maxPayloadSize < (announcedHeader buf).payloadLength.toNat := by
  have hverdict := decode_verdict buf
  constructor
  · intro hdec
    rw [hdec] at hverdict
    cases hverdict with
    | oversize hlen htot hmax => exact ⟨hlen, htot, hmax⟩
    | complete _ _ _ _ hanswer => simpa using hanswer _ rfl
  · rintro ⟨hlen, htot, hmax⟩
    generalize decode buf = answer at hverdict
    cases hverdict with
    | short hshort => omega
    | incomplete _ htot' => omega
    | oversize => rfl
    | complete _ _ _ hmax' => omega

/-! ### A reader -/

/-- The parser asks for more bytes. -/
def wantsMore (buf : List UInt8) : Bool :=
  match decode buf with
  | .error .incompleteHeader => true
  | .error .incompleteFrame => true
  | _ => false

/-- The buffer of a reader that takes bytes from a stream as long as the parser asks for more. -/
def readStream (buf : List UInt8) : List UInt8 → List UInt8
  | [] => buf
  | b :: stream => if wantsMore buf then readStream (buf ++ [b]) stream else buf

/-- The most bytes a frame within the limit has. -/
def maxFrameLength : ℕ := headerSize + pfpSize + sapSize + maxPayloadSize

/-- The buffer holds a part of a frame whose payload is beyond the limit. -/
def isPartialOversize (buf : List UInt8) : Prop :=
  headerSize ≤ buf.length ∧ maxPayloadSize < (announcedHeader buf).payloadLength.toNat ∧
    buf.length < (announcedHeader buf).totalFrameLength

theorem wantsMore_iff : wantsMore buf = true ↔
    decode buf = .error .incompleteHeader ∨ decode buf = .error .incompleteFrame := by
  unfold wantsMore
  split <;> simp_all

/-- A frame within the limit is not longer than that. -/
theorem totalFrameLength_le {header : BindHeader}
    (h : header.payloadLength.toNat ≤ maxPayloadSize) :
    header.totalFrameLength ≤ maxFrameLength := by
  have hext : header.extensionLength ≤ pfpSize + sapSize := by
    rw [BindHeader.extensionLength_eq]
    cases header.hasPfp <;> cases header.hasSap <;> decide
  rw [BindHeader.totalFrameLength, maxFrameLength]
  omega

/-- A buffer that asks for more is shorter than a frame within the limit can be. -/
theorem length_lt_of_wantsMore (hbuf : ¬ isPartialOversize buf) (h : wantsMore buf = true) :
    buf.length < maxFrameLength := by
  have hverdict := decode_verdict buf
  rcases wantsMore_iff.1 h with hdec | hdec
  · rw [hdec] at hverdict
    cases hverdict with
    | short hlen => exact Nat.lt_of_lt_of_le hlen (by decide)
    | complete _ _ _ _ hanswer => simpa using hanswer _ rfl
  · obtain ⟨hlen, htot⟩ := decode_eq_incompleteFrame_iff.1 hdec
    have hmax : (announcedHeader buf).payloadLength.toNat ≤ maxPayloadSize :=
      Nat.not_lt.1 fun hlt => hbuf ⟨hlen, hlt, htot⟩
    exact Nat.lt_of_lt_of_le htot (totalFrameLength_le hmax)

/-- As long as no part of an oversize frame is in the buffer, the buffer stays bounded. -/
theorem length_readStream_le (stream : List UInt8) (hbuf : buf.length ≤ maxFrameLength)
    (hstream : ∀ k, ¬ isPartialOversize (buf ++ stream.take k)) :
    (readStream buf stream).length ≤ maxFrameLength := by
  induction stream generalizing buf with
  | nil => exact hbuf
  | cons b stream ih =>
      rw [readStream]
      split
      · rename_i hmore
        have hlt : buf.length < maxFrameLength := by
          refine length_lt_of_wantsMore ?_ hmore
          simpa using hstream 0
        refine ih (by rw [List.length_append, List.length_singleton]; exact hlt) fun k => ?_
        simpa using hstream (k + 1)
      · exact hbuf

/-! ### The limit -/

/-- **Where the limit is enforced.**  The parser asks for the rest of frames within the limit only,
it refuses every header beyond the limit, and it asks for more only when the buffer is shorter than
a frame within the limit can be, exactly on the buffers that do not hold a part of an oversize
frame.  A reader of a stream that announces a frame within the limit never holds more than such a
frame. -/
theorem decode_bounded_iff (buf : List UInt8) :
    (((decode buf = .error .incompleteFrame →
          (announcedHeader buf).payloadLength.toNat ≤ maxPayloadSize) ∧
        (headerSize ≤ buf.length → maxPayloadSize < (announcedHeader buf).payloadLength.toNat →
          decode buf = .error .bufferOverflow) ∧
        (wantsMore buf = true → buf.length < maxFrameLength)) ↔ ¬ isPartialOversize buf) ∧
      ((headerSize ≤ buf.length → (announcedHeader buf).payloadLength.toNat ≤ maxPayloadSize) →
        (readStream [] buf).length ≤ maxFrameLength) := by
  refine ⟨⟨?_, fun hbuf => ⟨?_, ?_, length_lt_of_wantsMore hbuf⟩⟩, fun hlimit => ?_⟩
  · rintro ⟨hincomplete, -, -⟩ ⟨hlen, hmax, htot⟩
    have := hincomplete (decode_eq_incompleteFrame_iff.2 ⟨hlen, htot⟩)
    omega
  · intro hdec
    obtain ⟨hlen, htot⟩ := decode_eq_incompleteFrame_iff.1 hdec
    exact Nat.not_lt.1 fun hmax => hbuf ⟨hlen, hmax, htot⟩
  · intro hlen hmax
    exact decode_eq_bufferOverflow_iff.2
      ⟨hlen, Nat.not_lt.1 fun htot => hbuf ⟨hlen, hmax, htot⟩, hmax⟩
  · refine length_readStream_le buf (Nat.zero_le _) fun k => ?_
    rw [List.nil_append]
    rintro ⟨hlen, hmax, -⟩
    -- the header is the same from the eighth byte on
    have hheader := announcedHeader_append hlen (buf.drop k)
    rw [List.take_append_drop] at hheader
    have hlen' := hlimit (Nat.le_trans hlen (List.length_take_le' k buf))
    rw [hheader] at hlen'
    omega

/-- A header that announces one byte more than the limit, and nothing after it. -/
def oversizeHeader : List UInt8 := [0x01, 0x00, 0x00, 0x00, 0x04, 0x00, 0x00, 0x01]

/-- The parser asks for the rest of the oversize frame. -/
theorem decode_oversizeHeader :
    decode oversizeHeader = .error .incompleteFrame ∧ headerSize ≤ oversizeHeader.length ∧
      maxPayloadSize < (announcedHeader oversizeHeader).payloadLength.toNat := by
  decide

end BindFrame

end Bind19
