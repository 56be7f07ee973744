/-
**What the answer of the parser depends on.**

The parser takes its decisions from the flags and the length in the header, and then from the bytes
of the layers that the flags announce.  Two buffers that agree in all of this get the same answer:
the same error, or frames that differ in their headers at most.

There are two uses.  Bytes after the frame do not matter, so that the answer a reader ends with is
the same however the stream was cut into reads.  And neither do the frame type, the channel, the
sequence number and the flags that are not assigned: what a later version of the protocol writes
there is carried along and changes no decision.

Main definitions:

* `Bind19.BindFrame.SameLayout` — two buffers agree in all that the parser looks at;
* `Bind19.BindFrame.readAll` — a reader of a stream that comes in pieces of any size;
* `Bind19.BindFrame.SameUpToIgnored` — two buffers differ in header bytes that are ignored only.

Main results:

* `Bind19.BindFrame.decode_of_sameLayout` — **the answers to two such buffers**;
* `Bind19.BindFrame.decode_stable` — **more input does not change a final answer**, and the reader
  ends with the same one however the stream was cut;
* `Bind19.BindFrame.decode_of_sameUpToIgnored` — **the ignored bytes change no decision**.
-/

import Bind19.FrameAdmission
import Bind19.FrameBuffering

set_option relaxedAutoImplicit false
set_option autoImplicit false

namespace Bind19

open ByteLayout

namespace BindFrame

variable {header header' : BindHeader} {buf buf' : List UInt8} {offset : ℕ}

/-! ### Stage by stage -/

/-- What the parser does with a complete frame within the limit. -/
def decodeLayers (header : BindHeader) (buf : List UInt8) : Except FrameError BindFrame :=
  match decodePfp header buf headerSize with
  | .error e => .error e
  | .ok (pfp, offset) =>
    match decodeSap header buf offset with
    | .error e => .error e
    | .ok (sap, offset) =>
      .ok { header, pfp, sap, payload := slice buf offset header.payloadLength.toNat }

/-- The parser looks at the header, compares lengths, and goes on to the layers. -/
theorem decode_eq_decodeLayers (hlen : headerSize ≤ buf.length) :
    decode buf =
      if buf.length < (announcedHeader buf).totalFrameLength then .error .incompleteFrame
      else if (announcedHeader buf).payloadLength.toNat > maxPayloadSize then
        .error .bufferOverflow
      else decodeLayers (announcedHeader buf) buf := by
  unfold decode
  rw [if_neg (Nat.not_lt.2 hlen)]
  rfl

theorem decodePfp_congr (hflag : header'.hasPfp = header.hasPfp)
    (hread : header.hasPfp = true → readArray pfpSize buf' offset = readArray pfpSize buf offset) :
    decodePfp header' buf' offset = decodePfp header buf offset := by
  unfold decodePfp
  rw [hflag]
  split
  · rename_i hp
    rw [hread hp]
  · rfl

theorem decodeSap_congr (hflag : header'.hasSap = header.hasSap)
    (hread : header.hasSap = true → readArray sapSize buf' offset = readArray sapSize buf offset) :
    decodeSap header' buf' offset = decodeSap header buf offset := by
  unfold decodeSap
  rw [hflag]
  split
  · rename_i hs
    rw [hread hs]
  · rfl

/-- The offset after the second stage. -/
theorem offset_of_decodePfp {pfp : Option PfpHeader} {offset' : ℕ}
    (h : decodePfp header buf offset = .ok (pfp, offset')) :
    offset' = offset + if header.hasPfp then pfpSize else 0 := by
  rcases decodePfp_eq_ok_iff.1 h with ⟨hp, -, rfl⟩ | ⟨hp, -, -, rfl⟩
  · rw [hp]
    rfl
  · rw [hp]
    rfl

/-- The offset after the third stage. -/
theorem offset_of_decodeSap {sap : Option SapHeader} {offset' : ℕ}
    (h : decodeSap header buf offset = .ok (sap, offset')) :
    offset' = offset + if header.hasSap then sapSize else 0 := by
  rcases decodeSap_eq_ok_iff.1 h with ⟨hs, -, rfl⟩ | ⟨hs, -, -, -, rfl⟩
  · rw [hs]
    rfl
  · rw [hs]
    rfl

/-! ### Two buffers -/

/-- Two headers announce the same layers and the same payload. -/
structure SameAnnounced (header header' : BindHeader) : Prop where
  hasPfp : header'.hasPfp = header.hasPfp
  hasSap : header'.hasSap = header.hasSap
  payloadLength : header'.payloadLength = header.payloadLength

theorem SameAnnounced.totalFrameLength (h : SameAnnounced header header') :
    header'.totalFrameLength = header.totalFrameLength := by
  rw [BindHeader.totalFrameLength_eq, BindHeader.totalFrameLength_eq, h.hasPfp, h.hasSap,
    h.payloadLength]

/-- Where the bytes after the header agree, so do the layers and the payload. -/
theorem decodeLayers_congr (h : SameAnnounced header header')
    (hbody : AgreeOn headerSize header.totalFrameLength buf buf') :
    decodeLayers header' buf' =
      (decodeLayers header buf).map fun f => { f with header := header' } := by
  have htotal := header.totalFrameLength_eq
  have hpfp : decodePfp header' buf' headerSize = decodePfp header buf headerSize := by
    refine decodePfp_congr h.hasPfp fun hp => hbody.readArray_eq (Nat.le_refl _) ?_
    rw [if_pos hp] at htotal
    omega
  unfold decodeLayers
  rw [hpfp]
  cases hdec : decodePfp header buf headerSize with
  | error e => rfl
  | ok res =>
      obtain ⟨pfp, offset⟩ := res
      have hoffset := offset_of_decodePfp hdec
      have hsap : decodeSap header' buf' offset = decodeSap header buf offset := by
        refine decodeSap_congr h.hasSap fun hs => hbody.readArray_eq (by omega) ?_
        rw [if_pos hs] at htotal
        omega
      dsimp only
      rw [hsap]
      cases hdec' : decodeSap header buf offset with
      | error e => rfl
      | ok res' =>
          obtain ⟨sap, offset'⟩ := res'
          have hoffset' := offset_of_decodeSap hdec'
          dsimp only
          rw [h.payloadLength, hbody.slice_eq (by omega) (by omega)]
          rfl

/-- Two buffers agree in all that the parser looks at: their headers announce the same, both hold
the frame in full or neither does, and the bytes after the header agree. -/
structure SameLayout (buf buf' : List UInt8) : Prop where
  length : headerSize ≤ buf.length
  length' : headerSize ≤ buf'.length
  announced : SameAnnounced (announcedHeader buf) (announcedHeader buf')
  complete : buf'.length < (announcedHeader buf).totalFrameLength ↔
    buf.length < (announcedHeader buf).totalFrameLength
  body : AgreeOn headerSize (announcedHeader buf).totalFrameLength buf buf'

/-- **The answers to two buffers that agree in all that the parser looks at** are the same, but for
the header of the frame. -/
theorem decode_of_sameLayout (h : SameLayout buf buf') :
    decode buf' = (decode buf).map fun f => { f with header := announcedHeader buf' } := by
  rw [decode_eq_decodeLayers h.length, decode_eq_decodeLayers h.length',
    h.announced.totalFrameLength, h.announced.payloadLength, decodeLayers_congr h.announced h.body]
  by_cases hshort : buf.length < (announcedHeader buf).totalFrameLength
  · rw [if_pos hshort, if_pos (h.complete.2 hshort)]
    rfl
  · rw [if_neg hshort, if_neg (mt h.complete.1 hshort)]
    split
    · rfl
    · rfl

/-! ### More input -/

/-- Once the announced frame is there in full, what follows it does not matter. -/
theorem decode_append (hlen : headerSize ≤ buf.length)
    (htot : (announcedHeader buf).totalFrameLength ≤ buf.length) (t : List UInt8) :
    decode (buf ++ t) = decode buf := by
  have hheader := announcedHeader_append hlen t
  have hlonger : buf.length ≤ (buf ++ t).length := List.length_append ▸ Nat.le_add_right _ _
  have hsame : SameLayout buf (buf ++ t) :=
    { length := hlen
      length' := Nat.le_trans hlen hlonger
      announced := by
        rw [hheader]
        exact ⟨rfl, rfl, rfl⟩
      complete := by omega
      body := agreeOn_append htot headerSize t }
  rw [decode_of_sameLayout hsame, hheader]
  cases hdec : decode buf with
  | error e => rfl
  | ok f =>
      obtain ⟨-, hf, -⟩ := decode_eq_ok_iff.1 hdec
      change Except.ok { f with header := announcedHeader buf } = Except.ok f
      rw [announcedHeader, ← hf]

/-- **When the parser asks for the rest of a header.** -/
theorem decode_eq_incompleteHeader_iff :
    decode buf = .error .incompleteHeader ↔ buf.length < headerSize := by
  have hverdict := decode_verdict buf
  constructor
  · intro hdec
    rw [hdec] at hverdict
    cases hverdict with
    | short hlen => exact hlen
    | complete _ _ _ _ hanswer => simpa using hanswer _ rfl
  · intro hlen
    unfold decode
    rw [if_pos hlen]

/-- An answer that does not ask for more is final. -/
theorem decode_append_of_final (h : wantsMore buf = false) (t : List UInt8) :
    decode (buf ++ t) = decode buf := by
  have hfinal : ¬ (decode buf = .error .incompleteHeader ∨
      decode buf = .error .incompleteFrame) := by
    rw [← wantsMore_iff, h]
    exact Bool.false_ne_true
  rw [not_or, decode_eq_incompleteHeader_iff, decode_eq_incompleteFrame_iff] at hfinal
  obtain ⟨hshort, hincomplete⟩ := hfinal
  have hlen : headerSize ≤ buf.length := Nat.not_lt.1 hshort
  exact decode_append hlen (Nat.not_lt.1 fun htot => hincomplete ⟨hlen, htot⟩) t

/-- What a reader ends with that takes a stream in pieces: it appends the next piece for as long as
the parser asks for more. -/
def readAll (buf : List UInt8) : List (List UInt8) → Except FrameError BindFrame
  | [] => decode buf
  | piece :: pieces => if wantsMore buf then readAll (buf ++ piece) pieces else decode buf

/-- The reader ends with the answer to the whole stream. -/
theorem readAll_eq_decode (pieces : List (List UInt8)) (buf : List UInt8) :
    readAll buf pieces = decode (buf ++ pieces.flatten) := by
  induction pieces generalizing buf with
  | nil => rw [readAll, List.flatten_nil, List.append_nil]
  | cons piece pieces ih =>
      rw [readAll]
      split
      · rw [ih, List.flatten_cons, List.append_assoc]
      · rename_i hfinal
        exact (decode_append_of_final (Bool.eq_false_of_not_eq_true hfinal) _).symm

/-- **More input does not change a final answer.**  A frame that was parsed stays the same whatever
follows it, and so does an error, unless it asks for more; and the parser asks for the rest of a
header exactly when there are fewer bytes than a header has.  So the answer that a reader of a
stream ends with is the one to the whole stream, however it was cut into pieces. -/
theorem decode_stable (buf : List UInt8) :
    (∀ f t, decode buf = .ok f → decode (buf ++ t) = .ok f) ∧
      (∀ e t, e ≠ .incompleteHeader → e ≠ .incompleteFrame → decode buf = .error e →
        decode (buf ++ t) = .error e) ∧
      (decode buf = .error .incompleteHeader ↔ buf.length < headerSize) ∧
      ∀ pieces : List (List UInt8), pieces.flatten = buf → readAll [] pieces = decode buf := by
  refine ⟨fun f t hdec => ?_, fun e t hheader hframe hdec => ?_, decode_eq_incompleteHeader_iff,
    fun pieces hpieces => ?_⟩
  · have hfinal : wantsMore buf = false := by
      rw [wantsMore, hdec]
    rw [decode_append_of_final hfinal t, hdec]
  · have hfinal : wantsMore buf = false := by
      rw [← Bool.not_eq_true, wantsMore_iff, hdec]
      simp [hheader, hframe]
    rw [decode_append_of_final hfinal t, hdec]
  · rw [readAll_eq_decode, List.nil_append, hpieces]

/-! ### Bytes that are ignored -/

/-- Two buffers of the same length differ in the frame type, the channel, the sequence number and
the flags other than the presence flags at most. -/
structure SameUpToIgnored (buf buf' : List UInt8) : Prop where
  length : buf'.length = buf.length
  presence : buf'.getD 2 0 &&& presenceMask = buf.getD 2 0 &&& presenceMask
  rest : buf'.drop 4 = buf.drop 4

/-- The fields of the header at the front of a buffer. -/
theorem announcedHeader_eq (buf : List UInt8) :
    announcedHeader buf =
      { frameType := FrameType.fromByte (buf.getD 0 0)
        channelId := buf.getD 1 0
        flags := buf.getD 2 0
        sequenceId := buf.getD 3 0
        payloadLength := UInt32.ofNat
          (ofBeBytes [buf.getD 4 0, buf.getD 5 0, buf.getD 6 0, buf.getD 7 0]) } := by
  simp [announcedHeader, BindHeader.decode]

/-- Flag bytes that agree on the presence flags agree on each of them. -/
theorem and_eq_of_presence {b b' flag : UInt8} (h : b' &&& presenceMask = b &&& presenceMask)
    (hflag : presenceMask &&& flag = flag) : b' &&& flag = b &&& flag := by
  rw [← hflag, ← UInt8.and_assoc, ← UInt8.and_assoc, h]

/-- The bytes that are ignored change nothing that the parser looks at. -/
theorem SameUpToIgnored.sameLayout (h : SameUpToIgnored buf buf') (hlen : headerSize ≤ buf.length) :
    SameLayout buf buf' where
  length := hlen
  length' := h.length ▸ hlen
  announced := by
    have hbyte : ∀ i, 4 ≤ i → buf'.getD i 0 = buf.getD i 0 := by
      intro i hi
      have hagree := agreeOn_of_drop_eq h.rest (i + 1)
      rw [List.getD_eq_getElem?_getD, List.getD_eq_getElem?_getD,
        hagree i hi (Nat.lt_succ_self i)]
    rw [announcedHeader_eq, announcedHeader_eq]
    refine ⟨?_, ?_, ?_⟩
    · rw [BindHeader.hasPfp, BindHeader.hasPfp, and_eq_of_presence h.presence rfl]
    · rw [BindHeader.hasSap, BindHeader.hasSap, and_eq_of_presence h.presence rfl]
    · dsimp only
      rw [hbyte 4 (by omega), hbyte 5 (by omega), hbyte 6 (by omega), hbyte 7 (by omega)]
  complete := by rw [h.length]
  body := by
    intro i hi hi'
    exact agreeOn_of_drop_eq h.rest (i + 1) i (Nat.le_trans (by decide) hi) (Nat.lt_succ_self i)

/-- **The ignored bytes change no decision.**  Change the frame type, the channel, the sequence
number and the flags other than the presence flags of a buffer that has a header, in any way.  The
parser answers with the same error, or with a frame of the same layers, payload and payload length,
in whose header the changed bytes stand as they are. -/
theorem decode_of_sameUpToIgnored (buf buf' : List UInt8) (hlen : headerSize ≤ buf.length)
    (h : SameUpToIgnored buf buf') :
    (∀ e, decode buf = .error e → decode buf' = .error e) ∧
      ∀ f, decode buf = .ok f → ∃ f', decode buf' = .ok f' ∧
        f'.pfp = f.pfp ∧ f'.sap = f.sap ∧ f'.payload = f.payload ∧
        f'.header.payloadLength = f.header.payloadLength ∧
        f'.header.frameType = FrameType.fromByte (buf'.getD 0 0) ∧
        f'.header.frameType.toByte = buf'.getD 0 0 ∧ f'.header.channelId = buf'.getD 1 0 ∧
        f'.header.flags = buf'.getD 2 0 ∧ f'.header.sequenceId = buf'.getD 3 0 := by
  have hlayout := h.sameLayout hlen
  have hdec := decode_of_sameLayout hlayout
  have hlength := hlayout.announced.payloadLength
  refine ⟨fun e he => ?_, fun f hf => ?_⟩
  · rw [hdec, he]
    rfl
  · obtain ⟨-, hheader, -⟩ := decode_eq_ok_iff.1 hf
    refine ⟨{ f with header := announcedHeader buf' }, ?_, rfl, rfl, rfl, ?_, ?_⟩
    · rw [hdec, hf]
      rfl
    · rw [hheader]
      exact hlength
    · dsimp only
      rw [announcedHeader_eq]
      exact ⟨rfl, FrameType.toByte_fromByte _, rfl, rfl, rfl⟩

/-- The sample frame as a sender of a later version writes it: another frame type, channel and
sequence number, and all the flags that are not assigned. -/
def laterBytes : List UInt8 := [0x2A, 0x07, 0xFF, 0x63] ++ sampleFrame.encode.drop 4

/-- It is parsed, and its layers and its payload are those of the sample frame. -/
theorem decode_of_sameUpToIgnored_laterBytes :
    ∃ f', decode laterBytes = .ok f' ∧ f'.pfp = sampleFrame.pfp ∧ f'.sap = sampleFrame.sap ∧
      f'.payload = sampleFrame.payload := by
  have hsame : SameUpToIgnored sampleFrame.encode laterBytes := ⟨rfl, by decide, rfl⟩
  obtain ⟨f', hdec, hpfp, hsap, hpayload, -⟩ :=
    (decode_of_sameUpToIgnored sampleFrame.encode laterBytes (by decide) hsame).2 sampleFrame
      (by decide)
  exact ⟨f', hdec, hpfp, hsap, hpayload⟩

end BindFrame

end Bind19
