/-
**Streams of frames.**

Frames are sent one after the other on a stream, and the receiver gets the stream in pieces.  Two
parsers are at hand for it.  One is the parser of frames with its length: a reader that cuts off
each parsed frame reads back the frames that were sent.  The other is the template that the
specification gives.  It waits for a header, refuses a payload beyond the limit, waits for the
payload, and takes both off the front of its buffer.

The template is older than the layers.  The length field does not count them, so the template loses
step at the first frame that has one, and takes the end of that frame for a header.  On a stream of
frames without layers the two read the same.  What is left of a difference is the limit: the
template refuses the header of an oversize frame at once, where the parser of frames waits until all
of it is there.  What the template makes of the eight bytes of a header is left open by the
specification, and is a parameter here.

Main definitions:

* `Bind19.BindFrame.framer` — the parser of frames, as a parser of streams;
* `Bind19.FrameParser`, `Bind19.FrameParser.parseFrame` — the template; `Bind19.FrameParser.framer`.

Main results:

* `Bind19.BindFrame.stream_read` — **frames are read back, however the stream is cut**;
* `Bind19.FrameParser.calls_inStep_iff` — **the template keeps step with frames without layers, and
  with no others**;
* `Bind19.FrameParser.stream_agrees` — **where the two parsers read the same**.
-/

import Bind19.Framing
import Bind19.FrameAdmission
import Bind19.FrameStability

set_option relaxedAutoImplicit false
set_option autoImplicit false

namespace Bind19

open ByteLayout

namespace BindFrame

variable {buf : List UInt8} {f : BindFrame} {e : FrameError} {frames : List BindFrame}

/-! ### The parser of frames -/

/-- What the parser says about the front of a buffer: a frame takes the bytes that its header
announces. -/
def cut (buf : List UInt8) : Cut BindFrame FrameError :=
  match decode buf with
  | .ok f => .item f f.header.totalFrameLength
  | .error .incompleteHeader => .more
  | .error .incompleteFrame => .more
  | .error e => .fail e

theorem cut_of_decode (h : decode buf = .ok f) : cut buf = .item f f.header.totalFrameLength := by
  rw [cut, h]

theorem cut_eq_more_iff : cut buf = .more ↔ wantsMore buf = true := by
  unfold cut wantsMore
  split <;> simp_all

theorem cut_eq_item_iff {n : ℕ} :
    cut buf = .item f n ↔ decode buf = .ok f ∧ n = f.header.totalFrameLength := by
  unfold cut
  constructor
  · intro h
    split at h
    · rename_i hdecode
      cases h
      exact ⟨hdecode, rfl⟩
    all_goals cases h
  · rintro ⟨h, rfl⟩
    rw [h]

theorem cut_eq_fail_iff : cut buf = .fail e ↔ wantsMore buf = false ∧ decode buf = .error e := by
  unfold cut wantsMore
  split <;> simp_all

theorem cut_append_of_item {n : ℕ} (h : cut buf = .item f n) (t : List UInt8) :
    cut (buf ++ t) = .item f n := by
  obtain ⟨hdecode, rfl⟩ := cut_eq_item_iff.1 h
  have hfinal : wantsMore buf = false := by
    rw [wantsMore, hdecode]
  rw [cut_of_decode ((decode_append_of_final hfinal t).trans hdecode)]

theorem cut_append_of_fail (h : cut buf = .fail e) (t : List UInt8) : cut (buf ++ t) = .fail e := by
  rw [cut, decode_append_of_final (cut_eq_fail_iff.1 h).1]
  exact h

theorem pos_of_cut_item {n : ℕ} (h : cut buf = .item f n) : 0 < n := by
  obtain ⟨-, rfl⟩ := cut_eq_item_iff.1 h
  have : 0 < headerSize := by decide
  rw [BindHeader.totalFrameLength]
  omega

theorem le_of_cut_item {n : ℕ} (h : cut buf = .item f n) : n ≤ buf.length := by
  obtain ⟨hdecode, rfl⟩ := cut_eq_item_iff.1 h
  exact (decode_eq_ok_iff.1 hdecode).2.2.1

/-- The parser of frames, as a parser of streams. -/
def framer : Framer UInt8 BindFrame FrameError where
  cut := cut
  cut_nil := rfl
  item_append := cut_append_of_item
  fail_append := cut_append_of_fail
  item_pos := pos_of_cut_item
  item_le := le_of_cut_item

theorem framer_cut : framer.cut = cut := rfl

/-- A frame that its encoding tells: the header announces what follows it, and the type has a
code. -/
structure Sendable (f : BindFrame) : Prop where
  announced : f.Announced
  frameType : ∃ b, f.header.frameType = FrameType.fromByte b

/-- What is sent is found at the front of whatever starts with it. -/
theorem Sendable.cut_encode_append (hf : f.Sendable) (t : List UInt8) :
    framer.cut (f.encode ++ t) = .item f.normalize f.encode.length := by
  rw [framer_cut, cut_of_decode (decode_encode_append hf.announced hf.frameType t),
    length_encode hf.announced]
  rfl

/-- The front of an encoding is not a frame. -/
theorem Sendable.cut_take (hf : f.Sendable) {k : ℕ} (hk : k < f.encode.length) :
    framer.cut (f.encode.take k) = .more := by
  rw [framer_cut, cut_eq_more_iff, wantsMore_iff,
    decode_take_encode hf.announced hf.frameType hk]
  by_cases hshort : k < headerSize
  · rw [if_pos hshort]
    exact Or.inl rfl
  · rw [if_neg hshort]
    exact Or.inr rfl

/-- What a reader of a stream of frames has read, whatever pieces it gets the stream in. -/
theorem foldl_feed_frames (frames : List BindFrame) (hframes : ∀ f ∈ frames, f.Sendable)
    (last : BindFrame) (hlast : last.Sendable) (k : ℕ) (hk : k < last.encode.length)
    (pieces : List (List UInt8))
    (hpieces : pieces.flatten = frames.flatMap encode ++ last.encode.take k) :
    pieces.foldl framer.feed .start =
      { items := frames.map normalize, buffer := last.encode.take k, error := none } := by
  rw [Framer.foldl_feed, hpieces,
    Framer.read_flatMap (fun f hf => (hframes f hf).cut_encode_append),
    Framer.read_of_more (hlast.cut_take hk)]
  simp only [Reading.prepend, List.append_nil]

/-- **Frames are read back, however the stream is cut.**  Let frames be sent one after the other,
each with a header that announces what follows it, and a part of one more.  A reader that gets the
stream in any pieces reads these frames, up to the reserved bits of the PFP and the upper half of
the version byte of the SAP, which their encodings drop; it holds the part of the last one, and has
found no fault.  Up to these bits no other frames make the same stream. -/
theorem stream_read (frames : List BindFrame) (hframes : ∀ f ∈ frames, f.Sendable)
    (last : BindFrame) (hlast : last.Sendable) (k : ℕ) (hk : k < last.encode.length)
    (pieces : List (List UInt8))
    (hpieces : pieces.flatten = frames.flatMap encode ++ last.encode.take k) :
    pieces.foldl framer.feed .start =
        { items := frames.map normalize, buffer := last.encode.take k, error := none } ∧
      ∀ (frames' : List BindFrame) (last' : BindFrame) (k' : ℕ), (∀ f ∈ frames', f.Sendable) →
        last'.Sendable → k' < last'.encode.length →
        pieces.flatten = frames'.flatMap encode ++ last'.encode.take k' →
        frames'.map normalize = frames.map normalize ∧
          last'.encode.take k' = last.encode.take k := by
  refine ⟨foldl_feed_frames frames hframes last hlast k hk pieces hpieces,
    fun frames' last' k' hframes' hlast' hk' hpieces' => ?_⟩
  exact Framer.flatMap_inj (fun f hf => (hframes' f hf).cut_encode_append)
    (fun f hf => (hframes f hf).cut_encode_append) (hlast'.cut_take hk') (hlast.cut_take hk)
    (hpieces'.symm.trans hpieces)

/-- A frame without layers. -/
def v1Frame : BindFrame :=
  { header := BindHeader.new .data 1 0 0 3, pfp := none, sap := none, payload := [1, 2, 3] }

theorem sendable_v1Frame : v1Frame.Sendable := ⟨⟨rfl, by decide, rfl, rfl⟩, 0x01, rfl⟩

theorem sendable_sampleFrame : sampleFrame.Sendable := ⟨⟨rfl, by decide, rfl, rfl⟩, 0x01, rfl⟩

theorem sendable_twoFrames : ∀ f ∈ [v1Frame, sampleFrame], f.Sendable :=
  List.forall_mem_cons.2 ⟨sendable_v1Frame, List.forall_mem_singleton.2 sendable_sampleFrame⟩

/-- Two frames and a part of a third, in two pieces. -/
def twoFrames : List (List UInt8) :=
  [v1Frame.encode.take 3, v1Frame.encode.drop 3 ++ sampleFrame.encode ++ sampleFrame.encode.take 5]

/-- They are read back. -/
theorem stream_read_twoFrames :
    twoFrames.foldl framer.feed .start =
      { items := [v1Frame.normalize, sampleFrame.normalize]
        buffer := sampleFrame.encode.take 5
        error := none } :=
  (stream_read [v1Frame, sampleFrame] sendable_twoFrames sampleFrame sendable_sampleFrame 5
    (by decide) twoFrames (by decide)).1

end BindFrame

/-! ### Frames without layers -/

namespace BindFrame

/-- The header at the front of a buffer, if it is there, announces no layers. -/
def NoLayers (buf : List UInt8) : Prop :=
  headerSize ≤ buf.length →
    (announcedHeader buf).hasPfp = false ∧ (announcedHeader buf).hasSap = false

variable {buf : List UInt8} {f : BindFrame}

theorem totalFrameLength_of_noLayers (hlen : headerSize ≤ buf.length) (h : NoLayers buf) :
    (announcedHeader buf).totalFrameLength =
      headerSize + (announcedHeader buf).payloadLength.toNat := by
  obtain ⟨hpfp, hsap⟩ := h hlen
  rw [BindHeader.totalFrameLength_eq, hpfp, hsap]
  rfl

/-- What the parser of frames says where no layers are announced. -/
theorem cut_of_noLayers (hlen : headerSize ≤ buf.length) (h : NoLayers buf) :
    cut buf =
      if buf.length < headerSize + (announcedHeader buf).payloadLength.toNat then .more
      else if maxPayloadSize < (announcedHeader buf).payloadLength.toNat then .fail .bufferOverflow
      else .item
        { header := announcedHeader buf
          pfp := none
          sap := none
          payload := slice buf headerSize (announcedHeader buf).payloadLength.toNat }
        (headerSize + (announcedHeader buf).payloadLength.toNat) := by
  obtain ⟨hpfp, hsap⟩ := h hlen
  have htotal := totalFrameLength_of_noLayers hlen h
  have hlayers : decodeLayers (announcedHeader buf) buf = .ok
      { header := announcedHeader buf
        pfp := none
        sap := none
        payload := slice buf headerSize (announcedHeader buf).payloadLength.toNat } := by
    have hfirst : decodePfp (announcedHeader buf) buf headerSize = .ok (none, headerSize) :=
      decodePfp_eq_ok_iff.2 (Or.inl ⟨hpfp, rfl, rfl⟩)
    have hsecond : decodeSap (announcedHeader buf) buf headerSize = .ok (none, headerSize) :=
      decodeSap_eq_ok_iff.2 (Or.inl ⟨hsap, rfl, rfl⟩)
    rw [decodeLayers, hfirst]
    dsimp only
    rw [hsecond]
  have hdecode := decode_eq_decodeLayers hlen
  rw [htotal, hlayers] at hdecode
  rw [cut, hdecode]
  by_cases hincomplete : buf.length < headerSize + (announcedHeader buf).payloadLength.toNat
  · rw [if_pos hincomplete, if_pos hincomplete]
  rw [if_neg hincomplete, if_neg hincomplete]
  by_cases hmax : maxPayloadSize < (announcedHeader buf).payloadLength.toNat
  · rw [if_pos hmax, if_pos hmax]
  rw [if_neg hmax, if_neg hmax]
  dsimp only
  rw [htotal]

/-- A frame without layers was announced as one. -/
theorem noLayers_of_decode (h : decode buf = .ok f) (hv1 : f.isV1Compatible = true) :
    NoLayers buf := by
  have hannounced := announced_of_decode h
  obtain ⟨-, hheader, -⟩ := decode_eq_ok_iff.1 h
  rw [isV1Compatible, Bool.and_eq_true, Option.isNone_iff_eq_none, Option.isNone_iff_eq_none] at hv1
  have hpfp := hannounced.hasPfp
  have hsap := hannounced.hasSap
  rw [hheader, hv1.1] at hpfp
  rw [hheader, hv1.2] at hsap
  exact fun _ => ⟨hpfp, hsap⟩

end BindFrame

/-! ### The template -/

/-- The error code that the template gives. -/
inductive ErrorCode
  | bufferOverflow

/-- The parser that the specification gives as a template. -/
structure FrameParser where
  buffer : List UInt8

namespace FrameParser

variable {Header : Type*} (fromBytes : List UInt8 → Header)

/-- Take a frame off the front of the buffer, or wait, or refuse it.  The template does not say how
`fromBytes` reads the header. -/
def parseFrame (parser : FrameParser) :
    Option (Except ErrorCode (Header × List UInt8)) × FrameParser :=
  if parser.buffer.length < 8 then
    (none, parser)
  else
    let payloadLen := ofBeBytes [parser.buffer.getD 4 0, parser.buffer.getD 5 0,
      parser.buffer.getD 6 0, parser.buffer.getD 7 0]
    if payloadLen > 0x04000000 then
      (some (.error .bufferOverflow), parser)
    else if parser.buffer.length < 8 + payloadLen then
      (none, parser)
    else
      let (headerBytes, buffer) := parser.buffer.splitAt 8
      let (payloadBytes, buffer) := buffer.splitAt payloadLen
      let header := fromBytes headerBytes
      (some (.ok (header, payloadBytes)), { buffer })

/-- What the template says about the front of a buffer. -/
def cut (buf : List UInt8) : Cut (Header × List UInt8) ErrorCode :=
  match parseFrame fromBytes { buffer := buf } with
  | (none, _) => .more
  | (some (.error e), _) => .fail e
  | (some (.ok item), parser) => .item item (buf.length - parser.buffer.length)

variable {fromBytes} {buf : List UInt8} {header : Header} {payload : List UInt8} {n : ℕ}

/-- The template reads the length field of the header. -/
theorem payloadLen_eq (buf : List UInt8) :
    ofBeBytes [buf.getD 4 0, buf.getD 5 0, buf.getD 6 0, buf.getD 7 0] =
      (BindFrame.announcedHeader buf).payloadLength.toNat := by
  have hlt : ofBeBytes [buf.getD 4 0, buf.getD 5 0, buf.getD 6 0, buf.getD 7 0] < 2 ^ 32 :=
    lt_of_lt_of_eq (ofBeBytes_lt _) (by simp)
  rw [BindFrame.announcedHeader, BindHeader.decode, UInt32.toNat_ofNat']
  simp only [getElem_readArray, Nat.zero_add]
  rw [Nat.mod_eq_of_lt hlt]

/-- The bytes of the announced header. -/
theorem take_headerSize (h : headerSize ≤ buf.length) :
    buf.take headerSize = (BindFrame.announcedHeader buf).encode.toList := by
  rw [BindFrame.announcedHeader, BindHeader.encode_decode,
    toList_readArray (by rwa [Nat.zero_add])]
  rfl

/-- What the template says, in terms of the announced header. -/
theorem cut_eq (fromBytes : List UInt8 → Header) (buf : List UInt8) :
    cut fromBytes buf =
      if buf.length < headerSize then .more
      else if maxPayloadSize < (BindFrame.announcedHeader buf).payloadLength.toNat then
        .fail .bufferOverflow
      else if buf.length < headerSize +
          (BindFrame.announcedHeader buf).payloadLength.toNat then .more
      else .item (fromBytes (BindFrame.announcedHeader buf).encode.toList,
          slice buf headerSize (BindFrame.announcedHeader buf).payloadLength.toNat)
        (headerSize + (BindFrame.announcedHeader buf).payloadLength.toNat) := by
  unfold cut parseFrame
  dsimp only
  rw [payloadLen_eq]
  generalize (BindFrame.announcedHeader buf).payloadLength.toNat = n
  by_cases hshort : buf.length < headerSize
  · rw [if_pos hshort, if_pos hshort]
  rw [if_neg hshort, if_neg hshort]
  by_cases hmax : maxPayloadSize < n
  · rw [if_pos hmax, if_pos (show n > 0x04000000 from hmax)]
  rw [if_neg hmax, if_neg (show ¬ n > 0x04000000 from hmax)]
  by_cases hincomplete : buf.length < headerSize + n
  · rw [if_pos hincomplete, if_pos hincomplete]
  rw [if_neg hincomplete, if_neg hincomplete]
  -- both parts are taken off
  have hheader : buf.take 8 = (BindFrame.announcedHeader buf).encode.toList :=
    take_headerSize (Nat.not_lt.1 hshort)
  have hsize : headerSize = 8 := rfl
  rw [List.splitAt_eq, List.splitAt_eq]
  dsimp only
  rw [hheader]
  congr 1
  rw [List.length_drop, List.length_drop]
  omega

/-- When the template takes a frame. -/
theorem cut_eq_item_iff :
    cut fromBytes buf = .item (header, payload) n ↔
      maxPayloadSize ≥ (BindFrame.announcedHeader buf).payloadLength.toNat ∧
        n ≤ buf.length ∧ n = headerSize + (BindFrame.announcedHeader buf).payloadLength.toNat ∧
        header = fromBytes (BindFrame.announcedHeader buf).encode.toList ∧
        payload = slice buf headerSize (BindFrame.announcedHeader buf).payloadLength.toNat := by
  rw [cut_eq]
  constructor
  · intro h
    split at h
    · cases h
    split at h
    · cases h
    split at h
    · cases h
    rename_i hmax hlen
    cases h
    exact ⟨Nat.not_lt.1 hmax, Nat.not_lt.1 hlen, rfl, rfl, rfl⟩
  · rintro ⟨hmax, hlen, hn, hheader, hpayload⟩
    rw [if_neg (by omega), if_neg (by omega), if_neg (by omega), hn, hheader, hpayload]

/-- When the template refuses a frame. -/
theorem cut_eq_fail_iff :
    cut fromBytes buf = .fail .bufferOverflow ↔ headerSize ≤ buf.length ∧
      maxPayloadSize < (BindFrame.announcedHeader buf).payloadLength.toNat := by
  rw [cut_eq]
  constructor
  · intro h
    split at h
    · cases h
    rename_i hshort
    split at h
    · rename_i hmax
      exact ⟨Nat.not_lt.1 hshort, hmax⟩
    split at h
    · cases h
    · cases h
  · rintro ⟨hlen, hmax⟩
    rw [if_neg (by omega), if_pos hmax]

theorem cut_append_of_item (h : cut fromBytes buf = .item (header, payload) n) (t : List UInt8) :
    cut fromBytes (buf ++ t) = .item (header, payload) n := by
  obtain ⟨hmax, hlen, hn, hheader, hpayload⟩ := cut_eq_item_iff.1 h
  have hannounced : BindFrame.announcedHeader (buf ++ t) = BindFrame.announcedHeader buf :=
    BindFrame.announcedHeader_append (by omega) t
  refine cut_eq_item_iff.2 ?_
  rw [hannounced, List.length_append]
  refine ⟨hmax, by omega, hn, hheader, hpayload.trans ?_⟩
  have hslice := (agreeOn_append (hn ▸ hlen) headerSize t).slice_eq (Nat.le_refl _) (Nat.le_refl _)
  rw [hslice]

theorem cut_append_of_fail {e : ErrorCode} (h : cut fromBytes buf = .fail e) (t : List UInt8) :
    cut fromBytes (buf ++ t) = .fail e := by
  cases e
  obtain ⟨hlen, hmax⟩ := cut_eq_fail_iff.1 h
  refine cut_eq_fail_iff.2 ?_
  rw [BindFrame.announcedHeader_append hlen, List.length_append]
  exact ⟨by omega, hmax⟩

theorem pos_of_cut_item (h : cut fromBytes buf = .item (header, payload) n) : 0 < n := by
  obtain ⟨-, -, hn, -⟩ := cut_eq_item_iff.1 h
  have : 0 < headerSize := by decide
  omega

variable (fromBytes) in
/-- The template, as a parser of streams. -/
def framer : Framer UInt8 (Header × List UInt8) ErrorCode where
  cut := cut fromBytes
  cut_nil := rfl
  item_append := cut_append_of_item
  fail_append := cut_append_of_fail
  item_pos := pos_of_cut_item
  item_le h := (cut_eq_item_iff.1 h).2.1

theorem framer_cut : (framer fromBytes).cut = cut fromBytes := rfl

variable (fromBytes) in
/-- A call leaves in the buffer what is left after the frame that it takes, if it takes one. -/
theorem parseFrame_buffer (parser : FrameParser) :
    (parseFrame fromBytes parser).2.buffer = (framer fromBytes).skip parser.buffer := by
  obtain ⟨buf⟩ := parser
  rw [Framer.skip, framer_cut, cut, parseFrame]
  dsimp only
  generalize ofBeBytes _ = n
  split
  · rfl
  split
  · rfl
  split
  · rfl
  rw [List.splitAt_eq, List.splitAt_eq]
  dsimp only
  rw [List.length_drop, List.length_drop, List.drop_drop]
  congr 1
  omega

variable (fromBytes) in
/-- So many calls one after the other. -/
def calls (k : ℕ) (parser : FrameParser) : FrameParser :=
  (fun parser => (parseFrame fromBytes parser).2)^[k] parser

theorem calls_buffer (k : ℕ) (parser : FrameParser) :
    (calls fromBytes k parser).buffer = (framer fromBytes).skip^[k] parser.buffer :=
  (Function.Semiconj.iterate_right (parseFrame_buffer fromBytes) k) parser

/-! ### The template and the layers -/

variable {f : BindFrame} {frames : List BindFrame}

/-- The template takes the header and as many bytes as the payload has. -/
theorem cut_encode_append (hf : f.Sendable) (t : List UInt8) :
    (framer fromBytes).cut (f.encode ++ t) =
      .item (fromBytes f.header.encode.toList,
          slice (f.encode ++ t) headerSize f.payload.length)
        (headerSize + f.payload.length) := by
  have hheader : BindFrame.announcedHeader (f.encode ++ t) = f.header := by
    rw [BindFrame.announcedHeader, BindFrame.readArray_encode_append,
      BindHeader.decode_encode hf.frameType]
  have hlen := BindFrame.length_encode hf.announced
  rw [BindHeader.totalFrameLength, hf.announced.payloadLength] at hlen
  rw [framer_cut, cut_eq_item_iff, hheader, hf.announced.payloadLength, List.length_append]
  exact ⟨hf.announced.payload_le, by omega, rfl, rfl, rfl⟩

/-- The payload follows the header exactly in frames without layers. -/
theorem length_eq_iff (hf : f.Sendable) :
    headerSize + f.payload.length = f.encode.length ↔ f.isV1Compatible = true := by
  rw [BindFrame.length_encode hf.announced, BindHeader.totalFrameLength_eq,
    hf.announced.payloadLength, hf.announced.hasPfp, hf.announced.hasSap,
    BindFrame.isV1Compatible]
  have hpfp : 0 < pfpSize := by decide
  have hsap : 0 < sapSize := by decide
  cases f.pfp <;> cases f.sap <;> simp

/-- **The template keeps step with frames without layers, and with no others.**  Let frames be sent
one after the other, each with a header that announces what follows it, and anything after them.
After every number of calls the buffer of the template starts with the next frame, exactly if none
of the frames carries a layer.  What the template makes of the headers does not matter. -/
theorem calls_inStep_iff (fromBytes : List UInt8 → Header) (frames : List BindFrame)
    (hframes : ∀ f ∈ frames, f.Sendable) (t : List UInt8) :
    (∀ k ≤ frames.length,
        (calls fromBytes k { buffer := frames.flatMap BindFrame.encode ++ t }).buffer =
          (frames.drop k).flatMap BindFrame.encode ++ t) ↔
      ∀ f ∈ frames, f.isV1Compatible = true := by
  have hcut : ∀ f ∈ frames, ∀ t, (framer fromBytes).cut (f.encode ++ t) =
      .item (fromBytes f.header.encode.toList,
          slice (f.encode ++ t) headerSize f.payload.length)
        (headerSize + f.payload.length) :=
    fun f hf => cut_encode_append (hframes f hf)
  have hlength : (∀ f ∈ frames, headerSize + f.payload.length = f.encode.length) ↔
      ∀ f ∈ frames, f.isV1Compatible = true :=
    forall₂_congr fun f hf => length_eq_iff (hframes f hf)
  rw [← hlength, ← Framer.inStep_iff hcut t]
  exact forall₂_congr fun k _ => by rw [calls_buffer]

/-- A way to read the header, field by field as the parser of frames does. -/
def sampleFromBytes (bs : List UInt8) : BindHeader := BindHeader.decode (readArray headerSize bs 0)

/-- The template loses step at a frame with layers. -/
theorem calls_inStep_iff_twoFrames :
    let frames := [BindFrame.v1Frame, BindFrame.sampleFrame]
    ¬ ∀ k ≤ 2,
      (calls sampleFromBytes k { buffer := frames.flatMap BindFrame.encode ++ [] }).buffer =
        (frames.drop k).flatMap BindFrame.encode ++ [] := by
  intro frames hstep
  have hv1 := (calls_inStep_iff sampleFromBytes [BindFrame.v1Frame, BindFrame.sampleFrame]
    BindFrame.sendable_twoFrames []).1 hstep
  exact absurd (hv1 BindFrame.sampleFrame (List.mem_cons_of_mem _ List.mem_cons_self)) (by decide)

/-! ### The two parsers -/

/-- The template takes a frame without layers as the parser of frames does. -/
theorem cut_of_v1 (h : BindFrame.framer.cut buf = .item f n) (hv1 : f.isV1Compatible = true) :
    (framer fromBytes).cut buf = .item (fromBytes f.header.encode.toList, f.payload) n := by
  rw [BindFrame.framer_cut] at h
  obtain ⟨hdecode, -⟩ := BindFrame.cut_eq_item_iff.1 h
  obtain ⟨hlen, -⟩ := BindFrame.decode_eq_ok_iff.1 hdecode
  have hno := BindFrame.noLayers_of_decode hdecode hv1
  rw [BindFrame.cut_of_noLayers hlen hno] at h
  by_cases hincomplete :
      buf.length < headerSize + (BindFrame.announcedHeader buf).payloadLength.toNat
  · rw [if_pos hincomplete] at h
    cases h
  rw [if_neg hincomplete] at h
  by_cases hmax : maxPayloadSize < (BindFrame.announcedHeader buf).payloadLength.toNat
  · rw [if_pos hmax] at h
    cases h
  rw [if_neg hmax] at h
  obtain ⟨hf, hn⟩ := Cut.item.inj h
  have hheader : f.header = BindFrame.announcedHeader buf := by rw [← hf]
  have hpayload : f.payload =
      slice buf headerSize (BindFrame.announcedHeader buf).payloadLength.toNat := by rw [← hf]
  refine cut_eq_item_iff.2 ⟨Nat.not_lt.1 hmax, hn ▸ Nat.not_lt.1 hincomplete, hn.symm, ?_, hpayload⟩
  rw [hheader]

/-- Where the parser of frames waits for more bytes, the template waits too, unless it refuses what
there is of an oversize frame. -/
theorem read_of_waiting (h : BindFrame.framer.cut buf = .more) (hno : BindFrame.NoLayers buf) :
    ((framer fromBytes).read buf).items = [] ∧ ((framer fromBytes).read buf).buffer = buf ∧
      (((framer fromBytes).read buf).error = some .bufferOverflow ↔
        BindFrame.isPartialOversize buf) := by
  rw [BindFrame.framer_cut, BindFrame.cut_eq_more_iff, BindFrame.wantsMore_iff,
    BindFrame.decode_eq_incompleteHeader_iff, BindFrame.decode_eq_incompleteFrame_iff] at h
  by_cases hoversize : BindFrame.isPartialOversize buf
  · have hfail : (framer fromBytes).cut buf = .fail .bufferOverflow :=
      cut_eq_fail_iff.2 ⟨hoversize.1, hoversize.2.1⟩
    rw [Framer.read_of_fail hfail]
    exact ⟨rfl, rfl, fun _ => hoversize, fun _ => rfl⟩
  · have hmore : (framer fromBytes).cut buf = .more := by
      rw [framer_cut, cut_eq]
      rcases h with hshort | ⟨hlen, htot⟩
      · rw [if_pos hshort]
      · have htotal := BindFrame.totalFrameLength_of_noLayers hlen hno
        have hmax : ¬ maxPayloadSize < (BindFrame.announcedHeader buf).payloadLength.toNat :=
          fun hmax => hoversize ⟨hlen, hmax, htot⟩
        rw [if_neg (Nat.not_lt.2 hlen), if_neg hmax, if_pos (htotal ▸ htot)]
    rw [Framer.read_of_more hmore]
    exact ⟨rfl, rfl, fun h => absurd h (Option.some_ne_none _).symm, fun h => absurd h hoversize⟩

/-- Where the parser of frames stops at a fault, it is an oversize frame, and the template refuses
it too. -/
theorem read_of_fault {e : FrameError} (h : BindFrame.framer.cut buf = .fail e)
    (hno : BindFrame.NoLayers buf) :
    e = .bufferOverflow ∧
      (framer fromBytes).read buf =
        { items := [], buffer := buf, error := some .bufferOverflow } := by
  rw [BindFrame.framer_cut] at h
  have hlen : headerSize ≤ buf.length := by
    refine Nat.not_lt.1 fun hshort => ?_
    have hmore := BindFrame.cut_eq_more_iff.2
      (BindFrame.wantsMore_iff.2 (Or.inl (BindFrame.decode_eq_incompleteHeader_iff.2 hshort)))
    cases hmore.symm.trans h
  rw [BindFrame.cut_of_noLayers hlen hno] at h
  by_cases hincomplete :
      buf.length < headerSize + (BindFrame.announcedHeader buf).payloadLength.toNat
  · rw [if_pos hincomplete] at h
    cases h
  rw [if_neg hincomplete] at h
  by_cases hmax : maxPayloadSize < (BindFrame.announcedHeader buf).payloadLength.toNat
  · rw [if_pos hmax] at h
    exact ⟨(Cut.fail.inj h).symm, Framer.read_of_fail (cut_eq_fail_iff.2 ⟨hlen, hmax⟩)⟩
  · rw [if_neg hmax] at h
    cases h

/-- **Where the two parsers read the same.**  Let a stream be cut into any pieces.  If the frames
that the parser of frames reads have no layers, and the header that it still holds announces none,
the template takes the same frames and holds the same bytes: it reads each header from the bytes
that encode the header of the frame, and the payload is that of the frame.  It refuses the oversize
frames that the parser of frames refuses, and those that this one still waits for. -/
theorem stream_agrees (fromBytes : List UInt8 → Header) (pieces : List (List UInt8))
    (hframes : ∀ f ∈ (pieces.foldl BindFrame.framer.feed .start).items, f.isV1Compatible = true)
    (hbuffer : BindFrame.NoLayers (pieces.foldl BindFrame.framer.feed .start).buffer) :
    let r := pieces.foldl BindFrame.framer.feed .start
    let r' := pieces.foldl (framer fromBytes).feed .start
    r'.items = r.items.map (fun f => (fromBytes f.header.encode.toList, f.payload)) ∧
      r'.buffer = r.buffer ∧
      (r.error = none ∨ r.error = some .bufferOverflow) ∧
      (r'.error = some .bufferOverflow ↔
        r.error = some .bufferOverflow ∨ BindFrame.isPartialOversize r.buffer) := by
  rw [Framer.foldl_feed] at hframes hbuffer
  intro r r'
  have hr : r = BindFrame.framer.read pieces.flatten := Framer.foldl_feed pieces
  have hr' : r' = ((framer fromBytes).read r.buffer).prepend
      (r.items.map fun f => (fromBytes f.header.encode.toList, f.payload)) := by
    rw [hr, ← Framer.read_of_agree (fun buf f n h => cut_of_v1 h) pieces.flatten hframes]
    exact Framer.foldl_feed pieces
  rw [← hr] at hbuffer
  have hstop := Framer.cut_buffer (p := BindFrame.framer) pieces.flatten
  rw [← hr] at hstop
  rw [hr']
  rcases hstop with ⟨hmore, hnone⟩ | ⟨e, hfail, herror⟩
  · obtain ⟨hitems, hheld, hrefused⟩ := read_of_waiting hmore hbuffer
    refine ⟨?_, hheld, Or.inl hnone, hrefused.trans ?_⟩
    · rw [Reading.prepend, hitems, List.append_nil]
    · rw [hnone]
      exact ⟨Or.inr, fun h => h.resolve_left (Option.some_ne_none _).symm⟩
  · obtain ⟨rfl, hread⟩ := read_of_fault hfail hbuffer
    rw [hread]
    exact ⟨List.append_nil _, rfl, Or.inr herror, fun _ => Or.inl herror, fun _ => rfl⟩

/-- A frame without layers, and after it the header of an oversize frame. -/
def refusedStream : List (List UInt8) :=
  [BindFrame.v1Frame.encode.take 3, BindFrame.v1Frame.encode.drop 3 ++ BindFrame.oversizeHeader]

theorem foldl_feed_refusedStream :
    refusedStream.foldl BindFrame.framer.feed .start =
      { items := [BindFrame.v1Frame.normalize]
        buffer := BindFrame.oversizeHeader
        error := none } := by
  have hflatten : refusedStream.flatten =
      [BindFrame.v1Frame].flatMap BindFrame.encode ++ BindFrame.oversizeHeader := by decide
  have hcut : ∀ f ∈ [BindFrame.v1Frame], ∀ t,
      BindFrame.framer.cut (f.encode ++ t) = .item f.normalize f.encode.length :=
    List.forall_mem_singleton.2 BindFrame.sendable_v1Frame.cut_encode_append
  have hmore : BindFrame.framer.cut BindFrame.oversizeHeader = .more := by
    rw [BindFrame.framer_cut, BindFrame.cut_eq_more_iff]
    decide
  rw [Framer.foldl_feed, hflatten, Framer.read_flatMap hcut, Framer.read_of_more hmore]
  rfl

/-- The template refuses the header that the parser of frames still holds. -/
theorem stream_agrees_refusedStream :
    (refusedStream.foldl (framer sampleFromBytes).feed .start).error = some .bufferOverflow := by
  have hagrees := stream_agrees sampleFromBytes refusedStream
    (by rw [foldl_feed_refusedStream]; decide)
    (by rw [foldl_feed_refusedStream]; exact fun _ => ⟨by decide, by decide⟩)
  refine hagrees.2.2.2.2 (Or.inr ?_)
  rw [foldl_feed_refusedStream]
  exact ⟨by decide, by decide, by decide⟩

end FrameParser

end Bind19
