import ModAudioStream.FrameRefinement

namespace ModAudioStream

theorem byteAt_append_right (buf more : List UInt8) (i : Nat) :
    byteAt (buf ++ more) (buf.length + i) = byteAt more i := by
  simp [byteAt, List.getD_eq_getElem?_getD, List.getElem?_append_right]

theorem lengthBytes_flag (len : Nat) :
    ∃ b rest, lengthBytes len = (0x80 ||| b) :: rest := by
  unfold lengthBytes
  split
  · exact ⟨_, _, rfl⟩
  · split
    · exact ⟨_, _, rfl⟩
    · exact ⟨_, _, rfl⟩

theorem readLength_lengthBytes {len : Nat} (b : UInt8) (more : List UInt8) (h : len < 2 ^ 64) :
    readLength (b :: (lengthBytes len ++ more)) = some ((lengthBytes len).length + 1, len) := by
  unfold lengthBytes
  by_cases hs : len < 126
  · have hn : (byteAt (b :: ([0x80 ||| UInt8.ofNat len] ++ more)) 1 &&& 0x7F).toNat = len :=
      flag_or_toNat (by omega)
    rw [if_pos hs]
    unfold readLength
    simp only [hn]
    rw [if_neg (by omega), if_neg (by omega)]
    rfl
  · rw [if_neg hs]
    by_cases hm : len < 65536
    · have hn : (byteAt (b :: ((0x80 ||| 126) :: beBytes 2 len ++ more)) 1 &&& 0x7F).toNat =
          126 := by
        show ((0x80 ||| 126 : UInt8) &&& 0x7F).toNat = 126
        decide
      rw [if_pos hm]
      unfold readLength
      simp only [hn, if_true]
      rw [if_neg (by simp [beBytes_length])]
      simp only [List.cons_append, List.drop_succ_cons, List.drop_zero, take_beBytes_append,
        beNat_beBytes (show len < 256 ^ 2 by omega)]
      simp [beBytes_length]
    · have hn : (byteAt (b :: ((0x80 ||| 127) :: beBytes 8 len ++ more)) 1 &&& 0x7F).toNat =
          127 := by
        show ((0x80 ||| 127 : UInt8) &&& 0x7F).toNat = 127
        decide
      rw [if_neg hm]
      unfold readLength
      simp only [hn]
      rw [if_neg (by decide), if_pos trivial, if_neg (by simp [beBytes_length])]
      simp only [List.cons_append, List.drop_succ_cons, List.drop_zero, take_beBytes_append,
        beNat_beBytes (show len < 256 ^ 8 by omega)]
      simp [beBytes_length]

theorem readHead_encodeFrame {opcode : UInt8} (mask : MaskKey) {payload : List UInt8}
    (more : List UInt8) (h : payload.length < 2 ^ 64) :
    readHead (encodeFrame opcode mask payload ++ more) =
      some ⟨true, (0x80 ||| opcode) &&& 0x0F, true, mask, headerLength payload.length,
        payload.length⟩ := by
  have hlb := lengthBytes_length payload.length
  let start := (0x80 ||| opcode) :: lengthBytes payload.length
  let body := xorKey mask.byte payload ++ more
  have hstart : start.length = (lengthBytes payload.length).length + 1 := rfl
  have hbuf : encodeFrame opcode mask payload ++ more = start ++ (mask.bytes ++ body) := by
    simp [encodeFrame, start, body]
  have hlen : (start ++ (mask.bytes ++ body)).length = start.length + 4 + body.length := by
    simp only [List.length_append, MaskKey.bytes_length]
    omega
  have hread : readLength (start ++ (mask.bytes ++ body)) =
      some (start.length, payload.length) := readLength_lengthBytes _ _ h
  have h0 : byteAt (start ++ (mask.bytes ++ body)) 0 = 0x80 ||| opcode := rfl
  obtain ⟨b, rest, hb⟩ := lengthBytes_flag payload.length
  have h1 : byteAt (start ++ (mask.bytes ++ body)) 1 = 0x80 ||| b := by
    simp only [start, hb]
    rfl
  have hkey (i : Nat) : byteAt (start ++ (mask.bytes ++ body)) (start.length + i) =
      byteAt (mask.bytes ++ body) i := byteAt_append_right _ _ i
  have hkey0 : byteAt (start ++ (mask.bytes ++ body)) start.length =
      byteAt (mask.bytes ++ body) 0 := hkey 0
  have hfin : ((0x80 ||| opcode) &&& 0x80 != 0) = true := bne_iff_ne.mpr (flag_or_set opcode)
  have hmask : ((0x80 ||| b) &&& 0x80 != 0) = true := bne_iff_ne.mpr (flag_or_set b)
  rw [hbuf]
  unfold readHead
  rw [if_neg (by rw [hlen]; omega), hread]
  simp only [h0, h1, hfin, hmask, if_true]
  rw [if_neg (by rw [hlen]; omega), hkey 1, hkey 2, hkey 3, hkey0]
  simp only [Option.some.injEq, Head.mk.injEq, true_and, and_true]
  exact ⟨rfl, by omega⟩

/-- A frame the worker may send, with an encoding that fits a `size_t`. -/
structure SentFrame where
  opcode : UInt8
  mask : MaskKey
  payload : List UInt8
  known : opcode = 0x1 ∨ opcode = 0x2 ∨ opcode = 0x9 ∨ opcode = 0xA
  fits : (encodeFrame opcode mask payload).length < 2 ^ 64

namespace SentFrame

def encode (f : SentFrame) : List UInt8 := encodeFrame f.opcode f.mask f.payload

def frame (f : SentFrame) : Frame := ⟨true, f.opcode, f.payload⟩

/-- What a receiver with both callbacks installed should do with it. -/
def delivered (f : SentFrame) : List Reaction :=
  if f.opcode = 0x1 then [.message f.payload]
  else if f.opcode = 0x2 then [.binary f.payload]
  else if f.opcode = 0x9 then [.pong f.payload]
  else []

theorem opcode_masked (f : SentFrame) : (0x80 ||| f.opcode) &&& 0x0F = f.opcode := by
  rcases f.known with h | h | h | h <;> rw [h] <;> rfl

theorem opcode_ne_close (f : SentFrame) : f.opcode ≠ 0x8 := by
  rcases f.known with h | h | h | h <;> rw [h] <;> decide

theorem readHead_encode (f : SentFrame) (more : List UInt8) :
    readHead (f.encode ++ more) = some ⟨true, f.opcode, true, f.mask,
      headerLength f.payload.length, f.payload.length⟩ := by
  have hl := encodeFrame_length f.opcode f.mask f.payload
  have hf := f.fits
  rw [encode, readHead_encodeFrame f.mask more (by omega), f.opcode_masked]

theorem payload_encode (f : SentFrame) (more : List UInt8) :
    ((f.encode ++ more).drop (headerLength f.payload.length)).take f.payload.length =
      xorKey f.mask.byte f.payload := by
  have hlb := lengthBytes_length f.payload.length
  let start := (0x80 ||| f.opcode) :: (lengthBytes f.payload.length ++ f.mask.bytes)
  have hstart : start.length = headerLength f.payload.length := by
    simp only [start, List.length_cons, List.length_append, MaskKey.bytes_length]
    omega
  have hbuf : f.encode ++ more = start ++ (xorKey f.mask.byte f.payload ++ more) := by
    simp [encode, encodeFrame, start]
  rw [hbuf, ← hstart, List.drop_left, List.take_append_of_le_length (by rw [xorKey_length]),
    List.take_of_length_le (by rw [xorKey_length])]

theorem nextFrame_encode (f : SentFrame) (more : List UInt8) :
    nextFrame (f.encode ++ more) = some (f.frame, more) := by
  have hl : f.encode.length = headerLength f.payload.length + f.payload.length :=
    encodeFrame_length f.opcode f.mask f.payload
  refine nextFrame_eq_some.mpr ⟨_, f.readHead_encode more, ?_, ?_, ?_⟩
  · rw [List.length_append]
    show headerLength f.payload.length + f.payload.length ≤ f.encode.length + more.length
    omega
  · simp only [frame, Head.frame, Head.payload, f.payload_encode more, if_true, xorKey_xorKey]
  · show more = (f.encode ++ more).drop (headerLength f.payload.length + f.payload.length)
    rw [← hl, List.drop_left]

theorem handle_frame (f : SentFrame) {r : Receiver} (hm : r.onMessage = true)
    (hb : r.onBinary = true) : r.handle f.frame = f.delivered := by
  rcases f.known with h | h | h | h <;> simp [Receiver.handle, frame, delivered, h, hm, hb]

end SentFrame

theorem meetsHead_encode {fs : List SentFrame} {tail : List UInt8} {h : Head}
    (hm : MeetsHead (fs.flatMap SentFrame.encode ++ tail) h) :
    h.headerSize + h.N < 2 ^ 64 ∨ MeetsHead tail h := by
  induction fs with
  | nil => exact Or.inr hm
  | cons f fs ih =>
    rw [List.flatMap_cons, List.append_assoc] at hm
    cases hm with
    | here hr =>
      have he := Option.some.inj ((f.readHead_encode _).symm.trans hr)
      have hl := encodeFrame_length f.opcode f.mask f.payload
      have hf := f.fits
      rw [← he]
      refine Or.inl ?_
      show headerLength f.payload.length + f.payload.length < 2 ^ 64
      omega
    | later hn _ hrest =>
      have he := Option.some.inj ((f.nextFrame_encode _).symm.trans hn)
      rw [← (Prod.mk.inj he).2] at hrest
      exact ih hrest

theorem noWrap_proper_prefix {last : SentFrame} {tail : List UInt8} (hp : tail <+: last.encode)
    (hne : tail ≠ last.encode) : nextFrame tail = none ∧ NoWrap tail := by
  have hwhole : frameDecoder.next last.encode = some (last.frame, []) := by
    simpa using last.nextFrame_encode []
  have hnone : nextFrame tail = none := Decoder.next_of_proper_prefix hwhole hp hne
  refine ⟨hnone, fun h hm => ?_⟩
  cases hm with
  | here hr =>
    obtain ⟨more, he⟩ := hp
    have hlast := last.readHead_encode []
    rw [List.append_nil, ← he, readHead_append more hr] at hlast
    have hl := encodeFrame_length last.opcode last.mask last.payload
    have hf := last.fits
    rw [Option.some.inj hlast]
    show headerLength last.payload.length + last.payload.length < 2 ^ 64
    omega
  | later hn _ _ => simp [hnone] at hn

/-- What `sendFrame` encodes, `processFrame` delivers: every payload once, in
order, and the bytes of an unfinished frame stay in the buffer. -/
theorem processFrame_encoded {r : Receiver} {fs : List SentFrame} {last : SentFrame}
    {tail : List UInt8} (hbuf : r.rxbuf = fs.flatMap SentFrame.encode ++ tail)
    (hp : tail <+: last.encode) (hne : tail ≠ last.encode)
    (hm : r.onMessage = true) (hb : r.onBinary = true) :
    processFrame r =
      .returned { r with rxbuf := tail, out := r.out ++ fs.flatMap SentFrame.delivered } := by
  obtain ⟨hnone, hwrap⟩ := noWrap_proper_prefix hp hne
  have hno : NoWrap r.rxbuf := by
    intro h hh
    rw [hbuf] at hh
    exact (meetsHead_encode hh).elim id (hwrap h)
  obtain ⟨r', hr', ha⟩ := processFrame_absorbs hno
  have hd : frameDecoder.decode r.rxbuf = ⟨fs.map SentFrame.frame, tail, false⟩ := by
    rw [hbuf]
    exact Decoder.decode_flatMap fs (fun f _ more => f.nextFrame_encode more)
      (fun f _ => by simpa [SentFrame.frame] using f.opcode_ne_close) hnone
  rw [hd] at ha
  have hout : (fs.map SentFrame.frame).flatMap r.handle = fs.flatMap SentFrame.delivered := by
    rw [List.flatMap_map]
    exact List.flatMap_congr fun f _ => f.handle_frame hm hb
  rw [hr']
  obtain ⟨rx, st, run, onM, onB, out⟩ := r'
  obtain ⟨ho, hst, hrun, hom, hob, hrx⟩ := ha
  simp only [Bool.false_eq_true, if_false] at ho hst hrun hom hob hrx
  rw [hrx trivial, hst, hrun, hom, hob, ho, hout]

def exampleText : SentFrame := ⟨0x1, ⟨1, 2, 3, 4⟩, [0x68, 0x69], by decide, by decide⟩

def exampleBinary : SentFrame := ⟨0x2, ⟨5, 6, 7, 8⟩, [0, 255, 128, 7, 9], by decide, by decide⟩

theorem processFrame_encoded_text_then_cut_binary :
    processFrame
        ⟨exampleText.encode ++ exampleBinary.encode.take 8, .opened, true, true, true, []⟩ =
      .returned ⟨exampleBinary.encode.take 8, .opened, true, true, true,
        [.message [0x68, 0x69]]⟩ :=
  @processFrame_encoded
    ⟨exampleText.encode ++ exampleBinary.encode.take 8, .opened, true, true, true, []⟩
    [exampleText] exampleBinary _ rfl (List.take_prefix _ _) (by decide) rfl rfl

end ModAudioStream
