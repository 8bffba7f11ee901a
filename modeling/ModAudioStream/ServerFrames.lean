import ModAudioStream.RecvChunks

namespace ModAudioStream

/-- The three ways to write a length. -/
inductive LengthForm where
  | short
  | medium
  | long
deriving DecidableEq, Repr

def LengthForm.Holds : LengthForm → Nat → Prop
  | .short, len => len < 126
  | .medium, len => len < 65536
  | .long, len => len < 2 ^ 64

def maskBit (masked : Bool) : UInt8 := if masked then 0x80 else 0

def LengthForm.field (form : LengthForm) (masked : Bool) (len : Nat) : List UInt8 :=
  match form with
  | .short => [maskBit masked ||| UInt8.ofNat len]
  | .medium => (maskBit masked ||| 126) :: beBytes 2 len
  | .long => (maskBit masked ||| 127) :: beBytes 8 len

/-- A frame that a server may send: any first byte, masked or not, with its length in any form that
holds it. -/
structure ServerFrame where
  first : UInt8
  mask : Option MaskKey
  form : LengthForm
  payload : List UInt8
  holds : form.Holds payload.length
  fits : payload.length + 14 < 2 ^ 64

namespace ServerFrame

def fin (f : ServerFrame) : Bool := f.first &&& 0x80 != 0

def opcode (f : ServerFrame) : UInt8 := f.first &&& 0x0F

def maskBytes (f : ServerFrame) : List UInt8 := (f.mask.map MaskKey.bytes).getD []

def body (f : ServerFrame) : List UInt8 :=
  match f.mask with
  | none => f.payload
  | some key => xorKey key.byte f.payload

def head (f : ServerFrame) : List UInt8 :=
  f.first :: f.form.field f.mask.isSome f.payload.length

def encode (f : ServerFrame) : List UInt8 := f.head ++ (f.maskBytes ++ f.body)

def frame (f : ServerFrame) : Frame := ⟨f.fin, f.opcode, f.payload⟩

/-- What a client with these callbacks does with the frame: a ping is answered, text and binary
data are delivered unless they are fragments, everything else is ignored. -/
def reactions (f : ServerFrame) (onMessage onBinary : Bool) : List Reaction :=
  if f.opcode = 0x9 then [.pong f.payload]
  else if f.opcode = 0x1 ∧ f.fin ∧ onMessage then [.message f.payload]
  else if f.opcode = 0x2 ∧ f.fin ∧ onBinary then [.binary f.payload]
  else []

end ServerFrame

theorem maskBit_or_toNat (masked : Bool) {n : Nat} (h : n < 128) :
    ((maskBit masked ||| UInt8.ofNat n) &&& 0x7F).toNat = n := by
  have all : ∀ m : Fin 128, ((maskBit masked ||| UInt8.ofNat m.val) &&& 0x7F).toNat = m.val := by
    cases masked <;> decide
  exact all ⟨n, h⟩

theorem maskBit_or_flag (masked : Bool) {n : Nat} (h : n < 128) :
    ((maskBit masked ||| UInt8.ofNat n) &&& 0x80 != 0) = masked := by
  have all : ∀ m : Fin 128, ((maskBit masked ||| UInt8.ofNat m.val) &&& 0x80 != 0) = masked := by
    cases masked <;> decide
  exact all ⟨n, h⟩

/-- Every form reads back as the length. -/
theorem readLength_field {form : LengthForm} {len : Nat} (h : form.Holds len) (first : UInt8)
    (masked : Bool) (more : List UInt8) :
    readLength (first :: (form.field masked len ++ more)) =
      some ((form.field masked len).length + 1, len) := by
  cases form with
  | short =>
    have hlen : len < 126 := h
    have hn : (byteAt (first :: ([maskBit masked ||| UInt8.ofNat len] ++ more)) 1 &&& 0x7F).toNat =
        len := maskBit_or_toNat masked (by omega)
    unfold readLength LengthForm.field
    simp only [hn]
    rw [if_neg (by omega), if_neg (by omega)]
    rfl
  | medium =>
    have hlen : len < 65536 := h
    have hn : (byteAt (first :: ((maskBit masked ||| 126) :: beBytes 2 len ++ more)) 1 &&&
        0x7F).toNat = 126 := @maskBit_or_toNat masked 126 (by omega)
    unfold readLength LengthForm.field
    simp only [hn, if_true]
    rw [if_neg (by simp [beBytes_length])]
    simp only [List.cons_append, List.drop_succ_cons, List.drop_zero, take_beBytes_append,
      beNat_beBytes (show len < 256 ^ 2 by omega)]
    simp [beBytes_length]
  | long =>
    have hlen : len < 2 ^ 64 := h
    have hn : (byteAt (first :: ((maskBit masked ||| 127) :: beBytes 8 len ++ more)) 1 &&&
        0x7F).toNat = 127 := @maskBit_or_toNat masked 127 (by omega)
    unfold readLength LengthForm.field
    simp only [hn]
    rw [if_neg (by decide), if_pos trivial, if_neg (by simp [beBytes_length])]
    simp only [List.cons_append, List.drop_succ_cons, List.drop_zero, take_beBytes_append,
      beNat_beBytes (show len < 256 ^ 8 by omega)]
    simp [beBytes_length]

theorem field_flag (form : LengthForm) (masked : Bool) {len : Nat} (h : form.Holds len) :
    ∃ b rest, form.field masked len = b :: rest ∧ (b &&& 0x80 != 0) = masked := by
  cases form with
  | short =>
    have hlen : len < 126 := h
    exact ⟨_, _, rfl, maskBit_or_flag masked (by omega)⟩
  | medium => exact ⟨_, _, rfl, @maskBit_or_flag masked 126 (by omega)⟩
  | long => exact ⟨_, _, rfl, @maskBit_or_flag masked 127 (by omega)⟩

theorem field_length_le (form : LengthForm) (masked : Bool) (len : Nat) :
    (form.field masked len).length ≤ 9 := by
  cases form with
  | short => exact Nat.le_of_ble_eq_true rfl
  | medium => simp [LengthForm.field, beBytes_length]
  | long => simp [LengthForm.field, beBytes_length]

namespace ServerFrame

def headerSize (f : ServerFrame) : Nat := f.head.length + f.maskBytes.length

theorem body_length (f : ServerFrame) : f.body.length = f.payload.length := by
  unfold body
  split
  · rfl
  · exact xorKey_length _ _

theorem encode_length (f : ServerFrame) :
    f.encode.length = f.headerSize + f.payload.length := by
  rw [encode, List.length_append, List.length_append, f.body_length, headerSize, Nat.add_assoc]

theorem headerSize_le (f : ServerFrame) : f.headerSize ≤ 14 := by
  have hfield := field_length_le f.form f.mask.isSome f.payload.length
  have hmask : f.maskBytes.length ≤ 4 := by
    unfold maskBytes
    cases f.mask with
    | none => exact Nat.zero_le 4
    | some key => exact Nat.le_refl 4
  rw [headerSize, head, List.length_cons]
  omega

theorem readHead_encode (f : ServerFrame) (more : List UInt8) :
    readHead (f.encode ++ more) = some ⟨f.fin, f.opcode, f.mask.isSome,
      f.mask.getD ⟨0, 0, 0, 0⟩, f.headerSize, f.payload.length⟩ := by
  have hbuf : f.encode ++ more = f.head ++ (f.maskBytes ++ (f.body ++ more)) := by
    simp [encode]
  have hread : readLength (f.head ++ (f.maskBytes ++ (f.body ++ more))) =
      some (f.head.length, f.payload.length) := readLength_field f.holds _ _ _
  have hfirst : byteAt (f.head ++ (f.maskBytes ++ (f.body ++ more))) 0 = f.first := rfl
  obtain ⟨b, rest, hfield, hflag⟩ := field_flag f.form f.mask.isSome f.holds
  have hhead : f.head = f.first :: b :: rest := by rw [head, hfield]
  have hsecond : byteAt (f.head ++ (f.maskBytes ++ (f.body ++ more))) 1 = b := by
    rw [hhead]
    rfl
  have htwo : 2 ≤ f.head.length := by
    rw [hhead]
    simp
  rw [hbuf]
  unfold readHead
  rw [if_neg (by rw [List.length_append]; omega), hread]
  simp only [hfirst, hsecond, hflag]
  cases hmask : f.mask with
  | none =>
    have hsize : f.headerSize = f.head.length := by simp [headerSize, maskBytes, hmask]
    rw [hsize]
    rfl
  | some key =>
    have hbytes : f.maskBytes = key.bytes := by simp [maskBytes, hmask]
    have hsize : f.headerSize = f.head.length + 4 := by simp [headerSize, hbytes]
    have hkey (i : Nat) : byteAt (f.head ++ (key.bytes ++ (f.body ++ more)))
        (f.head.length + i) = byteAt (key.bytes ++ (f.body ++ more)) i :=
      byteAt_append_right _ _ i
    have hkey₀ : byteAt (f.head ++ (key.bytes ++ (f.body ++ more))) f.head.length =
        byteAt (key.bytes ++ (f.body ++ more)) 0 := hkey 0
    rw [hbytes, hsize]
    simp only [Option.isSome_some, if_true]
    rw [if_neg (by simp), hkey 1, hkey 2, hkey 3, hkey₀]
    rfl

theorem payload_encode (f : ServerFrame) (more : List UInt8) :
    ((f.encode ++ more).drop f.headerSize).take f.payload.length = f.body := by
  have hbuf : f.encode ++ more = (f.head ++ f.maskBytes) ++ (f.body ++ more) := by
    simp [encode]
  have hsize : f.headerSize = (f.head ++ f.maskBytes).length := by
    rw [headerSize, List.length_append]
  rw [hbuf, hsize, List.drop_left, List.take_append_of_le_length (by rw [body_length]),
    List.take_of_length_le (by rw [body_length])]

theorem nextFrame_encode (f : ServerFrame) (more : List UInt8) :
    nextFrame (f.encode ++ more) = some (f.frame, more) := by
  refine nextFrame_eq_some.mpr ⟨_, f.readHead_encode more, ?_, ?_, ?_⟩
  · rw [List.length_append, f.encode_length]
    exact Nat.le_add_right _ _
  · simp only [frame, Head.frame, Head.payload, f.payload_encode more]
    cases hmask : f.mask with
    | none => simp [body, hmask]
    | some key => simp [body, hmask]
  · show more = (f.encode ++ more).drop (f.headerSize + f.payload.length)
    rw [← f.encode_length, List.drop_left]

theorem handle_frame (f : ServerFrame) (r : Receiver) :
    r.handle f.frame = f.reactions r.onMessage r.onBinary := by
  unfold Receiver.handle reactions frame
  dsimp only
  by_cases hping : f.opcode = 0x9
  · simp [hping]
  · by_cases htext : f.opcode = 0x1
    · cases f.fin <;> cases r.onMessage <;> simp [htext]
    · by_cases hbinary : f.opcode = 0x2
      · cases f.fin <;> cases r.onBinary <;> simp [hbinary]
      · simp [hping, htext, hbinary]

end ServerFrame

theorem meetsHead_server {fs : List ServerFrame} {tail : List UInt8} {h : Head}
    (hm : MeetsHead (fs.flatMap ServerFrame.encode ++ tail) h) :
    h.headerSize + h.N < 2 ^ 64 ∨ MeetsHead tail h := by
  induction fs with
  | nil => exact Or.inr hm
  | cons f fs ih =>
    rw [List.flatMap_cons, List.append_assoc] at hm
    cases hm with
    | here hr =>
      have he := Option.some.inj ((f.readHead_encode _).symm.trans hr)
      have hsize := f.headerSize_le
      have hfits := f.fits
      rw [← he]
      refine Or.inl ?_
      show f.headerSize + f.payload.length < 2 ^ 64
      omega
    | later hn _ hrest =>
      have he := Option.some.inj ((f.nextFrame_encode _).symm.trans hn)
      rw [← (Prod.mk.inj he).2] at hrest
      exact ih hrest

theorem noWrap_server {fs : List ServerFrame} {tail : List UInt8} (hw : NoWrap tail) :
    NoWrap (fs.flatMap ServerFrame.encode ++ tail) :=
  fun hd hm => (meetsHead_server hm).elim id (hw hd)

/-- A frame of which the last bytes have not come. -/
theorem unfinished_server_frame {last : ServerFrame} {tail : List UInt8}
    (hp : tail <+: last.encode) (hne : tail ≠ last.encode) :
    nextFrame tail = none ∧ NoWrap tail := by
  have hwhole : frameDecoder.next last.encode = some (last.frame, []) := by
    simpa using last.nextFrame_encode []
  have hnone : nextFrame tail = none := Decoder.next_of_proper_prefix hwhole hp hne
  refine ⟨hnone, fun h hm => ?_⟩
  cases hm with
  | here hr =>
    obtain ⟨more, he⟩ := hp
    have hlast := last.readHead_encode []
    rw [List.append_nil, ← he, readHead_append more hr] at hlast
    have hsize := last.headerSize_le
    have hfits := last.fits
    rw [Option.some.inj hlast]
    show last.headerSize + last.payload.length < 2 ^ 64
    omega
  | later hn _ _ => simp [hnone] at hn

def ServerFrame.closes (f : ServerFrame) : Bool := f.opcode == 0x8

/-- What a client that has absorbed frames and the start of one more has done. -/
theorem absorbs_server_frames {r r' : Receiver} {fs : List ServerFrame} {tail : List UInt8}
    (hnone : nextFrame tail = none)
    (ha : Absorbs r (frameDecoder.decode (fs.flatMap ServerFrame.encode ++ tail)) r') :
    r'.out = r.out ++
        (fs.takeWhile fun f => !f.closes).flatMap (·.reactions r.onMessage r.onBinary) ∧
      r'.running = (if fs.any ServerFrame.closes then false else r.running) ∧
      r'.state = (if fs.any ServerFrame.closes then .closing else r.state) ∧
      (fs.any ServerFrame.closes = false → r'.rxbuf = tail) := by
  obtain ⟨hitems, hstopped, hrest⟩ := @Decoder.decode_flatMap_stops _ _ frameDecoder _
    ServerFrame.encode ServerFrame.frame tail fs (fun f _ more => f.nextFrame_encode more) hnone
  have hcloses : (fs.any fun f => frameDecoder.stops f.frame) = fs.any ServerFrame.closes := rfl
  rw [hcloses] at hstopped
  refine ⟨?_, ?_, ?_, ?_⟩
  · have hlast :
        ((fs.find? fun f => frameDecoder.stops f.frame).map ServerFrame.frame).toList.flatMap
          r.handle = [] := by
      cases hfind : fs.find? fun f => frameDecoder.stops f.frame with
      | none => rfl
      | some f =>
        have hclose : f.frame.opcode = 0x8 := by simpa [frameDecoder] using List.find?_some hfind
        simp [Receiver.handle_close hclose]
    rw [ha.out, hitems, List.flatMap_append, hlast, List.append_nil, List.flatMap_map]
    exact congrArg _ (List.flatMap_congr fun f _ => f.handle_frame r)
  · rw [ha.running, hstopped]
  · rw [ha.state, hstopped]
  · intro hopen
    rw [ha.rxbuf (hstopped.trans hopen)]
    exact hrest (hstopped.trans hopen)

/-- Whatever frames a server sends and however they are cut up on the way, the client reacts to
each of them in order, up to the first Close, and keeps the bytes of an unfinished frame. -/
theorem receive_server_frames (state : State) (onMessage onBinary : Bool) (fs : List ServerFrame)
    (last : ServerFrame) (tail : List UInt8) (hp : tail <+: last.encode) (hne : tail ≠ last.encode)
    (chunks : List (List UInt8))
    (hchunks : chunks.flatten = fs.flatMap ServerFrame.encode ++ tail) :
    ∃ r, receive (.fresh state onMessage onBinary) chunks = .returned r ∧
      r.out = (fs.takeWhile fun f => !f.closes).flatMap (·.reactions onMessage onBinary) ∧
      r.running = !fs.any ServerFrame.closes ∧
      r.state = (if fs.any ServerFrame.closes then .closing else state) ∧
      (fs.any ServerFrame.closes = false → r.rxbuf = tail) := by
  obtain ⟨hnone, hwrap⟩ := unfinished_server_frame hp hne
  have hno : NoWrap chunks.flatten := by
    rw [hchunks]
    exact noWrap_server hwrap
  obtain ⟨r, hr, ha⟩ := receive_absorbs_stream state onMessage onBinary chunks hno
  rw [hchunks] at ha
  obtain ⟨hout, hrunning, hstate, hrest⟩ := absorbs_server_frames hnone ha
  refine ⟨r, hr, ?_, ?_, hstate, hrest⟩
  · rw [hout]
    rfl
  · rw [hrunning]
    cases fs.any ServerFrame.closes <;> rfl

def unmaskedText : ServerFrame :=
  ⟨0x81, none, .medium, [0x68, 0x69], show 2 < 65536 by decide, by decide⟩

def maskedPing : ServerFrame :=
  ⟨0x89, some ⟨1, 2, 3, 4⟩, .short, [7], show 1 < 126 by decide, by decide⟩

/-- A text whose length is written in two bytes too many, a masked ping and the start of a frame,
cut up inside the first header. -/
theorem receive_text_and_ping :
    ∃ r, receive (.fresh .opened true true)
        [[0x81, 126, 0], [2, 0x68, 0x69, 0x89, 0x81, 1, 2], [3, 4, 6, 0x81]] = .returned r ∧
      r.out = [.message [0x68, 0x69], .pong [7]] ∧ r.rxbuf = [0x81] := by
  obtain ⟨r, hr, hout, -, -, hrest⟩ := receive_server_frames .opened true true
    [unmaskedText, maskedPing] unmaskedText [0x81] (by decide) (by decide)
    [[0x81, 126, 0], [2, 0x68, 0x69, 0x89, 0x81, 1, 2], [3, 4, 6, 0x81]] (by decide)
  exact ⟨r, hr, hout, hrest rfl⟩

end ModAudioStream
