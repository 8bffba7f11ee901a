import ModAudioStream.StreamFrame

namespace ModAudioStream

namespace Forwarding

variable {ρ : Type*} {channels : Nat} {speex : CaptureSpeex ρ channels}

/-- The bytes that have been handed on, or are still going to be. -/
def kept (s : Forwarding ρ) : List UInt8 := s.sent.flatten ++ s.pending.flatten ++ s.tap.sbuffer

def Conserved (s : Forwarding ρ) : Prop := s.kept = s.captured

/-- A frame that does not fit into what is free of `sbuffer`. -/
def Drops (s : Forwarding ρ) (f : CapturedFrame) : Prop :=
  s.tap.rtpPackets ≠ 1 ∧ s.tap.freespace < f.data.length

/-- What every iteration without a resampler keeps. -/
structure DirectInv (s : Forwarding ρ) : Prop where
  direct : s.tap.resampler = none
  unbuffered : s.tap.rtpPackets = 1 → s.tap.sbuffer = []
  kept_le : s.kept.length ≤ s.captured.length

theorem flush_cases (s : Forwarding ρ) :
    s.flush = s ∨ s.flush = { s with tap := { s.tap with sbuffer := [] },
                                     pending := s.pending ++ [s.tap.sbuffer] } := by
  unfold flush Capture.flush
  split
  · exact Or.inr rfl
  · exact Or.inl (by simp)

@[simp] theorem kept_flush (s : Forwarding ρ) : s.flush.kept = s.kept := by
  rcases s.flush_cases with h | h
  · rw [h]
  · rw [h]
    simp [kept]

@[simp] theorem captured_flush (s : Forwarding ρ) : s.flush.captured = s.captured := rfl

theorem read_direct {s : Forwarding ρ} (h : s.tap.resampler = none) (f : CapturedFrame) :
    s.read speex f = ({ s with captured := s.captured ++ f.data } : Forwarding ρ).readDirect f := by
  unfold read
  simp only [h]

theorem kept_readDirect {s : Forwarding ρ} (h : s.tap.rtpPackets = 1 → s.tap.sbuffer = [])
    {f : CapturedFrame} (hd : ¬s.Drops f) : (s.readDirect f).kept = s.kept ++ f.data := by
  unfold readDirect
  split
  next he => rw [List.isEmpty_iff.mp he, List.append_nil]
  next =>
    split
    next hrtp => simp [kept, h hrtp]
    next hrtp =>
      have hfit : f.data.length ≤ s.tap.freespace := Nat.le_of_not_lt fun hlt => hd ⟨hrtp, hlt⟩
      rw [kept_flush, Capture.bufferWrite_fits hfit]
      simp [kept]

theorem kept_readDirect_of_drops {s : Forwarding ρ} {f : CapturedFrame} (hd : s.Drops f) :
    (s.readDirect f).kept = s.kept := by
  unfold readDirect
  split
  · rfl
  next =>
    rw [if_neg hd.1, kept_flush]
    simp [kept, Capture.bufferWrite, if_neg (Nat.not_le_of_lt hd.2)]

theorem readDirect_frame (s : Forwarding ρ) (f : CapturedFrame) :
    (s.readDirect f).captured = s.captured ∧
      (s.readDirect f).tap.resampler = s.tap.resampler ∧
      (s.readDirect f).tap.rtpPackets = s.tap.rtpPackets ∧
      (s.tap.rtpPackets = 1 → (s.readDirect f).tap.sbuffer = s.tap.sbuffer) := by
  unfold readDirect
  split
  · exact ⟨rfl, rfl, rfl, fun _ => rfl⟩
  · split
    · exact ⟨rfl, rfl, rfl, fun _ => rfl⟩
    next hrtp =>
      have hbuf : (s.tap.bufferWrite f.data).resampler = s.tap.resampler ∧
          (s.tap.bufferWrite f.data).rtpPackets = s.tap.rtpPackets := by
        unfold Capture.bufferWrite
        split <;> exact ⟨rfl, rfl⟩
      refine ⟨rfl, ?_, ?_, fun h => absurd h hrtp⟩
      · rcases flush_cases ({ s with tap := s.tap.bufferWrite f.data }) with h | h
        · rw [h]; exact hbuf.1
        · rw [h]; exact hbuf.1
      · rcases flush_cases ({ s with tap := s.tap.bufferWrite f.data }) with h | h
        · rw [h]; exact hbuf.2
        · rw [h]; exact hbuf.2

/-- What an iteration without a resampler does to a frame: it keeps all of it or drops
all of it. -/
theorem read_spec {s : Forwarding ρ} (h : s.DirectInv) (f : CapturedFrame) :
    (s.read speex f).captured = s.captured ++ f.data ∧
      (s.Drops f → (s.read speex f).kept = s.kept) ∧
      (¬s.Drops f → (s.read speex f).kept = s.kept ++ f.data) := by
  rw [read_direct h.direct]
  refine ⟨(readDirect_frame _ f).1, fun hd => ?_, fun hd => ?_⟩
  · exact @kept_readDirect_of_drops ρ { s with captured := s.captured ++ f.data } f hd
  · exact @kept_readDirect ρ { s with captured := s.captured ++ f.data } h.unbuffered f hd

theorem directInv_read {s : Forwarding ρ} (h : s.DirectInv) (f : CapturedFrame) :
    (s.read speex f).DirectInv := by
  obtain ⟨hcap, hdrop, hkeep⟩ := @read_spec ρ channels speex s h f
  have hle := h.kept_le
  obtain ⟨-, hres, hrtp, hbuf⟩ :=
    readDirect_frame ({ s with captured := s.captured ++ f.data } : Forwarding ρ) f
  rw [← @read_direct ρ channels speex s h.direct f] at hres hrtp hbuf
  refine ⟨hres.trans h.direct, fun h1 => ?_, ?_⟩
  · have h1' : s.tap.rtpPackets = 1 := hrtp.symm.trans h1
    exact (hbuf h1').trans (h.unbuffered h1')
  · rw [hcap, List.length_append]
    by_cases hd : s.Drops f
    · rw [hdrop hd]
      omega
    · rw [hkeep hd, List.length_append]
      omega

theorem conserved_read_iff {s : Forwarding ρ} (h : s.DirectInv) (f : CapturedFrame) :
    (s.read speex f).Conserved ↔ s.Conserved ∧ ¬s.Drops f := by
  obtain ⟨hcap, hdrop, hkeep⟩ := @read_spec ρ channels speex s h f
  rw [Conserved, hcap]
  by_cases hd : s.Drops f
  · rw [hdrop hd]
    refine iff_of_false (fun hc => ?_) fun hc => hc.2 hd
    have hlen := congrArg List.length hc
    have hle := h.kept_le
    have hlt := hd.2
    simp only [List.length_append] at hlen
    omega
  · rw [hkeep hd, List.append_left_inj]
    exact (and_iff_left hd).symm

theorem kept_send {s : Forwarding ρ} : (s.send true).kept = s.kept := by
  simp [kept, send, List.flatten_filter_not_isEmpty]

end Forwarding

/-- A call of `stream_frame` while the client is connected. -/
def ForwardStep {ρ : Type*} {channels : Nat} (speex : CaptureSpeex ρ channels) (s : Forwarding ρ)
    (call : StreamFrameCall) (t : Forwarding ρ) : Prop :=
  call.connected = true ∧ s.streamFrame speex call = t

namespace Forwarding

variable {ρ : Type*} {channels : Nat} {speex : CaptureSpeex ρ channels}

/-- The chunks handed to `writeBinary` and the content of `sbuffer` are the frames. -/
def Forwards (s : Forwarding ρ) : Prop := s.sent.flatten ++ s.tap.sbuffer = s.captured

/-- A call that reads a frame which is dropped. -/
def DropsFrame (speex : CaptureSpeex ρ channels) (s : Forwarding ρ) (call : StreamFrameCall) :
    Prop :=
  call.connected = true ∧ call.reads = true ∧ ¬Never (ReadStep speex) Drops s call.frames

theorem directInv_start (rtpPackets capacity : Nat) :
    (start rtpPackets capacity none : Forwarding ρ).DirectInv :=
  ⟨rfl, fun _ => rfl, Nat.le_refl _⟩

theorem directInv_foldl {s : Forwarding ρ} (h : s.DirectInv) (frames : List CapturedFrame) :
    (frames.foldl (read speex) s).DirectInv := by
  refine (run_foldl (read speex) s frames).invariant ?_ h
  rintro s f t hi rfl
  exact directInv_read hi f

theorem forwards_iff_conserved {s : Forwarding ρ} (h : s.pending = []) :
    s.Forwards ↔ s.Conserved := by
  simp [Forwards, Conserved, kept, h]

/-- Between two calls. -/
structure CallInv (s : Forwarding ρ) : Prop where
  inv : s.DirectInv
  idle : s.pending = []

theorem callInv_streamFrame {s : Forwarding ρ} (h : s.CallInv) {call : StreamFrameCall}
    (hc : call.connected = true) : (s.streamFrame speex call).CallInv := by
  unfold streamFrame
  split
  · obtain ⟨hres, hbuf, hle⟩ := @directInv_foldl ρ channels speex s h.inv call.frames
    rw [hc]
    exact ⟨⟨hres, hbuf, by rw [kept_send]; exact hle⟩, rfl⟩
  · exact h

theorem forwards_streamFrame_iff {s : Forwarding ρ} (h : s.CallInv) (hs : s.Forwards)
    {call : StreamFrameCall} (hc : call.connected = true) :
    (s.streamFrame speex call).Forwards ↔ ¬s.DropsFrame speex call := by
  rw [forwards_iff_conserved (callInv_streamFrame h hc).idle]
  unfold streamFrame
  split
  next hr =>
    have hfinal := @final_iff_never _ _ (ReadStep speex) DirectInv Conserved Drops
      (fun _ _ _ _ ht ht' => ht.symm.trans ht') (by rintro s f t hi rfl; exact directInv_read hi f)
      (by rintro s f t hi rfl; exact conserved_read_iff hi f) s _ call.frames h.inv
      ((forwards_iff_conserved h.idle).mp hs) (run_foldl (read speex) s call.frames)
    rw [hc]
    have hsend : ((call.frames.foldl (read speex) s).send true).Conserved ↔
        (call.frames.foldl (read speex) s).Conserved := by
      rw [Conserved, kept_send]
      rfl
    rw [hsend, hfinal]
    simp [DropsFrame, hc, hr]
  next hr => exact iff_of_true ((forwards_iff_conserved h.idle).mp hs) fun hd => hr hd.2.1

theorem callInv_start (rtpPackets capacity : Nat) :
    (start rtpPackets capacity none : Forwarding ρ).CallInv :=
  ⟨directInv_start rtpPackets capacity, rfl⟩

theorem callInv_step (s : Forwarding ρ) (call : StreamFrameCall) (t : Forwarding ρ)
    (h : s.CallInv) (hs : ForwardStep speex s call t) : t.CallInv := by
  obtain ⟨hc, rfl⟩ := hs
  exact callInv_streamFrame h hc

theorem always_forwards_iff {s : Forwarding ρ} (h : s.CallInv) (hs : s.Forwards)
    (calls : List StreamFrameCall) :
    Always (ForwardStep speex) Forwards s calls ↔
      Never (ForwardStep speex) (DropsFrame speex) s calls := by
  refine always_iff_never callInv_step ?_ ?_ h hs
  · rintro s call t hi hf hd ⟨hc, rfl⟩
    exact (forwards_streamFrame_iff hi hf hc).mpr hd
  · intro s call hi hf hd
    exact ⟨_, ⟨hd.1, rfl⟩, fun hn => (forwards_streamFrame_iff hi hf hd.1).mp hn hd⟩

theorem rtpPackets_read {s : Forwarding ρ} (h : s.DirectInv) (f : CapturedFrame) :
    (s.read speex f).tap.rtpPackets = s.tap.rtpPackets := by
  rw [read_direct h.direct]
  exact (readDirect_frame _ f).2.2.1

theorem foldl_frame {s : Forwarding ρ} (h : s.DirectInv) (frames : List CapturedFrame) :
    (frames.foldl (read speex) s).captured = s.captured ++ (frames.map (·.data)).flatten ∧
      (frames.foldl (read speex) s).tap.rtpPackets = s.tap.rtpPackets := by
  induction frames generalizing s with
  | nil => simp
  | cons f frames ih =>
    obtain ⟨hcap, hrtp⟩ := ih (directInv_read h f)
    exact ⟨by simp [hcap, (read_spec h f).1], hrtp.trans (rtpPackets_read h f)⟩

theorem streamFrame_frame {s : Forwarding ρ} (h : s.CallInv) (call : StreamFrameCall) :
    (s.streamFrame speex call).captured = s.captured ++ call.bytes ∧
      (s.streamFrame speex call).tap.rtpPackets = s.tap.rtpPackets := by
  unfold streamFrame StreamFrameCall.bytes
  split
  · exact foldl_frame h.inv call.frames
  · simp

theorem run_frame {s t : Forwarding ρ} (h : s.CallInv) {calls : List StreamFrameCall}
    (hr : Run (ForwardStep speex) s calls t) :
    t.captured = s.captured ++ (calls.map (·.bytes)).flatten ∧
      t.tap.rtpPackets = s.tap.rtpPackets := by
  induction hr with
  | nil => simp
  | cons hs _ ih =>
    obtain ⟨hcap, hrtp⟩ := ih (callInv_step _ _ _ h hs)
    obtain ⟨_, rfl⟩ := hs
    obtain ⟨hcap', hrtp'⟩ := @streamFrame_frame ρ channels speex _ h _
    exact ⟨by simp [hcap, hcap'], hrtp.trans hrtp'⟩

/-- With one packet a chunk nothing is buffered, so that nothing is dropped. -/
theorem never_dropsFrame {s : Forwarding ρ} (h : s.CallInv) (h1 : s.tap.rtpPackets = 1)
    (calls : List StreamFrameCall) :
    Never (ForwardStep speex) (DropsFrame speex) s calls := by
  intro bs call t _ hr hd
  have ht := hr.invariant callInv_step h
  have ht1 := (run_frame h hr).2.trans h1
  refine hd.2.2 fun fs f u _ hu hdrop => hdrop.1 ?_
  have hkeep : ∀ (s : Forwarding ρ) f t, s.DirectInv ∧ s.tap.rtpPackets = 1 →
      ReadStep speex s f t → t.DirectInv ∧ t.tap.rtpPackets = 1 := by
    rintro s f t ⟨hs, hp⟩ rfl
    exact ⟨directInv_read hs f, (rtpPackets_read hs f).trans hp⟩
  exact (hu.invariant hkeep ⟨ht.inv, ht1⟩).2

end Forwarding

/-- Whatever the frames are, the chunks followed by the buffer are the frames in every state
of a run exactly when no frame arrives for which the buffer has no room; and then the same
bytes go out as with one packet a chunk, up to the part that is still buffered. -/
theorem forward_direct_iff {ρ : Type*} {channels : Nat} (speex : CaptureSpeex ρ channels)
    (rtpPackets capacity capacity' : Nat) (calls : List StreamFrameCall) :
    (Always (ForwardStep speex) Forwarding.Forwards (.start rtpPackets capacity none) calls ↔
      Never (ForwardStep speex) (Forwarding.DropsFrame speex) (.start rtpPackets capacity none)
        calls) ∧
    (Never (ForwardStep speex) (Forwarding.DropsFrame speex) (.start rtpPackets capacity none)
        calls →
      ∀ s d, Run (ForwardStep speex) (.start rtpPackets capacity none) calls s →
        Run (ForwardStep speex) (.start 1 capacity' none) calls d →
        s.sent.flatten ++ s.tap.sbuffer = d.sent.flatten) := by
  have hi := @Forwarding.callInv_start ρ rtpPackets capacity
  have hi1 := @Forwarding.callInv_start ρ 1 capacity'
  have hiff := @Forwarding.always_forwards_iff ρ channels speex _ hi rfl calls
  refine ⟨hiff, fun hn s d hs hd => ?_⟩
  have hfs : s.sent.flatten ++ s.tap.sbuffer = s.captured :=
    hiff.mpr hn calls s (List.prefix_refl _) hs
  have hfd : d.sent.flatten ++ d.tap.sbuffer = d.captured :=
    (Forwarding.always_forwards_iff hi1 rfl calls).mpr
      (Forwarding.never_dropsFrame hi1 rfl calls) calls d (List.prefix_refl _) hd
  obtain ⟨hcaps, -⟩ := Forwarding.run_frame hi hs
  obtain ⟨hcapd, hd1⟩ := Forwarding.run_frame hi1 hd
  have hempty := (hd.invariant Forwarding.callInv_step hi1).inv.unbuffered hd1
  rw [hempty, List.append_nil] at hfd
  rw [hfs, hfd, hcaps, hcapd]
  rfl

/-- A packet of 30 ms leaves a buffer of 40 ms without room for the next 20 ms. -/
theorem forward_direct_drops :
    ¬Always (ForwardStep doublingSpeex) Forwarding.Forwards
      (.start 2 (sbufferLength 8000 1 2) none)
      [⟨false, false, true, true, true,
        [⟨List.replicate 480 0, 240⟩, ⟨List.replicate 320 0, 160⟩]⟩] := by
  obtain ⟨first, hfirst, hlen⟩ : ∃ first, first = List.replicate 480 (0 : UInt8) ∧
      first.length = 480 := ⟨_, rfl, List.length_replicate⟩
  obtain ⟨second, hsecond, hlen'⟩ : ∃ second, second = List.replicate 320 (0 : UInt8) ∧
      second.length = 320 := ⟨_, rfl, List.length_replicate⟩
  have hne : first ≠ [] ∧ second ≠ [] :=
    ⟨List.ne_nil_of_length_pos (by omega), List.ne_nil_of_length_pos (by omega)⟩
  rw [← hfirst, ← hsecond]
  intro h
  have hrun := h _ _ (List.prefix_refl _) (Run.cons ⟨rfl, rfl⟩ (Run.nil _))
  have hsent := congrArg List.length hrun
  simp [Forwarding.streamFrame, StreamFrameCall.reads, Forwarding.read, Forwarding.readDirect,
    Forwarding.start, Forwarding.flush, Forwarding.send, Capture.flush, Capture.bufferWrite,
    Capture.freespace, sbufferLength, frameSize8000, hlen, hlen', hne] at hsent

end ModAudioStream
