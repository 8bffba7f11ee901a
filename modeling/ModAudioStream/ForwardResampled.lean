import ModAudioStream.ForwardDirect

namespace ModAudioStream

/-- The bytes are the samples of all channels. -/
def CapturedFrame.Whole (channels : Nat) (f : CapturedFrame) : Prop :=
  f.data.length = f.samples * (channels * 2)

namespace Forwarding

variable {ρ : Type*} {channels : Nat} {speex : CaptureSpeex ρ channels}

/-- The resampler has taken every captured sample. -/
def Consumed (s : Forwarding ρ) : Prop := s.consumed = s.captured

/-- What the resampler has put out is handed on, or going to be. -/
def Delivered (s : Forwarding ρ) : Prop := s.sent.flatten ++ s.tap.sbuffer = s.produced

/-- A frame of which the resampler leaves samples behind, as what is free of `sbuffer` has no
room for all that comes of it. -/
def Starves (speex : CaptureSpeex ρ channels) (s : Forwarding ρ) (f : CapturedFrame) : Prop :=
  f.data ≠ [] ∧ (s.room channels = 0 ∨
    ∃ r, s.tap.resampler = some r ∧ speex.demand r (s.room channels) < f.samples)

/-- What every iteration with a resampler keeps. -/
structure ResampledInv (s : Forwarding ρ) : Prop where
  resampled : s.tap.resampler.isSome
  unbuffered : s.tap.rtpPackets = 1 → s.tap.sbuffer = []
  kept_eq : s.kept = s.produced
  consumed_le : s.consumed.length ≤ s.captured.length

theorem room_le_freespace (s : Forwarding ρ) (channels : Nat) :
    s.room channels * (channels * 2) ≤ s.tap.freespace :=
  (Nat.mul_le_mul_right _ (Nat.mod_le _ _)).trans (Nat.div_mul_le_self _ _)

/-- What the resampler puts out fits into what is free of `sbuffer`. -/
theorem out_fits (s : Forwarding ρ) (r : ρ) (f : CapturedFrame) :
    (speex.process r f.data f.samples (s.room channels)).out.length ≤ s.tap.freespace := by
  rw [speex.out_length]
  exact (Nat.mul_le_mul_right _ (speex.outLen_le _ _ _ _)).trans (s.room_le_freespace channels)

/-- What an iteration with a resampler does: all that is put out is kept, and of the frame
some samples are taken, all of them unless it starves. -/
structure Resamples (speex : CaptureSpeex ρ channels) (s : Forwarding ρ) (f : CapturedFrame)
    (t : Forwarding ρ) : Prop where
  resampled : t.tap.resampler.isSome
  unbuffered : t.tap.rtpPackets = 1 → t.tap.sbuffer = []
  put : ∃ out, t.kept = s.kept ++ out ∧ t.produced = s.produced ++ out
  took : ∃ taken, t.consumed = s.consumed ++ taken ∧ taken.length ≤ f.data.length ∧
    (taken = f.data ↔ ¬s.Starves speex f)

theorem taken_eq_iff (r : ρ) {f : CapturedFrame} (hf : f.Whole channels) (hne : f.data ≠ [])
    (room : Nat) :
    f.data.take ((speex.process r f.data f.samples room).inLen * (channels * 2)) = f.data ↔
      f.samples ≤ speex.demand r room := by
  have hpos : 0 < channels * 2 := by
    refine Nat.pos_of_ne_zero fun h0 => hne (List.length_eq_zero_iff.mp ?_)
    rw [hf, h0, Nat.mul_zero]
  rw [List.take_eq_self_iff, hf, speex.inLen_eq, Nat.mul_le_mul_right_iff hpos]
  omega

theorem starves_iff {s : Forwarding ρ} {r : ρ} (hr : s.tap.resampler = some r) {f : CapturedFrame}
    (hne : f.data ≠ []) :
    s.Starves speex f ↔ s.room channels = 0 ∨ speex.demand r (s.room channels) < f.samples := by
  simp [Starves, hr, hne]

theorem Resamples.flush {s : Forwarding ρ} {f : CapturedFrame} {t : Forwarding ρ}
    (h : Resamples speex s f t) : Resamples speex s f t.flush := by
  have hput : ∃ out, t.flush.kept = s.kept ++ out ∧ t.flush.produced = s.produced ++ out := by
    rw [kept_flush]
    exact h.put
  rcases t.flush_cases with ht | ht
  · rw [ht]
    exact h
  · rw [ht] at hput ⊢
    exact ⟨h.resampled, fun _ => rfl, hput, h.took⟩

theorem resamples_skip {s : Forwarding ρ} {f : CapturedFrame} (hres : s.tap.resampler.isSome)
    (hu : s.tap.rtpPackets = 1 → s.tap.sbuffer = []) (h : f.data ≠ [] → s.room channels = 0) :
    Resamples speex s f s := by
  refine ⟨hres, hu, ⟨[], by simp, by simp⟩, [], by simp, Nat.zero_le _, ?_⟩
  by_cases hne : f.data = []
  · exact iff_of_true hne.symm fun hs => hs.1 hne
  · exact iff_of_false (fun he => hne he.symm) fun hs => hs ⟨hne, Or.inl (h hne)⟩

theorem resamples_readResampled {s : Forwarding ρ} {r : ρ} (hr : s.tap.resampler = some r)
    (hu : s.tap.rtpPackets = 1 → s.tap.sbuffer = []) {f : CapturedFrame}
    (hf : f.Whole channels) : Resamples speex s f (s.readResampled speex r f) := by
  have hres : s.tap.resampler.isSome := by rw [hr]; rfl
  unfold readResampled
  split
  next he => exact resamples_skip hres hu fun hne => absurd (List.isEmpty_iff.mp he) hne
  next he =>
    have hne : f.data ≠ [] := fun h => he (List.isEmpty_iff.mpr h)
    dsimp only
    split
    next hroom => exact (resamples_skip hres hu fun _ => hroom).flush
    next hroom =>
      have htook : ∃ taken, s.consumed ++ f.data.take
            ((speex.process r f.data f.samples (s.room channels)).inLen * (channels * 2)) =
              s.consumed ++ taken ∧ taken.length ≤ f.data.length ∧
            (taken = f.data ↔ ¬s.Starves speex f) := by
        refine ⟨_, rfl, List.length_take_le' _ _, ?_⟩
        rw [taken_eq_iff r hf hne, starves_iff hr hne]
        omega
      have hfits := @out_fits ρ channels speex s r f
      have hlen := speex.out_length r f.data f.samples (s.room channels)
      generalize speex.process r f.data f.samples (s.room channels) = p at htook hfits hlen ⊢
      split
      next hout =>
        split
        next hrtp =>
          exact ⟨rfl, hu, ⟨p.out, by simp [kept, hu hrtp], rfl⟩, htook⟩
        next hrtp =>
          have hwrite :=
            @Capture.bufferWrite_fits ρ { s.tap with resampler := some p.state } _ hfits
          rw [hwrite]
          exact Resamples.flush
            ⟨rfl, fun h1 => absurd h1 hrtp, ⟨p.out, by simp [kept], rfl⟩, htook⟩
      next hout =>
        have hnil : p.out = [] := by
          rw [← List.length_eq_zero_iff, hlen, Nat.eq_zero_of_not_pos hout, Nat.zero_mul]
        exact Resamples.flush ⟨rfl, hu, ⟨[], by simp [kept], by simp [hnil]⟩, htook⟩

theorem read_resampled {s : Forwarding ρ} {r : ρ} (h : s.tap.resampler = some r)
    (f : CapturedFrame) : s.read speex f =
      ({ s with captured := s.captured ++ f.data } : Forwarding ρ).readResampled speex r f := by
  unfold read
  simp only [h]

theorem resamples_read {s : Forwarding ρ} (h : s.ResampledInv) {f : CapturedFrame}
    (hf : f.Whole channels) : Resamples speex s f (s.read speex f) := by
  obtain ⟨r, hr⟩ := Option.isSome_iff_exists.mp h.resampled
  rw [read_resampled hr]
  obtain ⟨hres, hu, hput, htook⟩ := @resamples_readResampled ρ channels speex
    { s with captured := s.captured ++ f.data } r hr h.unbuffered f hf
  exact ⟨hres, hu, hput, htook⟩

theorem captured_readResampled (r : ρ) (s : Forwarding ρ) (f : CapturedFrame) :
    (s.readResampled speex r f).captured = s.captured := by
  unfold readResampled
  dsimp only
  split
  · rfl
  · split
    · rfl
    · split
      · split
        · rfl
        · rfl
      · rfl

theorem captured_read {s : Forwarding ρ} (h : s.ResampledInv) (f : CapturedFrame) :
    (s.read speex f).captured = s.captured ++ f.data := by
  obtain ⟨r, hr⟩ := Option.isSome_iff_exists.mp h.resampled
  rw [read_resampled hr, captured_readResampled]

theorem resampledInv_read {s : Forwarding ρ} (h : s.ResampledInv) {f : CapturedFrame}
    (hf : f.Whole channels) : (s.read speex f).ResampledInv := by
  obtain ⟨hres, hu, ⟨out, hkept, hprod⟩, taken, hcons, hle, -⟩ :=
    @resamples_read ρ channels speex s h f hf
  refine ⟨hres, hu, ?_, ?_⟩
  · rw [hkept, hprod, h.kept_eq]
  · have hle' := h.consumed_le
    rw [hcons, captured_read h, List.length_append, List.length_append]
    omega

theorem consumed_read_iff {s : Forwarding ρ} (h : s.ResampledInv) {f : CapturedFrame}
    (hf : f.Whole channels) :
    (s.read speex f).Consumed ↔ s.Consumed ∧ ¬s.Starves speex f := by
  obtain ⟨-, -, -, taken, hcons, hle, hall⟩ := @resamples_read ρ channels speex s h f hf
  rw [Consumed, hcons, captured_read h, ← hall]
  constructor
  · intro heq
    have hlen := congrArg List.length heq
    have hle' := h.consumed_le
    simp only [List.length_append] at hlen
    exact List.append_inj' heq (by omega)
  · rintro ⟨hs, rfl⟩
    rw [hs]

end Forwarding

/-- An iteration on a frame whose bytes are the samples of all channels. -/
def WholeRead {ρ : Type*} {channels : Nat} (speex : CaptureSpeex ρ channels) (s : Forwarding ρ)
    (f : CapturedFrame) (t : Forwarding ρ) : Prop := f.Whole channels ∧ ReadStep speex s f t

/-- A call of `stream_frame` on such frames, while the client is connected. -/
def ResampleStep {ρ : Type*} {channels : Nat} (speex : CaptureSpeex ρ channels) (s : Forwarding ρ)
    (call : StreamFrameCall) (t : Forwarding ρ) : Prop :=
  (∀ f ∈ call.frames, f.Whole channels) ∧ ForwardStep speex s call t

namespace Forwarding

variable {ρ : Type*} {channels : Nat} {speex : CaptureSpeex ρ channels}

/-- A call that reads a frame of which samples are left behind. -/
def StarvesFrame (speex : CaptureSpeex ρ channels) (s : Forwarding ρ) (call : StreamFrameCall) :
    Prop :=
  (∀ f ∈ call.frames, f.Whole channels) ∧ call.connected = true ∧ call.reads = true ∧
    ¬Never (WholeRead speex) (Starves speex) s call.frames

/-- Between two calls. -/
structure ResampledCallInv (s : Forwarding ρ) : Prop where
  inv : s.ResampledInv
  idle : s.pending = []

theorem resampledCallInv_step (s : Forwarding ρ) (call : StreamFrameCall) (t : Forwarding ρ)
    (h : s.ResampledCallInv) (hs : ResampleStep speex s call t) : t.ResampledCallInv := by
  obtain ⟨hwhole, hc, rfl⟩ := hs
  unfold streamFrame
  split
  · have hrun := (run_foldl (read speex) s call.frames).and_labels hwhole
    have hend := hrun.invariant (by rintro s f t hi ⟨hf, rfl⟩; exact resampledInv_read hi hf) h.inv
    rw [hc]
    exact ⟨⟨hend.resampled, hend.unbuffered, by rw [kept_send]; exact hend.kept_eq,
      hend.consumed_le⟩, rfl⟩
  · exact h

theorem delivered_of_callInv {s : Forwarding ρ} (h : s.ResampledCallInv) : s.Delivered := by
  have hkept := h.inv.kept_eq
  simp only [kept, h.idle, List.flatten_nil, List.append_nil] at hkept
  exact hkept

theorem consumed_streamFrame_iff {s : Forwarding ρ} (h : s.ResampledCallInv) (hs : s.Consumed)
    {call : StreamFrameCall} (hwhole : ∀ f ∈ call.frames, f.Whole channels)
    (hc : call.connected = true) :
    (s.streamFrame speex call).Consumed ↔ ¬s.StarvesFrame speex call := by
  unfold streamFrame
  split
  next hr =>
    have hrun := (run_foldl (read speex) s call.frames).and_labels hwhole
    have hfinal := @final_iff_never _ _ (WholeRead speex) ResampledInv Consumed (Starves speex)
      (fun _ _ _ _ ht ht' => ht.2.symm.trans ht'.2)
      (by rintro s f t hi ⟨hf, rfl⟩; exact resampledInv_read hi hf)
      (by rintro s f t hi ⟨hf, rfl⟩; exact consumed_read_iff hi hf) s _ call.frames h.inv hs hrun
    have hsend : ((call.frames.foldl (read speex) s).send call.connected).Consumed ↔
        (call.frames.foldl (read speex) s).Consumed := Iff.rfl
    rw [hsend, hfinal, StarvesFrame]
    simp only [hc, hr, true_and, not_and, not_not]
    exact ⟨fun hn _ => hn, fun hn => hn hwhole⟩
  next hr => exact iff_of_true hs fun hd => hr hd.2.2.1

theorem resampledCallInv_start (rtpPackets capacity : Nat) (r : ρ) :
    (start rtpPackets capacity (some r) : Forwarding ρ).ResampledCallInv :=
  ⟨⟨rfl, fun _ => rfl, rfl, Nat.le_refl _⟩, rfl⟩

theorem always_consumed_iff {s : Forwarding ρ} (h : s.ResampledCallInv) (hs : s.Consumed)
    (calls : List StreamFrameCall) :
    Always (ResampleStep speex) Consumed s calls ↔
      Never (ResampleStep speex) (StarvesFrame speex) s calls := by
  refine always_iff_never resampledCallInv_step ?_ ?_ h hs
  · rintro s call t hi hcons hd ⟨hwhole, hc, rfl⟩
    exact (consumed_streamFrame_iff hi hcons hwhole hc).mpr hd
  · intro s call hi hcons hd
    obtain ⟨hwhole, hc, -⟩ := id hd
    exact ⟨_, ⟨hwhole, hc, rfl⟩, fun hn =>
      (consumed_streamFrame_iff hi hcons hwhole hc).mp hn hd⟩

end Forwarding

/-- What the resampler puts out is handed on in order in every state of a run; and it has
taken every captured sample exactly when no frame arrives whose output the free space
cannot hold. -/
theorem forward_resampled_iff {ρ : Type*} {channels : Nat} (speex : CaptureSpeex ρ channels)
    (rtpPackets capacity : Nat) (r : ρ) (calls : List StreamFrameCall) :
    Always (ResampleStep speex) Forwarding.Delivered (.start rtpPackets capacity (some r)) calls ∧
    (Always (ResampleStep speex) Forwarding.Consumed (.start rtpPackets capacity (some r)) calls ↔
      Never (ResampleStep speex) (Forwarding.StarvesFrame speex)
        (.start rtpPackets capacity (some r)) calls) := by
  have hi := Forwarding.resampledCallInv_start rtpPackets capacity r
  refine ⟨?_, Forwarding.always_consumed_iff hi rfl calls⟩
  exact (always_of_invariant Forwarding.resampledCallInv_step hi calls).imp
    fun _ hs => Forwarding.delivered_of_callInv hs

/-- From 8000 to 16000 Hz a packet of 30 ms, where `sbuffer` holds 20 ms. -/
theorem forward_resampled_starves :
    ¬Always (ResampleStep doublingSpeex) Forwarding.Consumed
      (.start 1 (sbufferLength 16000 1 1) (some ()))
      [⟨false, false, true, true, true, [⟨List.replicate 480 0, 240⟩]⟩] := by
  obtain ⟨packet, hpacket, hlen⟩ : ∃ packet, packet = List.replicate 480 (0 : UInt8) ∧
      packet.length = 480 := ⟨_, rfl, List.length_replicate⟩
  have hne : packet ≠ [] := List.ne_nil_of_length_pos (by omega)
  rw [← hpacket]
  intro h
  have hwhole : ∀ f ∈ [CapturedFrame.mk packet 240], f.Whole 1 := by
    simp [CapturedFrame.Whole, hlen]
  have hrun := h _ _ (List.prefix_refl _) (Run.cons ⟨hwhole, rfl, rfl⟩ (Run.nil _))
  have htaken := congrArg List.length hrun
  simp [Forwarding.streamFrame, StreamFrameCall.reads, Forwarding.read, Forwarding.readResampled,
    Forwarding.start, Forwarding.room, Forwarding.send, Capture.freespace, sbufferLength,
    frameSize8000, uint32, doublingSpeex, hlen, hne] at htaken

end ModAudioStream
