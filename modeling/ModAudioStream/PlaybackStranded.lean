import ModAudioStream.PlaybackAudio

namespace ModAudioStream

namespace PlaybackRun

variable {ρ : Type*} {speex : Speex ρ} {native : NativeRate}

def Responding (native : NativeRate) (r : PlaybackRun ρ) : Prop :=
  native.frameBytes ≤ r.play.buffer.length → r.play.inResponse = true

/-- A tick that injects a frame with the counter at its end, while what stays in the
buffer is a whole frame or more. -/
def EndsEarly (native : NativeRate) (r : PlaybackRun ρ) : PlaybackAct → Prop
  | .tick locked rframe =>
    r.play.reads native locked = true ∧ Playback.replaces native rframe = true ∧
      int32 (r.play.chunksRemaining - 1) ≤ 0 ∧
      native.frameBytes ≤ r.play.buffer.length - native.readSize
  | _ => False

theorem responding_arrive {r : PlaybackRun ρ} (h : r.Responding native)
    {out : Playback ρ × List UInt8} (ho : r.play.Queued out) :
    (r.arrive out).Responding native := by
  cases ho with
  | ignored => exact h
  | queued => exact fun _ => rfl

theorem responding_tick_iff {r : PlaybackRun ρ} (h : r.Responding native) {locked : Bool}
    {rframe : Option Nat} :
    (r.step speex native (.tick locked rframe)).Responding native ↔
      ¬r.EndsEarly native (.tick locked rframe) := by
  show (native.frameBytes ≤ (r.play.streamFrameWrite native locked rframe).1.buffer.length →
    (r.play.streamFrameWrite native locked rframe).1.inResponse = true) ↔ _
  cases hr : r.play.reads native locked with
  | true =>
    have hread := hr
    simp only [Playback.reads, Playback.ticks, Bool.and_eq_true, decide_eq_true_eq] at hread
    obtain ⟨⟨⟨_, hin⟩, _⟩, hle⟩ := hread
    cases hi : Playback.replaces native rframe with
    | true =>
      rw [Playback.streamFrameWrite_injects hr hi]
      simp only [EndsEarly, hr, hi, true_and, List.length_drop, decide_eq_true_eq]
      have hsize := native.readSize_le
      omega
    | false =>
      rw [Playback.streamFrameWrite_loses hr hi]
      simp [EndsEarly, hi, hin]
  | false =>
    rcases Playback.streamFrameWrite_idle rframe hr with ht | ⟨hlt, ht⟩
    · rw [ht]
      exact iff_of_true h fun he => by simp [EndsEarly, hr] at he
    · rw [ht]
      refine iff_of_true (fun hle => ?_) fun he => by simp [EndsEarly, hr] at he
      exact absurd hle (Nat.not_le_of_lt hlt)

theorem responding_step {r : PlaybackRun ρ} (h : r.Responding native) {a : PlaybackAct}
    (ha : ¬r.EndsEarly native a) : (r.step speex native a).Responding native := by
  cases a with
  | streamAudio sampleRate decodedAudio initOk =>
    exact responding_arrive h (Playback.eventCallback_queued _ _ _ _)
  | binary rawAudioActive rawSampleRate data initOk =>
    exact responding_arrive h (Playback.onBinaryData_queued _ _ _ _ _)
  | tick locked rframe => exact (responding_tick_iff h).mpr ha
  | breakCommand =>
    simp only [step]
    split
    · exact h
    next hc =>
      intro hle
      have hpos := native.frameBytes_pos
      simp [Playback.streamSessionBreak, hc] at hle
      omega
  | cleanup => exact h

end PlaybackRun

/-- In every run, no whole frame is ever left in the buffer out of response exactly when
the counter never runs out before the buffered frames do. -/
theorem playback_responding_iff {ρ : Type*} (speex : Speex ρ) (native : NativeRate)
    (enabled : Bool) (acts : List PlaybackAct) :
    Always (PlaybackStep speex native) (PlaybackRun.Responding native) (.start native enabled)
        acts ↔
      Never (PlaybackStep speex native) (PlaybackRun.EndsEarly native) (.start native enabled)
        acts := by
  refine always_iff_never (I := fun _ => True) (fun _ _ _ _ _ => trivial) ?_ ?_ trivial ?_
  · rintro r a t - h ha rfl
    exact PlaybackRun.responding_step h ha
  · intro r a _ h ha
    cases a with
    | tick locked rframe =>
      exact ⟨_, rfl, fun ht => (PlaybackRun.responding_tick_iff h).mp ht ha⟩
    | _ => exact ha.elim
  · intro hle
    have hpos := native.frameBytes_pos
    simp [PlaybackRun.start, Playback.start] at hle
    omega

/-- Two blocks of a frame and a half count as one frame each: after two ticks the third
frame stays in the buffer. -/
theorem playback_strands_frame :
    ¬Always (PlaybackStep copySpeex rate8000) (PlaybackRun.Responding rate8000)
      (.start rate8000 true)
      [.streamAudio 8000 (List.replicate 480 7) true, .streamAudio 8000 (List.replicate 480 7) true,
        .tick true (some 320), .tick true (some 320)] := by
  obtain ⟨block, hblock, hlen⟩ : ∃ block, block = List.replicate 480 (7 : UInt8) ∧
      block.length = 480 := ⟨_, rfl, List.length_replicate⟩
  have hne : block ≠ [] := List.ne_nil_of_length_pos (by omega)
  have hint : int32 0 = 0 ∧ int32 1 = 1 ∧ int32 2 = 2 := by decide
  rw [← hblock]
  intro h
  have hrun := h _ _ (List.prefix_refl _)
    (Run.cons rfl (Run.cons rfl (Run.cons rfl (Run.cons rfl (Run.nil _)))))
  simp [PlaybackRun.Responding, PlaybackRun.step, PlaybackRun.start, PlaybackRun.arrive,
    Playback.start, Playback.eventCallback, Playback.queueAudio, Playback.resample,
    Playback.bufferWrite, rate8000, NativeRate.capacity, playbackBufferSeconds,
    Playback.streamFrameWrite, Playback.ticks, Playback.replaces, NativeRate.frameBytes,
    NativeRate.readSize, playbackFrameMs, hlen, hne, hint] at hrun

end ModAudioStream
