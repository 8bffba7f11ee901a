import ModAudioStream.Playback

namespace ModAudioStream

namespace PlaybackRun

variable {ρ : Type*} {speex : Speex ρ} {native : NativeRate}

def Conserved (r : PlaybackRun ρ) : Prop := r.injected ++ r.play.buffer = r.written

/-- A tick that reads a frame while the write-replace frame is missing or too small. -/
def Discards (native : NativeRate) (r : PlaybackRun ρ) : PlaybackAct → Prop
  | .tick locked rframe =>
    r.play.reads native locked = true ∧ Playback.replaces native rframe = false
  | _ => False

theorem conserved_arrive {r : PlaybackRun ρ} (h : r.Conserved) {out : Playback ρ × List UInt8}
    (ho : r.play.Queued out) : (r.arrive out).Conserved := by
  cases ho with
  | ignored =>
    show r.injected ++ r.play.buffer = r.written ++ []
    rw [List.append_nil]
    exact h
  | queued _ _ _ written =>
    show r.injected ++ (r.play.buffer ++ written) = r.written ++ written
    rw [← List.append_assoc, show r.injected ++ r.play.buffer = r.written from h]

theorem conserved_tick {r : PlaybackRun ρ} (h : r.Conserved) {locked : Bool}
    {rframe : Option Nat} (ha : ¬r.Discards native (.tick locked rframe)) :
    (r.step speex native (.tick locked rframe)).Conserved := by
  show r.injected ++ (r.play.streamFrameWrite native locked rframe).2.1 ++
    (r.play.streamFrameWrite native locked rframe).1.buffer = r.written
  cases hr : r.play.reads native locked with
  | true =>
    have hi : Playback.replaces native rframe = true := by
      by_contra hi
      exact ha ⟨hr, by simpa using hi⟩
    rw [Playback.streamFrameWrite_injects hr hi]
    show r.injected ++ r.play.buffer.take _ ++ r.play.buffer.drop _ = r.written
    rw [List.append_assoc, List.take_append_drop]
    exact h
  | false =>
    rcases Playback.streamFrameWrite_idle rframe hr with ht | ⟨_, ht⟩
    · rw [ht, List.append_nil]
      exact h
    · rw [ht, List.append_nil]
      exact h

theorem conserved_step {r : PlaybackRun ρ} (h : r.Conserved) {a : PlaybackAct}
    (ha : ¬r.Discards native a) : (r.step speex native a).Conserved := by
  cases a with
  | streamAudio sampleRate decodedAudio initOk =>
    exact conserved_arrive h (Playback.eventCallback_queued _ _ _ _)
  | binary rawAudioActive rawSampleRate data initOk =>
    exact conserved_arrive h (Playback.onBinaryData_queued _ _ _ _ _)
  | tick locked rframe => exact conserved_tick h ha
  | breakCommand =>
    simp only [step]
    split
    · exact h
    next hc => simp [Conserved, Playback.streamSessionBreak, hc]
  | cleanup => exact h

theorem not_conserved_step {r : PlaybackRun ρ} (h : r.Conserved) {a : PlaybackAct}
    (ha : r.Discards native a) : ¬(r.step speex native a).Conserved := by
  cases a with
  | tick locked rframe =>
    obtain ⟨hr, hi⟩ := ha
    have hle : native.frameBytes ≤ r.play.buffer.length := by
      simp only [Playback.reads, Bool.and_eq_true, decide_eq_true_eq] at hr
      exact hr.2
    intro hc
    simp only [Conserved, step, Playback.streamFrameWrite_loses hr hi, List.append_nil] at hc
    have hlen := congrArg List.length (hc.trans (show r.written = _ from h.symm))
    simp only [List.length_append, List.length_drop] at hlen
    have hpos := native.readSize_pos
    have hread := native.readSize_le
    omega
  | _ => exact ha.elim

end PlaybackRun

/-- In every run, no queued audio is lost exactly when no tick reads a frame that the
core's frame cannot take. -/
theorem playback_conserved_iff {ρ : Type*} (speex : Speex ρ) (native : NativeRate)
    (enabled : Bool) (acts : List PlaybackAct) :
    Always (PlaybackStep speex native) PlaybackRun.Conserved (.start native enabled) acts ↔
      Never (PlaybackStep speex native) (PlaybackRun.Discards native) (.start native enabled)
        acts := by
  refine always_iff_never (I := fun _ => True) (fun _ _ _ _ _ => trivial) ?_ ?_ trivial rfl
  · rintro r a t - h ha rfl
    exact PlaybackRun.conserved_step h ha
  · intro r a _ h ha
    exact ⟨_, rfl, PlaybackRun.not_conserved_step h ha⟩

def rate8000 : NativeRate := ⟨8000, by decide, by decide⟩

def copySpeex : Speex Unit := ⟨fun _ _ => (), fun _ samples _ => (samples, ()), id⟩

/-- A frame arrives; the core has no frame to write into at the next tick. -/
theorem playback_discards_frame :
    ¬Always (PlaybackStep copySpeex rate8000) PlaybackRun.Conserved (.start rate8000 true)
      [.streamAudio 8000 (List.replicate 320 7) true, .tick true none] := by
  obtain ⟨frame, hframe, hlen⟩ : ∃ frame, frame = List.replicate 320 (7 : UInt8) ∧
      frame.length = 320 := ⟨_, rfl, List.length_replicate⟩
  have hne : frame ≠ [] := List.ne_nil_of_length_pos (by omega)
  rw [← hframe]
  intro h
  have hrun := h _ _ (List.prefix_refl _) (Run.cons rfl (Run.cons rfl (Run.nil _)))
  simp [PlaybackRun.Conserved, PlaybackRun.step, PlaybackRun.start, PlaybackRun.arrive,
    Playback.start, Playback.eventCallback, Playback.queueAudio, Playback.resample,
    Playback.bufferWrite, rate8000, NativeRate.capacity, playbackBufferSeconds,
    Playback.streamFrameWrite, Playback.ticks, Playback.replaces, NativeRate.frameBytes,
    NativeRate.readSize, playbackFrameMs, hlen, hne] at hrun
  have hdrop := congrArg List.length hrun
  simp [hlen] at hdrop

end ModAudioStream
