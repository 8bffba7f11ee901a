import ModAudioStream.ResampledAudio

namespace ModAudioStream

/-- A rate with whole samples in a frame. -/
structure AlignedRate extends NativeRate where
  fifty : value % 50 = 0

theorem AlignedRate.readSize_even (native : AlignedRate) : native.readSize % 2 = 0 := by
  have h := native.fifty
  unfold NativeRate.readSize NativeRate.frameBytes playbackFrameMs
  omega

namespace Playback

variable {ρ : Type*} {speex : Speex ρ} {native : NativeRate} {p : Playback ρ} {rate : Int}
  {src : List UInt8} {initOk : Bool}

def Aligned (p : Playback ρ) : Prop := p.buffer.length % 2 = 0

/-- A block of an odd number of bytes is queued as it is. -/
def TakesOdd (speex : Speex ρ) (native : NativeRate) (p : Playback ρ) (rate : Int)
    (src : List UInt8) (initOk : Bool) : Prop :=
  src.length % 2 = 1 ∧ p.Queues native src ∧ p.Verbatim speex native rate src initOk

theorem queueAudio_aligned_iff (h : p.Aligned) (hsrc : src ≠ []) :
    (p.queueAudio speex native rate src initOk).1.Aligned ↔
      ¬p.TakesOdd speex native rate src initOk := by
  unfold Aligned at h ⊢
  rcases @queueAudio_cases ρ speex native p rate src initOk hsrc with
    ⟨hsame, hnot, -⟩ | ⟨hbuffer, hqueues, hverbatim⟩ | ⟨q, hbuffer, hmakes⟩
  · rw [hsame]
    exact iff_of_true h fun hodd => hnot hodd.2
  · rw [hbuffer, List.length_append]
    constructor
    · rintro heven ⟨hodd, -⟩
      omega
    · intro htakes
      have heven : ¬src.length % 2 = 1 := fun hodd => htakes ⟨hodd, hqueues, hverbatim⟩
      omega
  · have hlen := outBytes_length (processBlock speex native q rate src).1
    rw [hbuffer, List.length_append, hlen]
    refine iff_of_true ?_ fun hodd => hmakes.changed hodd.2.2
    unfold uint32
    omega

theorem streamFrameWrite_aligned (native : AlignedRate) (h : p.Aligned) (locked : Bool)
    (rframe : Option Nat) :
    (p.streamFrameWrite native.toNativeRate locked rframe).1.Aligned := by
  unfold Aligned at h ⊢
  have hread := native.readSize_even
  cases hr : p.reads native.toNativeRate locked with
  | true =>
    have hle : native.frameBytes ≤ p.buffer.length := by
      simp only [reads, Bool.and_eq_true, decide_eq_true_eq] at hr
      exact hr.2
    have hsize := native.readSize_le
    cases hi : replaces native.toNativeRate rframe with
    | true =>
      rw [streamFrameWrite_injects hr hi, List.length_drop]
      omega
    | false =>
      rw [streamFrameWrite_loses hr hi, List.length_drop]
      omega
  | false =>
    rcases streamFrameWrite_idle rframe hr with ht | ⟨-, ht⟩
    · rw [ht]
      exact h
    · rw [ht]
      exact h

end Playback

namespace PlaybackRun

variable {ρ : Type*} {speex : Speex ρ} {native : NativeRate} {r : PlaybackRun ρ}

def TakesOdd (speex : Speex ρ) (native : NativeRate) (r : PlaybackRun ρ) : PlaybackAct → Prop
  | .streamAudio sampleRate decodedAudio initOk =>
    r.play.TakesOdd speex native sampleRate decodedAudio initOk
  | .binary rawAudioActive rawSampleRate data initOk =>
    rawAudioActive = true ∧ r.play.TakesOdd speex native rawSampleRate data initOk
  | _ => False

theorem aligned_step_iff (native : AlignedRate) (h : r.play.Aligned) (a : PlaybackAct) :
    (r.step speex native.toNativeRate a).play.Aligned ↔
      ¬r.TakesOdd speex native.toNativeRate a := by
  cases a with
  | streamAudio sampleRate decodedAudio initOk =>
    simp only [TakesOdd]
    rcases @step_streamAudio_cases ρ speex native.toNativeRate r sampleRate decodedAudio initOk
      with ⟨hempty, hplay⟩ | ⟨hsrc, hplay⟩
    · rw [hplay]
      exact iff_of_true h fun hodd => hodd.2.1.nonempty hempty
    · rw [hplay]
      exact Playback.queueAudio_aligned_iff h hsrc
  | binary rawAudioActive rawSampleRate data initOk =>
    simp only [TakesOdd]
    rcases @step_binary_cases ρ speex native.toNativeRate r rawAudioActive rawSampleRate data
      initOk with ⟨hunheard, hplay⟩ | ⟨⟨hactive, hsrc⟩, hplay⟩
    · rw [hplay]
      exact iff_of_true h fun hodd => hunheard ⟨hodd.1, hodd.2.2.1.nonempty⟩
    · rw [hplay, and_iff_right hactive]
      exact Playback.queueAudio_aligned_iff h hsrc
  | tick locked rframe =>
    exact iff_of_true (Playback.streamFrameWrite_aligned native h locked rframe) not_false
  | breakCommand =>
    refine iff_of_true ?_ not_false
    simp only [step]
    split
    · exact h
    next hc =>
      show (r.play.streamSessionBreak speex).1.Aligned
      rw [Playback.streamSessionBreak, if_neg hc]
      exact Nat.zero_mod 2
  | cleanup => exact iff_of_true h not_false

end PlaybackRun

/-- In every run the buffer holds whole samples exactly as long as no odd block is queued as it
is. -/
theorem sample_alignment_iff {ρ : Type*} (speex : Speex ρ) (native : AlignedRate)
    (enabled : Bool) (acts : List PlaybackAct) :
    Always (PlaybackStep speex native.toNativeRate) (fun r => r.play.buffer.length % 2 = 0)
        (.start native.toNativeRate enabled) acts ↔
      Never (PlaybackStep speex native.toNativeRate)
        (PlaybackRun.TakesOdd speex native.toNativeRate) (.start native.toNativeRate enabled)
        acts := by
  refine always_iff_never (I := fun _ => True) (fun _ _ _ _ _ => trivial) ?_ ?_ trivial rfl
  · rintro r a t - h ha rfl
    exact (PlaybackRun.aligned_step_iff native h a).mpr ha
  · intro r a _ h ha
    exact ⟨_, rfl, fun ht => (PlaybackRun.aligned_step_iff native h a).mp ht ha⟩

/-- Three bytes of raw audio at the channel's own rate. -/
theorem odd_block_misaligns :
    ¬Always (PlaybackStep copySpeex rate8000) (fun r => r.play.buffer.length % 2 = 0)
      (.start rate8000 true) [.streamAudio 8000 [1, 2, 3] true] := by
  intro h
  have haligned := h _ _ (List.prefix_refl _) (Run.cons rfl (Run.nil _))
  have hstart : (PlaybackRun.start rate8000 true : PlaybackRun Unit).play.Aligned := rfl
  have hnot := (@PlaybackRun.aligned_step_iff Unit copySpeex _ ⟨rate8000, by decide⟩ hstart
    (.streamAudio 8000 [1, 2, 3] true)).mp haligned
  exact hnot ⟨by decide, ⟨rfl, rfl, by decide, by decide⟩, .sameRate rfl⟩

end ModAudioStream
