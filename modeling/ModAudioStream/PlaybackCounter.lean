import ModAudioStream.PlaybackStranded

namespace ModAudioStream

theorem int32_add_nat_iff {c n : Nat} (hc : c < 2147483648) :
    int32 (c + int32 n) = c ↔ uint32 n = 0 := by
  have hu : uint32 n = n % 4294967296 := rfl
  rw [hu, int32_def n, int32_def]
  split <;> split <;> omega

theorem div_sub_iff {m k d : Nat} (hk : 0 < k) (hkd : k ≤ d) (hd : d ≤ m) :
    ((m - k) / d + 1 = m / d ↔ m % d < k) ∧ ((m - k) / d = m / d ↔ ¬m % d < k) := by
  have hpos : 0 < d := by omega
  have hm := Nat.div_add_mod m d
  have hr := Nat.mod_lt m hpos
  obtain ⟨q, hq⟩ : ∃ q, m / d = q + 1 := ⟨m / d - 1, by have := Nat.div_pos hd hpos; omega⟩
  rw [hq, Nat.mul_succ] at hm
  by_cases hlt : m % d < k
  · have hdiv : (m - k) / d = q := by
      rw [show m - k = (d + m % d - k) + d * q by omega, Nat.add_mul_div_left _ _ hpos,
        Nat.div_eq_of_lt (by omega), Nat.zero_add]
    rw [hdiv, hq]
    omega
  · have hdiv : (m - k) / d = q + 1 := by
      rw [show m - k = (m % d - k) + d * (q + 1) by rw [Nat.mul_succ]; omega,
        Nat.add_mul_div_left _ _ hpos, Nat.div_eq_of_lt (by omega), Nat.zero_add]
    rw [hdiv, hq]
    omega

theorem NativeRate.capacity_lt (native : NativeRate) :
    native.capacity < 3000 * native.frameBytes := by
  have hpos := native.frameBytes_pos
  unfold capacity frameBytes playbackBufferSeconds playbackFrameMs at *
  omega

namespace Playback

variable {ρ : Type*}

/-- What `switch_buffer_write` is offered for an arrival. -/
def block (speex : Speex ρ) (native : NativeRate) (p : Playback ρ) (rate : Int)
    (src : List UInt8) (initOk : Bool) : List UInt8 := (p.resample speex native rate src initOk).2

def framesLeft (native : NativeRate) (p : Playback ρ) : Nat := p.buffer.length / native.frameBytes

/-- The counter does not follow the buffer: the block fits and its fraction of a frame
makes a whole one with the fraction buffered, or it does not fit and is counted all the same. -/
def ArrivalDrifts (speex : Speex ρ) (native : NativeRate) (p : Playback ρ) (rate : Int)
    (src : List UInt8) (initOk : Bool) : Prop :=
  p.cleanupStarted = false ∧ p.enabled = true ∧
    let block := p.block speex native rate src initOk
    if p.buffer.length + block.length ≤ native.capacity then
      native.frameBytes ≤ p.buffer.length % native.frameBytes + block.length % native.frameBytes
    else uint32 (block.length / native.frameBytes) ≠ 0

variable {speex : Speex ρ} {native : NativeRate}

theorem queueAudio_of_refused {p : Playback ρ} {rate : Int} {src : List UInt8} {initOk : Bool}
    (h : ¬(p.cleanupStarted = false ∧ p.enabled = true)) :
    p.queueAudio speex native rate src initOk = (p, []) := by
  unfold queueAudio
  split
  · rfl
  next hc => rw [if_pos (by simp_all)]

theorem queueAudio_of_accepted {p : Playback ρ} {rate : Int} {src : List UInt8} {initOk : Bool}
    (hc : p.cleanupStarted = false) (he : p.enabled = true) :
    (p.queueAudio speex native rate src initOk).1.buffer = p.buffer ++
        (if p.buffer.length + (p.block speex native rate src initOk).length ≤ native.capacity then
          p.block speex native rate src initOk else []) ∧
      (p.queueAudio speex native rate src initOk).1.chunksRemaining =
        int32 (p.chunksRemaining +
          int32 ((p.block speex native rate src initOk).length / native.frameBytes : Nat)) := by
  obtain ⟨resampler, sampleRate, hq⟩ := @resample_frame ρ speex native p rate src initOk
  unfold queueAudio
  rw [if_neg (by simp [hc]), if_neg (by simp [he])]
  simp only [hq]
  exact ⟨rfl, rfl⟩

theorem framesLeft_lt {p : Playback ρ} (h : p.buffer.length ≤ native.capacity) :
    p.framesLeft native < 3000 := by
  have hcap := native.capacity_lt
  exact Nat.div_lt_of_lt_mul (by rw [Nat.mul_comm]; omega)

theorem framesLeft_arrival_iff {p : Playback ρ} (hb : p.buffer.length ≤ native.capacity)
    (h : p.chunksRemaining = p.framesLeft native) {rate : Int} {src : List UInt8} {initOk : Bool} :
    (p.queueAudio speex native rate src initOk).1.chunksRemaining =
        (p.queueAudio speex native rate src initOk).1.framesLeft native ↔
      ¬p.ArrivalDrifts speex native rate src initOk := by
  by_cases ha : p.cleanupStarted = false ∧ p.enabled = true
  · obtain ⟨hbuf, hcount⟩ := @queueAudio_of_accepted ρ speex native p rate src initOk ha.1 ha.2
    have hlt := framesLeft_lt hb
    have hpos := native.frameBytes_pos
    rw [hcount, framesLeft, hbuf, h]
    unfold ArrivalDrifts
    simp only [ha, true_and]
    generalize p.block speex native rate src initOk = block
    by_cases hfit : p.buffer.length + block.length ≤ native.capacity
    · have hcap := native.capacity_lt
      have hblock : block.length / native.frameBytes < 3000 :=
        Nat.div_lt_of_lt_mul (by rw [Nat.mul_comm]; omega)
      simp only [if_pos hfit, List.length_append, Nat.add_div hpos]
      rw [show p.buffer.length / native.frameBytes = p.framesLeft native from rfl]
      generalize block.length / native.frameBytes = n at hblock
      rw [int32_eq (n := (n : Int)) (by omega) (by omega), int32_eq (by omega) (by omega)]
      split
      · omega
      · omega
    · simp only [if_neg hfit, List.append_nil]
      rw [show p.buffer.length / native.frameBytes = p.framesLeft native from rfl,
        int32_add_nat_iff (by omega), not_not]
  · rw [queueAudio_of_refused ha]
    exact iff_of_true h fun hd => ha ⟨hd.1, hd.2.1⟩

theorem queueAudio_bounded {p : Playback ρ} (h : p.buffer.length ≤ native.capacity) (rate : Int)
    (src : List UInt8) (initOk : Bool) :
    (p.queueAudio speex native rate src initOk).1.buffer.length ≤ native.capacity := by
  by_cases ha : p.cleanupStarted = false ∧ p.enabled = true
  · rw [(queueAudio_of_accepted ha.1 ha.2).1, List.length_append]
    split
    next hfit => exact hfit
    next => exact h
  · rw [queueAudio_of_refused ha]
    exact h

theorem streamFrameWrite_length (p : Playback ρ) (locked : Bool) (rframe : Option Nat) :
    (p.streamFrameWrite native locked rframe).1.buffer.length =
      if p.reads native locked then p.buffer.length - native.readSize else p.buffer.length := by
  cases hr : p.reads native locked with
  | true =>
    rw [if_pos rfl, ← List.length_drop]
    cases hi : replaces native rframe with
    | true => rw [streamFrameWrite_injects hr hi]
    | false => rw [streamFrameWrite_loses hr hi]
  | false =>
    rw [if_neg (by simp)]
    rcases streamFrameWrite_idle rframe hr with ht | ⟨_, ht⟩
    · rw [ht]
    · rw [ht]

end Playback

namespace PlaybackRun

variable {ρ : Type*} {speex : Speex ρ} {native : NativeRate}

def Bounded (native : NativeRate) (r : PlaybackRun ρ) : Prop :=
  r.play.buffer.length ≤ native.capacity

def Accurate (native : NativeRate) (r : PlaybackRun ρ) : Prop :=
  r.play.chunksRemaining = r.play.framesLeft native

def fired (speex : Speex ρ) (native : NativeRate) (r : PlaybackRun ρ) (a : PlaybackAct) :
    List PlaybackEvent := (r.step speex native a).events.drop r.events.length

/-- What a step reports as remaining is the number of whole frames it leaves. -/
def ReportsLeft (speex : Speex ρ) (native : NativeRate) (r : PlaybackRun ρ) (a : PlaybackAct) :
    Prop :=
  ∀ e ∈ r.fired speex native a, e.event = .chunkPlayed →
    e.remaining = some (((r.step speex native a).play.framesLeft native : Nat) : Int)

/-- The steps that move the counter and the number of whole frames apart. For a tick: one
that reads less than a frame out of a larger fraction, or a whole frame it cannot inject. -/
def Drifts (speex : Speex ρ) (native : NativeRate) (r : PlaybackRun ρ) : PlaybackAct → Prop
  | .streamAudio sampleRate decodedAudio initOk =>
    decodedAudio ≠ [] ∧ r.play.ArrivalDrifts speex native sampleRate decodedAudio initOk
  | .binary rawAudioActive rawSampleRate data initOk =>
    rawAudioActive = true ∧ data ≠ [] ∧
      r.play.ArrivalDrifts speex native rawSampleRate data initOk
  | .tick locked rframe =>
    r.play.reads native locked = true ∧
      if Playback.replaces native rframe then
        native.readSize ≤ r.play.buffer.length % native.frameBytes
      else r.play.buffer.length % native.frameBytes < native.readSize
  | _ => False

theorem bounded_step {r : PlaybackRun ρ} (h : r.Bounded native) (a : PlaybackAct) :
    (r.step speex native a).Bounded native := by
  cases a with
  | streamAudio sampleRate decodedAudio initOk =>
    show (r.play.eventCallback speex native sampleRate decodedAudio initOk).1.buffer.length ≤ _
    unfold Playback.eventCallback
    split
    · exact h
    · exact Playback.queueAudio_bounded h _ _ _
  | binary rawAudioActive rawSampleRate data initOk =>
    show (r.play.onBinaryData speex native rawAudioActive rawSampleRate data
      initOk).1.buffer.length ≤ _
    unfold Playback.onBinaryData
    split
    · exact h
    · exact Playback.queueAudio_bounded h _ _ _
  | tick locked rframe =>
    show (r.play.streamFrameWrite native locked rframe).1.buffer.length ≤ _
    rw [Playback.streamFrameWrite_length]
    split
    · exact (Nat.sub_le _ _).trans h
    · exact h
  | breakCommand =>
    simp only [step]
    split
    · exact h
    next hc => simp [Bounded, Playback.streamSessionBreak, hc]
  | cleanup => exact h

theorem accurate_tick_iff {r : PlaybackRun ρ} (hb : r.Bounded native) (h : r.Accurate native)
    {locked : Bool} {rframe : Option Nat} :
    (r.step speex native (.tick locked rframe)).Accurate native ↔
      ¬r.Drifts speex native (.tick locked rframe) := by
  show (r.play.streamFrameWrite native locked rframe).1.chunksRemaining =
    (((r.play.streamFrameWrite native locked rframe).1.buffer.length / native.frameBytes : Nat) :
      Int) ↔ _
  rw [Playback.streamFrameWrite_length]
  cases hr : r.play.reads native locked with
  | true =>
    have hle : native.frameBytes ≤ r.play.buffer.length := by
      simp only [Playback.reads, Bool.and_eq_true, decide_eq_true_eq] at hr
      exact hr.2
    obtain ⟨hone, hsame⟩ := div_sub_iff native.readSize_pos native.readSize_le hle
    have hlt := Playback.framesLeft_lt hb
    have hpos : 0 < r.play.framesLeft native := Nat.div_pos hle native.frameBytes_pos
    have hcount : r.play.chunksRemaining = r.play.framesLeft native := h
    have hleft : r.play.buffer.length / native.frameBytes = r.play.framesLeft native := rfl
    rw [hleft] at hone hsame
    cases hi : Playback.replaces native rframe with
    | true =>
      rw [Playback.streamFrameWrite_injects hr hi]
      simp only [Drifts, hr, hi, if_true, true_and, hcount]
      rw [int32_eq (by omega) (by omega), Nat.not_le, ← hone]
      generalize (r.play.buffer.length - native.readSize) / native.frameBytes = n
      omega
    | false =>
      rw [Playback.streamFrameWrite_loses hr hi]
      simp only [Drifts, hr, hi, if_true, Bool.false_eq_true, if_false, true_and, hcount]
      rw [← hsame]
      generalize (r.play.buffer.length - native.readSize) / native.frameBytes = n
      omega
  | false =>
    have hno : ¬r.Drifts speex native (.tick locked rframe) := by simp [Drifts, hr]
    refine iff_of_true ?_ hno
    simp only [Bool.false_eq_true, if_false]
    rcases Playback.streamFrameWrite_idle rframe hr with ht | ⟨_, ht⟩
    · rw [ht]
      exact h
    · rw [ht]
      exact h

theorem accurate_step_iff {r : PlaybackRun ρ} (hb : r.Bounded native) (h : r.Accurate native)
    (a : PlaybackAct) :
    (r.step speex native a).Accurate native ↔ ¬r.Drifts speex native a := by
  cases a with
  | streamAudio sampleRate decodedAudio initOk =>
    by_cases hd : decodedAudio = []
    · subst hd
      exact iff_of_true h fun hdr => hdr.1 rfl
    · have hq : r.play.eventCallback speex native sampleRate decodedAudio initOk =
          r.play.queueAudio speex native sampleRate decodedAudio initOk :=
        if_neg (by simpa using hd)
      simp only [Accurate, step, arrive, hq, Drifts, hd, ne_eq, not_false_eq_true, true_and]
      exact Playback.framesLeft_arrival_iff hb h
  | binary rawAudioActive rawSampleRate data initOk =>
    by_cases hd : rawAudioActive = true ∧ data ≠ []
    · obtain ⟨rfl, hne⟩ := hd
      have hq : r.play.onBinaryData speex native true rawSampleRate data initOk =
          r.play.queueAudio speex native rawSampleRate data initOk :=
        if_neg (by simpa using hne)
      simp only [Accurate, step, arrive, hq, Drifts, hne, ne_eq, not_false_eq_true, true_and]
      exact Playback.framesLeft_arrival_iff hb h
    · have hq : r.play.onBinaryData speex native rawAudioActive rawSampleRate data initOk =
          (r.play, []) := if_pos (by simpa [or_iff_not_imp_left] using hd)
      refine iff_of_true ?_ fun hdr => hd ⟨hdr.1, hdr.2.1⟩
      simp only [Accurate, step, arrive, hq]
      exact h
  | tick locked rframe => exact accurate_tick_iff hb h
  | breakCommand =>
    refine iff_of_true ?_ id
    simp only [step]
    split
    · exact h
    next hc => simp [Accurate, Playback.streamSessionBreak, hc, Playback.framesLeft]
  | cleanup => exact iff_of_true h id

theorem reportsLeft_of_not_drifts {r : PlaybackRun ρ} (hb : r.Bounded native)
    (h : r.Accurate native) {a : PlaybackAct} (ha : ¬r.Drifts speex native a) :
    r.ReportsLeft speex native a := by
  have hafter := (accurate_step_iff hb h a).mpr ha
  intro e he hplayed
  cases a with
  | streamAudio => simp [fired, step, arrive] at he
  | binary => simp [fired, step, arrive] at he
  | breakCommand =>
    simp only [fired, step] at he
    split at he
    · simp at he
    next hc =>
      simp [Playback.streamSessionBreak, hc, firePlaybackEvent] at he
      simp [he] at hplayed
  | cleanup => simp [fired, step] at he
  | tick locked rframe =>
    simp only [fired, step, List.drop_left] at he
    cases hr : r.play.reads native locked with
    | true =>
      cases hi : Playback.replaces native rframe with
      | true =>
        simp only [Accurate, step, Playback.streamFrameWrite_injects hr hi] at he hafter ⊢
        have hpos : (0 : Int) ≤ int32 (r.play.chunksRemaining - 1) := by omega
        rcases List.mem_cons.mp he with rfl | he
        · simp only [firePlaybackEvent, if_pos hpos]
          exact congrArg some hafter
        · split at he
          · rw [List.mem_singleton.mp he] at hplayed
            cases hplayed
          · cases he
      | false => simp [Playback.streamFrameWrite_loses hr hi] at he
    | false =>
      rcases Playback.streamFrameWrite_idle rframe hr with ht | ⟨_, ht⟩
      · simp [ht] at he
      · simp [ht] at he

end PlaybackRun

/-- In every run the counter is the number of whole frames buffered, and what is reported
as remaining is that number, exactly when no step lets the two drift apart. -/
theorem playback_counter_accurate_iff {ρ : Type*} (speex : Speex ρ) (native : NativeRate)
    (enabled : Bool) (acts : List PlaybackAct) :
    (Always (PlaybackStep speex native) (PlaybackRun.Accurate native) (.start native enabled) acts ∧
      Each (PlaybackStep speex native) (PlaybackRun.ReportsLeft speex native)
        (.start native enabled) acts) ↔
      Never (PlaybackStep speex native) (PlaybackRun.Drifts speex native) (.start native enabled)
        acts := by
  have keep : ∀ r a r', PlaybackRun.Bounded native r → PlaybackStep speex native r a r' →
      PlaybackRun.Bounded native r' := by
    rintro r a r' hb rfl
    exact PlaybackRun.bounded_step hb a
  have hb : (PlaybackRun.start native enabled : PlaybackRun ρ).Bounded native := Nat.zero_le _
  have hs : (PlaybackRun.start native enabled : PlaybackRun ρ).Accurate native := by
    simp [PlaybackRun.Accurate, PlaybackRun.start, Playback.start, Playback.framesLeft]
  have hiff : Always (PlaybackStep speex native) (PlaybackRun.Accurate native)
      (.start native enabled) acts ↔ Never (PlaybackStep speex native)
        (PlaybackRun.Drifts speex native) (.start native enabled) acts := by
    refine always_iff_never keep ?_ ?_ hb hs
    · rintro r a r' hb h ha rfl
      exact (PlaybackRun.accurate_step_iff hb h a).mpr ha
    · intro r a hb h ha
      exact ⟨_, rfl, fun hafter => (PlaybackRun.accurate_step_iff hb h a).mp hafter ha⟩
  refine ⟨fun h => hiff.mp h.1, fun h => ⟨hiff.mpr h, ?_⟩⟩
  refine each_of_never (I := fun r => PlaybackRun.Bounded native r ∧ PlaybackRun.Accurate native r)
    ?_ ?_ ⟨hb, hs⟩ h
  · rintro r a r' ⟨hb, h⟩ ha rfl
    exact ⟨PlaybackRun.bounded_step hb a, (PlaybackRun.accurate_step_iff hb h a).mpr ha⟩
  · rintro r a ⟨hb, h⟩ ha
    exact PlaybackRun.reportsLeft_of_not_drifts hb h ha

/-- Two blocks of a frame and a half: three whole frames, of which two are counted. -/
theorem playback_counter_drifts :
    ¬Always (PlaybackStep copySpeex rate8000) (PlaybackRun.Accurate rate8000)
      (.start rate8000 true)
      [.streamAudio 8000 (List.replicate 480 7) true,
        .streamAudio 8000 (List.replicate 480 7) true] := by
  obtain ⟨block, hblock, hlen⟩ : ∃ block, block = List.replicate 480 (7 : UInt8) ∧
      block.length = 480 := ⟨_, rfl, List.length_replicate⟩
  have hne : block ≠ [] := List.ne_nil_of_length_pos (by omega)
  have hint : int32 1 = 1 ∧ int32 2 = 2 := by decide
  rw [← hblock]
  intro h
  have hrun := h _ _ (List.prefix_refl _) (Run.cons rfl (Run.cons rfl (Run.nil _)))
  simp [PlaybackRun.Accurate, PlaybackRun.step, PlaybackRun.start, PlaybackRun.arrive,
    Playback.start, Playback.eventCallback, Playback.queueAudio, Playback.resample,
    Playback.bufferWrite, Playback.framesLeft, rate8000, NativeRate.capacity,
    playbackBufferSeconds, NativeRate.frameBytes, playbackFrameMs, hlen, hne, hint] at hrun

end ModAudioStream
