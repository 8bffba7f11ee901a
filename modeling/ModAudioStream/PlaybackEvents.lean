import ModAudioStream.PlaybackCounter

namespace ModAudioStream

def countPlayed (played : Nat) (e : PlaybackEvent) : Nat :=
  match e.event with
  | .chunkPlayed => played + 1
  | .queueCompleted => 0

/-- How many chunks were played since the last `queue_completed`. -/
def playedSince (events : List PlaybackEvent) : Nat := events.foldl countPlayed 0

@[simp] theorem playedSince_append (events more : List PlaybackEvent) :
    playedSince (events ++ more) = more.foldl countPlayed (playedSince events) :=
  List.foldl_append

@[simp] theorem countPlayed_played (played : Nat) (seq size remaining total : Int) :
    countPlayed played (firePlaybackEvent .chunkPlayed seq size remaining total) = played + 1 := rfl

@[simp] theorem countPlayed_completed (played : Nat) (seq size remaining total : Int) :
    countPlayed played (firePlaybackEvent .queueCompleted seq size remaining total) = 0 := rfl

namespace Playback

variable {ρ : Type*} {native : NativeRate}

theorem streamFrameWrite_of_not_ticks {p : Playback ρ} {locked : Bool} (rframe : Option Nat)
    (ht : p.ticks locked = false) : p.streamFrameWrite native locked rframe = (p, [], []) := by
  unfold streamFrameWrite
  rw [if_pos (by simp [ht])]

theorem streamFrameWrite_underruns {p : Playback ρ} {locked : Bool} (rframe : Option Nat)
    (ht : p.ticks locked = true) (hlt : p.buffer.length < native.frameBytes) :
    p.streamFrameWrite native locked rframe = ({ p with inResponse := false }, [], []) := by
  unfold streamFrameWrite
  rw [if_neg (by simp [ht]), if_neg (by omega)]

end Playback

def PlaybackAct.isTick : PlaybackAct → Bool
  | .tick _ _ => true
  | _ => false

namespace PlaybackRun

variable {ρ : Type*} {speex : Speex ρ} {native : NativeRate}

/-- Whether the events number their chunks on from `played`, and completions that a tick
fires report that number. -/
def NumberedFrom (tick : Bool) : Nat → List PlaybackEvent → Prop
  | _, [] => True
  | played, e :: rest =>
    (match e.event with
      | .chunkPlayed => e.seq = some ((played + 1 : Nat) : Int)
      | .queueCompleted => tick = true → e.totalChunks = some (played : Int)) ∧
    NumberedFrom tick (countPlayed played e) rest

/-- The chunks between two completions are numbered 1, 2, ..., k, and a tick that
completes them reports k. -/
def Numbers (speex : Speex ρ) (native : NativeRate) (r : PlaybackRun ρ) (a : PlaybackAct) :
    Prop :=
  NumberedFrom a.isTick (playedSince r.events) (r.fired speex native a)

/-- A step that ends a response fires one `queue_completed`. -/
def Completes (speex : Speex ρ) (native : NativeRate) (r : PlaybackRun ρ) (a : PlaybackAct) :
    Prop :=
  r.play.inResponse = true → (r.step speex native a).play.inResponse = false →
    (r.fired speex native a).countP (fun e => e.event = .queueCompleted) = 1

/-- A tick that injects a chunk when `playback_seq` is at the end of its `int`. -/
def SeqOverflows (native : NativeRate) (r : PlaybackRun ρ) : PlaybackAct → Prop
  | .tick locked rframe =>
    r.play.reads native locked = true ∧ Playback.replaces native rframe = true ∧
      r.play.seq = 2147483647
  | _ => False

/-- A tick of a response that finds less than a frame in the buffer. -/
def Underruns (native : NativeRate) (r : PlaybackRun ρ) : PlaybackAct → Prop
  | .tick locked _ => r.play.ticks locked = true ∧ r.play.buffer.length < native.frameBytes
  | _ => False

structure Counts (r : PlaybackRun ρ) : Prop where
  seq : r.play.seq = playedSince r.events
  bound : playedSince r.events < 2147483648

theorem counts_step {r : PlaybackRun ρ} (h : r.Counts) {a : PlaybackAct}
    (ha : ¬r.SeqOverflows native a) : (r.step speex native a).Counts := by
  have arrives : ∀ {out : Playback ρ × List UInt8}, r.play.Queued out → (r.arrive out).Counts := by
    intro out ho
    cases ho with
    | ignored => exact ⟨h.seq, h.bound⟩
    | queued => exact ⟨h.seq, h.bound⟩
  cases a with
  | streamAudio sampleRate decodedAudio initOk =>
    exact arrives (Playback.eventCallback_queued _ _ _ _)
  | binary rawAudioActive rawSampleRate data initOk =>
    exact arrives (Playback.onBinaryData_queued _ _ _ _ _)
  | tick locked rframe =>
    simp only [step]
    cases hr : r.play.reads native locked with
    | true =>
      cases hi : Playback.replaces native rframe with
      | true =>
        have hseq := h.seq
        have hbound := h.bound
        have hroom : r.play.seq ≠ 2147483647 := fun hs => ha ⟨hr, hi, hs⟩
        have hnext : int32 (r.play.seq + 1) = r.play.seq + 1 := int32_eq (by omega) (by omega)
        rw [Playback.streamFrameWrite_injects hr hi]
        by_cases hc : int32 (r.play.chunksRemaining - 1) ≤ 0
        · simp only [if_pos hc]
          exact ⟨by simp, by simp⟩
        · simp only [if_neg hc]
          exact ⟨by simpa [hnext] using hseq, by simpa using by omega⟩
      | false =>
        rw [Playback.streamFrameWrite_loses hr hi]
        exact ⟨by simpa using h.seq, by simpa using h.bound⟩
    | false =>
      rcases Playback.streamFrameWrite_idle rframe hr with ht | ⟨_, ht⟩
      · rw [ht]
        exact ⟨by simpa using h.seq, by simpa using h.bound⟩
      · rw [ht]
        exact ⟨by simpa using h.seq, by simpa using h.bound⟩
  | breakCommand =>
    simp only [step]
    split
    · exact h
    next hc => exact ⟨by simp [Playback.streamSessionBreak, hc], by
        simp [Playback.streamSessionBreak, hc]⟩
  | cleanup => exact ⟨h.seq, h.bound⟩

theorem fired_tick (r : PlaybackRun ρ) (locked : Bool) (rframe : Option Nat) :
    r.fired speex native (.tick locked rframe) =
      (r.play.streamFrameWrite native locked rframe).2.2 := by
  simp [fired, step]

theorem fired_break (r : PlaybackRun ρ) : r.fired speex native .breakCommand =
    if r.play.cleanupStarted then []
    else [firePlaybackEvent .queueCompleted (-1) (-1) (-1) 0] := by
  simp only [fired, step]
  split
  · simp
  next hc => simp [Playback.streamSessionBreak, hc]

theorem fired_arrive {r : PlaybackRun ρ} {a : PlaybackAct}
    (h : ∃ out, r.step speex native a = r.arrive out) : r.fired speex native a = [] := by
  obtain ⟨out, ho⟩ := h
  simp [fired, ho, arrive]

theorem numbers_tick_iff {r : PlaybackRun ρ} (h : r.Counts) {locked : Bool}
    {rframe : Option Nat} :
    r.Numbers speex native (.tick locked rframe) ↔
      ¬r.SeqOverflows native (.tick locked rframe) := by
  rw [Numbers, fired_tick]
  cases hr : r.play.reads native locked with
  | true =>
    cases hi : Playback.replaces native rframe with
    | true =>
      have hseq := h.seq
      have hbound := h.bound
      rw [Playback.streamFrameWrite_injects hr hi]
      by_cases hover : r.play.seq = 2147483647
      · refine iff_of_false ?_ (not_not.mpr ⟨hr, hi, hover⟩)
        have hwrap : int32 (r.play.seq + 1) = -2147483648 := by rw [hover]; decide
        simp [NumberedFrom, firePlaybackEvent, hwrap]
      · have hnext : int32 (r.play.seq + 1) = ((playedSince r.events + 1 : Nat) : Int) := by
          rw [int32_eq (by omega) (by omega), hseq]
          rfl
        have hfield : ∀ n : Nat,
            (if (0 : Int) ≤ n then some (n : Int) else none) = some (n : Int) :=
          fun n => if_pos (Int.natCast_nonneg n)
        rw [hnext]
        refine iff_of_true ⟨hfield _, ?_⟩ fun hs => hover hs.2.2
        rw [countPlayed_played]
        split
        · exact ⟨fun _ => hfield _, trivial⟩
        · trivial
    | false =>
      rw [Playback.streamFrameWrite_loses hr hi]
      exact iff_of_true trivial fun hs => Bool.false_ne_true (hi.symm.trans hs.2.1)
  | false =>
    have hno : ¬r.SeqOverflows native (.tick locked rframe) :=
      fun hs => Bool.false_ne_true (hr.symm.trans hs.1)
    rcases Playback.streamFrameWrite_idle rframe hr with ht | ⟨_, ht⟩
    · rw [ht]
      exact iff_of_true trivial hno
    · rw [ht]
      exact iff_of_true trivial hno

theorem numbers_iff {r : PlaybackRun ρ} (h : r.Counts) (a : PlaybackAct) :
    r.Numbers speex native a ↔ ¬r.SeqOverflows native a := by
  cases a with
  | tick locked rframe => exact numbers_tick_iff h
  | streamAudio sampleRate decodedAudio initOk =>
    refine iff_of_true ?_ id
    rw [Numbers, fired_arrive ⟨_, rfl⟩]
    trivial
  | binary rawAudioActive rawSampleRate data initOk =>
    refine iff_of_true ?_ id
    rw [Numbers, fired_arrive ⟨_, rfl⟩]
    trivial
  | breakCommand =>
    refine iff_of_true ?_ id
    rw [Numbers, fired_break]
    split
    · trivial
    · exact ⟨nofun, trivial⟩
  | cleanup =>
    refine iff_of_true ?_ id
    simp [Numbers, fired, step, NumberedFrom]

theorem completes_tick_iff {r : PlaybackRun ρ} {locked : Bool} {rframe : Option Nat} :
    r.Completes speex native (.tick locked rframe) ↔
      ¬r.Underruns native (.tick locked rframe) := by
  rw [Completes, fired_tick]
  show (_ → (r.play.streamFrameWrite native locked rframe).1.inResponse = false → _) ↔ _
  cases ht : r.play.ticks locked with
  | false =>
    rw [Playback.streamFrameWrite_of_not_ticks rframe ht]
    refine iff_of_true (fun hin hout => ?_) fun hu =>
      Bool.false_ne_true (ht.symm.trans hu.1)
    rw [hin] at hout
    cases hout
  | true =>
    have hin : r.play.inResponse = true := by
      simp only [Playback.ticks, Bool.and_eq_true] at ht
      exact ht.1.2
    by_cases hlt : r.play.buffer.length < native.frameBytes
    · rw [Playback.streamFrameWrite_underruns rframe ht hlt]
      refine iff_of_false (fun hc => ?_) (not_not.mpr ⟨ht, hlt⟩)
      exact absurd (hc hin rfl) (by simp)
    · have hr : r.play.reads native locked = true := by
        simp [Playback.reads, ht, Nat.le_of_not_lt hlt]
      refine iff_of_true ?_ fun hu => hlt hu.2
      cases hi : Playback.replaces native rframe with
      | true =>
        rw [Playback.streamFrameWrite_injects hr hi]
        intro _ hout
        have hc : int32 (r.play.chunksRemaining - 1) ≤ 0 := by simpa using hout
        simp [hc, firePlaybackEvent]
      | false =>
        rw [Playback.streamFrameWrite_loses hr hi]
        intro _ hout
        rw [hin] at hout
        cases hout

theorem completes_iff (r : PlaybackRun ρ) (a : PlaybackAct) :
    r.Completes speex native a ↔ ¬r.Underruns native a := by
  have arrives : ∀ {out : Playback ρ × List UInt8}, r.play.Queued out →
      r.play.inResponse = true → (r.arrive out).play.inResponse = true := by
    intro out ho hin
    cases ho with
    | ignored => exact hin
    | queued => rfl
  cases a with
  | tick locked rframe => exact completes_tick_iff
  | streamAudio sampleRate decodedAudio initOk =>
    refine iff_of_true (fun hin hout => ?_) id
    exact absurd hout (by
      rw [step, arrives (Playback.eventCallback_queued _ _ _ _) hin]
      simp)
  | binary rawAudioActive rawSampleRate data initOk =>
    refine iff_of_true (fun hin hout => ?_) id
    exact absurd hout (by
      rw [step, arrives (Playback.onBinaryData_queued _ _ _ _ _) hin]
      simp)
  | breakCommand =>
    refine iff_of_true (fun hin hout => ?_) id
    rw [fired_break]
    split
    next hc =>
      simp only [step, hc, if_true] at hout
      rw [hin] at hout
      cases hout
    next => simp [firePlaybackEvent]
  | cleanup =>
    refine iff_of_true (fun hin hout => ?_) id
    rw [show (r.step speex native .cleanup).play.inResponse = r.play.inResponse from rfl, hin]
      at hout
    cases hout

end PlaybackRun

/-- In every run, (a) the chunks of each response are numbered and counted exactly when no
`playback_seq` overflows, and (b) every end of a response fires its event exactly when no
tick finds a response short of a frame. -/
theorem playback_events_iff {ρ : Type*} (speex : Speex ρ) (native : NativeRate)
    (enabled : Bool) (acts : List PlaybackAct) :
    (Each (PlaybackStep speex native) (PlaybackRun.Numbers speex native) (.start native enabled)
        acts ↔
      Never (PlaybackStep speex native) (PlaybackRun.SeqOverflows native) (.start native enabled)
        acts) ∧
    (Each (PlaybackStep speex native) (PlaybackRun.Completes speex native) (.start native enabled)
        acts ↔
      Never (PlaybackStep speex native) (PlaybackRun.Underruns native) (.start native enabled)
        acts) := by
  constructor
  · refine each_iff_never (I := PlaybackRun.Counts) ?_ ?_ ⟨rfl, Nat.two_pow_pos 31⟩
    · rintro r a r' h ha rfl
      exact PlaybackRun.counts_step h ha
    · intro r a h
      exact PlaybackRun.numbers_iff h a
  · refine each_iff_never (I := fun _ => True) (fun _ _ _ _ _ _ => trivial) ?_ trivial
    intro r a _
    exact PlaybackRun.completes_iff r a

/-- A block of less than a frame starts a response that the next tick ends in silence. -/
theorem playback_ends_in_silence :
    ¬Each (PlaybackStep copySpeex rate8000) (PlaybackRun.Completes copySpeex rate8000)
      (.start rate8000 true) [.streamAudio 8000 [1, 2] true, .tick true (some 320)] := by
  intro h
  have hstep := h [_] _ _ (List.prefix_refl _) (Run.cons rfl (Run.nil _))
  exact (PlaybackRun.completes_iff _ _).mp hstep ⟨by decide, by decide⟩

end ModAudioStream
