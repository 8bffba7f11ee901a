import ModAudioStream.FramePlayer
import ModAudioStream.PlaybackEvents

namespace ModAudioStream

/-- The first `k` frames of `n` bytes. -/
def splitFrames (n : Nat) : Nat → List UInt8 → List (List UInt8)
  | 0, _ => []
  | k + 1, data => data.take n :: splitFrames n k (data.drop n)

theorem splitFrames_flatten {n k : Nat} {data : List UInt8} (h : data.length = n * k) :
    (splitFrames n k data).flatten = data := by
  induction k generalizing data with
  | zero =>
    rw [Nat.mul_zero] at h
    rw [List.eq_nil_of_length_eq_zero h]
    rfl
  | succ k ih =>
    rw [Nat.mul_succ] at h
    have hdrop : (data.drop n).length = n * k := by
      rw [List.length_drop]
      omega
    rw [splitFrames, List.flatten_cons, ih hdrop, List.take_append_drop]

theorem splitFrames_length (n k : Nat) (data : List UInt8) : (splitFrames n k data).length = k := by
  induction k generalizing data with
  | zero => rfl
  | succ k ih => rw [splitFrames, List.length_cons, ih]

theorem length_of_mem_splitFrames {n k : Nat} {data frame : List UInt8}
    (h : data.length = n * k) (hf : frame ∈ splitFrames n k data) : frame.length = n := by
  induction k generalizing data with
  | zero => cases hf
  | succ k ih =>
    rw [Nat.mul_succ] at h
    have hdrop : (data.drop n).length = n * k := by
      rw [List.length_drop]
      omega
    rcases List.mem_cons.mp hf with rfl | hf
    · rw [List.length_take]
      omega
    · exact ih hdrop hf

/-- The frames of 20 ms in `data`. -/
def NativeRate.frames (native : NativeRate) (data : List UInt8) : List (List UInt8) :=
  splitFrames native.frameBytes (data.length / native.frameBytes) data

/-- Audio that needs no resampling and is a whole number of frames. -/
def PlaybackAct.WholeFrames (native : NativeRate) : PlaybackAct → Prop
  | .streamAudio sampleRate decodedAudio _ =>
    sampleRate = native.value ∧ native.frameBytes ∣ decodedAudio.length
  | .binary rawAudioActive rawSampleRate data _ =>
    rawAudioActive = true → rawSampleRate = native.value ∧ native.frameBytes ∣ data.length
  | .tick _ _ | .breakCommand | .cleanup => True

/-- What an act is for a player of frames. -/
def PlaybackAct.playerAct (native : NativeRate) : PlaybackAct → PlayerAct (List UInt8)
  | .streamAudio _ decodedAudio _ => .arrive (native.frames decodedAudio)
  | .binary rawAudioActive _ data _ =>
    if rawAudioActive then .arrive (native.frames data) else .wait
  | .tick locked _ => if locked then .tick else .wait
  | .breakCommand => .clear
  | .cleanup => .close

/-- The event that is fired for what a player puts out. -/
def NativeRate.render (native : NativeRate) : PlayerEvent (List UInt8) → PlaybackEvent
  | .played _ seq left =>
    firePlaybackEvent .chunkPlayed (int32 seq) native.frameBytes left (-1)
  | .completed total => firePlaybackEvent .queueCompleted (-1) (-1) (-1) (int32 total)

namespace PlaybackRun

variable {ρ : Type*} {speex : Speex ρ} {native : NativeRate}

/-- Audio for which there is no room, and a tick for which the core has no frame to replace. -/
def Spoils (native : NativeRate) (r : PlaybackRun ρ) : PlaybackAct → Prop
  | .streamAudio _ decodedAudio _ =>
    r.play.cleanupStarted = false ∧
      native.capacity < r.play.buffer.length + decodedAudio.length
  | .binary rawAudioActive _ data _ =>
    rawAudioActive = true ∧ r.play.cleanupStarted = false ∧
      native.capacity < r.play.buffer.length + data.length
  | .tick locked rframe =>
    r.play.reads native locked = true ∧ Playback.replaces native rframe = false
  | .breakCommand | .cleanup => False

/-- The fields of `private_t`, the events and the bytes injected are those of a player. -/
structure Plays (native : NativeRate) (r : PlaybackRun ρ) (q : FramePlayer (List UInt8)) :
    Prop where
  enabled : r.play.enabled = true
  unpaused : r.play.paused = false
  cleanup : r.play.cleanupStarted = q.closed
  whole : ∀ frame ∈ q.queue, frame.length = native.frameBytes
  buffer : r.play.buffer = q.queue.flatten
  fits : r.play.buffer.length ≤ native.capacity
  remaining : r.play.chunksRemaining = q.queue.length
  inResponse : r.play.inResponse = !q.queue.isEmpty
  seq : r.play.seq = int32 q.seq
  written : r.written = q.arrived.flatten
  injected : r.injected = q.out.flatten
  events : r.events = q.log.map native.render

theorem Plays.start (native : NativeRate) :
    Plays native (PlaybackRun.start native true : PlaybackRun ρ) .start where
  enabled := rfl
  unpaused := rfl
  cleanup := rfl
  whole := nofun
  buffer := rfl
  fits := Nat.zero_le _
  remaining := rfl
  inResponse := rfl
  seq := (int32_eq (n := 0) (by omega) (by omega)).symm
  written := rfl
  injected := rfl
  events := rfl

variable {r : PlaybackRun ρ} {q : FramePlayer (List UInt8)}

theorem flatten_length_of_whole {n : Nat} {frames : List (List UInt8)}
    (h : ∀ frame ∈ frames, frame.length = n) : frames.flatten.length = n * frames.length := by
  induction frames with
  | nil => rfl
  | cons frame frames ih =>
    have hrest := ih fun f hf => h f (List.mem_cons_of_mem _ hf)
    rw [List.flatten_cons, List.length_append, h frame List.mem_cons_self, hrest,
      List.length_cons, Nat.mul_succ, Nat.add_comm]

theorem Plays.queue_lt (h : r.Plays native q) : q.queue.length < 3000 := by
  have hlen := flatten_length_of_whole h.whole
  have hcap := native.capacity_lt
  have hfits := h.fits
  rw [h.buffer, hlen] at hfits
  refine Nat.lt_of_mul_lt_mul_left (a := native.frameBytes) ?_
  rw [Nat.mul_comm native.frameBytes 3000]
  omega

theorem queueAudio_native {p : Playback ρ} (he : p.enabled = true) (hc : p.cleanupStarted = false)
    {src : List UInt8} (hfits : p.buffer.length + src.length ≤ native.capacity) (initOk : Bool) :
    p.queueAudio speex native native.value src initOk =
      ({ p with
          buffer := p.buffer ++ src, inResponse := true,
          chunksRemaining :=
            int32 (p.chunksRemaining + int32 (src.length / native.frameBytes : Nat)) },
        src) := by
  have hsame : p.resample speex native native.value src initOk = (p, src) :=
    if_neg fun hn => hn.1 rfl
  unfold Playback.queueAudio
  rw [if_neg (by simp [hc]), if_neg (by simp [he])]
  simp only [hsame, Playback.bufferWrite, if_pos hfits]

/-- Nothing arrives once the cleanup has started. -/
theorem Plays.arrive_closed (h : r.Plays native q) (hclosed : q.closed = true) (rate : Int)
    (src : List UInt8) (initOk : Bool) (a : PlayerAct (List UInt8)) :
    (r.arrive (r.play.queueAudio speex native rate src initOk)).Plays native (q.step a) := by
  have hc : r.play.cleanupStarted = true := h.cleanup.trans hclosed
  have hsame : r.play.queueAudio speex native rate src initOk = (r.play, []) := if_pos hc
  rw [FramePlayer.step_closed hclosed, hsame]
  simpa [arrive] using h

/-- Whole frames that fit are queued behind the others. -/
theorem Plays.arrive (h : r.Plays native q) (hopen : q.closed = false) {src : List UInt8}
    (hsrc : src ≠ []) (hwhole : native.frameBytes ∣ src.length)
    (hfits : r.play.buffer.length + src.length ≤ native.capacity) (initOk : Bool) :
    (r.arrive (r.play.queueAudio speex native native.value src initOk)).Plays native
      (q.step (.arrive (native.frames src))) := by
  have hpos := native.frameBytes_pos
  have hexact : src.length = native.frameBytes * (src.length / native.frameBytes) :=
    (Nat.mul_div_cancel' hwhole).symm
  have hflat : (native.frames src).flatten = src := splitFrames_flatten hexact
  have hcount : (native.frames src).length = src.length / native.frameBytes :=
    splitFrames_length _ _ _
  have hne : native.frames src ≠ [] := by
    intro hnil
    rw [hnil] at hflat
    exact hsrc hflat.symm
  have hall : ∀ frame ∈ q.queue ++ (native.frames src), frame.length = native.frameBytes := by
    intro frame hframe
    rcases List.mem_append.mp hframe with hq | hf
    · exact h.whole frame hq
    · exact length_of_mem_splitFrames hexact hf
  have hlt := h.queue_lt
  have hnew : src.length / native.frameBytes < 3000 := by
    have hcap := native.capacity_lt
    exact Nat.div_lt_of_lt_mul (by rw [Nat.mul_comm]; omega)
  rw [queueAudio_native h.enabled (h.cleanup.trans hopen) hfits]
  simp only [FramePlayer.step, hopen, Bool.false_eq_true, if_false]
  exact {
    enabled := h.enabled
    unpaused := h.unpaused
    cleanup := h.cleanup.trans hopen
    whole := hall
    buffer := by
      show r.play.buffer ++ src = (q.queue ++ (native.frames src)).flatten
      rw [List.flatten_append, hflat, h.buffer]
    fits := by
      show (r.play.buffer ++ src).length ≤ native.capacity
      rw [List.length_append]
      exact hfits
    remaining := by
      show int32 (r.play.chunksRemaining + int32 (src.length / native.frameBytes : Nat)) =
        ((q.queue ++ (native.frames src)).length : Nat)
      have hblock : int32 (src.length / native.frameBytes : Nat) =
          (src.length / native.frameBytes : Nat) := int32_eq (by omega) (by omega)
      rw [h.remaining, List.length_append, hcount, hblock, int32_eq (by omega) (by omega)]
      omega
    inResponse := by
      show true = !(q.queue ++ (native.frames src)).isEmpty
      simp [hne]
    seq := h.seq
    written := by
      show r.written ++ src = (q.arrived ++ (native.frames src)).flatten
      rw [List.flatten_append, hflat, h.written]
    injected := h.injected
    events := h.events }

theorem int32_succ (n : Nat) : int32 (int32 n + 1) = int32 (n + 1 : Nat) := by
  show Int.bmod (Int.bmod n (2 ^ 32) + 1) (2 ^ 32) = Int.bmod (n + 1 : Nat) (2 ^ 32)
  rw [Int.bmod_add_bmod]
  rfl

theorem Plays.tick_idle (h : r.Plays native q) {locked : Bool} (rframe : Option Nat)
    (ht : r.play.ticks locked = false) :
    (r.step speex native (.tick locked rframe)).Plays native q := by
  have hsame : r.play.streamFrameWrite native locked rframe = (r.play, [], []) :=
    Playback.streamFrameWrite_of_not_ticks rframe ht
  simpa [step, hsame] using h

/-- The first frame in the queue is what a tick reads. -/
theorem Plays.tick_play (h : r.Plays native q) (hsize : native.frameBytes ≤ 4096)
    (hopen : q.closed = false) {frame : List UInt8} {rest : List (List UInt8)}
    (hq : q.queue = frame :: rest) {rframe : Option Nat}
    (hgood : ¬r.Spoils native (.tick true rframe)) :
    (r.step speex native (.tick true rframe)).Plays native (q.play frame rest) := by
  have hread : native.readSize = native.frameBytes := Nat.min_eq_left hsize
  have hclean : r.play.cleanupStarted = false := h.cleanup.trans hopen
  have hin : r.play.inResponse = true := by
    rw [h.inResponse, hq]
    rfl
  have hframe : frame.length = native.frameBytes := h.whole frame (by rw [hq]; simp)
  have hbuf : r.play.buffer = frame ++ rest.flatten := by
    rw [h.buffer, hq, List.flatten_cons]
  have hreads : r.play.reads native true = true := by
    simp [Playback.reads, Playback.ticks, h.enabled, h.unpaused, hclean, hin, hbuf, hframe]
  have hrep : Playback.replaces native rframe = true := by
    by_contra hnot
    exact hgood ⟨hreads, by simpa using hnot⟩
  have hleft : int32 (r.play.chunksRemaining - 1) = (rest.length : Nat) := by
    have hlt := h.queue_lt
    rw [hq, List.length_cons] at hlt
    rw [h.remaining, hq, List.length_cons, int32_eq (by omega) (by omega)]
    omega
  have hseq : int32 (r.play.seq + 1) = int32 (q.seq + 1 : Nat) := by rw [h.seq, int32_succ]
  have htake : r.play.buffer.take native.frameBytes = frame := by
    rw [hbuf, List.take_left' hframe]
  have hdrop : r.play.buffer.drop native.frameBytes = rest.flatten := by
    rw [hbuf, List.drop_left' hframe]
  have hlast : ((rest.length : Nat) : Int) ≤ 0 ↔ rest = [] := by
    rw [← List.length_eq_zero_iff]
    omega
  unfold step
  simp only [Playback.streamFrameWrite_injects hreads hrep, hread, hleft, hseq, htake, hdrop,
    hlast]
  exact {
    enabled := h.enabled
    unpaused := h.unpaused
    cleanup := h.cleanup
    whole := fun f hf => h.whole f (by rw [hq]; exact List.mem_cons_of_mem _ hf)
    buffer := rfl
    fits := by
      have hfits := h.fits
      rw [hbuf, List.length_append] at hfits
      show rest.flatten.length ≤ native.capacity
      omega
    remaining := rfl
    inResponse := by
      cases rest with
      | nil => rfl
      | cons next rest => simp [FramePlayer.play]
    seq := by
      have hnone : int32 0 = 0 := int32_eq (by omega) (by omega)
      cases rest with
      | nil => simp [FramePlayer.play, hnone]
      | cons next rest => simp [FramePlayer.play]
    written := h.written
    injected := by
      show r.injected ++ frame = (q.out ++ [frame]).flatten
      rw [h.injected, List.flatten_append, List.flatten_singleton]
    events := by
      rw [h.events]
      cases rest with
      | nil => simp [FramePlayer.play, NativeRate.render]
      | cons next rest => simp [FramePlayer.play, NativeRate.render] }

/-- A tick that gets the lock plays one frame, as long as there is one. -/
theorem Plays.tick (h : r.Plays native q) (hsize : native.frameBytes ≤ 4096) {locked : Bool}
    {rframe : Option Nat} (hgood : ¬r.Spoils native (.tick locked rframe)) :
    (r.step speex native (.tick locked rframe)).Plays native
      (q.step (PlaybackAct.playerAct native (.tick locked rframe))) := by
  cases hopen : q.closed with
  | true =>
    rw [FramePlayer.step_closed hopen]
    exact h.tick_idle rframe (by simp [Playback.ticks, h.cleanup, hopen])
  | false =>
    cases locked with
    | false =>
      have hstep : q.step (PlaybackAct.playerAct native (.tick false rframe)) = q := by
        simp [PlaybackAct.playerAct, FramePlayer.step]
      rw [hstep]
      exact h.tick_idle rframe (by simp [Playback.ticks])
    | true =>
      cases hq : q.queue with
      | nil =>
        have hstep : q.step (PlaybackAct.playerAct native (.tick true rframe)) = q := by
          simp [PlaybackAct.playerAct, FramePlayer.step, hopen, hq]
        have hin : r.play.inResponse = false := by
          rw [h.inResponse, hq]
          rfl
        rw [hstep]
        exact h.tick_idle rframe (by simp [Playback.ticks, hin])
      | cons frame rest =>
        have hstep : q.step (PlaybackAct.playerAct native (.tick true rframe)) =
            q.play frame rest := FramePlayer.step_tick hopen hq
        rw [hstep]
        exact h.tick_play hsize hopen hq hgood

/-- Audio that has come in whole frames, empty or not. -/
theorem Plays.audio (h : r.Plays native q) {src : List UInt8}
    (hwhole : native.frameBytes ∣ src.length)
    (hfits : r.play.cleanupStarted = false →
      r.play.buffer.length + src.length ≤ native.capacity) (initOk : Bool)
    {out : Playback ρ × List UInt8}
    (hout : out = if src.isEmpty then (r.play, []) else
      r.play.queueAudio speex native native.value src initOk) :
    (r.arrive out).Plays native (q.step (.arrive (native.frames src))) := by
  subst hout
  cases hsrc : src with
  | nil =>
    have hnone : native.frames [] = [] := by simp [NativeRate.frames, splitFrames]
    have hstep : q.step (.arrive (native.frames [])) = q := by
      simp [FramePlayer.step, hnone]
    rw [hstep]
    simpa [PlaybackRun.arrive] using h
  | cons b rest =>
    rw [← hsrc, if_neg (by simp [hsrc])]
    cases hopen : q.closed with
    | true => exact h.arrive_closed hopen _ _ _ _
    | false =>
      exact h.arrive hopen (by simp [hsrc]) hwhole (hfits (h.cleanup.trans hopen)) initOk

theorem Plays.step (h : r.Plays native q) (hsize : native.frameBytes ≤ 4096) {a : PlaybackAct}
    (hwhole : a.WholeFrames native) (hgood : ¬r.Spoils native a) :
    (r.step speex native a).Plays native (q.step (a.playerAct native)) := by
  cases a with
  | streamAudio sampleRate decodedAudio initOk =>
    obtain ⟨rfl, hdvd⟩ := hwhole
    refine h.audio hdvd ?_ initOk rfl
    intro hclean
    by_contra hnot
    exact hgood ⟨hclean, by omega⟩
  | binary rawAudioActive rawSampleRate data initOk =>
    cases rawAudioActive with
    | false =>
      have hstep : q.step (PlaybackAct.playerAct native (.binary false rawSampleRate data initOk)) =
          q := by
        simp [PlaybackAct.playerAct, FramePlayer.step]
      rw [hstep]
      simpa [PlaybackRun.step, PlaybackRun.arrive, Playback.onBinaryData] using h
    | true =>
      obtain ⟨rfl, hdvd⟩ := hwhole rfl
      refine h.audio hdvd ?_ initOk rfl
      intro hclean
      by_contra hnot
      exact hgood ⟨rfl, hclean, by omega⟩
  | tick locked rframe => exact h.tick hsize hgood
  | breakCommand =>
    cases hopen : q.closed with
    | true =>
      have hclean : r.play.cleanupStarted = true := h.cleanup.trans hopen
      rw [FramePlayer.step_closed hopen]
      simpa [PlaybackRun.step, hclean] using h
    | false =>
      have hclean : r.play.cleanupStarted = false := h.cleanup.trans hopen
      have hnone : int32 0 = 0 := int32_eq (by omega) (by omega)
      have hrun : r.step speex native .breakCommand =
          ⟨(r.play.streamSessionBreak speex).1, [], [],
            r.events ++ (r.play.streamSessionBreak speex).2⟩ := by
        simp [PlaybackRun.step, hclean]
      have hplayer : q.step (PlaybackAct.playerAct native .breakCommand) =
          { q with
            queue := [], seq := 0, log := q.log ++ [.completed 0], arrived := [], out := [] } := by
        simp [PlaybackAct.playerAct, FramePlayer.step, hopen]
      rw [hrun, hplayer, Playback.streamSessionBreak, if_neg (by simp [hclean])]
      exact {
        enabled := h.enabled
        unpaused := h.unpaused
        cleanup := h.cleanup
        whole := fun frame hframe => absurd hframe List.not_mem_nil
        buffer := rfl
        fits := Nat.zero_le _
        remaining := rfl
        inResponse := rfl
        seq := hnone.symm
        written := rfl
        injected := rfl
        events := by
          rw [h.events]
          simp [NativeRate.render, hnone] }
  | cleanup =>
    cases hopen : q.closed with
    | true =>
      have hclean : r.play.cleanupStarted = true := h.cleanup.trans hopen
      have hsame : r.step speex native .cleanup = r := by
        simp only [PlaybackRun.step]
        rw [← hclean]
      rw [FramePlayer.step_closed hopen, hsame]
      exact h
    | false =>
      have hplayer :
          q.step (PlaybackAct.playerAct native .cleanup) = { q with closed := true } := by
        simp [PlaybackAct.playerAct, FramePlayer.step, hopen]
      rw [hplayer]
      exact { h with cleanup := rfl }

theorem Plays.run (hsize : native.frameBytes ≤ 4096) {acts : List PlaybackAct}
    {t : PlaybackRun ρ} (hrun : Run (PlaybackStep speex native) r acts t)
    (h : r.Plays native q) (hwhole : ∀ a ∈ acts, a.WholeFrames native)
    (hgood : Never (PlaybackStep speex native) (Spoils native) r acts) :
    t.Plays native ((acts.map (PlaybackAct.playerAct native)).foldl FramePlayer.step q) := by
  induction hrun generalizing q with
  | nil => exact h
  | @cons r u t a acts hstep _ ih =>
    obtain ⟨ha, hrest⟩ := never_cons_iff.mp hgood
    have hu : u.Plays native (q.step (a.playerAct native)) := by
      rw [← hstep]
      exact h.step hsize (hwhole a List.mem_cons_self) ha
    exact ih hu (fun b hb => hwhole b (List.mem_cons_of_mem _ hb)) (hrest u hstep)

/-- With whole frames at the channel's rate, which fit a tick, room for them and a core that always
has a frame to replace, playback is a player of frames: what is injected, what is fired, what is
counted. -/
theorem playback_refines_player {ρ : Type*} (speex : Speex ρ) (native : NativeRate)
    (hsize : native.frameBytes ≤ 4096) (acts : List PlaybackAct)
    (hwhole : ∀ a ∈ acts, a.WholeFrames native)
    (hgood : Never (PlaybackStep speex native) (Spoils native) (.start native true) acts)
    {t : PlaybackRun ρ} (hrun : Run (PlaybackStep speex native) (.start native true) acts t) :
    t.Plays native ((acts.map (PlaybackAct.playerAct native)).foldl FramePlayer.step .start) :=
  Plays.run hsize hrun (Plays.start native) hwhole hgood

theorem not_spoils_tick (r : PlaybackRun ρ) {datalen : Nat} (h : native.readSize ≤ datalen) :
    ¬r.Spoils native (.tick true (some datalen)) := by
  rintro ⟨-, hrep⟩
  rw [Playback.replaces, decide_eq_false_iff_not] at hrep
  exact hrep h

theorem two_frames_fit {audio : List UInt8} (hlen : audio.length = 640) :
    ¬(PlaybackRun.start rate8000 true : PlaybackRun Unit).Spoils rate8000
      (.streamAudio 8000 audio true) ∧
    (PlaybackAct.streamAudio 8000 audio true).WholeFrames rate8000 := by
  refine ⟨?_, rfl, ?_⟩
  · rintro ⟨-, hfull⟩
    have hcap : rate8000.capacity = 480000 := rfl
    rw [hlen, hcap] at hfull
    exact absurd hfull (by decide)
  · rw [hlen]
    decide

/-- Two frames come in at once, and one of them is played. -/
theorem two_frames_refine_player : ∃ t : PlaybackRun Unit,
    Run (PlaybackStep copySpeex rate8000) (.start rate8000 true)
      [.streamAudio 8000 (List.replicate 640 7) true, .tick true (some 320)] t ∧
    t.Plays rate8000 (([PlaybackAct.streamAudio 8000 (List.replicate 640 7) true,
      .tick true (some 320)].map (PlaybackAct.playerAct rate8000)).foldl FramePlayer.step
        .start) := by
  obtain ⟨audio, haudio, hlen⟩ : ∃ audio, audio = List.replicate 640 (7 : UInt8) ∧
      audio.length = 640 := ⟨_, rfl, List.length_replicate⟩
  obtain ⟨hfits, hwhole⟩ := two_frames_fit hlen
  rw [← haudio]
  have hrun := run_foldl (fun r a => PlaybackRun.step copySpeex rate8000 r a)
    (.start rate8000 true) [.streamAudio 8000 audio true, .tick true (some 320)]
  refine ⟨_, hrun, playback_refines_player copySpeex rate8000 (by decide) _ ?_ ?_ hrun⟩
  · intro a ha
    rcases List.mem_cons.mp ha with rfl | ha
    · exact hwhole
    · rw [List.mem_singleton.mp ha]
      trivial
  · refine never_cons_iff.mpr ⟨hfits, fun u _ => never_cons_iff.mpr ⟨?_, fun _ _ => never_nil⟩⟩
    exact not_spoils_tick u (by decide)

/-- From any state of such a run before its cleanup, ticks play out all that has come in since the
last break, and report it frame by frame, down to the end of the queue. -/
theorem whole_frames_play_out {ρ : Type*} (speex : Speex ρ) (native : NativeRate)
    (hsize : native.frameBytes ≤ 4096) (acts : List PlaybackAct)
    (hwhole : ∀ a ∈ acts, a.WholeFrames native)
    (hgood : Never (PlaybackStep speex native) (Spoils native) (.start native true) acts)
    {t : PlaybackRun ρ} (hrun : Run (PlaybackStep speex native) (.start native true) acts t)
    (hopen : t.play.cleanupStarted = false) (rframes : List Nat)
    (hcount : t.play.buffer.length ≤ native.frameBytes * rframes.length)
    (hframes : ∀ datalen ∈ rframes, native.frameBytes ≤ datalen) :
    let q := (acts.map (PlaybackAct.playerAct native)).foldl FramePlayer.step .start
    ∃ t', Run (PlaybackStep speex native) t
        (rframes.map fun datalen => .tick true (some datalen)) t' ∧
      t'.injected = t.written ∧ t'.play.buffer = [] ∧ t'.play.chunksRemaining = 0 ∧
      t'.play.inResponse = false ∧
      t'.events = t.events ++ (FramePlayer.countdown q.seq q.queue).map native.render := by
  intro q
  have hq : t.Plays native q := Plays.run hsize hrun (Plays.start native) hwhole hgood
  have hsound : q.Sound := by
    have hkeep (acts : List (PlayerAct (List UInt8))) :
        (acts.foldl FramePlayer.step .start).Sound :=
      (run_foldl FramePlayer.step .start acts).invariant
        (fun p a p' hp hstep => hstep ▸ hp.step a) FramePlayer.Sound.start
    exact hkeep _
  let ticks : List PlaybackAct := rframes.map fun datalen => .tick true (some datalen)
  have hticks : ticks.map (PlaybackAct.playerAct native) =
      List.replicate rframes.length .tick := by
    refine List.eq_replicate_iff.mpr ⟨by simp [ticks], ?_⟩
    intro a ha
    obtain ⟨b, hb, rfl⟩ := List.mem_map.mp ha
    obtain ⟨datalen, -, rfl⟩ := List.mem_map.mp hb
    rfl
  have hnever : Never (PlaybackStep speex native) (Spoils native) t ticks := by
    intro bs a u hprefix _
    have ha : a ∈ ticks := hprefix.subset (by simp)
    obtain ⟨datalen, hmem, rfl⟩ := List.mem_map.mp ha
    exact not_spoils_tick u (native.readSize_le.trans (hframes datalen hmem))
  have hend := run_foldl (PlaybackRun.step speex native) t ticks
  have hplays := Plays.run hsize hend hq (by
    intro a ha
    obtain ⟨datalen, -, rfl⟩ := List.mem_map.mp ha
    trivial) hnever
  have hqueue : q.queue.length ≤ rframes.length := by
    have hlen := flatten_length_of_whole hq.whole
    rw [hq.buffer, hlen] at hcount
    exact Nat.le_of_mul_le_mul_left hcount native.frameBytes_pos
  rw [hticks, FramePlayer.ticks_play_out (hq.cleanup.symm.trans hopen) hqueue] at hplays
  refine ⟨_, hend, ?_, hplays.buffer, hplays.remaining, hplays.inResponse, ?_⟩
  · rw [hplays.injected, hq.written, hsound.frames]
  · rw [hplays.events, hq.events, List.map_append]

/-- The two frames played out by three ticks. -/
theorem two_frames_play_out : ∃ t t' : PlaybackRun Unit,
    Run (PlaybackStep copySpeex rate8000) t
      ([320, 320, 400].map fun datalen => .tick true (some datalen)) t' ∧
    t'.injected = List.replicate 640 7 ∧ t'.play.inResponse = false := by
  obtain ⟨audio, haudio, hlen⟩ : ∃ audio, audio = List.replicate 640 (7 : UInt8) ∧
      audio.length = 640 := ⟨_, rfl, List.length_replicate⟩
  obtain ⟨hfits, hwhole⟩ := two_frames_fit hlen
  rw [← haudio]
  let arrival : PlaybackAct := .streamAudio 8000 audio true
  let start : PlaybackRun Unit := .start rate8000 true
  have hnone : audio.isEmpty = false := by
    rw [List.isEmpty_eq_false_iff, ← List.length_pos_iff]
    omega
  have hroom : (0 : Nat) + audio.length ≤ rate8000.capacity := by
    have hcap : rate8000.capacity = 480000 := rfl
    omega
  have hrun : Run (PlaybackStep copySpeex rate8000) start [arrival]
      (start.step copySpeex rate8000 arrival) := Run.cons rfl (Run.nil _)
  have hafter : (start.step copySpeex rate8000 arrival).play.cleanupStarted = false ∧
      (start.step copySpeex rate8000 arrival).play.buffer = audio ∧
      (start.step copySpeex rate8000 arrival).written = audio := by
    have hqueue := @queueAudio_native Unit copySpeex rate8000 start.play rfl rfl audio hroom true
    have hcall : start.play.eventCallback copySpeex rate8000 8000 audio true = _ :=
      (if_neg (by simp [hnone])).trans hqueue
    simp only [PlaybackRun.step, arrival, PlaybackRun.arrive, hcall]
    exact ⟨rfl, rfl, rfl⟩
  obtain ⟨hopen, hbuffer, hwritten⟩ := hafter
  obtain ⟨t', hticks, hinjected, -, -, hidle, -⟩ := whole_frames_play_out copySpeex rate8000
    (by decide) [arrival]
    (by
      intro a ha
      rw [List.mem_singleton.mp ha]
      exact hwhole)
    (never_cons_iff.mpr ⟨hfits, fun _ _ => never_nil⟩) hrun hopen [320, 320, 400]
    (by
      rw [hbuffer, hlen]
      decide)
    (by decide)
  exact ⟨_, t', hticks, hinjected.trans hwritten, hidle⟩

end PlaybackRun

end ModAudioStream
