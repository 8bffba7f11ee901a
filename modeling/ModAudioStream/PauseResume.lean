import ModAudioStream.StreamFrame

namespace ModAudioStream

/-- A byte, and whether `audio_paused` was set when the frame it comes from was captured. -/
structure MarkedByte where
  byte : UInt8
  paused : Bool
deriving DecidableEq, Repr

structure MarkedFrame where
  frame : CapturedFrame
  paused : Bool
deriving DecidableEq, Repr

def marked (paused : Bool) (data : List UInt8) : List MarkedByte := data.map (⟨·, paused⟩)

def markless (data : List MarkedByte) : List UInt8 := data.map (·.byte)

def Unpaused (data : List MarkedByte) : Prop := ∀ b ∈ data, b.paused = false

/-- `Forwarding`, with its bytes marked. The filter of the resampler keeps some of what it is
given, so what it puts out is marked from the first paused frame on. -/
structure MarkedForwarding (ρ : Type*) where
  rtpPackets : Nat
  resampler : Option ρ
  capacity : Nat
  filterPaused : Bool
  sbuffer : List MarkedByte
  pending : List (List MarkedByte)
  sent : List (List MarkedByte)

namespace MarkedForwarding

variable {ρ : Type*} {channels : Nat}

def freespace (m : MarkedForwarding ρ) : Nat := m.capacity - m.sbuffer.length

def bufferWrite (m : MarkedForwarding ρ) (data : List MarkedByte) : MarkedForwarding ρ :=
  if data.length ≤ m.freespace then { m with sbuffer := m.sbuffer ++ data } else m

def flush (m : MarkedForwarding ρ) : MarkedForwarding ρ :=
  if m.freespace = 0 ∧ 0 < m.sbuffer.length then
    { m with sbuffer := [], pending := m.pending ++ [m.sbuffer] }
  else m

def room (m : MarkedForwarding ρ) (channels : Nat) : Nat := uint32 (m.freespace / (channels * 2))

def readDirect (m : MarkedForwarding ρ) (f : MarkedFrame) : MarkedForwarding ρ :=
  if f.frame.data.isEmpty then m
  else if m.rtpPackets = 1 then { m with pending := m.pending ++ [marked f.paused f.frame.data] }
  else (m.bufferWrite (marked f.paused f.frame.data)).flush

def readResampled (speex : CaptureSpeex ρ channels) (resampler : ρ) (m : MarkedForwarding ρ)
    (f : MarkedFrame) : MarkedForwarding ρ :=
  if f.frame.data.isEmpty then m
  else
    let room := m.room channels
    if room = 0 then m.flush
    else
      let r := speex.process resampler f.frame.data f.frame.samples room
      let m := { m with resampler := some r.state, filterPaused := m.filterPaused || f.paused }
      if 0 < r.outLen then
        if m.rtpPackets = 1 then { m with pending := m.pending ++ [marked m.filterPaused r.out] }
        else (m.bufferWrite (marked m.filterPaused r.out)).flush
      else m.flush

def read (speex : CaptureSpeex ρ channels) (m : MarkedForwarding ρ) (f : MarkedFrame) :
    MarkedForwarding ρ :=
  match m.resampler with
  | none => m.readDirect f
  | some resampler => m.readResampled speex resampler f

/-- The chunks that are not empty, as far as `writeBinary` gets them onto the queue. -/
def send (m : MarkedForwarding ρ) (accepted : Nat → Bool) : MarkedForwarding ρ :=
  { m with pending := [],
           sent := m.sent ++
             (m.pending.zipIdx.filter fun c => !c.1.isEmpty && accepted c.2).map (·.1) }

theorem send_accepted (m : MarkedForwarding ρ) :
    (m.send fun _ => true).sent = m.sent ++ m.pending.filter (!·.isEmpty) := by
  have hchunks : (m.pending.zipIdx.filter fun c => !c.1.isEmpty && true).map (·.1) =
      m.pending.filter (!·.isEmpty) := by
    simp only [Bool.and_true]
    rw [← List.zipIdx_map_fst 0 m.pending, List.filter_map]
    simp [Function.comp_def]
  rw [send, hchunks]

end MarkedForwarding

/-- The session between the commands, the captures and the calls of `stream_frame`: `bug` is the
buffer of the media bug, and `reading` is set while a call is in its loop. -/
structure PauseRun (ρ : Type*) where
  audioPaused : Bool
  bug : List MarkedFrame
  reading : Bool
  fwd : MarkedForwarding ρ

/-- The single steps: `flush` and `store` of the commands, a capture, and of a call of
`stream_frame` its test of `audio_paused`, one turn of its loop, and the end of the loop. -/
inductive PauseAct
  | flush
  | store (pause : Bool)
  | capture (f : CapturedFrame)
  | enter (ready : Bool)
  | read
  | leave (accepted : Nat → Bool)

/-- `stream_session_pauseresume`. -/
def pauseresume (pause : Bool) : List PauseAct := [.flush, .store pause]

namespace PauseRun

variable {ρ : Type*} {channels : Nat}

def start (rtpPackets capacity : Nat) (resampler : Option ρ) : PauseRun ρ :=
  ⟨false, [], false, ⟨rtpPackets, resampler, capacity, false, [], [], []⟩⟩

def enter (s : PauseRun ρ) (ready : Bool) : PauseRun ρ :=
  if !s.audioPaused && ready then { s with reading := true } else s

def readNext (speex : CaptureSpeex ρ channels) (s : PauseRun ρ) : PauseRun ρ :=
  match s.reading, s.bug with
  | true, f :: bug => { s with bug := bug, fwd := s.fwd.read speex f }
  | _, _ => s

def leave (s : PauseRun ρ) (accepted : Nat → Bool) : PauseRun ρ :=
  if s.reading then { s with reading := false, fwd := s.fwd.send accepted } else s

def step (speex : CaptureSpeex ρ channels) (s : PauseRun ρ) : PauseAct → PauseRun ρ
  | .flush => { s with bug := [] }
  | .store pause => { s with audioPaused := pause }
  | .capture f => { s with bug := s.bug ++ [⟨f, s.audioPaused⟩] }
  | .enter ready => s.enter ready
  | .read => s.readNext speex
  | .leave accepted => s.leave accepted

end PauseRun

def PauseStep {ρ : Type*} {channels : Nat} (speex : CaptureSpeex ρ channels) (s : PauseRun ρ)
    (a : PauseAct) (t : PauseRun ρ) : Prop := s.step speex a = t

/-- No audio that was captured while `audio_paused` was set is on the send queue. -/
def Excluded {ρ : Type*} (s : PauseRun ρ) : Prop := ∀ chunk ∈ s.fwd.sent, Unpaused chunk

def MarkedFrame.Silent (f : MarkedFrame) : Prop := f.paused = true → f.frame.data = []

/-- The step lets paused audio in: `audio_paused` is cleared while the bug still holds some, or
a frame is captured under `audio_paused` while a call is in its loop. -/
def LetsIn {ρ : Type*} (s : PauseRun ρ) : PauseAct → Prop
  | .store false => ∃ f ∈ s.bug, ¬f.Silent
  | .capture f => s.audioPaused = true ∧ s.reading = true ∧ f.data ≠ []
  | _ => False

section Erasure

variable {ρ : Type*} {channels : Nat} {m : MarkedForwarding ρ} {s : Forwarding ρ}

@[simp] theorem length_markless (data : List MarkedByte) : (markless data).length = data.length :=
  List.length_map ..

@[simp] theorem length_marked (paused : Bool) (data : List UInt8) :
    (marked paused data).length = data.length := List.length_map ..

@[simp] theorem markless_marked (paused : Bool) (data : List UInt8) :
    markless (marked paused data) = data := by
  simp [markless, marked, Function.comp_def]

theorem isEmpty_markless (data : List MarkedByte) : (markless data).isEmpty = data.isEmpty := by
  cases data <;> rfl

/-- Without the marks, the state is one of `stream_frame`. -/
structure Erases (m : MarkedForwarding ρ) (s : Forwarding ρ) : Prop where
  tap : s.tap = ⟨m.rtpPackets, m.resampler, m.capacity, markless m.sbuffer⟩
  pending : s.pending = m.pending.map markless
  sent : s.sent = m.sent.map markless

theorem Erases.freespace (h : Erases m s) : s.tap.freespace = m.freespace := by
  simp [Capture.freespace, MarkedForwarding.freespace, h.tap]

theorem Erases.bufferWrite (h : Erases m s) (data : List MarkedByte) :
    Erases (m.bufferWrite data) { s with tap := s.tap.bufferWrite (markless data) } := by
  rw [MarkedForwarding.bufferWrite, Capture.bufferWrite, h.freespace, length_markless]
  split
  · exact ⟨by simp [h.tap, markless], h.pending, h.sent⟩
  · exact h

theorem Erases.flush (h : Erases m s) : Erases m.flush s.flush := by
  have hlen : s.tap.sbuffer.length = m.sbuffer.length := by simp [h.tap]
  rw [MarkedForwarding.flush, Forwarding.flush, Capture.flush, h.freespace, hlen]
  split
  · exact ⟨by simp [h.tap, markless], by simp [h.pending, h.tap], h.sent⟩
  · exact ⟨h.tap, by simp [h.pending], h.sent⟩

theorem Erases.push (h : Erases m s) (data : List MarkedByte) :
    Erases { m with pending := m.pending ++ [data] }
      { s with pending := s.pending ++ [markless data] } :=
  ⟨h.tap, by simp [h.pending], h.sent⟩

theorem Erases.readDirect (h : Erases m s) (f : MarkedFrame) :
    Erases (m.readDirect f) (s.readDirect f.frame) := by
  have hpackets : s.tap.rtpPackets = m.rtpPackets := by simp [h.tap]
  rw [MarkedForwarding.readDirect, Forwarding.readDirect, hpackets]
  split
  · exact h
  split
  · simpa using h.push (marked f.paused f.frame.data)
  · simpa using (h.bufferWrite (marked f.paused f.frame.data)).flush

theorem Erases.readResampled (speex : CaptureSpeex ρ channels) (resampler : ρ) (h : Erases m s)
    (f : MarkedFrame) :
    Erases (m.readResampled speex resampler f) (s.readResampled speex resampler f.frame) := by
  have hroom : s.room channels = m.room channels := by
    simp [Forwarding.room, MarkedForwarding.room, h.freespace]
  have hpackets : s.tap.rtpPackets = m.rtpPackets := by simp [h.tap]
  simp only [MarkedForwarding.readResampled, Forwarding.readResampled, hroom, hpackets]
  set r := speex.process resampler f.frame.data f.frame.samples (m.room channels)
  have hcalled : Erases
      { m with resampler := some r.state, filterPaused := m.filterPaused || f.paused }
      { s with tap := ⟨m.rtpPackets, some r.state, s.tap.capacity, s.tap.sbuffer⟩,
               consumed := s.consumed ++ f.frame.data.take (r.inLen * (channels * 2)),
               produced := s.produced ++ r.out } :=
    ⟨by simp [h.tap], h.pending, h.sent⟩
  split
  · exact h
  split
  · exact h.flush
  split
  · split
    · simpa using hcalled.push (marked (m.filterPaused || f.paused) r.out)
    · simpa using (hcalled.bufferWrite (marked (m.filterPaused || f.paused) r.out)).flush
  · exact hcalled.flush

theorem Erases.read (speex : CaptureSpeex ρ channels) (h : Erases m s) (f : MarkedFrame) :
    Erases (m.read speex f) (s.read speex f.frame) := by
  have hcaptured : Erases m { s with captured := s.captured ++ f.frame.data } :=
    ⟨h.tap, h.pending, h.sent⟩
  have hresampler : s.tap.resampler = m.resampler := by simp [h.tap]
  cases hr : m.resampler with
  | none =>
    simp only [MarkedForwarding.read, Forwarding.read, hresampler, hr]
    exact hcaptured.readDirect f
  | some resampler =>
    simp only [MarkedForwarding.read, Forwarding.read, hresampler, hr]
    exact hcaptured.readResampled speex resampler f

theorem Erases.reads (speex : CaptureSpeex ρ channels) (h : Erases m s) (fs : List MarkedFrame) :
    Erases (fs.foldl (MarkedForwarding.read speex) m)
      ((fs.map (·.frame)).foldl (Forwarding.read speex) s) := by
  induction fs generalizing m s with
  | nil => exact h
  | cons f fs ih => exact ih (h.read speex f)

theorem Erases.send (h : Erases m s) (connected : Bool) :
    Erases (m.send fun _ => connected) (s.send connected) := by
  refine ⟨h.tap, rfl, ?_⟩
  cases connected with
  | false => simp [MarkedForwarding.send, Forwarding.send, h.sent]
  | true =>
    simp only [MarkedForwarding.send_accepted, Forwarding.send, h.sent, h.pending, if_true,
      List.map_append, List.filter_map, Function.comp_def, isEmpty_markless]

end Erasure

section Calls

variable {ρ : Type*} {channels : Nat} (speex : CaptureSpeex ρ channels)

/-- The loop, up to the last frame. -/
theorem reads_all {s : PauseRun ρ} (h : s.reading = true) :
    (List.replicate s.bug.length PauseAct.read).foldl (PauseRun.step speex) s =
      { s with bug := [], fwd := s.bug.foldl (MarkedForwarding.read speex) s.fwd } := by
  obtain ⟨audioPaused, bug, reading, fwd⟩ := s
  obtain rfl : reading = true := h
  induction bug generalizing fwd with
  | nil => rfl
  | cons f bug ih => exact ih (fwd.read speex f)

theorem reads_idle {s : PauseRun ρ} (h : s.reading = false) (n : Nat) :
    (List.replicate n PauseAct.read).foldl (PauseRun.step speex) s = s := by
  have hread : s.step speex .read = s := by
    rw [PauseRun.step, PauseRun.readNext, h]
  induction n with
  | zero => rfl
  | succ n ih =>
    rw [List.replicate_succ, List.foldl_cons, hread]
    exact ih

/-- What a call that is not paused needs to read. -/
def StreamFrameCall.ready (call : StreamFrameCall) : Bool :=
  !call.cleanupStarted && call.locked && call.hasStreamer

/-- The steps of a call that nothing comes between. -/
def StreamFrameCall.acts (call : StreamFrameCall) : List PauseAct :=
  .enter call.ready ::
    (List.replicate call.frames.length .read ++ [.leave fun _ => call.connected])

/-- A call that nothing comes between does what `streamFrame` says. -/
theorem acts_erases {s : PauseRun ρ} {p : Forwarding ρ} {call : StreamFrameCall}
    (h : Erases s.fwd p) (hidle : s.reading = false) (hpaused : call.audioPaused = s.audioPaused)
    (hframes : call.frames = s.bug.map (·.frame)) :
    Erases (call.acts.foldl (PauseRun.step speex) s).fwd (p.streamFrame speex call) := by
  have hlen : call.frames.length = s.bug.length := by simp [hframes]
  have hready : (!s.audioPaused && call.ready) = call.reads := by
    simp [StreamFrameCall.reads, StreamFrameCall.ready, hpaused, Bool.and_assoc]
  simp only [StreamFrameCall.acts, List.foldl_cons, List.foldl_append, List.foldl_nil, hlen]
  rw [PauseRun.step, PauseRun.enter, hready, Forwarding.streamFrame]
  cases hreads : call.reads with
  | true =>
    rw [if_pos rfl, if_pos rfl, @reads_all _ _ speex { s with reading := true } rfl, hframes]
    exact (h.reads speex s.bug).send call.connected
  | false =>
    rw [if_neg Bool.false_ne_true, if_neg Bool.false_ne_true, reads_idle speex hidle,
      PauseRun.step, PauseRun.leave, hidle]
    exact h

end Calls

section Exclusion

variable {ρ : Type*} {channels : Nat} {speex : CaptureSpeex ρ channels} {m : MarkedForwarding ρ}

theorem unpaused_marked {paused : Bool} (h : paused = false) (data : List UInt8) :
    Unpaused (marked paused data) := by
  intro b hb
  obtain ⟨_, _, rfl⟩ := List.mem_map.mp hb
  exact h

theorem Unpaused.append {xs ys : List MarkedByte} (hx : Unpaused xs) (hy : Unpaused ys) :
    Unpaused (xs ++ ys) := fun b hb => (List.mem_append.mp hb).elim (hx b) (hy b)

/-- No paused audio anywhere behind the media bug. -/
structure Clean (m : MarkedForwarding ρ) : Prop where
  filter : m.filterPaused = false
  sbuffer : Unpaused m.sbuffer
  pending : ∀ chunk ∈ m.pending, Unpaused chunk
  sent : ∀ chunk ∈ m.sent, Unpaused chunk

theorem clean_start (rtpPackets capacity : Nat) (resampler : Option ρ) :
    Clean (PauseRun.start rtpPackets capacity resampler).fwd :=
  ⟨rfl, by simp [PauseRun.start, Unpaused], by simp [PauseRun.start], by simp [PauseRun.start]⟩

theorem Clean.bufferWrite (h : Clean m) {data : List MarkedByte} (hdata : Unpaused data) :
    Clean (m.bufferWrite data) := by
  unfold MarkedForwarding.bufferWrite
  split
  · exact ⟨h.filter, h.sbuffer.append hdata, h.pending, h.sent⟩
  · exact h

theorem Clean.push (h : Clean m) {data : List MarkedByte} (hdata : Unpaused data) :
    Clean { m with pending := m.pending ++ [data] } := by
  refine ⟨h.filter, h.sbuffer, ?_, h.sent⟩
  intro chunk hchunk
  rcases List.mem_append.mp hchunk with hold | hnew
  · exact h.pending chunk hold
  · exact List.mem_singleton.mp hnew ▸ hdata

theorem Clean.flush (h : Clean m) : Clean m.flush := by
  unfold MarkedForwarding.flush
  split
  · have hpushed := h.push h.sbuffer
    exact ⟨hpushed.filter, by simp [Unpaused], hpushed.pending, hpushed.sent⟩
  · exact h

theorem Clean.readDirect (h : Clean m) {f : MarkedFrame} (hf : f.Silent) :
    Clean (m.readDirect f) := by
  unfold MarkedForwarding.readDirect
  by_cases hempty : f.frame.data = []
  · simpa [hempty] using h
  · have hpaused : f.paused = false := Bool.eq_false_iff.mpr fun hp => hempty (hf hp)
    rw [if_neg (by simpa using hempty)]
    split
    · exact h.push (unpaused_marked hpaused _)
    · exact (h.bufferWrite (unpaused_marked hpaused _)).flush

theorem Clean.readResampled (resampler : ρ) (h : Clean m) {f : MarkedFrame} (hf : f.Silent) :
    Clean (m.readResampled speex resampler f) := by
  unfold MarkedForwarding.readResampled
  by_cases hempty : f.frame.data = []
  · simpa [hempty] using h
  · have hpaused : f.paused = false := Bool.eq_false_iff.mpr fun hp => hempty (hf hp)
    have hfilter : (m.filterPaused || f.paused) = false := by simp [h.filter, hpaused]
    have hcalled (state : ρ) :
        Clean { m with resampler := some state, filterPaused := m.filterPaused || f.paused } :=
      ⟨hfilter, h.sbuffer, h.pending, h.sent⟩
    rw [if_neg (by simpa using hempty)]
    dsimp only
    split
    · exact h.flush
    split
    · split
      · exact (hcalled _).push (unpaused_marked hfilter _)
      · exact ((hcalled _).bufferWrite (unpaused_marked hfilter _)).flush
    · exact (hcalled _).flush

theorem Clean.read (h : Clean m) {f : MarkedFrame} (hf : f.Silent) : Clean (m.read speex f) := by
  unfold MarkedForwarding.read
  split
  · exact h.readDirect hf
  · exact h.readResampled _ hf

theorem Clean.send (h : Clean m) (accepted : Nat → Bool) : Clean (m.send accepted) := by
  refine ⟨h.filter, h.sbuffer, by simp [MarkedForwarding.send], ?_⟩
  intro chunk hchunk
  rcases List.mem_append.mp hchunk with hold | hnew
  · exact h.sent chunk hold
  · obtain ⟨c, hc, rfl⟩ := List.mem_map.mp hnew
    exact h.pending c.1 (List.fst_mem_of_mem_zipIdx (List.mem_filter.mp hc).1)

/-- Paused audio is at most in the bug, and not while it can be read. -/
structure Guarded (s : PauseRun ρ) : Prop where
  bug : s.audioPaused = false ∨ s.reading = true → ∀ f ∈ s.bug, f.Silent
  fwd : Clean s.fwd

theorem Guarded.excluded {s : PauseRun ρ} (h : Guarded s) : Excluded s := h.fwd.sent

theorem guarded_step {s t : PauseRun ρ} {a : PauseAct} (h : Guarded s) (ha : ¬LetsIn s a)
    (hstep : PauseStep speex s a t) : Guarded t := by
  obtain rfl : s.step speex a = t := hstep
  cases a with
  | flush => exact ⟨fun _ _ hf => absurd hf List.not_mem_nil, h.fwd⟩
  | store pause =>
    refine ⟨fun hopen f hf => ?_, h.fwd⟩
    cases pause with
    | true => exact h.bug (Or.inr (hopen.resolve_left (by simp [PauseRun.step]))) f hf
    | false =>
      by_contra hloud
      exact ha ⟨f, hf, hloud⟩
  | capture c =>
    refine ⟨fun hopen f hf => ?_, h.fwd⟩
    rcases List.mem_append.mp hf with hold | hnew
    · exact h.bug hopen f hold
    · obtain rfl := List.mem_singleton.mp hnew
      intro hpaused
      have hreading : s.reading = true :=
        hopen.resolve_left (by simpa [PauseRun.step] using hpaused)
      by_contra hdata
      exact ha ⟨hpaused, hreading, hdata⟩
  | enter ready =>
    simp only [PauseRun.step, PauseRun.enter]
    split
    · rename_i hready
      have hopen : s.audioPaused = false := by simpa using (Bool.and_eq_true_iff.mp hready).1
      exact ⟨fun _ => h.bug (Or.inl hopen), h.fwd⟩
    · exact h
  | read =>
    simp only [PauseRun.step, PauseRun.readNext]
    split
    · rename_i f bug hreading hbug
      have hsilent : ∀ g ∈ f :: bug, g.Silent := hbug ▸ h.bug (Or.inr hreading)
      exact ⟨fun _ g hg => hsilent g (List.mem_cons_of_mem f hg),
        h.fwd.read (hsilent f List.mem_cons_self)⟩
    · exact h
  | leave accepted =>
    simp only [PauseRun.step, PauseRun.leave]
    split
    · rename_i hreading
      exact ⟨fun _ => h.bug (Or.inr hreading), h.fwd.send accepted⟩
    · exact h

end Exclusion

section Leak

variable {ρ : Type*} {channels : Nat} {speex : CaptureSpeex ρ channels}

/-- One frame is one chunk, and there is no resampler. -/
def Unbuffered (m : MarkedForwarding ρ) : Prop := m.rtpPackets = 1 ∧ m.resampler = none

theorem Unbuffered.read {m : MarkedForwarding ρ} (h : Unbuffered m) (f : MarkedFrame) :
    m.read speex f =
      { m with pending := m.pending ++
        if f.frame.data.isEmpty then [] else [marked f.paused f.frame.data] } := by
  have hdirect : m.read speex f = m.readDirect f := by simp only [MarkedForwarding.read, h.2]
  rw [hdirect, MarkedForwarding.readDirect, if_pos h.1]
  split
  · rw [List.append_nil]
  · rfl

theorem unbuffered_step {s t : PauseRun ρ} {a : PauseAct} (h : Unbuffered s.fwd)
    (hstep : PauseStep speex s a t) : Unbuffered t.fwd := by
  obtain rfl : s.step speex a = t := hstep
  cases a with
  | flush => exact h
  | store pause => exact h
  | capture f => exact h
  | enter ready =>
    simp only [PauseRun.step, PauseRun.enter]
    split
    · exact h
    · exact h
  | read =>
    simp only [PauseRun.step, PauseRun.readNext]
    split
    · dsimp only
      rw [h.read]
      exact h
    · exact h
  | leave accepted =>
    simp only [PauseRun.step, PauseRun.leave]
    split
    · exact h
    · exact h

theorem mem_pending_reads {m : MarkedForwarding ρ} (h : Unbuffered m) {fs : List MarkedFrame}
    {chunk : List MarkedByte} (hchunk : chunk ∈ m.pending ∨
      ∃ f ∈ fs, f.frame.data ≠ [] ∧ chunk = marked f.paused f.frame.data) :
    chunk ∈ (fs.foldl (MarkedForwarding.read speex) m).pending := by
  induction fs generalizing m with
  | nil => exact hchunk.resolve_right (by simp)
  | cons g fs ih =>
    rw [List.foldl_cons, h.read]
    apply ih
    · exact h
    · rcases hchunk with hold | ⟨f, hf, hdata, rfl⟩
      · exact Or.inl (List.mem_append_left _ hold)
      · rcases List.mem_cons.mp hf with rfl | hf
        · left
          simp [hdata]
        · exact Or.inr ⟨f, hf, hdata, rfl⟩

theorem mem_sent_send {m : MarkedForwarding ρ} {chunk : List MarkedByte} (h : chunk ∈ m.pending)
    (hne : chunk ≠ []) : chunk ∈ (m.send fun _ => true).sent := by
  rw [MarkedForwarding.send_accepted]
  exact List.mem_append_right _ (List.mem_filter.mpr ⟨h, by simpa using hne⟩)

/-- Behind a step that lets paused audio in, the bug holds some and a call may read it. -/
theorem open_of_letsIn {s : PauseRun ρ} {a : PauseAct} (h : LetsIn s a) :
    ((s.step speex a).audioPaused = false ∨ (s.step speex a).reading = true) ∧
      ∃ f ∈ (s.step speex a).bug, ¬f.Silent := by
  cases a with
  | store pause =>
    cases pause with
    | true => exact h.elim
    | false => exact ⟨Or.inl rfl, h⟩
  | capture f =>
    obtain ⟨hpaused, hreading, hdata⟩ := h
    refine ⟨Or.inr hreading, ⟨f, s.audioPaused⟩, ?_, fun hsilent => hdata (hsilent hpaused)⟩
    exact List.mem_append_right _ (List.mem_singleton_self _)
  | flush | enter | read | leave => exact h.elim

/-- Where a call may read paused audio, the steps of that call put it on the queue. -/
theorem leaks {s : PauseRun ρ} (h : Unbuffered s.fwd)
    (hopen : s.audioPaused = false ∨ s.reading = true) (hbug : ∃ f ∈ s.bug, ¬f.Silent) :
    ¬Excluded ((.enter true :: (List.replicate s.bug.length .read ++
      [.leave fun _ => true])).foldl (PauseRun.step speex) s) := by
  obtain ⟨f, hf, hloud⟩ := hbug
  obtain ⟨hpaused, hdata⟩ : f.paused = true ∧ f.frame.data ≠ [] := by
    simpa [MarkedFrame.Silent] using hloud
  have henter : s.step speex (.enter true) = { s with reading := true } := by
    rw [PauseRun.step, PauseRun.enter]
    split
    · rfl
    · rename_i hpaused
      rw [← hopen.resolve_left (by simpa using hpaused)]
  rw [List.foldl_cons, List.foldl_append, henter,
    @reads_all _ _ speex { s with reading := true } rfl]
  intro hexcluded
  have hpending := @mem_pending_reads ρ channels speex _ h _ _ (Or.inr ⟨f, hf, hdata, rfl⟩)
  have hsent := mem_sent_send hpending (by simpa [marked] using hdata)
  obtain ⟨b, hb⟩ := List.exists_mem_of_ne_nil _ hdata
  have hfalse := hexcluded _ hsent ⟨b, f.paused⟩ (List.mem_map_of_mem hb)
  simp [hpaused] at hfalse

/-- Paused audio stays off the queue in every run none of whose steps lets it in. Where one frame
is one chunk, what is let in can always get onto the queue. -/
theorem pause_excludes_audio {ρ : Type*} {channels : Nat} (speex : CaptureSpeex ρ channels) :
    (∀ (rtpPackets capacity : Nat) (resampler : Option ρ) (acts : List PauseAct),
      Never (PauseStep speex) LetsIn (.start rtpPackets capacity resampler) acts →
      Always (PauseStep speex) Excluded (.start rtpPackets capacity resampler) acts) ∧
    ∀ (capacity : Nat) (acts : List PauseAct) (s : PauseRun ρ) (a : PauseAct),
      Run (PauseStep speex) (.start 1 capacity none) acts s → LetsIn s a →
      ∃ more t, Run (PauseStep speex) s (a :: more) t ∧ ¬Excluded t := by
  constructor
  · intro rtpPackets capacity resampler acts hnever
    have hstart : Guarded (PauseRun.start rtpPackets capacity resampler) :=
      ⟨fun _ _ hf => absurd hf List.not_mem_nil, clean_start rtpPackets capacity resampler⟩
    have hguarded := always_of_kept (P := Guarded)
      (fun _ _ _ hs ha hstep => guarded_step hs ha hstep) hstart hnever
    exact hguarded.imp fun _ hs => hs.excluded
  · intro capacity acts s a hrun hlets
    have hs : Unbuffered s.fwd :=
      hrun.invariant (fun _ _ _ h hstep => unbuffered_step h hstep) ⟨rfl, rfl⟩
    have ht : Unbuffered (s.step speex a).fwd := unbuffered_step hs rfl
    obtain ⟨hopen, hbug⟩ := @open_of_letsIn ρ channels speex s a hlets
    exact ⟨_, _, Run.cons rfl (run_foldl (PauseRun.step speex) _ _), leaks ht hopen hbug⟩

end Leak

/-- The bug is flushed behind the last frame of the pause. -/
theorem flushed_pause_excludes : Always (PauseStep doublingSpeex) Excluded (.start 1 320 none)
    (pauseresume true ++ [.capture ⟨[1, 0], 1⟩] ++ pauseresume false ++
      [.capture ⟨[2, 0], 1⟩, .enter true, .read, .leave fun _ => true]) := by
  refine (pause_excludes_audio doublingSpeex).1 1 320 none _ ?_
  simp [never_cons_iff, never_nil, PauseStep, LetsIn, pauseresume, PauseRun.step, PauseRun.start,
    PauseRun.enter]

/-- A frame comes between the flush of the resume and its store. -/
theorem resume_lets_paused_frame_in :
    ¬∀ acts, Always (PauseStep doublingSpeex) Excluded (PauseRun.start 1 320 none) acts := by
  intro hall
  let acts : List PauseAct := pauseresume true ++
    [.flush, .capture ⟨[1, 0], 1⟩, .store false, .enter true, .read, .leave fun _ => true]
  have hexcluded := hall acts acts _ List.prefix_rfl (run_foldl _ _ acts)
  have hsent : [⟨1, true⟩, ⟨0, true⟩] ∈
      (acts.foldl (PauseRun.step doublingSpeex) (.start 1 320 none)).fwd.sent := by
    decide
  exact absurd (hexcluded _ hsent ⟨1, true⟩ (by decide)) (by decide)

end ModAudioStream
