import ModAudioStream.ServerPhases

namespace ModAudioStream

open ResponseReader

/-- A run of a new client's worker against a server that sends a conforming response, frames and
perhaps the start of one more. -/
structure ServerRun (cfg : ClientConfig) where
  head : ResponseHead
  conforms : head.Conforms cfg.expectedAccept
  frames : List ServerFrame
  last : ServerFrame
  tail : List UInt8
  tail_prefix : tail <+: last.encode
  tail_ne : tail ≠ last.encode
  results : Nat → CallResults
  obliges : ∀ k, (statesFrom (Exchange.advance cfg)
    ⟨WsThread.start [], head.bytes ++ (frames.flatMap ServerFrame.encode ++ tail)⟩
      results k).Obliges cfg (results k)

namespace ServerRun

variable {cfg : ClientConfig} (run : ServerRun cfg)

def state (k : Nat) : Exchange :=
  statesFrom (Exchange.advance cfg)
    ⟨WsThread.start [], run.head.bytes ++ (run.frames.flatMap ServerFrame.encode ++ run.tail)⟩
    run.results k

theorem phase (k : Nat) : (run.state k).Phase cfg run.frames run.tail := by
  induction k with
  | zero =>
    have hresponse := read_conforming run.conforms
      (run.frames.flatMap ServerFrame.encode ++ run.tail)
    exact .connecting ⟨_, hresponse⟩ hresponse rfl rfl
  | succ k ih => exact ih.advance run.tail_prefix run.tail_ne (run.obliges k)

/-- What the server sends arrives as long as the worker listens. -/
def Arrives : Prop :=
  ∀ k, (run.state k).InLoop → (run.state k).thread.rx.running = true →
    (run.state k).unread ≠ [] → ∃ j, k ≤ j ∧ (run.state j).thread.pc = .read ∧
      ∃ bytes, bytes ≠ [] ∧ (run.results j).read = .done bytes

theorem callbacks_prefix (k : Nat) : (run.state k).thread.callbacks <+:
    deliveries run.frames ++ [farewell run.frames] := by
  cases run.phase k with
  | connecting hpending hresponse hrx hcalls =>
    rw [hcalls]
    exact List.nil_prefix
  | listening taken left part hloop hframes hopen hbytes hpart hrx hcalls =>
    rw [hcalls, hframes, deliveries_append hopen, List.append_assoc]
    exact List.prefix_append _ _
  | closing hpc hcloses hrunning hstate hcalls =>
    rw [hcalls]
    exact List.prefix_append _ _
  | ended hpc hcalls => rw [hcalls]

theorem callbacks_of_over {k : Nat} (h : (run.state k).thread.isOver = true) :
    (run.state k).thread.pc = .returned ∧
      (run.state k).thread.callbacks = deliveries run.frames ++ [farewell run.frames] := by
  cases run.phase k with
  | connecting hpending =>
    rw [hpending.not_inLoop.2] at h
    cases h
  | listening taken left part hloop =>
    rcases hloop with hpc | hpc | hpc
    · simp [WsThread.isOver, hpc] at h
    · simp [WsThread.isOver, hpc] at h
    · simp [WsThread.isOver, hpc] at h
  | closing hpc => simp [WsThread.isOver, hpc] at h
  | ended hpc hcalls => exact ⟨hpc, hcalls⟩

theorem opens : ∃ k, (run.state k).Opened := by
  have hresponse := read_conforming run.conforms
    (run.frames.flatMap ServerFrame.encode ++ run.tail)
  refine @reaches_of_rank _ (Exchange.Pending cfg) Exchange.Opened (Exchange.rank cfg) run.state
    (fun k hpending => ?_) 0 ⟨_, hresponse⟩
  have hread : (run.state k).thread.pc ≠ .read :=
    fun hpc => hpending.not_inLoop.1 (Or.inr (Or.inr hpc))
  have hstep : run.state (k + 1) = (run.state k).step cfg (run.results k) :=
    Exchange.advance_eq_step hread
  rw [hstep]
  exact Exchange.pending_next hpending (run.obliges k).served (run.obliges k).ready

theorem unread_antitone {j k : Nat} (h : j ≤ k) :
    (run.state k).unread.length ≤ (run.state j).unread.length := by
  induction h with
  | refl => exact Nat.le_refl _
  | @step k _ ih =>
    refine Nat.le_trans ?_ ih
    change ((run.state k).advance cfg (run.results k)).unread.length ≤ _
    unfold Exchange.advance
    dsimp only
    split
    · rw [List.length_tail]
      omega
    · rw [List.length_drop]
      omega
    · exact Nat.le_refl _

/-- Everything has been delivered, and a Close has ended the run. -/
def Delivered (k : Nat) : Prop :=
  deliveries run.frames <+: (run.state k).thread.callbacks ∧
    (run.frames.any ServerFrame.closes = true → (run.state k).thread.pc = .returned)

/-- A read takes some of what is left. -/
theorem unread_of_read {j : Nat} (hpc : (run.state j).thread.pc = .read) {bytes : List UInt8}
    (hne : bytes ≠ []) (hread : (run.results j).read = .done bytes) :
    (run.state (j + 1)).unread.length < (run.state j).unread.length := by
  have htaken : bytes <+: (run.state j).unread := by
    rcases (run.obliges j).read hpc with hwait | ⟨bytes', htaken, hread'⟩ | ⟨-, hread'⟩
    · simp [hread, IoResult.isTransient] at hwait
    · rw [hread] at hread'
      cases hread'
      exact htaken
    · rw [hread] at hread'
      cases hread'
  have hunread : (run.state (j + 1)).unread = (run.state j).unread.drop bytes.length := by
    change ((run.state j).advance cfg (run.results j)).unread = _
    simp only [Exchange.advance, hpc, hread]
  have hpos := List.length_pos_iff.mpr hne
  have hle := htaken.length_le
  rw [hunread, List.length_drop]
  omega

theorem delivered_of_over {k : Nat} (h : (run.state k).thread.isOver = true) :
    run.Delivered k := by
  obtain ⟨hpc, hcalls⟩ := run.callbacks_of_over h
  refine ⟨?_, fun _ => hpc⟩
  rw [hcalls]
  exact List.prefix_append _ _

theorem delivered_of_closing {k : Nat} (hpc : (run.state k).thread.pc = .loop)
    (hcloses : run.frames.any ServerFrame.closes = true)
    (hrunning : (run.state k).thread.rx.running = false)
    (hstate : (run.state k).thread.rx.state = .closing)
    (hcalls : (run.state k).thread.callbacks = deliveries run.frames) : run.Delivered (k + 1) := by
  have hreturned : (run.state (k + 1)).thread.pc = .returned :=
    (@Exchange.phase_closing _ _ _ _ run.tail (run.obliges k) hpc hcloses hrunning hstate hcalls).1
  exact run.delivered_of_over (by simp [WsThread.isOver, hreturned])

/-- By induction on what is left: while there is some, a read takes some of it. -/
theorem delivered_of_loop (harrives : run.Arrives) {k : Nat} (hloop : (run.state k).InLoop) :
    ∃ j, run.Delivered j := by
  generalize hn : (run.state k).unread.length = n
  induction n using Nat.strong_induction_on generalizing k with
  | _ n ih =>
    cases run.phase k with
    | connecting hpending => exact absurd hloop hpending.not_inLoop.1
    | closing hpc hcloses hrunning hstate hcalls =>
      exact ⟨k + 1, run.delivered_of_closing hpc hcloses hrunning hstate hcalls⟩
    | ended hpc =>
      rcases hloop with hpc' | hpc' | hpc'
      · simp [hpc] at hpc'
      · simp [hpc] at hpc'
      · simp [hpc] at hpc'
    | listening taken left part hloop' hframes hopen hbytes hpart hrx hcalls =>
      by_cases hnone : (run.state k).unread = []
      · -- nothing is left: every frame has been taken
        rw [hnone, List.append_nil] at hbytes
        rw [left_of_part hbytes hpart, List.append_nil] at hframes
        refine ⟨k, ?_, fun hcloses => ?_⟩
        · rw [hcalls, hframes]
        · rw [hframes, hopen] at hcloses
          cases hcloses
      · obtain ⟨j, hkj, hpc, bytes, hne, hread⟩ := harrives k hloop (by rw [hrx]) hnone
        have hless := run.unread_of_read hpc hne hread
        have hle := run.unread_antitone hkj
        have hpast : (run.state (j + 1)).thread.PastOpen :=
          WsThread.PastOpen.step (Or.inr (Or.inr (Or.inl hpc))) cfg (run.results j)
        rcases hpast with hloop' | hloop' | hloop' | hover
        · exact ih _ (by omega) (Or.inl hloop') rfl
        · exact ih _ (by omega) (Or.inr (Or.inl hloop')) rfl
        · exact ih _ (by omega) (Or.inr (Or.inr hloop')) rfl
        · exact ⟨j + 1, run.delivered_of_over hover⟩

end ServerRun

/-- Against a server that sends a conforming response and frames, however they are cut up, and while
nobody disconnects and no call but a read fails or has to wait, the worker only ever makes the
callbacks of the open connection, of the frames in order up to the first Close, and of the end; it
has made all of them when `threadFunc` is over. When what is sent arrives, those of the frames are
all made, and a Close ends `threadFunc`. -/
theorem conforming_server_is_served {cfg : ClientConfig} (run : ServerRun cfg) :
    (∀ k, (run.state k).thread.callbacks <+: deliveries run.frames ++ [farewell run.frames]) ∧
    (∀ k, (run.state k).thread.isOver = true → (run.state k).thread.pc = .returned ∧
      (run.state k).thread.callbacks = deliveries run.frames ++ [farewell run.frames]) ∧
    (run.Arrives → ∃ k, deliveries run.frames <+: (run.state k).thread.callbacks ∧
      (run.frames.any ServerFrame.closes = true → (run.state k).thread.pc = .returned)) := by
  refine ⟨run.callbacks_prefix, fun k => run.callbacks_of_over, fun harrives => ?_⟩
  obtain ⟨k, hloop, -⟩ := run.opens
  exact run.delivered_of_loop harrives (Or.inl hloop)

/-- What the calls give when the server has sent everything at once. -/
def obliging (x : Exchange) : CallResults where
  getaddrinfo := some 1
  socket := some 3
  connect := .connected
  pollConnect := true
  soError := 0
  sslCtxNew := some 1
  sslNew := some 1
  sslConnect := .done ()
  errorString := []
  write := .done 1
  readChar := (x.unread.head?.map IoResult.done).getD .closed
  poll := .ready true false
  read := if x.unread = [] then .failed .eagain .wantRead else .done x.unread
  storesClosing := false
  storesNotRunning := false

theorem obliging_obliges (cfg : ClientConfig) (x : Exchange) : x.Obliges cfg (obliging x) := by
  refine ⟨?_, ?_, rfl, rfl, fun _ => ?_, fun _ => ?_⟩
  · unfold Exchange.Served
    split
    · rfl
    · rfl
    · exact fun h => by cases h
    · rfl
    · rfl
    · rfl
    · rfl
    · exact Or.inl rfl
    · exact fun _ => Or.inl ⟨0, rfl⟩
    · intro c hc
      simp [obliging, Option.mem_def.mp hc]
    · trivial
  · rintro (⟨-, hwait⟩ | ⟨sent, -, -, hwait⟩)
    · cases hwait
    · cases hwait
  · exact fun h => by cases h
  · by_cases hnone : x.unread = []
    · left
      cases x.thread.ssl <;> simp [obliging, hnone, IoResult.isTransient]
    · refine Or.inr (Or.inl ⟨x.unread, List.prefix_refl _, ?_⟩)
      simp [obliging, hnone]

/-- There is a run for every conforming response and all frames, and one in which they arrive. -/
theorem exists_serverRun (cfg : ClientConfig) {head : ResponseHead}
    (hconforms : head.Conforms cfg.expectedAccept) (frames : List ServerFrame) :
    ∃ run : ServerRun cfg, run.frames = frames ∧ run.Arrives := by
  obtain ⟨results, hresults⟩ := exists_replies (Exchange.advance cfg)
    ⟨WsThread.start [], head.bytes ++ (frames.flatMap ServerFrame.encode ++ [])⟩ obliging
  let run : ServerRun cfg := ⟨head, hconforms, frames, unmaskedText, [], List.nil_prefix,
    List.cons_ne_nil _ _ |>.symm, results, fun k => by
      rw [hresults k]
      exact obliging_obliges cfg _⟩
  have hstate (k : Nat) :
      run.state (k + 1) = (run.state k).advance cfg (obliging (run.state k)) := by
    change (run.state k).advance cfg (results k) = _
    rw [hresults k]
    rfl
  have hquiet (k : Nat) : (run.state k).thread.interfere (obliging (run.state k)) =
      (run.state k).thread := WsThread.interfere_quiet rfl rfl
  have hread {k : Nat} (hpc : (run.state k).thread.pc = .read) (hne : (run.state k).unread ≠ []) :
      ∃ bytes, bytes ≠ [] ∧ (run.results k).read = .done bytes := by
    refine ⟨(run.state k).unread, hne, ?_⟩
    change (results k).read = _
    rw [hresults k]
    exact if_neg hne
  have hpoll {k : Nat} (hpc : (run.state k).thread.pc = .poll) :
      (run.state (k + 1)).thread.pc = .read ∧
        (run.state (k + 1)).unread = (run.state k).unread := by
    rw [hstate k]
    simp only [Exchange.advance, hpc, WsThread.step, hquiet, WsThread.loopStep]
    exact ⟨rfl, trivial⟩
  have hloop {k : Nat} (hpc : (run.state k).thread.pc = .loop)
      (hrunning : (run.state k).thread.rx.running = true) :
      (run.state (k + 1)).thread.pc = .poll ∧
        (run.state (k + 1)).unread = (run.state k).unread := by
    rw [hstate k]
    simp only [Exchange.advance, hpc, WsThread.step, hquiet, WsThread.loopStep, hrunning, if_true]
    exact ⟨trivial, trivial⟩
  refine ⟨run, rfl, fun k hin hrunning hne => ?_⟩
  rcases hin with hpc | hpc | hpc
  · obtain ⟨hpc', hsame⟩ := hloop hpc hrunning
    obtain ⟨hpc'', hsame'⟩ := hpoll hpc'
    exact ⟨k + 2, by omega, hpc'', hread hpc'' (by rwa [hsame', hsame])⟩
  · obtain ⟨hpc', hsame⟩ := hpoll hpc
    exact ⟨k + 1, by omega, hpc', hread hpc' (by rwa [hsame])⟩
  · exact ⟨k, Nat.le_refl k, hpc, hread hpc hne⟩

theorem acceptLine_proves (digest : Digest) :
    hasName (acceptLine (digestText digest)) acceptName = true ∧
      trimmed ((acceptLine (digestText digest)).drop acceptName.length) = digestText digest := by
  obtain ⟨e, mid, he, hform⟩ := digestText_form digest
  rw [hform]
  exact acceptValue_line (acceptValue_acceptLine he)

/-- The head of `plainResponse`. -/
def plainHead (digest : Digest) : ResponseHead where
  statusLine := ascii "HTTP/1.1 101"
  headers := [acceptLine (digestText digest)]
  isLine_status := isLine_of_not_mem (by decide)
  isLine_headers := by
    intro line hline
    obtain rfl := List.mem_singleton.mp hline
    exact ⟨isLine_of_not_mem (cr_not_mem_acceptLine digest), by simp [acceptLine]⟩

theorem plainHead_conforms (digest : Digest) :
    (plainHead digest).Conforms (digestText digest) where
  status := show statusNumber (ascii "HTTP/1.1 101") = some 101 by decide
  status_fits := show (ascii "HTTP/1.1 101").length + 2 ≤ statusLineCap by decide
  headers_fit := by
    intro line hline
    obtain rfl := List.mem_singleton.mp hline
    have hname : acceptName.length = 21 := rfl
    have hmax : headerLineCap = 4096 := rfl
    rw [acceptLine, List.length_append, List.length_cons, digestText_length]
    omega
  named := ⟨_, List.mem_singleton_self _, (acceptLine_proves digest).1⟩
  proves := by
    intro line hline _
    obtain rfl := List.mem_singleton.mp hline
    exact (acceptLine_proves digest).2

def emptyClose : ServerFrame :=
  ⟨0x88, none, .short, [], show 0 < 126 by decide, by decide⟩

/-- A text and a Close, behind a response that only says what it has to. -/
theorem text_and_close_are_served : ∃ (run : ServerRun (configWith ⟨[], [], [], false⟩)) (k : Nat),
    (run.state k).thread.pc = .returned ∧ (run.state k).thread.callbacks =
      [.onOpen, .onMessage [0x68, 0x69], .onClose 1000 (ascii "Connection closed")] := by
  obtain ⟨run, hframes, harrives⟩ := exists_serverRun (configWith ⟨[], [], [], false⟩)
    (plainHead_conforms _) [unmaskedText, emptyClose]
  obtain ⟨-, hover, hall⟩ := conforming_server_is_served run
  obtain ⟨k, -, hreturned⟩ := hall harrives
  have hpc := hreturned (by rw [hframes]; decide)
  have hcalls := (hover k (by simp [WsThread.isOver, hpc])).2
  have hscript : deliveries [unmaskedText, emptyClose] ++ [farewell [unmaskedText, emptyClose]] =
      [.onOpen, .onMessage [0x68, 0x69], .onClose 1000 (ascii "Connection closed")] := by decide
  rw [hframes, hscript] at hcalls
  exact ⟨run, k, hpc, hcalls⟩

end ModAudioStream
