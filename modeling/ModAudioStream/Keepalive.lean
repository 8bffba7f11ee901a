import ModAudioStream.SslRecords

namespace ModAudioStream

/-- What `strtol` leaves unread: the whole text when it finds no digit. -/
def strtolEnd (s : List UInt8) : List UInt8 :=
  let t := (unsign (s.dropWhile isSpace)).2
  if (t.takeWhile isDigit).isEmpty then s else t.dropWhile isDigit

/-- `heart_beat`, from `STREAM_HEART_BEAT`. `AudioStreamer` gives it to `setPingInterval` unless it
is 0, which is what the client starts with. -/
def heartBeat : Option (List UInt8) → Int
  | some text =>
    if strtolEnd text = [] ∧ strtol text ≤ 2 ^ 31 - 1 ∧ -2 ^ 31 ≤ strtol text then strtol text
    else 0
  | none => 0

/-- In nanoseconds, the ticks of `steady_clock`. -/
def second : Int := 1000000000

/-- How long `poll` may take. -/
def pollTimeout (pingInterval : Int) : Int := if 0 < pingInterval then second else 5 * second

inductive ActivityKind where
  | opened
  | read
  | ping
deriving DecidableEq, Repr

/-- What moves `lastActivity_`, and the time that it stores. -/
structure Activity where
  kind : ActivityKind
  time : Int
deriving DecidableEq, Repr

/-- The worker with its clocks: the time of its latest step, `now`, and `lastActivity_`.
`activity` only records the run. -/
structure TimedThread where
  thread : WsThread
  pingInterval : Int
  clock : Int
  now : Int
  lastActivity : Int
  activity : List Activity

namespace TimedThread

def start (rxbuf : List UInt8) (pingInterval time : Int) : TimedThread :=
  ⟨.start rxbuf, pingInterval, time, time, time, []⟩

def note (s : TimedThread) (kind : ActivityKind) (time : Int) : TimedThread :=
  { s with lastActivity := time, activity := s.activity ++ [⟨kind, time⟩] }

/-- The last part of an iteration. What becomes of the ping makes no difference. -/
def ping (s : TimedThread) : TimedThread :=
  if 0 < s.pingInterval then
    if s.pingInterval ≤ (s.now - s.lastActivity).tdiv second then s.note .ping s.now else s
  else s

def ran (cfg : ClientConfig) (s : TimedThread) (r : CallResults) (time : Int) : TimedThread :=
  { s with thread := s.thread.step cfg r, clock := time }

/-- A step of the worker that ends at `time`. -/
def step (cfg : ClientConfig) (s : TimedThread) (r : CallResults) (time : Int) : TimedThread :=
  let t := s.ran cfg r time
  match s.thread.pc with
  | .readResponse _ => if t.thread.pc = .loop then t.note .opened time else t
  | .poll =>
    let t := { t with now := time }
    match r.poll with
    | .ready false _ => t.ping
    | _ => t
  | .read =>
    let t := match r.read with
      | .done _ => t.note .read t.now
      | _ => t
    if t.thread.pc = .loop then t.ping else t
  | _ => t

end TimedThread

/-- Time does not run backwards. -/
def TimedStep (cfg : ClientConfig) (s : TimedThread) (a : CallResults × Int) (t : TimedThread) :
    Prop := s.clock ≤ a.2 ∧ s.step cfg a.1 a.2 = t

/-- How one activity follows another: a ping waits for the interval to pass. -/
def Spaced (pingInterval : Int) (a b : Activity) : Prop :=
  a.time ≤ b.time ∧ (b.kind = .ping → 0 < pingInterval ∧ pingInterval * second ≤ b.time - a.time)

/-- The one follows the other in less than `bound`. -/
def Within (bound : Int) (a b : Activity) : Prop := b.time - a.time < bound

theorem isChain_snoc {α : Type*} {R : α → α → Prop} {xs : List α} {b : α} (h : xs.IsChain R)
    (hlast : ∀ a ∈ xs.getLast?, R a b) : (xs ++ [b]).IsChain R := by
  refine h.append (.singleton b) fun a ha x hx => ?_
  have hxb : b = x := by simpa using hx
  exact hxb ▸ hlast a ha

/-- `duration_cast` drops what is less than a second. -/
theorem le_seconds_iff {interval elapsed : Int} (h : 0 < interval) :
    interval ≤ elapsed.tdiv second ↔ interval * second ≤ elapsed := by
  unfold second
  rcases Int.le_total 0 elapsed with helapsed | helapsed
  · rw [Int.tdiv_eq_ediv_of_nonneg helapsed]
    omega
  · have hneg : elapsed.tdiv 1000000000 ≤ 0 := by
      rw [← Int.neg_nonneg, ← Int.neg_tdiv]
      exact Int.tdiv_nonneg (by omega) (by omega)
    omega

namespace TimedThread

variable {cfg : ClientConfig} {s t : TimedThread} {r : CallResults} {time : Int}

theorem ping_cases (s : TimedThread) :
    s.ping = s ∧ (0 < s.pingInterval → s.now - s.lastActivity < s.pingInterval * second) ∨
      s.ping = s.note .ping s.now ∧ 0 < s.pingInterval ∧
        s.pingInterval * second ≤ s.now - s.lastActivity := by
  unfold ping
  split
  next hpos =>
    split
    next hdue => exact Or.inr ⟨rfl, hpos, (le_seconds_iff hpos).mp hdue⟩
    next hdue =>
      exact Or.inl ⟨rfl, fun _ => Int.not_le.mp fun h => hdue ((le_seconds_iff hpos).mpr h)⟩
  next hpos => exact Or.inl ⟨rfl, fun h => absurd h hpos⟩

theorem ping_frame (s : TimedThread) : s.ping.clock = s.clock ∧
    s.ping.pingInterval = s.pingInterval ∧ s.ping.thread = s.thread := by
  rcases s.ping_cases with ⟨h, -⟩ | ⟨h, -⟩
  · rw [h]
    exact ⟨rfl, rfl, rfl⟩
  · rw [h]
    exact ⟨rfl, rfl, rfl⟩

/-- At the end of an iteration the interval has not passed. -/
theorem ping_silent (h : 0 < s.pingInterval) :
    s.now - s.ping.lastActivity < s.pingInterval * second := by
  rcases s.ping_cases with ⟨hping, hwait⟩ | ⟨hping, -⟩
  · rw [hping]
    exact hwait h
  · rw [hping]
    show s.now - s.now < s.pingInterval * second
    unfold second
    omega

/-- A read leaves no time for a ping in its iteration. -/
theorem ping_note_read (s : TimedThread) : (s.note .read s.now).ping = s.note .read s.now := by
  rcases (s.note .read s.now).ping_cases with ⟨h, -⟩ | ⟨-, hpos, hdue⟩
  · exact h
  · have hpos' : 0 < s.pingInterval := hpos
    have hdue' : s.pingInterval * second ≤ s.now - s.now := hdue
    unfold second at hdue'
    omega

theorem step_before (h : ¬s.thread.Looping) :
    s.step cfg r time = s.ran cfg r time ∧ ¬(s.ran cfg r time).thread.Looping ∨
      s.step cfg r time = (s.ran cfg r time).note .opened time ∧
        (s.ran cfg r time).thread.pc = .loop ∧ s.thread.isOver = false := by
  by_cases hstep : (s.ran cfg r time).thread.Looping
  · obtain ⟨reader, c, hpc, hread, hdone⟩ := WsThread.looping_step h hstep
    have hloop : (s.ran cfg r time).thread.pc = .loop := (WsThread.step_readLast hpc hread hdone).1
    refine Or.inr ⟨?_, hloop, by simp [WsThread.isOver, hpc]⟩
    simp only [step, hpc, hloop, if_true]
  · refine Or.inl ⟨?_, hstep⟩
    have hloop : (s.ran cfg r time).thread.pc ≠ .loop := fun hpc => hstep (Or.inl hpc)
    unfold step
    dsimp only
    split
    · exact if_neg hloop
    next hpc => exact absurd (Or.inr (Or.inl hpc)) h
    next hpc => exact absurd (Or.inr (Or.inr hpc)) h
    · rfl

theorem step_loop (hpc : s.thread.pc = .loop) :
    s.step cfg r time = s.ran cfg r time ∧
      ((s.ran cfg r time).thread.Looping → (s.ran cfg r time).thread.pc = .poll) := by
  refine ⟨by simp only [step, hpc], fun hstep => ?_⟩
  by_cases hrunning : s.thread.rx.running = true ∧ r.storesNotRunning = false
  · exact WsThread.step_loop_running hpc hrunning.1 hrunning.2
  · exact absurd hstep (WsThread.step_loop_stopped hpc hrunning)

theorem pc_of_poll (hpc : s.thread.pc = .poll) : (s.ran cfg r time).thread.pc =
    match r.poll with
    | .interrupted => .loop
    | .failed => .returned
    | .ready pollin _ => if pollin then .read else .loop := by
  unfold ran
  simp only [WsThread.step, WsThread.interfere_pc, hpc, WsThread.loopStep]
  cases r.poll with
  | interrupted => rfl
  | failed => exact WsThread.cleanup_pc _
  | ready pollin pollout => rfl

theorem step_poll (hpc : s.thread.pc = .poll) :
    s.step cfg r time = ({ s.ran cfg r time with now := time } : TimedThread).ping ∧
        (s.ran cfg r time).thread.pc = .loop ∨
      s.step cfg r time = { s.ran cfg r time with now := time } ∧
        ((s.ran cfg r time).thread.Looping → (s.ran cfg r time).thread.pc = .read ∨
          (s.ran cfg r time).thread.pc = .loop ∧ r.poll = .interrupted) := by
  have hnext := @pc_of_poll cfg s r time hpc
  simp only [step, hpc]
  cases hpoll : r.poll with
  | interrupted =>
    rw [hpoll] at hnext
    exact Or.inr ⟨rfl, fun _ => Or.inr ⟨hnext, rfl⟩⟩
  | failed =>
    rw [hpoll] at hnext
    refine Or.inr ⟨rfl, fun h => absurd h (WsThread.not_looping_of_over ?_)⟩
    simp [WsThread.isOver, hnext]
  | ready pollin pollout =>
    rw [hpoll] at hnext
    cases pollin with
    | false => exact Or.inl ⟨rfl, hnext⟩
    | true => exact Or.inr ⟨rfl, fun _ => Or.inl hnext⟩

theorem step_read (hpc : s.thread.pc = .read) :
    s.step cfg r time = (s.ran cfg r time).note .read s.now ∧
        ((s.ran cfg r time).thread.Looping → (s.ran cfg r time).thread.pc = .loop) ∨
      s.step cfg r time = (s.ran cfg r time).ping ∧ (s.ran cfg r time).thread.pc = .loop ∨
      s.step cfg r time = s.ran cfg r time ∧ ¬(s.ran cfg r time).thread.Looping := by
  have hloop (h : (s.ran cfg r time).thread.Looping) : (s.ran cfg r time).thread.pc = .loop :=
    WsThread.loop_of_read hpc h
  -- without a byte read the iteration ends with the ping, unless the loop is left
  have hrest (hread : ∀ bytes, r.read ≠ .done bytes) :
      s.step cfg r time = if (s.ran cfg r time).thread.pc = .loop then (s.ran cfg r time).ping
        else s.ran cfg r time := by
    simp only [step, hpc]
  by_cases hread : ∃ bytes, r.read = .done bytes
  · obtain ⟨bytes, hread⟩ := hread
    refine Or.inl ⟨?_, hloop⟩
    simp only [step, hpc, hread]
    split
    · exact ping_note_read _
    · rfl
  · rw [hrest fun bytes h => hread ⟨bytes, h⟩]
    split
    next hpc' => exact Or.inr (Or.inl ⟨rfl, hpc'⟩)
    next hpc' => exact Or.inr (Or.inr ⟨rfl, fun h => hpc' (hloop h)⟩)

/-- An activity that a step in the main loop, which ends at `time`, may note. -/
structure Notes (s : TimedThread) (time : Int) (b : Activity) : Prop where
  moment : s.thread.pc = .poll ∧ b.time = time ∨ s.thread.pc = .read ∧ b.time = s.clock
  after : s.lastActivity ≤ b.time
  due : b.kind = .ping → 0 < s.pingInterval ∧ s.pingInterval * second ≤ b.time - s.lastActivity

/-- What holds in every state of a run, where `R` holds of each activity and the next. -/
structure Timed (R : Activity → Activity → Prop) (s : TimedThread) : Prop where
  chain : s.activity.IsChain R
  opens : ∀ a ∈ s.activity.head?, a.kind = .opened
  begun : s.thread.PastOpen ∨ s.activity = []
  last : s.thread.Looping → ∃ a ∈ s.activity.getLast?, a.time = s.lastActivity
  past : s.thread.Looping → s.lastActivity ≤ s.clock
  current : s.thread.pc = .read → s.now = s.clock

variable {R : Activity → Activity → Prop}

theorem timed_start (rxbuf : List UInt8) (pingInterval time : Int) :
    (start rxbuf pingInterval time).Timed R :=
  { chain := .nil
    opens := fun a ha => absurd ha (Option.not_mem_none a)
    begun := Or.inr rfl
    last := fun h => absurd h (by simp [start, WsThread.start, WsThread.Looping])
    past := fun _ => Int.le_refl _
    current := fun _ => rfl }

theorem ne_read_of_loop (h : s.thread.pc = .loop) : s.thread.pc ≠ .read := by
  rw [h]
  nofun

/-- A step that notes nothing. -/
theorem Timed.quiet (h : s.Timed R) (hactivity : t.activity = s.activity)
    (hlast : t.lastActivity = s.lastActivity) (hclock : s.clock ≤ t.clock)
    (hbegun : t.thread.PastOpen ∨ t.activity = []) (hloop : t.thread.Looping → s.thread.Looping)
    (hcurrent : t.thread.pc = .read → t.now = t.clock) : t.Timed R :=
  { chain := by
      rw [hactivity]
      exact h.chain
    opens := by
      rw [hactivity]
      exact h.opens
    begun := hbegun
    last := fun ht => by
      rw [hactivity, hlast]
      exact h.last (hloop ht)
    past := fun ht => by
      rw [hlast]
      exact (h.past (hloop ht)).trans hclock
    current := hcurrent }

/-- A step that notes an activity is the end of an iteration. -/
theorem timed_note {kind : ActivityKind} (hchain : s.activity.IsChain R)
    (hopens : ∀ a ∈ (s.activity ++ [Activity.mk kind time]).head?, a.kind = .opened)
    (hlast : ∀ a ∈ s.activity.getLast?, R a ⟨kind, time⟩) (hpast : time ≤ s.clock)
    (hbegun : s.thread.PastOpen) (hloop : s.thread.pc ≠ .read) : (s.note kind time).Timed R :=
  { chain := isChain_snoc hchain hlast
    opens := hopens
    begun := Or.inl hbegun
    last := fun _ => ⟨⟨kind, time⟩, by simp [note], rfl⟩
    past := fun _ => hpast
    current := fun h => absurd h hloop }

/-- In the main loop there is an activity before the next one. -/
theorem Timed.before_next (h : s.Timed R) (hl : s.thread.Looping) (b : Activity) :
    (∀ a ∈ (s.activity ++ [b]).head?, a.kind = .opened) ∧
      ∀ a ∈ s.activity.getLast?, a.time = s.lastActivity := by
  obtain ⟨a, ha, htime⟩ := h.last hl
  constructor
  · have hne : s.activity ≠ [] := by
      rintro hnil
      rw [hnil] at ha
      exact absurd ha (Option.not_mem_none a)
    rw [List.head?_append_of_ne_nil _ hne]
    exact h.opens
  · intro a' ha'
    obtain rfl : a = a' := Option.some.inj (ha.symm.trans ha')
    exact htime

/-- The ping at the end of an iteration. -/
theorem Timed.ping (h : s.Timed R) (hpc : s.thread.pc = .loop) (hnow : s.now ≤ s.clock)
    (hdue : ∀ a, a.time = s.lastActivity → 0 < s.pingInterval →
      s.pingInterval * second ≤ s.now - s.lastActivity → R a ⟨.ping, s.now⟩) :
    s.ping.Timed R := by
  rcases s.ping_cases with ⟨hping, -⟩ | ⟨hping, hpos, hwait⟩
  · rw [hping]
    exact h
  · rw [hping]
    obtain ⟨hopens, hlast⟩ := h.before_next (Or.inl hpc) ⟨.ping, s.now⟩
    exact timed_note h.chain hopens (fun a ha => hdue a (hlast a ha) hpos hwait) hnow (Or.inl hpc)
      (ne_read_of_loop hpc)

theorem Timed.step (h : s.Timed R) (hclock : s.clock ≤ time)
    (hnotes : ∀ a b, a.time = s.lastActivity → s.Notes time b → R a b) :
    (s.step cfg r time).Timed R := by
  have hopen (hs : s.thread.PastOpen) : (s.ran cfg r time).thread.PastOpen := hs.step cfg r
  by_cases hlooping : s.thread.Looping
  · have hpast := h.past hlooping
    have hbegun : s.thread.PastOpen := by
      rcases hlooping with hpc | hpc | hpc
      · exact Or.inl hpc
      · exact Or.inr (Or.inl hpc)
      · exact Or.inr (Or.inr (Or.inl hpc))
    rcases hlooping with hpc | hpc | hpc
    · obtain ⟨hstep, hpoll⟩ := @step_loop cfg s r time hpc
      rw [hstep]
      refine h.quiet rfl rfl hclock (Or.inl (hopen hbegun)) (fun _ => Or.inl hpc) fun hread => ?_
      have hne := hpoll (Or.inr (Or.inr hread))
      rw [hread] at hne
      cases hne
    · rcases @step_poll cfg s r time hpc with ⟨hstep, hloop⟩ | ⟨hstep, -⟩
      · rw [hstep]
        refine Timed.ping (h.quiet rfl rfl hclock (Or.inl (hopen hbegun))
          (fun _ => Or.inr (Or.inl hpc)) fun _ => rfl) hloop (Int.le_refl _) ?_
        intro a ha hpos hwait
        exact hnotes a _ ha ⟨Or.inl ⟨hpc, rfl⟩, hpast.trans hclock, fun _ => ⟨hpos, hwait⟩⟩
      · rw [hstep]
        exact h.quiet rfl rfl hclock (Or.inl (hopen hbegun)) (fun _ => Or.inr (Or.inl hpc))
          fun _ => rfl
    · have hnow := h.current hpc
      rcases @step_read cfg s r time hpc with ⟨hstep, hloop⟩ | ⟨hstep, hloop⟩ | ⟨hstep, hleft⟩
      · rw [hstep]
        obtain ⟨hopens, hlast⟩ := h.before_next (Or.inr (Or.inr hpc)) ⟨.read, s.now⟩
        refine timed_note h.chain hopens (fun a ha => ?_) (hnow ▸ hclock) (hopen hbegun)
          fun hread => ?_
        · exact hnotes a _ (hlast a ha) ⟨Or.inr ⟨hpc, hnow⟩, hnow ▸ hpast, nofun⟩
        · exact ne_read_of_loop (hloop (Or.inr (Or.inr hread))) hread
      · rw [hstep]
        refine Timed.ping (h.quiet rfl rfl hclock (Or.inl (hopen hbegun))
          (fun _ => Or.inr (Or.inr hpc)) fun hread => absurd hread (ne_read_of_loop hloop)) hloop
          (hnow ▸ hclock) ?_
        intro a ha hpos hwait
        exact hnotes a _ ha ⟨Or.inr ⟨hpc, hnow⟩, hnow ▸ hpast, fun _ => ⟨hpos, hwait⟩⟩
      · rw [hstep]
        exact h.quiet rfl rfl hclock (Or.inl (hopen hbegun)) (fun hl => absurd hl hleft)
          fun hread => absurd (Or.inr (Or.inr hread)) hleft
  · rcases @step_before cfg s r time hlooping with ⟨hstep, hleft⟩ | ⟨hstep, hloop, hover⟩
    · rw [hstep]
      refine h.quiet rfl rfl hclock (h.begun.imp_left hopen) (fun hl => absurd hl hleft) ?_
      exact fun hread => absurd (Or.inr (Or.inr hread)) hleft
    · rw [hstep]
      have hnone : s.activity = [] := by
        refine h.begun.resolve_left fun hpast => ?_
        rcases hpast with hpc | hpc | hpc | hpc
        · exact hlooping (Or.inl hpc)
        · exact hlooping (Or.inr (Or.inl hpc))
        · exact hlooping (Or.inr (Or.inr hpc))
        · rw [hover] at hpc
          cases hpc
      have hran : (s.ran cfg r time).activity = [] := hnone
      refine timed_note h.chain (fun a ha => ?_) (fun a ha => ?_) (Int.le_refl _) (Or.inl hloop)
        (ne_read_of_loop hloop)
      · rw [hran] at ha
        obtain rfl := Option.some.inj ha
        rfl
      · rw [hran] at ha
        exact absurd ha (Option.not_mem_none a)

theorem step_clock (cfg : ClientConfig) (s : TimedThread) (r : CallResults) (time : Int) :
    (s.step cfg r time).clock = time ∧ (s.step cfg r time).pingInterval = s.pingInterval ∧
      (s.step cfg r time).thread = s.thread.step cfg r := by
  by_cases hlooping : s.thread.Looping
  · rcases hlooping with hpc | hpc | hpc
    · rw [(@step_loop cfg s r time hpc).1]
      exact ⟨rfl, rfl, rfl⟩
    · rcases @step_poll cfg s r time hpc with ⟨hstep, -⟩ | ⟨hstep, -⟩
      · rw [hstep]
        exact ping_frame _
      · rw [hstep]
        exact ⟨rfl, rfl, rfl⟩
    · rcases @step_read cfg s r time hpc with ⟨hstep, -⟩ | ⟨hstep, -⟩ | ⟨hstep, -⟩
      · rw [hstep]
        exact ⟨rfl, rfl, rfl⟩
      · rw [hstep]
        exact ping_frame _
      · rw [hstep]
        exact ⟨rfl, rfl, rfl⟩
  · rcases @step_before cfg s r time hlooping with ⟨hstep, -⟩ | ⟨hstep, -⟩
    · rw [hstep]
      exact ⟨rfl, rfl, rfl⟩
    · rw [hstep]
      exact ⟨rfl, rfl, rfl⟩

theorem timed_spaced_step {a : CallResults × Int} (h : s.Timed (Spaced s.pingInterval))
    (hs : TimedStep cfg s a t) : t.Timed (Spaced t.pingInterval) := by
  obtain ⟨hclock, rfl⟩ := hs
  rw [(s.step_clock cfg a.1 a.2).2.1]
  refine h.step hclock fun b c hb hc => ?_
  rw [Spaced, hb]
  exact ⟨hc.after, hc.due⟩

/-- How long a step may take: `slack`, and for `poll` its timeout as well. -/
def allowance (s : TimedThread) (slack : Int) : Int :=
  if s.thread.pc = .poll then pollTimeout s.pingInterval + slack else slack

/-- A step in the main loop that takes longer, or a signal that interrupts `poll`. -/
def Delayed (slack : Int) (s : TimedThread) (a : CallResults × Int) : Prop :=
  s.thread.Looping ∧ (s.allowance slack < a.2 - s.clock ∨
    s.thread.pc = .poll ∧ a.1.poll = .interrupted)

/-- The longest that the line is silent, up to a step. -/
def silence (s : TimedThread) (slack : Int) : Int :=
  match s.thread.pc with
  | .loop => s.pingInterval * second + slack
  | .poll => s.pingInterval * second + 2 * slack
  | _ => s.pingInterval * second + second + 3 * slack

/-- What holds where no step is delayed. -/
structure Prompt (slack : Int) (s : TimedThread) : Prop where
  timed : s.Timed (Within (s.pingInterval * second + second + 3 * slack))
  positive : 0 < s.pingInterval
  silent : s.thread.Looping → s.clock - s.lastActivity < s.silence slack

theorem Prompt.timed_step {slack : Int} {a : CallResults × Int} (h : s.Prompt slack)
    (hprompt : ¬Delayed slack s a) (hclock : s.clock ≤ a.2) :
    (s.step cfg a.1 a.2).Timed (Within (s.pingInterval * second + second + 3 * slack)) := by
  refine h.timed.step hclock fun b c hb hc => ?_
  rw [Within, hb]
  rcases hc.moment with ⟨hpc, htime⟩ | ⟨hpc, htime⟩
  · have hl : s.thread.Looping := Or.inr (Or.inl hpc)
    have hsilent := h.silent hl
    have hallowed : a.2 - s.clock ≤ second + slack := by
      refine Int.not_lt.mp fun hlt => hprompt ⟨hl, Or.inl ?_⟩
      simpa [allowance, hpc, pollTimeout, h.positive] using hlt
    simp only [silence, hpc] at hsilent
    omega
  · have hsilent := h.silent (Or.inr (Or.inr hpc))
    simp only [silence, hpc] at hsilent
    omega

theorem Prompt.silent_step {slack : Int} (hslack : 0 ≤ slack) {a : CallResults × Int}
    (h : s.Prompt slack) (hprompt : ¬Delayed slack s a)
    (hl : (s.step cfg a.1 a.2).thread.Looping) :
    a.2 - (s.step cfg a.1 a.2).lastActivity < (s.step cfg a.1 a.2).silence slack := by
  have hpositive := h.positive
  have hsecond : 0 < s.pingInterval * second := Int.mul_pos hpositive (by decide)
  obtain ⟨-, hinterval, hthread⟩ := s.step_clock cfg a.1 a.2
  rw [hthread] at hl
  unfold silence
  rw [hinterval, hthread]
  by_cases hlooping : s.thread.Looping
  · have hsilent := h.silent hlooping
    have hallowed : a.2 - s.clock ≤ s.allowance slack :=
      Int.not_lt.mp fun hlt => hprompt ⟨hlooping, Or.inl hlt⟩
    rcases hlooping with hpc | hpc | hpc
    · obtain ⟨hstep, hpoll⟩ := @step_loop cfg s a.1 a.2 hpc
      rw [hstep, show (s.thread.step cfg a.1).pc = .poll from hpoll hl]
      simp only [silence, allowance, hpc] at hsilent hallowed
      show a.2 - s.lastActivity < s.pingInterval * second + 2 * slack
      simp only [reduceCtorEq, if_false] at hallowed
      omega
    · simp only [silence, allowance, hpc, if_true, pollTimeout, if_pos hpositive]
        at hsilent hallowed
      rcases @step_poll cfg s a.1 a.2 hpc with ⟨hstep, hloop⟩ | ⟨hstep, hnext⟩
      · rw [hstep, show (s.thread.step cfg a.1).pc = .loop from hloop]
        have hquiet := @ping_silent { s.ran cfg a.1 a.2 with now := a.2 } hpositive
        have hquiet' : a.2 - ({ s.ran cfg a.1 a.2 with now := a.2 } : TimedThread).ping.lastActivity
            < s.pingInterval * second := hquiet
        show a.2 - _ < s.pingInterval * second + slack
        omega
      · rcases hnext hl with hread | ⟨-, hinterrupted⟩
        · rw [hstep, show (s.thread.step cfg a.1).pc = .read from hread]
          show a.2 - s.lastActivity < s.pingInterval * second + second + 3 * slack
          omega
        · exact absurd ⟨Or.inr (Or.inl hpc), Or.inr ⟨hpc, hinterrupted⟩⟩ hprompt
    · have hcurrent := h.timed.current hpc
      simp only [allowance, hpc, reduceCtorEq, if_false] at hallowed
      rcases @step_read cfg s a.1 a.2 hpc with ⟨hstep, hloop⟩ | ⟨hstep, hloop⟩ | ⟨hstep, hleft⟩
      · rw [hstep, show (s.thread.step cfg a.1).pc = .loop from hloop hl]
        show a.2 - s.now < s.pingInterval * second + slack
        omega
      · rw [hstep, show (s.thread.step cfg a.1).pc = .loop from hloop]
        have hquiet : s.now - (s.ran cfg a.1 a.2).ping.lastActivity < s.pingInterval * second :=
          @ping_silent (s.ran cfg a.1 a.2) hpositive
        show a.2 - _ < s.pingInterval * second + slack
        omega
      · exact absurd hl hleft
  · rcases @step_before cfg s a.1 a.2 hlooping with ⟨hstep, hleft⟩ | ⟨hstep, hloop, -⟩
    · exact absurd hl hleft
    · rw [hstep, show (s.thread.step cfg a.1).pc = .loop from hloop]
      show a.2 - a.2 < s.pingInterval * second + slack
      omega

theorem Prompt.step {slack : Int} (hslack : 0 ≤ slack) {a : CallResults × Int}
    (h : s.Prompt slack) (hprompt : ¬Delayed slack s a) (hs : TimedStep cfg s a t) :
    t.Prompt slack := by
  obtain ⟨hclock, rfl⟩ := hs
  obtain ⟨hnow, hinterval, -⟩ := s.step_clock cfg a.1 a.2
  exact {
    timed := by
      rw [hinterval]
      exact h.timed_step hprompt hclock
    positive := by
      rw [hinterval]
      exact h.positive
    silent := fun hl => by
      rw [hnow]
      exact h.silent_step hslack hprompt hl }

end TimedThread

namespace TimedThread

variable {cfg : ClientConfig}

/-- A ping is not the first activity, so that it waits for the interval. -/
theorem Timed.ping_due {s : TimedThread} {interval : Int} (h : s.Timed (Spaced interval))
    {b : Activity} (hb : b ∈ s.activity) (hping : b.kind = .ping) : 0 < interval := by
  obtain ⟨before, after, hactivity⟩ := List.append_of_mem hb
  cases before using List.reverseRecOn with
  | nil =>
    have hopened := h.opens b (by rw [hactivity]; rfl)
    rw [hping] at hopened
    cases hopened
  | append_singleton before a =>
    have hchain := h.chain
    rw [hactivity, List.append_assoc, List.isChain_append] at hchain
    have hnext : Spaced interval a b := by
      have htail := hchain.2.1
      exact htail.rel
    exact (hnext.2 hping).1

theorem timed_run {s t : TimedThread} {acts : List (CallResults × Int)}
    (hr : Run (TimedStep cfg) s acts t) (h : s.Timed (Spaced s.pingInterval)) :
    t.Timed (Spaced t.pingInterval) ∧ t.pingInterval = s.pingInterval := by
  refine Run.invariant (P := fun u => u.Timed (Spaced u.pingInterval) ∧
    u.pingInterval = s.pingInterval) ?_ hr ⟨h, rfl⟩
  rintro u a v ⟨hu, hinterval⟩ hs
  refine ⟨timed_spaced_step hu hs, ?_⟩
  rw [← hs.2, (u.step_clock cfg a.1 a.2).2.1, hinterval]

theorem prompt_run {slack : Int} (hslack : 0 ≤ slack) {s t : TimedThread}
    {acts : List (CallResults × Int)} (hr : Run (TimedStep cfg) s acts t)
    (hn : Never (TimedStep cfg) (Delayed slack) s acts) (h : s.Prompt slack) : t.Prompt slack :=
  always_of_kept (fun _ _ _ hu hprompt hs => hu.step hslack hprompt hs) h hn acts t
    (List.prefix_refl _) hr

theorem Prompt.silence_le {slack : Int} (hslack : 0 ≤ slack) (s : TimedThread) :
    s.silence slack ≤ s.pingInterval * second + second + 3 * slack := by
  have hsecond : 0 < second := by decide
  unfold silence
  split
  · omega
  · omega
  · omega

end TimedThread

/-- In every run of the worker, for every `STREAM_HEART_BEAT`: there are pings only where it is a
positive number, and one goes out only when that many seconds have passed since the line was last
active, through the opening, a read or a ping. Where no step is delayed, it is never silent for
longer than these, the timeout of `poll` and what the steps take. -/
theorem pings_keep_alive (cfg : ClientConfig) (rxbuf : List UInt8) (var : Option (List UInt8))
    (time slack : Int) (hslack : 0 ≤ slack) {acts : List (CallResults × Int)} {t : TimedThread}
    (hr : Run (TimedStep cfg) (.start rxbuf (heartBeat var) time) acts t) :
    (∀ b ∈ t.activity, b.kind = .ping → 0 < heartBeat var) ∧
      t.activity.IsChain (Spaced (heartBeat var)) ∧
      (0 < heartBeat var →
        Never (TimedStep cfg) (TimedThread.Delayed slack) (.start rxbuf (heartBeat var) time) acts →
        t.activity.IsChain (Within (heartBeat var * second + second + 3 * slack)) ∧
          (t.thread.Looping → ∃ a ∈ t.activity.getLast?,
            t.clock - a.time < heartBeat var * second + second + 3 * slack)) := by
  obtain ⟨htimed, hinterval⟩ := TimedThread.timed_run hr (TimedThread.timed_start _ _ _)
  have hvar : t.pingInterval = heartBeat var := hinterval
  rw [hvar] at htimed
  refine ⟨fun b hb hping => htimed.ping_due hb hping, htimed.chain, fun hpos hn => ?_⟩
  have hstart : (TimedThread.start rxbuf (heartBeat var) time).Prompt slack :=
    ⟨TimedThread.timed_start _ _ _, hpos, fun hl =>
      absurd hl (by simp [TimedThread.start, WsThread.start, WsThread.Looping])⟩
  have hprompt := TimedThread.prompt_run hslack hr hn hstart
  rw [← hvar]
  refine ⟨hprompt.timed.chain, fun hl => ?_⟩
  obtain ⟨a, ha, htime⟩ := htimed.last hl
  refine ⟨a, ha, ?_⟩
  rw [htime]
  exact (hprompt.silent hl).trans_le (TimedThread.Prompt.silence_le hslack t)

/-- A run over TLS is a timed run, here one that takes no time: only what follows it can be
delayed. -/
theorem timed_of_tls {cfg : WssConfig} {x y : TlsWorker} {events : List TlsEvent}
    (hr : Run (fun x e y => TlsWorker.step cfg x e = y) x events y)
    (hpoll : ∀ e ∈ events, e.calls.poll ≠ .interrupted) {s : TimedThread}
    (hs : s.thread = x.thread) :
    ∃ acts t, Run (TimedStep cfg.toClientConfig) s acts t ∧ t.thread = y.thread ∧
      t.clock = s.clock ∧ ∀ slack more, 0 ≤ slack →
        Never (TimedStep cfg.toClientConfig) (TimedThread.Delayed slack) t more →
        Never (TimedStep cfg.toClientConfig) (TimedThread.Delayed slack) s (acts ++ more) := by
  induction hr generalizing s with
  | nil => exact ⟨[], s, Run.nil s, hs, rfl, fun _ _ _ hmore => hmore⟩
  | @cons x x' y e events hstep _ ih =>
    obtain ⟨r, hthread, hrpoll⟩ : ∃ r, x'.thread = s.thread.step cfg.toClientConfig r ∧
        r.poll = e.calls.poll := by
      rw [← hstep, hs]
      unfold TlsWorker.step
      split
      · exact ⟨_, rfl, rfl⟩
      · exact ⟨_, rfl, rfl⟩
      · exact ⟨_, rfl, rfl⟩
    obtain ⟨hclock, -, hnext⟩ := s.step_clock cfg.toClientConfig r s.clock
    obtain ⟨acts, t, hrun, ht, htime, hnever⟩ := @ih
      (fun e he => hpoll e (List.mem_cons_of_mem _ he)) (s.step cfg.toClientConfig r s.clock)
      (hnext.trans hthread.symm)
    refine ⟨(r, s.clock) :: acts, t, Run.cons ⟨Int.le_refl _, rfl⟩ hrun, ht, htime.trans hclock,
      fun slack more hslack hmore => never_cons_iff.mpr ⟨?_, ?_⟩⟩
    · rintro ⟨-, hlong | ⟨-, hinterrupted⟩⟩
      · have htimeout : 0 ≤ s.allowance slack := by
          unfold TimedThread.allowance pollTimeout second
          split
          · split
            · omega
            · omega
          · exact hslack
        dsimp only at hlong
        omega
      · exact hpoll e List.mem_cons_self (hrpoll.symm.trans hinterrupted)
    · rintro u ⟨-, rfl⟩
      exact hnever slack more hslack hmore

/-- With a heart beat of a second, a `poll` that ends after two, one of them being slack. -/
theorem ping_after_silence : ∃ acts t,
    Run (TimedStep (configWith ⟨[], [], [], false⟩)) (.start [] (heartBeat (some (ascii "1"))) 0)
      acts t ∧
    Never (TimedStep (configWith ⟨[], [], [], false⟩)) (TimedThread.Delayed second)
      (.start [] (heartBeat (some (ascii "1"))) 0) acts ∧
    ⟨.ping, 2 * second⟩ ∈ t.activity ∧ 0 < heartBeat (some (ascii "1")) ∧
      t.activity.IsChain (Spaced (heartBeat (some (ascii "1")))) ∧
      t.activity.IsChain
        (Within (heartBeat (some (ascii "1")) * second + second + 3 * second)) := by
  let cfg : WssConfig := ⟨configWith ⟨[], [], [], false⟩, rfl⟩
  let record : TlsRecord := ⟨TlsWorker.responseAndFrame cfg.digest, by decide⟩
  let calls : CallResults := ⟨some 1, some 3, .connected, true, 0, some 1, some 2, .done (), [],
    .done (cfg.request.length + 1), .closed, .ready false false, .closed, false, false⟩
  let e : TlsEvent := ⟨[], calls, .closed⟩
  let connecting : List TlsEvent := ⟨[record], calls, .closed⟩ :: List.replicate 5 e
  have hconnect := run_foldl (TlsWorker.step cfg) (TlsWorker.start []) connecting
  obtain ⟨n, x, hsend, hpc, hrunning, hinput⟩ := @TlsWorker.sends_request cfg
    (connecting.foldl (TlsWorker.step cfg) (TlsWorker.start [])) e rfl rfl
    ⟨cfg.request.length, by omega, rfl⟩ rfl rfl
  obtain ⟨m, y, hread, hloop, hrunning', -⟩ := TlsWorker.reads_response (e := e) rfl rfl
    (TlsWorker.responseAndFrame_accepted cfg.digest) hpc hrunning (by rw [hinput]; rfl)
  have hopens := run_append_iff.mpr ⟨_, hconnect, run_append_iff.mpr ⟨x, hsend, hread⟩⟩
  have hready : ∀ event ∈ connecting ++ (List.replicate n e ++ List.replicate m e),
      event.calls.poll ≠ .interrupted := by
    intro event hevent
    have hcalls : event.calls = calls := by
      rcases List.mem_append.mp hevent with hevent | hevent
      · rcases List.mem_cons.mp hevent with rfl | hevent
        · rfl
        · rw [List.eq_of_mem_replicate hevent]
      · rcases List.mem_append.mp hevent with hevent | hevent
        · rw [List.eq_of_mem_replicate hevent]
        · rw [List.eq_of_mem_replicate hevent]
    rw [hcalls]
    nofun
  obtain ⟨acts, s, hrun, hthread, hclock, hnever⟩ := @timed_of_tls cfg _ _ _ hopens hready
    (.start [] (heartBeat (some (ascii "1"))) 0) rfl
  have hbeat : heartBeat (some (ascii "1")) = 1 := by decide
  let polling := s.step cfg.toClientConfig calls 0
  have hsloop : s.thread.pc = .loop := by rw [hthread]; exact hloop
  have hspoll : polling.thread.pc = .poll := by
    have hnext := @WsThread.step_loop_running s.thread calls cfg.toClientConfig hsloop
      (by rw [hthread]; exact hrunning') rfl
    rw [← hnext]
    exact congrArg WsThread.pc (s.step_clock _ calls 0).2.2
  have hpolls : Run (TimedStep cfg.toClientConfig)
      (.start [] (heartBeat (some (ascii "1"))) 0) (acts ++ [(calls, 0)]) polling :=
    run_append_iff.mpr ⟨s, hrun, Run.cons ⟨hclock.le, rfl⟩ (Run.nil _)⟩
  have hzero : polling.clock = 0 := (s.step_clock _ calls 0).1
  have hall : Run (TimedStep cfg.toClientConfig)
      (.start [] (heartBeat (some (ascii "1"))) 0)
      (acts ++ [(calls, 0), (calls, 2 * second)])
      (polling.step cfg.toClientConfig calls (2 * second)) := by
    refine run_append_iff.mpr ⟨s, hrun, Run.cons ⟨hclock.le, rfl⟩ (Run.cons ⟨?_, rfl⟩ (Run.nil _))⟩
    show polling.clock ≤ 2 * second
    rw [hzero]
    decide
  obtain ⟨htimed, hinterval⟩ := TimedThread.timed_run hpolls (TimedThread.timed_start _ _ _)
  have hone : polling.pingInterval = 1 := hinterval.trans hbeat
  have hprompt : Never (TimedStep cfg.toClientConfig) (TimedThread.Delayed second)
      (.start [] (heartBeat (some (ascii "1"))) 0) (acts ++ [(calls, 0), (calls, 2 * second)]) := by
    refine hnever second _ (by decide) (never_cons_iff.mpr ⟨?_, ?_⟩)
    · rintro ⟨-, hlong | ⟨hpoll, -⟩⟩
      · rw [TimedThread.allowance, hsloop, if_neg (by decide), hclock] at hlong
        exact absurd hlong (by decide)
      · exact absurd (hsloop.symm.trans hpoll) (by decide)
    · rintro u ⟨-, rfl⟩
      refine never_cons_iff.mpr ⟨?_, fun _ _ => never_nil⟩
      rintro ⟨-, hlong | ⟨-, hinterrupted⟩⟩
      · change polling.allowance second < 2 * second - polling.clock at hlong
        rw [TimedThread.allowance, if_pos hspoll, hzero, hone] at hlong
        exact absurd hlong (by decide)
      · cases hinterrupted
  obtain ⟨hpos, hspaced, hwithin⟩ := pings_keep_alive cfg.toClientConfig [] (some (ascii "1")) 0
    second (by decide) hall
  have hping : (⟨.ping, 2 * second⟩ : Activity) ∈
      (polling.step cfg.toClientConfig calls (2 * second)).activity := by
    have hstep : polling.step cfg.toClientConfig calls (2 * second) =
        ({ polling.ran cfg.toClientConfig calls (2 * second) with now := 2 * second } :
          TimedThread).ping := by
      simp only [TimedThread.step, hspoll]
      rfl
    have hlast : polling.lastActivity ≤ 0 :=
      (htimed.past (Or.inr (Or.inl hspoll))).trans hzero.le
    rw [hstep]
    rcases TimedThread.ping_cases
      ({ polling.ran cfg.toClientConfig calls (2 * second) with now := 2 * second } :
        TimedThread) with ⟨-, hwait⟩ | ⟨hnote, -⟩
    · have hwait' : 2 * second - polling.lastActivity < polling.pingInterval * second :=
        hwait (show 0 < polling.pingInterval by omega)
      rw [hone] at hwait'
      unfold second at hwait'
      omega
    · rw [hnote]
      exact List.mem_append_right _ List.mem_cons_self
  have hpositive := hpos _ hping rfl
  exact ⟨_, _, hall, hprompt, hping, hpositive, hspaced, (hwithin hpositive hprompt).1⟩

end ModAudioStream
