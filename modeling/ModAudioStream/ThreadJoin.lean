import ModAudioStream.ClientStopping

namespace ModAudioStream

/-- Where a call of `disconnect` is at `thread_`: its next step tests `threadStarted_` and
`joinable`, calls `join` or `detach`, returns from `join`, or stores `threadStarted_`. -/
inductive JoinPc where
  | test
  | handle
  | wait
  | clear
deriving DecidableEq, Repr

/-- The thread that takes a step; `none` is the worker. -/
def ClientAct.thread : ClientAct → Option Nat
  | .worker _ => none
  | .caller i => some i

namespace Client

/-- The call of `disconnect` that a thread is in. -/
def call (c : Client) : Option Nat → Option DisconnectPc
  | none => c.inside
  | some i => some (c.callers i)

/-- The call of a thread is behind `thread_`. -/
def returned (c : Client) : Option Nat → Client
  | none => { c with inside := some .returned }
  | some i => { c with callers := Function.update c.callers i .returned }

end Client

/-- A client with its `std::thread`. `calls` says where the calls at `thread_` are, `awaited` is
set while one of them is in `join`. `broken` is the outcome that `std::thread` leaves open or that
ends the process: a `join` or `detach` of what is not joinable, or while another call joins it. -/
structure ThreadClient where
  client : Client
  joinable : Bool
  awaited : Bool
  calls : Option Nat → JoinPc
  broken : Bool

namespace ThreadClient

def start (useTls : Bool) : ThreadClient := ⟨.start useTls, true, false, fun _ => .test, false⟩

def goTo (t : ThreadClient) (who : Option Nat) (pc : JoinPc) : ThreadClient :=
  { t with calls := Function.update t.calls who pc }

def returns (t : ThreadClient) (who : Option Nat) : ThreadClient :=
  { t.goTo who .test with client := t.client.returned who }

/-- A step of `disconnect` at `thread_`. -/
def threadStep (t : ThreadClient) (who : Option Nat) : ThreadClient :=
  match t.calls who with
  | .test =>
    if t.client.threadStarted ∧ t.joinable then t.goTo who .handle else t.returns who
  | .handle =>
    if ¬t.joinable ∨ t.awaited then { t with broken := true }
    else if who = none then { t.goTo who .clear with joinable := false }
    else { t.goTo who .wait with awaited := true }
  | .wait =>
    if t.client.worker = .finished then
      { t.goTo who .clear with joinable := false, awaited := false }
    else t
  | .clear => { t with client := { t.client with threadStarted := false } }.returns who

def step (t : ThreadClient) (a : ClientAct) : ThreadClient :=
  if t.broken then t
  else if t.client.call a.thread = some .join then t.threadStep a.thread
  else { t with client := t.client.step a }

/-- A call has passed its test of `thread_` and is not through with `join` or `detach`. -/
def AtThread (t : ThreadClient) (who : Option Nat) : Prop :=
  t.calls who = .handle ∨ t.calls who = .wait

/-- A call passes its test of `thread_` while another one is at it. -/
def Overlaps (t : ThreadClient) (a : ClientAct) : Prop :=
  t.client.call a.thread = some .join ∧ t.calls a.thread = .test ∧
    t.client.threadStarted = true ∧ t.joinable = true ∧ ∃ who, t.AtThread who

/-- What holds of `thread_` as long as one call at a time is at it. -/
structure Orderly (t : ThreadClient) : Prop where
  intact : t.broken = false
  sole : ∀ who other, t.AtThread who → t.AtThread other → who = other
  held : ∀ who, t.AtThread who → t.joinable = true
  awaited : t.awaited = true → ∃ who, t.calls who = .wait
  worker : t.calls none ≠ .wait

theorem orderly_start (useTls : Bool) : (start useTls).Orderly := by
  refine ⟨rfl, ?_, ?_, nofun, nofun⟩
  · rintro who other (h | h)
    · cases h
    · cases h
  · rintro who (h | h)
    · cases h
    · cases h

theorem atThread_goTo {t : ThreadClient} {who other : Option Nat} {pc : JoinPc}
    (h : (t.goTo who pc).AtThread other) :
    other = who ∧ (pc = .handle ∨ pc = .wait) ∨ other ≠ who ∧ t.AtThread other := by
  by_cases heq : other = who
  · subst heq
    left
    simpa [AtThread, goTo] using h
  · right
    simpa [AtThread, goTo, heq] using h

/-- A call that goes away from `thread_` leaves the others where they are. -/
theorem Orderly.goTo_away {t : ThreadClient} (h : t.Orderly) {who : Option Nat} {pc : JoinPc}
    (hpc : pc = .test ∨ pc = .clear) (hwait : t.calls who ≠ .wait) : (t.goTo who pc).Orderly := by
  have haway {other : Option Nat} (hat : (t.goTo who pc).AtThread other) : t.AtThread other := by
    rcases atThread_goTo hat with ⟨-, hin⟩ | ⟨-, hother⟩
    · rcases hpc with rfl | rfl
      · rcases hin with hin | hin <;> cases hin
      · rcases hin with hin | hin <;> cases hin
    · exact hother
  refine ⟨h.intact, fun a b ha hb => h.sole a b (haway ha) (haway hb),
    fun a ha => h.held a (haway ha), fun haw => ?_, ?_⟩
  · obtain ⟨other, hother⟩ := h.awaited haw
    refine ⟨other, ?_⟩
    have hne : other ≠ who := by
      rintro rfl
      exact hwait hother
    simpa [goTo, hne] using hother
  · by_cases hnone : none = who
    · subst hnone
      rcases hpc with rfl | rfl <;> simp [goTo]
    · simpa [goTo, hnone] using h.worker

/-- Behind a `join` or `detach` nobody is at `thread_`. -/
theorem Orderly.leave {t : ThreadClient} (h : t.Orderly) {who : Option Nat}
    (hat : t.AtThread who) {awaited : Bool} (haw : awaited = false) :
    Orderly { t.goTo who .clear with joinable := false, awaited := awaited } := by
  have hnobody {other : Option Nat} :
      ¬AtThread { t.goTo who .clear with joinable := false, awaited := awaited } other := by
    intro hother
    rcases atThread_goTo hother with ⟨-, hin⟩ | ⟨hne, hother⟩
    · rcases hin with hin | hin <;> cases hin
    · exact hne (h.sole _ _ hother hat)
  exact ⟨h.intact, fun _ _ ha => absurd ha hnobody, fun _ ha => absurd ha hnobody,
    fun htrue => absurd (haw.symm.trans htrue) nofun, fun hwait => hnobody (Or.inr hwait)⟩

theorem Orderly.of_client {t : ThreadClient} (h : t.Orderly) (c : Client) :
    Orderly { t with client := c } := ⟨h.intact, h.sole, h.held, h.awaited, h.worker⟩

/-- A call that is about to join or detach is the only one. -/
theorem Orderly.handle {t : ThreadClient} (h : t.Orderly) {who : Option Nat}
    (hat : t.calls who = .handle) : t.joinable = true ∧ t.awaited = false := by
  refine ⟨h.held who (Or.inl hat), Bool.eq_false_iff.mpr fun haw => ?_⟩
  obtain ⟨other, hother⟩ := h.awaited haw
  obtain rfl := h.sole other who (Or.inr hother) (Or.inl hat)
  rw [hat] at hother
  cases hother

theorem Orderly.step {t : ThreadClient} (h : t.Orderly) {a : ClientAct}
    (halone : ¬t.Overlaps a) : (t.step a).Orderly := by
  unfold ThreadClient.step
  rw [if_neg (by simp [h.intact])]
  split
  next hcall =>
    unfold threadStep
    cases hpc : t.calls a.thread with
    | test =>
      dsimp only
      split
      next hpass =>
        have hnobody : ∀ who, ¬t.AtThread who := fun who hat =>
          halone ⟨hcall, hpc, hpass.1, hpass.2, who, hat⟩
        have hself {who : Option Nat} (hat : (t.goTo a.thread .handle).AtThread who) :
            who = a.thread := by
          rcases atThread_goTo hat with ⟨rfl, -⟩ | ⟨-, hat⟩
          · rfl
          · exact absurd hat (hnobody who)
        refine ⟨h.intact, fun who other hw ho => (hself hw).trans (hself ho).symm,
          fun _ _ => hpass.2, fun haw => ?_, ?_⟩
        · obtain ⟨who, hwho⟩ := h.awaited haw
          exact absurd (Or.inr hwho) (hnobody who)
        · by_cases hnone : none = a.thread
          · simp [goTo, hnone]
          · simpa [goTo, hnone] using h.worker
      next => exact (h.goTo_away (Or.inl rfl) (by simp [hpc])).of_client _
    | handle =>
      obtain ⟨hjoinable, hawaited⟩ := h.handle hpc
      dsimp only
      rw [if_neg (by simp [hjoinable, hawaited])]
      split
      next => exact h.leave (Or.inl hpc) hawaited
      next hcaller =>
        have hsole {who : Option Nat} (hat : (t.goTo a.thread .wait).AtThread who) :
            who = a.thread := by
          rcases atThread_goTo hat with ⟨rfl, -⟩ | ⟨-, hat⟩
          · rfl
          · exact h.sole _ _ hat (Or.inl hpc)
        refine ⟨h.intact, fun who other hw ho => (hsole hw).trans (hsole ho).symm,
          fun _ _ => hjoinable, fun _ => ⟨a.thread, by simp [goTo]⟩, ?_⟩
        have hnone : none ≠ a.thread := fun heq => hcaller heq.symm
        simpa [goTo, hnone] using h.worker
    | wait =>
      dsimp only
      split
      next => exact h.leave (Or.inr hpc) rfl
      next => exact h
    | clear => exact (h.goTo_away (Or.inl rfl) (by simp [hpc])).of_client _
  next => exact h.of_client _

end ThreadClient

namespace Client

theorem call_returned_of_ne (c : Client) {who other : Option Nat} (hne : other ≠ who) :
    (c.returned who).call other = c.call other := by
  cases who with
  | none =>
    cases other with
    | none => exact absurd rfl hne
    | some i => rfl
  | some i =>
    cases other with
    | none => rfl
    | some j =>
      have hij : j ≠ i := fun heq => hne (congrArg some heq)
      simp [returned, call, hij]

/-- A step of a thread leaves the calls of the others alone. -/
theorem call_step_of_ne (c : Client) {a : ClientAct} {who : Option Nat} (hne : who ≠ a.thread) :
    (c.step a).call who = c.call who := by
  cases a with
  | worker env =>
    cases who with
    | none => exact absurd rfl hne
    | some i => exact congrArg (fun callers => some (callers i)) (c.callers_workerStep env)
  | caller j =>
    cases who with
    | none => exact (c.disconnectStep_frame false (c.callers j)).2.1
    | some i =>
      have hij : i ≠ j := fun heq => hne (congrArg some heq)
      simp [step, call, hij]

theorem Requests.returned {c : Client} (h : c.Requests) {who : Option Nat}
    (hcall : c.call who = some .join) (started : Bool) :
    Requests ({ c with threadStarted := started }.returned who) := by
  have hstopping : Stopping ({ c with threadStarted := started }.returned who) ↔ c.Stopping := by
    cases who <;> exact Iff.rfl
  refine ⟨?_, fun i hi => hstopping.mpr (h.stopping i ?_)⟩
  · cases who <;> exact h.terminal
  · cases who with
    | none => exact hi
    | some j =>
      by_cases hij : i = j
      · subst hij
        rw [Option.some.inj hcall]
        rfl
      · simpa [Client.returned, hij] using hi

end Client

namespace ThreadClient

/-- What a step does to the client: nothing, a step of the client, or the end of a call. -/
theorem step_client (t : ThreadClient) (a : ClientAct) : (t.step a).client = t.client ∨
    (t.step a).client = t.client.step a ∨ t.client.call a.thread = some .join ∧
      ∃ started, (t.step a).client =
        { t.client with threadStarted := started }.returned a.thread := by
  unfold step
  split
  next => exact Or.inl rfl
  next =>
    split
    next hcall =>
      unfold threadStep
      cases t.calls a.thread with
      | test =>
        dsimp only
        split
        next => exact Or.inl rfl
        next => exact Or.inr (Or.inr ⟨hcall, t.client.threadStarted, rfl⟩)
      | handle =>
        dsimp only
        split
        next => exact Or.inl rfl
        next =>
          split
          next => exact Or.inl rfl
          next => exact Or.inl rfl
      | wait =>
        dsimp only
        split
        next => exact Or.inl rfl
        next => exact Or.inl rfl
      | clear => exact Or.inr (Or.inr ⟨hcall, false, rfl⟩)
    next => exact Or.inr (Or.inl rfl)

theorem stopping_step {t : ThreadClient} (h : t.client.Stopping) (a : ClientAct) :
    (t.step a).client.Stopping := by
  rcases t.step_client a with hsame | hstep | ⟨-, started, hreturned⟩
  · rw [hsame]
    exact h
  · rw [hstep]
    exact Client.stopping_step h a
  · rw [hreturned]
    cases a.thread <;> exact h

theorem calls_goTo_of_ne (t : ThreadClient) {who other : Option Nat} (pc : JoinPc)
    (hne : other ≠ who) : (t.goTo who pc).calls other = t.calls other := by
  simp [goTo, hne]

theorem calls_step_of_ne (t : ThreadClient) {a : ClientAct} {who : Option Nat}
    (hne : who ≠ a.thread) : (t.step a).calls who = t.calls who := by
  unfold step
  split
  next => rfl
  next =>
    split
    next =>
      unfold threadStep
      cases t.calls a.thread with
      | test =>
        dsimp only
        split
        next => exact t.calls_goTo_of_ne _ hne
        next => exact t.calls_goTo_of_ne _ hne
      | handle =>
        dsimp only
        split
        next => rfl
        next =>
          split
          next => exact t.calls_goTo_of_ne _ hne
          next => exact t.calls_goTo_of_ne _ hne
      | wait =>
        dsimp only
        split
        next => exact t.calls_goTo_of_ne _ hne
        next => rfl
      | clear => exact t.calls_goTo_of_ne _ hne
    next => rfl

theorem call_step_of_ne (t : ThreadClient) {a : ClientAct} {who : Option Nat}
    (hne : who ≠ a.thread) : (t.step a).client.call who = t.client.call who := by
  rcases t.step_client a with hsame | hstep | ⟨-, started, hreturned⟩
  · rw [hsame]
  · rw [hstep]
    exact t.client.call_step_of_ne hne
  · rw [hreturned, Client.call_returned_of_ne _ hne]
    cases who <;> rfl

end ThreadClient

end ModAudioStream
