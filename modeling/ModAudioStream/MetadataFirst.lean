import ModAudioStream.Startup
import ModAudioStream.Runs

namespace ModAudioStream

/-- On the way to a start command that does not succeed. -/
def StartPc.fails : StartPc → Bool
  | .destroyTake => true
  | .destroyDisconnect => true
  | .destroyDelete => true
  | .failed => true
  | _ => false

namespace LinkPc

/-- Between the store of `OPEN` and the end of the open callback. -/
def opening : LinkPc → Bool
  | .onOpen => true
  | .openLookup => true
  | .readMetadata => true
  | .writeText _ => true
  | .sendMessage _ => true
  | _ => false

/-- Before the end of the open callback, on the way to it. -/
def before : LinkPc → Bool
  | .absent => true
  | .stage _ => true
  | .storeOpen => true
  | w => w.opening

theorem before_of_opening {w : LinkPc} (h : w.opening = true) : w.before = true := by
  cases w <;> first | rfl | cases h

end LinkPc

theorem stringAt_strncpy {src : CString} {n : Nat} (h : src.bytes.length < n)
    (beyond : List UInt8) : stringAt (strncpy src n) beyond = src.bytes := by
  obtain ⟨k, hk⟩ : ∃ k, n - src.bytes.length = k + 1 := ⟨n - src.bytes.length - 1, by omega⟩
  have hbytes : ∀ b ∈ src.bytes, (b != 0) = true := by
    intro b hb
    have hne : b ≠ 0 := fun h0 => src.noNul (h0 ▸ hb)
    simpa using hne
  have htake : src.bytes.take n = src.bytes := List.take_of_length_le (by omega)
  unfold stringAt strncpy
  rw [htake, hk, List.append_assoc, List.takeWhile_append_of_pos hbytes]
  simp [List.replicate_succ]

namespace Startup

/-- The metadata is the first item on the queue and the only text. -/
def Ahead (s : Startup) : Prop :=
  ∃ audio, s.accepted = ⟨s.metadata.bytes, false⟩ :: audio ∧
    ∀ item ∈ audio, item.isBinary = true

def Announced (s : Startup) : Prop :=
  s.metadata.bytes ≠ [] → s.start = .done → s.opened = true → s.refused = false → s.Ahead

/-- While the start command may still succeed, the open callback looks for the bug before it
is the channel private, or audio is the first to be put on the queue. -/
def Overtakes (s : Startup) (a : StartupAct) : Prop :=
  s.metadata.bytes ≠ [] ∧ s.start.fails = false ∧
    match a with
    | .start _ => False
    | .worker _ => s.worker = .openLookup ∧ s.bug = false
    | .media _ => ∃ chunk chunks, s.media = .push chunk chunks ∧ s.accepted = []

/-- What holds as long as nothing overtakes the metadata. -/
structure Orderly (s : Startup) : Prop where
  absent : s.start = .create ∨ s.start = .connect → s.worker = .absent
  array : s.initialMetadata = strncpy s.metadata maxMetadataLen
  uncleaned : s.worker.before = true → s.cleanedUp = false
  opening : s.worker.opening = true → s.state = .opened
  text : ∀ text, s.worker = .writeText text ∨ s.worker = .sendMessage text →
    text = s.metadata.bytes
  empty : s.worker.before = true → s.accepted = [] ∧ s.queued = 0
  ahead : s.opened = true → s.Ahead

theorem orderly_fresh (useTls : Bool) (metadata : CString) : (fresh useTls metadata).Orderly :=
  ⟨fun _ => rfl, rfl, fun _ => rfl, nofun, nofun, fun _ => ⟨rfl, rfl⟩, nofun⟩

theorem orderly_start {s : Startup} (h : s.Orderly) (next : StartPc)
    (hn : next = .create ∨ next = .connect → s.worker = .absent) (wrapper attached bug : Bool) :
    ({ s with wrapper := wrapper, attached := attached, bug := bug, start := next } :
      Startup).Orderly :=
  ⟨hn, h.array, h.uncleaned, h.opening, h.text, h.empty, h.ahead⟩

/-- A step on the way to the end of the open callback. -/
theorem orderly_before {s : Startup} (h : s.Orderly) (hs : s.worker.before = true)
    (hne : s.worker ≠ .absent) {w : LinkPc} {state : State}
    (ho : w.opening = true → state = .opened)
    (ht : ∀ text, w = .writeText text ∨ w = .sendMessage text → text = s.metadata.bytes) :
    ({ s with state := state, worker := w } : Startup).Orderly :=
  ⟨fun hc => absurd (h.absent hc) hne, h.array, fun _ => h.uncleaned hs, ho, ht,
    fun _ => h.empty hs, h.ahead⟩

/-- A step that ends off that way. -/
theorem orderly_past {s : Startup} (h : s.Orderly) (hne : s.worker ≠ .absent) {w : LinkPc}
    (hw : w.before = false) {state : State}
    {wrapper cleanedUp closeRequested cleanupStarted attached bug errored : Bool} {queued : Nat} :
    ({ s with state := state, wrapper := wrapper, cleanedUp := cleanedUp,
              closeRequested := closeRequested, cleanupStarted := cleanupStarted,
              attached := attached, bug := bug, errored := errored, queued := queued,
              worker := w } : Startup).Orderly := by
  have hb : ∀ {P : Prop}, w.before = true → P := fun hb => by simp [hw] at hb
  refine ⟨fun hc => absurd (h.absent hc) hne, h.array, hb,
    fun ho => hb (LinkPc.before_of_opening ho), ?_, hb, h.ahead⟩
  rintro text (ht | ht)
  · exact hb (by rw [show w = _ from ht]; rfl)
  · exact hb (by rw [show w = _ from ht]; rfl)

theorem orderly_startStep {s : Startup} (h : s.Orderly) (ok : Bool) :
    (s.startStep ok).start.fails = true ∨ (s.startStep ok).Orderly := by
  unfold startStep
  split
  case h_1 hs => exact Or.inr (orderly_start h .connect (fun _ => h.absent (Or.inl hs)) _ _ _)
  case h_2 hs =>
    have hw : s.worker.before = true := by rw [h.absent (Or.inr hs)]; rfl
    exact Or.inr ⟨nofun, h.array, fun _ => h.uncleaned hw, nofun, nofun, fun _ => h.empty hw,
      h.ahead⟩
  case h_3 => exact Or.inr (orderly_start h .wrap nofun _ _ _)
  case h_4 => exact Or.inr (orderly_start h .init nofun _ _ _)
  case h_5 =>
    cases ok
    · exact Or.inl rfl
    · exact Or.inr (orderly_start h .addBug nofun _ _ _)
  case h_6 =>
    cases ok
    · exact Or.inl rfl
    · exact Or.inr (orderly_start h .setPrivate nofun _ _ _)
  case h_7 => exact Or.inr (orderly_start h .done nofun _ _ _)
  case h_8 => exact Or.inr h
  case h_9 | h_10 => exact Or.inl rfl
  case h_11 hs =>
    split
    · exact Or.inl rfl
    · exact Or.inl (by rw [hs]; rfl)
  case h_12 hs => exact Or.inl (by rw [hs]; rfl)

theorem ahead_accept {s : Startup} (h : s.Ahead) {item : SendItem} (hi : item.isBinary = true) :
    (s.accept item).Ahead := by
  obtain ⟨audio, ha, hall⟩ := h
  refine ⟨audio ++ [item], by simp [accept, ha], fun x hx => ?_⟩
  rcases List.mem_append.mp hx with hx | hx
  · exact hall x hx
  · rw [List.mem_singleton.mp hx]
    exact hi

theorem orderly_mediaStep {s : Startup} (h : s.Orderly) {chunks : List (List UInt8)}
    (hne : ∀ chunk chunks, s.media = .push chunk chunks → s.accepted ≠ []) :
    (s.mediaStep chunks).Orderly := by
  have hmove : ∀ media, ({ s with media := media } : Startup).Orderly := fun _ =>
    ⟨h.absent, h.array, h.uncleaned, h.opening, h.text, h.empty, h.ahead⟩
  unfold mediaStep
  split
  case h_1 =>
    split
    · exact hmove _
    · exact h
  case h_6 chunk rest hpush =>
    have hacc := hne chunk rest hpush
    split
    next item hitem =>
      obtain ⟨_, rfl⟩ := unlessFull_eq_some.mp hitem
      refine ⟨h.absent, h.array, h.uncleaned, h.opening, h.text, fun hb => ?_, fun ho => ?_⟩
      · exact absurd (h.empty hb).1 hacc
      · exact ahead_accept (h.ahead ho) rfl
    · exact hmove _
  all_goals exact hmove _

/-- The open callback puts the metadata on the empty queue. -/
theorem orderly_sendMessage {s : Startup} (h : s.Orderly) (hm : s.metadata.bytes ≠ [])
    {text : List UInt8} (hw : s.worker = .sendMessage text) :
    ∃ item, sendMessage text s.queued = some item ∧ (s.accept item).serve.Orderly := by
  have htext := h.text text (Or.inr hw)
  obtain ⟨hacc, hq⟩ := h.empty (by rw [hw]; rfl)
  have habsent : s.start = .create ∨ s.start = .connect → False := fun hs => by
    have ha := h.absent hs
    rw [hw] at ha
    cases ha
  refine ⟨⟨text, false⟩, ?_, fun hs => (habsent hs).elim, h.array, nofun, nofun, ?_, nofun,
    fun _ => ⟨[], ?_, nofun⟩⟩
  · rw [htext, hq]
    simp [sendMessage, hm, unlessFull, maxSendQueue]
  · rintro _ (ht | ht) <;> cases ht
  · simp [accept, serve, hacc, htext]

theorem orderly_workerStep {s : Startup} (h : s.Orderly) (hm : s.metadata.bytes ≠ [])
    (hlen : s.metadata.bytes.length < maxMetadataLen)
    (hlook : s.worker = .openLookup → s.bug = true) (env : LinkEnv) :
    (s.workerStep env).Orderly := by
  unfold workerStep
  split
  case h_1 => exact h
  case h_2 p hw =>
    have hb : s.worker.before = true := by rw [hw]; rfl
    have hne : s.worker ≠ .absent := by simp [hw]
    split
    · cases p <;> exact orderly_past h hne rfl
    · split
      · exact orderly_before h hb hne nofun nofun
      · exact orderly_before h hb hne nofun nofun
  case h_3 hw => exact orderly_before h (by rw [hw]; rfl) (by simp [hw]) (fun _ => rfl) nofun
  case h_4 hw =>
    have hb : s.worker.before = true := by rw [hw]; rfl
    rw [if_neg (by simp [h.uncleaned hb])]
    exact orderly_before h hb (by simp [hw]) (fun _ => h.opening (by rw [hw]; rfl)) nofun
  case h_5 hw =>
    rw [if_pos (hlook hw)]
    exact orderly_before h (by rw [hw]; rfl) (by simp [hw])
      (fun _ => h.opening (by rw [hw]; rfl)) nofun
  case h_6 hw =>
    have hread : stringAt s.initialMetadata env.beyond = s.metadata.bytes := by
      rw [h.array]
      exact stringAt_strncpy hlen env.beyond
    simp only [hread, List.isEmpty_iff, hm, if_false]
    refine orderly_before h (by rw [hw]; rfl) (by simp [hw])
      (fun _ => h.opening (by rw [hw]; rfl)) ?_
    rintro text (ht | ht)
    · exact (LinkPc.writeText.inj ht).symm
    · cases ht
  case h_7 text hw =>
    rw [if_pos (h.opening (by rw [hw]; rfl))]
    refine orderly_before h (by rw [hw]; rfl) (by simp [hw])
      (fun _ => h.opening (by rw [hw]; rfl)) ?_
    rintro text' (ht | ht)
    · cases ht
    · rw [← LinkPc.sendMessage.inj ht]
      exact h.text text (Or.inl hw)
  case h_8 text hw =>
    obtain ⟨item, hitem, hserve⟩ := orderly_sendMessage h hm hw
    rw [hitem]
    exact hserve
  case h_9 hw =>
    have hne : s.worker ≠ .absent := by simp [hw]
    split
    · exact orderly_past h hne rfl
    · exact orderly_past h hne (by rw [hw]; rfl)
  case h_10 p hw =>
    have hne : s.worker ≠ .absent := by simp [hw]
    cases p <;> exact orderly_past h hne rfl
  case h_11 p hw =>
    have hne : s.worker ≠ .absent := by simp [hw]
    split
    · cases p <;> exact orderly_past h hne rfl
    · exact orderly_past h hne rfl
  case h_12 hw =>
    have hne : s.worker ≠ .absent := by simp [hw]
    split
    · exact orderly_past h hne rfl
    · exact orderly_past h hne rfl
  case h_13 hw =>
    have hne : s.worker ≠ .absent := by simp [hw]
    split
    · exact orderly_past h hne rfl
    · exact orderly_past h hne rfl
  case h_15 hw =>
    unfold requestClose
    have hne : s.worker ≠ .absent := by simp [hw]
    split
    · exact orderly_past h hne rfl
    · exact orderly_past h hne rfl
  case h_16 p hw =>
    have hne : s.worker ≠ .absent := by simp [hw]
    cases p <;> exact orderly_past h hne rfl
  case h_14 hw | h_17 hw => exact orderly_past h (by simp [hw]) rfl
  case h_18 => exact h

theorem startStep_frame (s : Startup) (ok : Bool) :
    (s.startStep ok).metadata = s.metadata ∧ (s.startStep ok).accepted = s.accepted := by
  unfold startStep
  split
  case h_6 => split <;> exact ⟨rfl, rfl⟩
  case h_10 =>
    unfold requestClose
    split <;> exact ⟨rfl, rfl⟩
  case h_11 => split <;> exact ⟨rfl, rfl⟩
  all_goals exact ⟨rfl, rfl⟩

/-- What the other threads leave to the start command, and what the queue has seen. -/
structure Beside (s t : Startup) : Prop where
  metadata : t.metadata = s.metadata
  start : t.start = s.start
  accepted : ∃ items, t.accepted = s.accepted ++ items

theorem workerStep_beside (s : Startup) (env : LinkEnv) : s.Beside (s.workerStep env) := by
  have hsame : ∀ t : Startup, t.metadata = s.metadata → t.start = s.start →
      t.accepted = s.accepted → s.Beside t := fun t hm hs ha => ⟨hm, hs, [], by simp [ha]⟩
  unfold workerStep
  split
  case h_2 =>
    split
    · exact hsame _ rfl rfl rfl
    · split <;> exact hsame _ rfl rfl rfl
  case h_8 =>
    split
    next item _ => exact ⟨rfl, rfl, [item], rfl⟩
    · exact hsame _ rfl rfl rfl
  case h_15 =>
    unfold requestClose
    split <;> exact hsame _ rfl rfl rfl
  case h_6 =>
    dsimp only
    split <;> exact hsame _ rfl rfl rfl
  case h_4 | h_5 | h_7 | h_9 | h_11 | h_12 | h_13 => split <;> exact hsame _ rfl rfl rfl
  all_goals exact hsame _ rfl rfl rfl

theorem mediaStep_beside (s : Startup) (chunks : List (List UInt8)) :
    s.Beside (s.mediaStep chunks) ∧ (s.mediaStep chunks).worker = s.worker ∧
      ∀ item ∈ (s.mediaStep chunks).accepted, item ∈ s.accepted ∨ item.isBinary = true := by
  have hsame : ∀ media, s.Beside { s with media := media } := fun _ => ⟨rfl, rfl, [], by simp⟩
  unfold mediaStep
  split
  case h_1 =>
    split
    · exact ⟨hsame _, rfl, fun _ => Or.inl⟩
    · exact ⟨hsame s.media, rfl, fun _ => Or.inl⟩
  case h_6 =>
    split
    next item hitem =>
      obtain ⟨_, rfl⟩ := unlessFull_eq_some.mp hitem
      refine ⟨⟨rfl, rfl, _, rfl⟩, rfl, fun x hx => ?_⟩
      rcases List.mem_append.mp hx with hx | hx
      · exact Or.inl hx
      · exact Or.inr (by rw [List.mem_singleton.mp hx])
    · exact ⟨hsame _, rfl, fun _ => Or.inl⟩
  all_goals exact ⟨hsame _, rfl, fun _ => Or.inl⟩

theorem fails_startStep {s : Startup} (h : s.start.fails = true) (ok : Bool) :
    (s.startStep ok).start.fails = true := by
  unfold startStep
  split
  case h_9 | h_10 => rfl
  case h_11 =>
    split
    · rfl
    · exact h
  case h_12 => exact h
  all_goals
    next hs =>
      rw [hs] at h
      cases h

theorem step_metadata (s : Startup) (a : StartupAct) : (s.step a).metadata = s.metadata := by
  cases a with
  | start ok => exact (startStep_frame s ok).1
  | worker env => exact (workerStep_beside s env).metadata
  | media chunks => exact (mediaStep_beside s chunks).1.metadata

/-- The start command is failing, or nothing has overtaken the metadata. -/
def OrderlyOrFails (metadata : CString) (s : Startup) : Prop :=
  s.metadata = metadata ∧ (s.start.fails = true ∨ s.Orderly)

theorem orderlyOrFails_step {metadata : CString} (hm : metadata.bytes ≠ [])
    (hlen : metadata.bytes.length < maxMetadataLen) {s : Startup}
    (h : s.OrderlyOrFails metadata) {a : StartupAct} (ha : ¬s.Overtakes a) :
    (s.step a).OrderlyOrFails metadata := by
  obtain ⟨rfl, hor⟩ := h
  refine ⟨step_metadata s a, ?_⟩
  cases a with
  | start ok =>
    rcases hor with hf | ho
    · exact Or.inl (fails_startStep hf ok)
    · exact orderly_startStep ho ok
  | worker env =>
    have hstart := (workerStep_beside s env).start
    cases hf : s.start.fails with
    | true => exact Or.inl ((congrArg StartPc.fails hstart).trans hf)
    | false =>
      refine Or.inr (orderly_workerStep (hor.resolve_left (by simp [hf])) hm hlen ?_ env)
      exact fun hw => by simpa using fun hbug => ha ⟨hm, hf, hw, hbug⟩
  | media chunks =>
    have hstart := (mediaStep_beside s chunks).1.start
    cases hf : s.start.fails with
    | true => exact Or.inl ((congrArg StartPc.fails hstart).trans hf)
    | false =>
      refine Or.inr (orderly_mediaStep (hor.resolve_left (by simp [hf])) ?_)
      exact fun chunk rest hpush hacc => ha ⟨hm, hf, chunk, rest, hpush, hacc⟩

theorem announced_of_orderly {metadata : CString} {s : Startup} (h : s.OrderlyOrFails metadata) :
    s.Announced := by
  intro _ hdone hopened _
  rcases h.2 with hf | ho
  · rw [hdone] at hf
    cases hf
  · exact ho.ahead hopened

/-- The first item on the queue is audio, or only audio is on it and the open callback will
put nothing there. -/
def Lost (s : Startup) : Prop :=
  (∃ item rest, s.accepted = item :: rest ∧ item.isBinary = true) ∨
    (s.worker.before = false ∧ ¬(s.start = .create ∨ s.start = .connect) ∧
      ∀ item ∈ s.accepted, item.isBinary = true)

theorem not_ahead_of_lost {s : Startup} (h : s.Lost) : ¬s.Ahead := by
  rintro ⟨audio, ha, -⟩
  rcases h with ⟨item, rest, hi, hbin⟩ | ⟨-, -, hall⟩
  · rw [ha] at hi
    obtain ⟨rfl, -⟩ := List.cons.inj hi
    cases hbin
  · have hbin := hall ⟨s.metadata.bytes, false⟩ (by simp [ha])
    cases hbin

theorem startStep_late {s : Startup} (h : ¬(s.start = .create ∨ s.start = .connect)) (ok : Bool) :
    (s.startStep ok).worker = s.worker ∧
      ¬((s.startStep ok).start = .create ∨ (s.startStep ok).start = .connect) := by
  unfold startStep
  split
  case h_1 hs => exact absurd (Or.inl hs) h
  case h_2 hs => exact absurd (Or.inr hs) h
  case h_5 | h_6 => cases ok <;> exact ⟨rfl, nofun⟩
  case h_8 | h_12 => exact ⟨rfl, h⟩
  case h_10 =>
    unfold requestClose
    split <;> exact ⟨rfl, nofun⟩
  case h_11 =>
    split
    · exact ⟨rfl, nofun⟩
    · exact ⟨rfl, h⟩
  all_goals exact ⟨rfl, nofun⟩

theorem workerStep_past {s : Startup} (h : s.worker.before = false) (env : LinkEnv) :
    (s.workerStep env).worker.before = false ∧ (s.workerStep env).accepted = s.accepted := by
  unfold workerStep
  split
  case h_9 =>
    split
    · exact ⟨rfl, rfl⟩
    · exact ⟨h, rfl⟩
  case h_10 p _ | h_16 p _ => cases p <;> exact ⟨rfl, rfl⟩
  case h_11 p _ =>
    split
    · cases p <;> exact ⟨rfl, rfl⟩
    · exact ⟨rfl, rfl⟩
  case h_12 | h_13 => split <;> exact ⟨rfl, rfl⟩
  case h_14 | h_17 => exact ⟨rfl, rfl⟩
  case h_15 =>
    unfold requestClose
    split <;> exact ⟨rfl, rfl⟩
  case h_18 => exact ⟨h, rfl⟩
  all_goals
    next hw =>
      rw [hw] at h
      cases h

theorem lost_step {s : Startup} (h : s.Lost) (a : StartupAct) : (s.step a).Lost := by
  have hgrow : ∃ items, (s.step a).accepted = s.accepted ++ items := by
    cases a with
    | start ok => exact ⟨[], by simp [step, (startStep_frame s ok).2]⟩
    | worker env => exact (workerStep_beside s env).accepted
    | media chunks => exact (mediaStep_beside s chunks).1.accepted
  obtain ⟨items, hitems⟩ := hgrow
  rcases h with ⟨item, rest, hi, hbin⟩ | ⟨hw, hs, hall⟩
  · exact Or.inl ⟨item, rest ++ items, by rw [hitems, hi]; rfl, hbin⟩
  · refine Or.inr ?_
    cases a with
    | start ok =>
      obtain ⟨hw', hs'⟩ := startStep_late hs ok
      refine ⟨?_, hs', ?_⟩
      · rw [← hw]
        exact congrArg _ hw'
      · rw [step, (startStep_frame s ok).2]
        exact hall
    | worker env =>
      obtain ⟨hw', ha⟩ := workerStep_past hw env
      have hstart := (workerStep_beside s env).start
      exact ⟨hw', by rw [step, hstart]; exact hs, by rw [step, ha]; exact hall⟩
    | media chunks =>
      obtain ⟨hb, hw', hnew⟩ := mediaStep_beside s chunks
      refine ⟨by rw [← hw]; exact congrArg _ hw', by rw [step, hb.start]; exact hs, ?_⟩
      exact fun item hi => (hnew item hi).elim (hall item) id

theorem lost_of_overtakes {s : Startup} (h : s.Orderly) {a : StartupAct} (ha : s.Overtakes a) :
    (s.step a).Lost := by
  obtain ⟨-, -, ha⟩ := ha
  have hlate : ∀ {P : Prop}, s.worker ≠ .absent → (s.start = .create ∨ s.start = .connect) → P :=
    fun hne hs => absurd (h.absent hs) hne
  cases a with
  | start ok => exact ha.elim
  | worker env =>
    obtain ⟨hw, hbug⟩ := ha
    have hne : s.worker ≠ .absent := by simp [hw]
    have hacc := (h.empty (by rw [hw]; rfl)).1
    simp only [step, workerStep, hw, hbug]
    exact Or.inr ⟨rfl, fun hs => hlate hne hs, by simp [serve, hacc]⟩
  | media chunks =>
    obtain ⟨chunk, rest, hpush, hacc⟩ := ha
    simp only [step, mediaStep, hpush]
    split
    next item hitem =>
      obtain ⟨_, rfl⟩ := unlessFull_eq_some.mp hitem
      exact Or.inl ⟨⟨chunk, true⟩, [], by simp [accept, hacc], rfl⟩
    next hfull =>
      have hpast : s.worker.before = false := by
        by_contra hb
        have hq := (h.empty (by simpa using hb)).2
        rw [hq] at hfull
        simp [unlessFull, maxSendQueue] at hfull
      have hne : s.worker ≠ .absent := by
        intro hw
        rw [hw] at hpast
        cases hpast
      exact Or.inr ⟨hpast, fun hs => hlate hne hs, by simp [hacc]⟩

end Startup

/-- In every run in which nothing overtakes the metadata, which is short enough for its array,
it is the first item put on the queue, and put there once; after a step that overtakes it, it
never is. -/
theorem metadata_is_announced (useTls : Bool) (metadata : CString) (acts : List StartupAct) :
    (metadata.bytes.length < maxMetadataLen →
      Never StartupStep Startup.Overtakes (.fresh useTls metadata) acts →
      Always StartupStep Startup.Announced (.fresh useTls metadata) acts) ∧
    (metadata.bytes.length < maxMetadataLen →
      Never StartupStep Startup.Overtakes (.fresh useTls metadata) acts →
      ∀ s a more t, Run StartupStep (.fresh useTls metadata) acts s → s.Overtakes a →
        Run StartupStep s (a :: more) t → ¬t.Ahead) := by
  have hmeta : ∀ acts s, Run StartupStep (.fresh useTls metadata) acts s →
      s.metadata = metadata := fun acts s hrun =>
    hrun.invariant (P := fun s => s.metadata = metadata)
      (by rintro s a t hs rfl; exact (Startup.step_metadata s a).trans hs) rfl
  have hgood : metadata.bytes.length < maxMetadataLen → metadata.bytes ≠ [] →
      Never StartupStep Startup.Overtakes (.fresh useTls metadata) acts →
      Always StartupStep (Startup.OrderlyOrFails metadata) (.fresh useTls metadata) acts := by
    intro hlen hm hnever
    refine always_of_kept ?_ ⟨rfl, Or.inr (Startup.orderly_fresh useTls metadata)⟩ hnever
    rintro s a t hs ha rfl
    exact Startup.orderlyOrFails_step hm hlen hs ha
  constructor
  · intro hlen hnever
    by_cases hm : metadata.bytes = []
    · intro bs t _ hrun hne
      rw [hmeta bs t hrun] at hne
      exact absurd hm hne
    · exact (hgood hlen hm hnever).imp fun s => Startup.announced_of_orderly
  · intro hlen hnever s a more t hrun ha hmore
    have hm : metadata.bytes ≠ [] := hmeta acts s hrun ▸ ha.1
    have hs := (hgood hlen hm hnever acts s (List.prefix_refl _) hrun).2
    have ho := hs.resolve_left (by simp [ha.2.1])
    obtain ⟨u, rfl, hrest⟩ := run_cons_iff.mp hmore
    refine Startup.not_ahead_of_lost (hrest.invariant ?_ (Startup.lost_of_overtakes ho ha))
    rintro s a t hl rfl
    exact Startup.lost_step hl a

/-- The connection is open before the start command has added the bug. -/
def opensEarly : List StartupAct :=
  List.replicate 2 (.start true) ++
    List.replicate 7 (.worker ⟨false, false, false, 0, []⟩) ++ List.replicate 5 (.start true)

theorem metadata_is_not_announced :
    ¬Always StartupStep Startup.Announced (.fresh false ⟨[123, 125], by decide⟩) opensEarly := by
  intro h
  have hend := h _ _ (List.prefix_refl _) (run_foldl Startup.step _ opensEarly)
  obtain ⟨audio, ha, -⟩ := hend nofun rfl rfl rfl
  cases ha

end ModAudioStream
