import ModAudioStream.FrameCodec

namespace ModAudioStream

/-- The read steps of `threadFunc`: each chunk is appended and processed, for as
long as `running_` is true. -/
def receive (r : Receiver) : List (List UInt8) → Outcome
  | [] => .returned r
  | chunk :: chunks =>
    if r.running then
      match processFrame { r with rxbuf := r.rxbuf ++ chunk } with
      | .returned r' => receive r' chunks
      | .outside => .outside
      | .spinning => .spinning
    else .returned r

def Receiver.fresh (state : State) (onMessage onBinary : Bool) : Receiver :=
  ⟨[], state, true, onMessage, onBinary, []⟩

theorem receive_of_not_running {r : Receiver} (h : r.running = false) (chunks : List (List UInt8)) :
    receive r chunks = .returned r := by
  cases chunks with
  | nil => rfl
  | cons chunk chunks => simp [receive, h]

theorem Absorbs.trans {r r₁ r₂ : Receiver} {d₁ d₂ : Decoded UInt8 Frame}
    (h₁ : Absorbs r d₁ r₁) (h₂ : Absorbs r₁ d₂ r₂) (hs : d₁.stopped = false) :
    Absorbs r ⟨d₁.items ++ d₂.items, d₂.rest, d₂.stopped⟩ r₂ := by
  have hhandle := Receiver.handle_congr h₁.onMessage h₁.onBinary
  have hstate := h₁.state
  have hrunning := h₁.running
  rw [hs] at hstate hrunning
  simp only [Bool.false_eq_true, if_false] at hstate hrunning
  refine ⟨?_, ?_, ?_, ?_, ?_, h₂.rxbuf⟩
  · rw [h₂.out, h₁.out, hhandle, List.flatMap_append, List.append_assoc]
  · rw [h₂.state, hstate]
  · rw [h₂.running, hrunning]
  · rw [h₂.onMessage, h₁.onMessage]
  · rw [h₂.onBinary, h₁.onBinary]

theorem receive_absorbs (chunks : List (List UInt8)) {r : Receiver}
    (hno : NoWrap (r.rxbuf ++ chunks.flatten)) (hrun : r.running = true) :
    ∃ r', receive r chunks = .returned r' ∧ Absorbs r (frameDecoder.feed r.rxbuf chunks) r' := by
  induction chunks generalizing r with
  | nil =>
    refine ⟨r, rfl, ⟨?_, rfl, ?_, rfl, rfl, fun _ => rfl⟩⟩
    · simp [Decoder.feed]
    · simp [Decoder.feed]
  | cons chunk chunks ih =>
    rw [List.flatten_cons, ← List.append_assoc] at hno
    obtain ⟨r₁, hr₁, ha₁⟩ := processFrame_absorbs (r := { r with rxbuf := r.rxbuf ++ chunk })
      hno.of_append
    have ha : Absorbs r (frameDecoder.decode (r.rxbuf ++ chunk)) r₁ :=
      ⟨ha₁.out, ha₁.state, ha₁.running, ha₁.onMessage, ha₁.onBinary, ha₁.rxbuf⟩
    have hrec : receive r (chunk :: chunks) = receive r₁ chunks := by
      rw [receive, if_pos hrun, hr₁]
    rw [hrec, Decoder.feed]
    cases hs : (frameDecoder.decode (r.rxbuf ++ chunk)).stopped with
    | true =>
      have hstop : r₁.running = false := by rw [ha.running, hs]; rfl
      exact ⟨r₁, receive_of_not_running hstop chunks, by simpa using ha⟩
    | false =>
      have hgo : r₁.running = true := by rw [ha.running, hs]; exact hrun
      have hrest : r₁.rxbuf = (frameDecoder.decode (r.rxbuf ++ chunk)).rest := ha.rxbuf hs
      obtain ⟨r₂, hr₂, ha₂⟩ := ih (by rw [hrest]; exact hno.decode_rest hs) hgo
      refine ⟨r₂, hr₂, ?_⟩
      rw [hrest] at ha₂
      simpa using ha.trans ha₂ hs

theorem receive_absorbs_stream (state : State) (onMessage onBinary : Bool)
    (chunks : List (List UInt8)) (hno : NoWrap chunks.flatten) :
    ∃ r', receive (.fresh state onMessage onBinary) chunks = .returned r' ∧
      Absorbs (.fresh state onMessage onBinary) (frameDecoder.decode chunks.flatten) r' := by
  obtain ⟨r', hr', ha⟩ :=
    receive_absorbs chunks (r := .fresh state onMessage onBinary) hno rfl
  obtain ⟨hi, hs, hr⟩ := Decoder.feed_eq_decode chunks (show frameDecoder.next [] = none from rfl)
  simp only [List.nil_append] at hi hs hr
  refine ⟨r', hr', ?_⟩
  obtain ⟨hout, hstate, hrunning, honM, honB, hrx⟩ := ha
  refine ⟨?_, ?_, ?_, honM, honB, ?_⟩
  · rw [hout, ← hi]; rfl
  · rw [hstate, ← hs]; rfl
  · rw [hrunning, ← hs]; rfl
  · intro hns
    rw [← hs] at hns
    rw [hrx hns]
    exact hr hns

theorem Receiver.message_mem_handle {r : Receiver} {f : Frame} {msg : List UInt8}
    (h : Reaction.message msg ∈ r.handle f) : f.opcode = 0x1 ∧ f.fin = true ∧ f.payload = msg := by
  unfold Receiver.handle at h
  split at h
  next hf =>
    split at h
    · simp only [List.mem_singleton, Reaction.message.injEq] at h
      exact ⟨hf.1, hf.2, h.symm⟩
    · simp at h
  next =>
    split at h
    · split at h <;> simp at h
    · split at h <;> simp at h

theorem Receiver.binary_mem_handle {r : Receiver} {f : Frame} {data : List UInt8}
    (h : Reaction.binary data ∈ r.handle f) : f.opcode = 0x2 ∧ f.fin = true ∧ f.payload = data := by
  unfold Receiver.handle at h
  split at h
  · split at h <;> simp at h
  · split at h
    next hf =>
      split at h
      · simp only [List.mem_singleton, Reaction.binary.injEq] at h
        exact ⟨hf.1, hf.2, h.symm⟩
      · simp at h
    next => split at h <;> simp at h

/-- Two ways of cutting one stream into chunks cannot be told apart, and only
whole, final text and binary frames are delivered. -/
theorem receive_chunking_independent (state : State) (onMessage onBinary : Bool)
    (chunks₁ chunks₂ : List (List UInt8)) (same : chunks₁.flatten = chunks₂.flatten)
    (noWrap : NoWrap chunks₁.flatten) :
    ∃ r₁ r₂, receive (.fresh state onMessage onBinary) chunks₁ = .returned r₁ ∧
      receive (.fresh state onMessage onBinary) chunks₂ = .returned r₂ ∧
      r₁.out = r₂.out ∧ r₁.state = r₂.state ∧ r₁.running = r₂.running ∧
      ((∀ f ∈ (frameDecoder.decode chunks₁.flatten).items, f.opcode ≠ 0x8) →
        r₁.rxbuf = r₂.rxbuf) ∧
      (∀ msg, Reaction.message msg ∈ r₁.out →
        ∃ f ∈ (frameDecoder.decode chunks₁.flatten).items,
          f.opcode = 0x1 ∧ f.fin = true ∧ f.payload = msg) ∧
      (∀ data, Reaction.binary data ∈ r₁.out →
        ∃ f ∈ (frameDecoder.decode chunks₁.flatten).items,
          f.opcode = 0x2 ∧ f.fin = true ∧ f.payload = data) := by
  obtain ⟨r₁, hr₁, ha₁⟩ := receive_absorbs_stream state onMessage onBinary chunks₁ noWrap
  obtain ⟨r₂, hr₂, ha₂⟩ := receive_absorbs_stream state onMessage onBinary chunks₂ (same ▸ noWrap)
  rw [← same] at ha₂
  have hout : r₁.out = (frameDecoder.decode chunks₁.flatten).items.flatMap
      (Receiver.fresh state onMessage onBinary).handle := ha₁.out
  refine ⟨r₁, r₂, hr₁, hr₂, ?_, ?_, ?_, ?_, ?_, ?_⟩
  · rw [ha₁.out, ha₂.out]
  · rw [ha₁.state, ha₂.state]
  · rw [ha₁.running, ha₂.running]
  · intro hclose
    have hs : (frameDecoder.decode chunks₁.flatten).stopped = false := by
      rw [Decoder.stopped_eq_any, List.any_eq_false]
      intro f hf
      simpa using hclose f hf
    rw [ha₁.rxbuf hs, ha₂.rxbuf hs]
  · intro msg hmsg
    rw [hout] at hmsg
    obtain ⟨f, hf, hh⟩ := List.mem_flatMap.mp hmsg
    exact ⟨f, hf, Receiver.message_mem_handle hh⟩
  · intro data hdata
    rw [hout] at hdata
    obtain ⟨f, hf, hh⟩ := List.mem_flatMap.mp hdata
    exact ⟨f, hf, Receiver.binary_mem_handle hh⟩

theorem noWrap_of_head {buf : List UInt8} {h : Head} (hr : readHead buf = some h)
    (hlt : h.headerSize + h.N < 2 ^ 64) (hrest : NoWrap (buf.drop (h.headerSize + h.N))) :
    NoWrap buf := by
  intro hd hm
  cases hm with
  | here hr' =>
    cases hr.symm.trans hr'
    exact hlt
  | later hn _ hm =>
    obtain ⟨h', hr', _, _, rfl⟩ := nextFrame_eq_some.mp hn
    cases hr.symm.trans hr'
    exact hrest hd hm

theorem noWrap_nil : NoWrap [] := by
  intro hd hm
  cases hm with
  | here hr => simp [readHead] at hr
  | later hn _ _ => simp [nextFrame, readHead] at hn

theorem receive_chunking_independent_text_cut_in_header :
    ∃ r₁ r₂, receive (.fresh .opened true true) [[0x81], [0x02, 0x68], [0x69]] = .returned r₁ ∧
      receive (.fresh .opened true true) [[0x81, 0x02, 0x68, 0x69]] = .returned r₂ ∧
      r₁.out = r₂.out := by
  have hwrap : NoWrap [0x81, 0x02, 0x68, 0x69] :=
    noWrap_of_head (h := ⟨true, 0x1, false, ⟨0, 0, 0, 0⟩, 2, 2⟩) (by decide) (by decide) noWrap_nil
  obtain ⟨r₁, r₂, h₁, h₂, hout, -⟩ := receive_chunking_independent .opened true true
    [[0x81], [0x02, 0x68], [0x69]] [[0x81, 0x02, 0x68, 0x69]] rfl hwrap
  exact ⟨r₁, r₂, h₁, h₂, hout⟩

end ModAudioStream
