import ModAudioStream.RawMode

namespace ModAudioStream

/-- `STREAM_SAMPLE_RATE` when it is a rate that is accepted for raw audio, otherwise 8000. -/
def defaultRate (rawSampleRateVar : Option CString) : Int :=
  match rawSampleRateVar with
  | none => 8000
  | some text => if isRawRate (atoi text.bytes) then atoi text.bytes else 8000

namespace RawRun

variable {ρ : Type*} {speex : Speex ρ} {native : NativeRate} {libs : MessageLibs}
  {sid : List UInt8} {rawSampleRateVar : Option CString} {r : RawRun ρ}

def expectedRate (rawSampleRateVar : Option CString) (r : RawRun ρ) : Int :=
  r.latest.getD (defaultRate rawSampleRateVar)

/-- In raw mode the rate is the expected one, and one that is accepted for raw audio. -/
def RightRate (rawSampleRateVar : Option CString) (r : RawRun ρ) : Prop :=
  r.streamer.rawAudioActive = true →
    r.streamer.rawSampleRate = r.expectedRate rawSampleRateVar ∧
      isRawRate r.streamer.rawSampleRate = true

/-- The steps that end in raw mode with another rate. -/
def SetsWrongRate (libs : MessageLibs) (rawSampleRateVar : Option CString) (r : RawRun ρ) :
    RawAct → Prop
  | .text message true _ =>
    (IsRawAudio libs message ∧
      ((∃ rate, givenRate libs message = some rate ∧ isRawRate rate = false) ∨
        (givenRate libs message = none ∧ r.expectedRate rawSampleRateVar ≠ 8000))) ∨
    ∃ rate, SilentAudio libs message rate ∧ rate ≠ r.expectedRate rawSampleRateVar
  | .text message false _ =>
    IsRawAudio libs message ∧ r.streamer.rawAudioActive = true ∧
      ∃ rate, givenRate libs message = some rate ∧ rate ≠ r.streamer.rawSampleRate
  | .initSampleRate =>
    r.streamer.rawAudioActive = true ∧ ∃ text, rawSampleRateVar = some text ∧
      8000 ≤ atoi text.bytes ∧ (atoi text.bytes).tmod 8000 = 0 ∧
      (atoi text.bytes ≠ r.expectedRate rawSampleRateVar ∨ 64000 < atoi text.bytes)
  | _ => False

theorem RightRate.of_same {r' : RawRun ρ} (h : r.RightRate rawSampleRateVar)
    (hmode : r.streamer.SameMode r'.streamer) (hlatest : r'.latest = r.latest) :
    r'.RightRate rawSampleRateVar := by
  intro hactive
  obtain ⟨hsame, hrate⟩ := hmode
  rw [hsame] at hactive
  have hright := h hactive
  rw [expectedRate, hlatest, hrate]
  exact hright

theorem rightRate_rawAudio_iff {message : CString} (hraw : IsRawAudio libs message)
    (initOk : Bool) :
    (r.step speex native libs sid rawSampleRateVar (.text message true initOk)).RightRate
        rawSampleRateVar ↔
      ¬r.SetsWrongRate libs rawSampleRateVar (.text message true initOk) := by
  have hcallback := @StreamerAudio.messageCallback_rawAudio _ speex native libs sid message
    r.streamer initOk hraw
  have hnosilent : ∀ rate, ¬SilentAudio libs message rate :=
    fun rate hsilent => hsilent.not_rawAudio hraw
  simp only [RightRate, expectedRate, SetsWrongRate, step, hcallback, if_pos hraw]
  cases hgiven : givenRate libs message with
  | none =>
    constructor
    · rintro hright (⟨-, ⟨rate, hrate, -⟩ | ⟨-, hne⟩⟩ | ⟨rate, hsilent, -⟩)
      · cases hrate
      · exact hne (hright trivial).1.symm
      · exact hnosilent rate hsilent
    · intro hnot _
      have hexpected : r.latest.getD (defaultRate rawSampleRateVar) = 8000 := by
        by_contra hne
        exact hnot (Or.inl ⟨hraw, Or.inr ⟨rfl, hne⟩⟩)
      exact ⟨hexpected.symm, by decide⟩
  | some rate =>
    constructor
    · rintro hright (⟨-, ⟨rate', hrate, hinvalid⟩ | ⟨hnone, -⟩⟩ | ⟨rate', hsilent, -⟩)
      · obtain rfl := Option.some.inj hrate
        have hvalid : isRawRate rate = true := (hright trivial).2
        rw [hvalid] at hinvalid
        cases hinvalid
      · cases hnone
      · exact hnosilent rate' hsilent
    · intro hnot _
      refine ⟨rfl, ?_⟩
      by_contra hinvalid
      exact hnot (Or.inl ⟨hraw, Or.inl ⟨rate, rfl, Bool.not_eq_true _ ▸ hinvalid⟩⟩)

theorem rightRate_silent_iff {message : CString} {rate : Int}
    (hsilent : SilentAudio libs message rate) (initOk : Bool) :
    (r.step speex native libs sid rawSampleRateVar (.text message true initOk)).RightRate
        rawSampleRateVar ↔
      ¬r.SetsWrongRate libs rawSampleRateVar (.text message true initOk) := by
  have hcallback := @StreamerAudio.messageCallback_silentAudio _ speex native libs sid message
    r.streamer initOk rate hsilent
  have hraw := hsilent.not_rawAudio
  simp only [RightRate, expectedRate, SetsWrongRate, step, hcallback, if_neg hraw]
  constructor
  · rintro hright (⟨h, -⟩ | ⟨rate', hsilent', hne⟩)
    · exact hraw h
    · obtain rfl := SilentAudio.rate_eq hsilent hsilent'
      exact hne (hright trivial).1
  · intro hnot _
    refine ⟨?_, hsilent.isRawRate⟩
    by_contra hne
    exact hnot (Or.inr ⟨rate, hsilent, hne⟩)

theorem rightRate_unlocated_iff (h : r.RightRate rawSampleRateVar) (message : CString)
    (initOk : Bool) :
    (r.step speex native libs sid rawSampleRateVar (.text message false initOk)).RightRate
        rawSampleRateVar ↔
      ¬r.SetsWrongRate libs rawSampleRateVar (.text message false initOk) := by
  by_cases hraw : IsRawAudio libs message
  · simp only [RightRate, expectedRate, SetsWrongRate, step,
      StreamerAudio.messageCallback_unlocated, if_pos hraw]
    cases hgiven : givenRate libs message with
    | none =>
      apply iff_of_true h
      rintro ⟨-, -, rate, hrate, -⟩
      cases hrate
    | some rate =>
      constructor
      · rintro hright ⟨-, hactive, rate', hrate, hne⟩
        obtain rfl := Option.some.inj hrate
        exact hne (hright hactive).1.symm
      · intro hnot hactive
        refine ⟨?_, (h hactive).2⟩
        by_contra hne
        exact hnot ⟨hraw, hactive, rate, rfl, Ne.symm hne⟩
  · refine iff_of_true ?_ fun hwrong => hraw hwrong.1
    refine h.of_same ⟨rfl, rfl⟩ ?_
    exact if_neg hraw

theorem rightRate_init_iff (h : r.RightRate rawSampleRateVar) :
    (r.step speex native libs sid rawSampleRateVar .initSampleRate).RightRate rawSampleRateVar ↔
      ¬r.SetsWrongRate libs rawSampleRateVar .initSampleRate := by
  cases rawSampleRateVar with
  | none =>
    apply iff_of_true h
    rintro ⟨-, text, htext, -⟩
    cases htext
  | some text =>
    by_cases hset : 8000 ≤ atoi text.bytes ∧ (atoi text.bytes).tmod 8000 = 0
    · simp only [RightRate, SetsWrongRate, step, StreamerAudio.initSampleRate, if_pos hset]
      constructor
      · rintro hright ⟨hactive, text', htext, -, -, hne | hlarge⟩
        · obtain rfl := Option.some.inj htext
          exact hne (hright hactive).1
        · obtain rfl := Option.some.inj htext
          have hrate := (hright hactive).2
          simp only [isRawRate, Bool.and_eq_true, decide_eq_true_eq] at hrate
          omega
      · intro hnot hactive
        constructor
        · by_contra hne
          exact hnot ⟨hactive, text, rfl, hset.1, hset.2, Or.inl hne⟩
        · have hsmall : atoi text.bytes ≤ 64000 := by
            by_contra hlarge
            exact hnot ⟨hactive, text, rfl, hset.1, hset.2, Or.inr (Int.not_le.mp hlarge)⟩
          simp [isRawRate, hset.1, hset.2, hsmall]
    · apply iff_of_true
      · simp only [RightRate, step, StreamerAudio.initSampleRate, if_neg hset]
        exact h
      · rintro ⟨-, text', htext, hlo, hmod, -⟩
        obtain rfl := Option.some.inj htext
        exact hset ⟨hlo, hmod⟩

theorem rightRate_step_iff (h : r.RightRate rawSampleRateVar) (a : RawAct) :
    (r.step speex native libs sid rawSampleRateVar a).RightRate rawSampleRateVar ↔
      ¬r.SetsWrongRate libs rawSampleRateVar a := by
  cases a with
  | text message located initOk =>
    cases located with
    | false => exact rightRate_unlocated_iff h message initOk
    | true =>
      by_cases hraw : IsRawAudio libs message
      · exact rightRate_rawAudio_iff hraw initOk
      · by_cases hsilent : ∃ rate, SilentAudio libs message rate
        · obtain ⟨rate, hrate⟩ := hsilent
          exact rightRate_silent_iff hrate initOk
        · have hsame := @StreamerAudio.messageCallback_other _ speex native libs sid message
            r.streamer initOk hraw (not_exists.mp hsilent) true
          apply iff_of_true (h.of_same hsame (if_neg hraw))
          rintro (⟨h', -⟩ | ⟨rate, hrate, -⟩)
          · exact hraw h'
          · exact hsilent ⟨rate, hrate⟩
  | binary data located initOk =>
    have hsame := @StreamerAudio.binaryCallback_sameMode _ speex native r.streamer initOk located
      data
    exact iff_of_true (h.of_same hsame rfl) not_false
  | close => exact iff_of_true (fun hactive => nomatch hactive) not_false
  | initSampleRate => exact rightRate_init_iff h

end RawRun

/-- In every run the rate in raw mode is the one the last message gave, or else that of
`STREAM_SAMPLE_RATE` or 8000, exactly when no step sets another one. -/
theorem raw_rate_iff {ρ : Type*} (speex : Speex ρ) (native : NativeRate) (libs : MessageLibs)
    (sid : List UInt8) (rawSampleRateVar : Option CString) (playback : Option (Playback ρ))
    (acts : List RawAct) :
    Always (RawStep speex native libs sid rawSampleRateVar) (RawRun.RightRate rawSampleRateVar)
        (.start playback) acts ↔
      Never (RawStep speex native libs sid rawSampleRateVar)
        (RawRun.SetsWrongRate libs rawSampleRateVar) (.start playback) acts := by
  refine always_iff_never (I := fun _ => True) (fun _ _ _ _ _ => trivial) ?_ ?_ trivial ?_
  · rintro r a t - h ha rfl
    exact (RawRun.rightRate_step_iff h a).mpr ha
  · intro r a _ h ha
    exact ⟨_, rfl, fun ht => (RawRun.rightRate_step_iff h a).mp ht ha⟩
  · intro hactive
    cases hactive

/-- With `STREAM_SAMPLE_RATE` at 16000, a `rawAudio` message without a rate sets 8000. -/
theorem raw_audio_ignores_variable : ¬∀ (libs : MessageLibs) (message text : CString),
    Always (RawStep copySpeex rate8000 libs (ascii "uuid") (some text))
      (RawRun.RightRate (some text)) (.start none) [.initSampleRate, .text message true true] := by
  intro hall
  let root : CJson := .object [(ascii "type", .string (ascii "rawAudio"))]
  let message : CString := ⟨ascii "\x7b\"type\":\"rawAudio\"\x7d", by decide⟩
  let text : CString := ⟨ascii "16000", by decide⟩
  let libs : MessageLibs := .single message root ⟨[], by decide⟩
  have hparse : libs.parse message.bytes = some root := single_parse (by decide) root _
  have hraw : IsRawAudio libs message := by
    rw [IsRawAudio, messageType, hparse]
    decide
  have hgiven : givenRate libs message = none := by
    rw [givenRate, hparse]
    decide
  have hright := hall libs message text _ _ (List.prefix_refl _)
    (Run.cons rfl (Run.cons rfl (Run.nil _)))
  simp only [RawRun.RightRate, RawRun.expectedRate, RawRun.step, RawRun.start,
    StreamerAudio.messageCallback_rawAudio hraw, if_pos hraw, hgiven, Option.none_or] at hright
  have hdefault : defaultRate (some text) = 16000 := by decide
  have hrate := (hright trivial).1
  rw [Option.getD_none, Option.getD_none, hdefault] at hrate
  exact absurd hrate (by decide)

end ModAudioStream
