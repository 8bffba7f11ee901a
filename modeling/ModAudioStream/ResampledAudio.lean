import ModAudioStream.PlaybackAudio

namespace ModAudioStream

theorem sampleBytes_length (samples : List Sample) :
    (sampleBytes samples).length = 2 * samples.length := by
  induction samples with
  | nil => rfl
  | cons x samples ih =>
    have hcons : sampleBytes (x :: samples) = x.1 :: x.2 :: sampleBytes samples := rfl
    rw [hcons, List.length_cons, List.length_cons, ih, List.length_cons]
    omega

theorem outBytes_length (samples : List Sample) :
    (outBytes samples).length = uint32 (samples.length * 2) := by
  have hle := Nat.mod_le (samples.length * 2) (2 ^ 32)
  rw [outBytes, List.length_take, sampleBytes_length]
  unfold uint32
  omega

theorem outBytes_eq {samples : List Sample} (h : samples.length < 2 ^ 31) :
    outBytes samples = sampleBytes samples := by
  refine List.take_of_length_le ?_
  rw [sampleBytes_length, uint32, Nat.mod_eq_of_lt (by omega)]
  omega

/-- The states of a resampler that was created for two rates: they are reached by processing and
resetting. -/
inductive CreatedFor {ρ : Type*} (speex : Speex ρ) (rate native : Int) : ρ → Prop
  | init : CreatedFor speex rate native (speex.init rate native)
  | process {q : ρ} (samples : List Sample) (room : Nat) :
      CreatedFor speex rate native q →
        CreatedFor speex rate native (speex.process q samples room).2
  | resetMem {q : ρ} : CreatedFor speex rate native q →
      CreatedFor speex rate native (speex.resetMem q)

namespace Playback

variable {ρ : Type*} (speex : Speex ρ) (native : NativeRate)

/-- The call of the resampler for a block. -/
def processBlock (q : ρ) (rate : Int) (src : List UInt8) : List Sample × ρ :=
  speex.process q ((toSamples src).take (uint32 (src.length / 2))) (outLen native src.length rate)

/-- The resampler that is given a block, if any is. -/
def usedResampler (p : Playback ρ) (rate : Int) (src : List UInt8) (initOk : Bool) : Option ρ :=
  if rate ≠ native.value ∧ 0 < rate ∧ 0 < src.length then
    (p.ensureResampler speex native rate initOk).resampler
  else none

/-- The cached resampler was created for the rate that is kept beside it. -/
def Coherent (p : Playback ρ) : Prop :=
  ∀ q, p.resampler = some q → CreatedFor speex p.sampleRate native.value q

/-- No resampler that was created for the rate is kept. -/
def Stale (p : Playback ρ) (rate : Int) : Prop := p.resampler = none ∨ p.sampleRate ≠ rate

/-- How a block comes to be queued as it is. -/
inductive Verbatim (p : Playback ρ) (rate : Int) (src : List UInt8) (initOk : Bool) : Prop
  | sameRate (h : rate = native.value)
  | noRate (h : rate ≤ 0)
  | notCreated (h : p.Stale rate) (hinit : initOk = false)
  | newSilent (h : p.Stale rate) (hinit : initOk = true)
      (hout : (processBlock speex native (speex.init rate native.value) rate src).1 = [])
  | cachedSilent (q : ρ) (hcached : p.resampler = some q) (hrate : p.sampleRate = rate)
      (hout : (processBlock speex native q rate src).1 = [])

/-- The block is looked at, and there is room for it as it is. -/
structure Queues (p : Playback ρ) (src : List UInt8) : Prop where
  enabled : p.enabled = true
  kept : p.cleanupStarted = false
  nonempty : src ≠ []
  room : p.buffer.length + src.length ≤ native.capacity

/-- Of the bytes of a block's output not all are taken, and there is room for those that are. -/
structure TakesPart (p : Playback ρ) (samples : List Sample) : Prop where
  enabled : p.enabled = true
  kept : p.cleanupStarted = false
  long : 2 ^ 31 ≤ samples.length
  taken : uint32 (samples.length * 2) ≠ 0
  room : p.buffer.length + uint32 (samples.length * 2) ≤ native.capacity

/-- How a block comes to be queued in part. -/
inductive CutShort (p : Playback ρ) (rate : Int) (src : List UInt8) (initOk : Bool) : Prop
  | new (h : p.Stale rate) (hinit : initOk = true)
      (hpart : p.TakesPart native
        (processBlock speex native (speex.init rate native.value) rate src).1)
  | cached (q : ρ) (hcached : p.resampler = some q) (hrate : p.sampleRate = rate)
      (hpart : p.TakesPart native (processBlock speex native q rate src).1)

/-- A block is queued as what a resampler makes of it. -/
structure Makes (p : Playback ρ) (rate : Int) (src : List UInt8) (initOk : Bool) (q : ρ) :
    Prop where
  used : p.usedResampler speex native rate src initOk = some q
  changed : ¬p.Verbatim speex native rate src initOk
  enabled : p.enabled = true
  kept : p.cleanupStarted = false
  room : p.buffer.length + (outBytes (processBlock speex native q rate src).1).length ≤
    native.capacity

variable {speex} {native} {p : Playback ρ} {rate : Int} {src : List UInt8} {initOk : Bool}

theorem ensureResampler_stale (h : p.Stale rate) :
    (p.ensureResampler speex native rate initOk).resampler =
      if initOk then some (speex.init rate native.value) else none := by
  have hstale : p.resampler.isNone = true ∨ p.sampleRate ≠ rate := by
    rcases h with h | h
    · left
      rw [h]
      rfl
    · exact Or.inr h
  unfold ensureResampler
  rw [if_pos hstale]
  split
  · rfl
  · rfl

theorem ensureResampler_cached {q : ρ} (hq : p.resampler = some q) (hrate : p.sampleRate = rate) :
    p.ensureResampler speex native rate initOk = p := by
  unfold ensureResampler
  rw [if_neg (by simp [hq, hrate])]

/-- A block is queued as it is when no resampler is given it, or the one that is makes nothing
of it. -/
theorem verbatim_iff (hsrc : src ≠ []) :
    p.Verbatim speex native rate src initOk ↔
      p.usedResampler speex native rate src initOk = none ∨
        ∃ q, p.usedResampler speex native rate src initOk = some q ∧
          (processBlock speex native q rate src).1 = [] := by
  have hlen : 0 < src.length := List.length_pos_iff.mpr hsrc
  by_cases hcall : rate ≠ native.value ∧ 0 < rate
  · have hused : p.usedResampler speex native rate src initOk =
        (p.ensureResampler speex native rate initOk).resampler :=
      if_pos ⟨hcall.1, hcall.2, hlen⟩
    rw [hused]
    by_cases hstale : p.Stale rate
    · rw [ensureResampler_stale hstale]
      cases initOk with
      | false => exact iff_of_true (.notCreated hstale rfl) (Or.inl rfl)
      | true =>
        constructor
        · intro h
          cases h with
          | sameRate h => exact absurd h hcall.1
          | noRate h => omega
          | notCreated _ hinit => cases hinit
          | newSilent _ _ hout => exact Or.inr ⟨_, rfl, hout⟩
          | cachedSilent q hq hrate hout =>
            rcases hstale with h | h
            · rw [h] at hq
              cases hq
            · exact absurd hrate h
        · rintro (h | ⟨q, hq, hout⟩)
          · cases h
          · obtain rfl := Option.some.inj hq
            exact .newSilent hstale rfl hout
    · obtain ⟨hsome, hrate⟩ := not_or.mp hstale
      obtain ⟨q, hq⟩ := Option.ne_none_iff_exists'.mp hsome
      rw [not_not] at hrate
      rw [ensureResampler_cached hq hrate, hq]
      constructor
      · intro h
        cases h with
        | sameRate h => exact absurd h hcall.1
        | noRate h => omega
        | notCreated h _ => exact absurd h hstale
        | newSilent h _ _ => exact absurd h hstale
        | cachedSilent q' hq' _ hout =>
          obtain rfl := Option.some.inj (hq.symm.trans hq')
          exact Or.inr ⟨q, rfl, hout⟩
      · rintro (h | ⟨q', hq', hout⟩)
        · cases h
        · obtain rfl := Option.some.inj hq'
          exact .cachedSilent q hq hrate hout
  · have hused : p.usedResampler speex native rate src initOk = none := by
      refine if_neg fun h => hcall ⟨h.1, h.2.1⟩
    refine iff_of_true ?_ (Or.inl hused)
    by_cases hsame : rate = native.value
    · exact .sameRate hsame
    · exact .noRate (Int.not_lt.mp fun hpos => hcall ⟨hsame, hpos⟩)

theorem resample_snd (p : Playback ρ) (rate : Int) (src : List UInt8) (initOk : Bool) :
    (p.resample speex native rate src initOk).2 =
      match p.usedResampler speex native rate src initOk with
      | none => src
      | some q =>
        if 0 < (processBlock speex native q rate src).1.length then
          outBytes (processBlock speex native q rate src).1
        else src := by
  unfold resample usedResampler
  split
  · cases hq : (p.ensureResampler speex native rate initOk).resampler with
    | none => simp only [hq]
    | some q =>
      simp only [hq]
      rfl
  · rfl

theorem resample_verbatim (hsrc : src ≠ []) (h : p.Verbatim speex native rate src initOk) :
    (p.resample speex native rate src initOk).2 = src := by
  rw [resample_snd]
  rcases (verbatim_iff hsrc).mp h with hnone | ⟨q, hq, hout⟩
  · rw [hnone]
  · simp only [hq, hout]
    exact if_neg (Nat.lt_irrefl 0)

theorem resample_produced (hsrc : src ≠ []) (h : ¬p.Verbatim speex native rate src initOk) :
    ∃ q, p.usedResampler speex native rate src initOk = some q ∧
      (p.resample speex native rate src initOk).2 =
        outBytes (processBlock speex native q rate src).1 := by
  rw [verbatim_iff hsrc, not_or] at h
  obtain ⟨q, hq⟩ := Option.ne_none_iff_exists'.mp h.1
  have hout : (processBlock speex native q rate src).1 ≠ [] := fun hout => h.2 ⟨q, hq, hout⟩
  refine ⟨q, hq, ?_⟩
  rw [resample_snd]
  simp only [hq]
  exact if_pos (List.length_pos_iff.mpr hout)

theorem queueAudio_ignored (h : p.cleanupStarted = true ∨ p.enabled = false) :
    p.queueAudio speex native rate src initOk = (p, []) := by
  unfold queueAudio
  by_cases hc : p.cleanupStarted = true
  · rw [if_pos hc]
  · have he : p.enabled = false := h.resolve_left hc
    rw [if_neg hc, if_pos (by simp [he])]

theorem queueAudio_buffer (he : p.enabled = true) (hc : p.cleanupStarted = false) :
    (p.queueAudio speex native rate src initOk).1.buffer =
      p.buffer ++ p.bufferWrite native (p.resample speex native rate src initOk).2 := by
  obtain ⟨resampler, sampleRate, hq⟩ := @resample_frame ρ speex native p rate src initOk
  unfold queueAudio
  rw [if_neg (by simp [hc]), if_neg (by simp [he])]
  simp only [hq]
  rfl

/-- What a block does to the buffer: nothing, or it is appended as it is, or as what the resampler
makes of it. -/
theorem queueAudio_cases (hsrc : src ≠ []) :
    ((p.queueAudio speex native rate src initOk).1.buffer = p.buffer ∧
        ¬(p.Queues native src ∧ p.Verbatim speex native rate src initOk) ∧
        ∀ q, ¬p.Makes speex native rate src initOk q) ∨
      ((p.queueAudio speex native rate src initOk).1.buffer = p.buffer ++ src ∧
        p.Queues native src ∧ p.Verbatim speex native rate src initOk) ∨
      ∃ q, (p.queueAudio speex native rate src initOk).1.buffer =
          p.buffer ++ outBytes (processBlock speex native q rate src).1 ∧
        p.Makes speex native rate src initOk q := by
  by_cases hlive : p.cleanupStarted = false ∧ p.enabled = true
  · have hbuffer := @queueAudio_buffer ρ speex native p rate src initOk hlive.2 hlive.1
    by_cases hverbatim : p.Verbatim speex native rate src initOk
    · rw [resample_verbatim hsrc hverbatim] at hbuffer
      by_cases hroom : p.buffer.length + src.length ≤ native.capacity
      · rw [bufferWrite, if_pos hroom] at hbuffer
        exact Or.inr (Or.inl ⟨hbuffer, ⟨hlive.2, hlive.1, hsrc, hroom⟩, hverbatim⟩)
      · rw [bufferWrite, if_neg hroom, List.append_nil] at hbuffer
        exact Or.inl ⟨hbuffer, fun h => hroom h.1.room, fun q hq => hq.changed hverbatim⟩
    · obtain ⟨q, hq, hout⟩ := resample_produced hsrc hverbatim
      rw [hout, bufferWrite] at hbuffer
      split at hbuffer
      next hroom =>
        exact Or.inr (Or.inr ⟨q, hbuffer, hq, hverbatim, hlive.2, hlive.1, hroom⟩)
      next hroom =>
        rw [List.append_nil] at hbuffer
        refine Or.inl ⟨hbuffer, fun h => hverbatim h.2, fun q' hq' => hroom ?_⟩
        obtain rfl := Option.some.inj (hq.symm.trans hq'.used)
        exact hq'.room
  · have hignored : p.cleanupStarted = true ∨ p.enabled = false := by
      simp only [not_and_or, Bool.not_eq_false, Bool.not_eq_true] at hlive
      exact hlive
    rw [queueAudio_ignored hignored]
    exact Or.inl ⟨rfl, fun h => hlive ⟨h.1.kept, h.1.enabled⟩,
      fun q hq => hlive ⟨hq.kept, hq.enabled⟩⟩

/-- A block at another rate is given to a new resampler, or to the one that is kept. -/
theorem usedResampler_eq_some (hrate : rate ≠ native.value) (hpos : 0 < rate) (hsrc : src ≠ [])
    {q : ρ} : p.usedResampler speex native rate src initOk = some q ↔
      (p.Stale rate ∧ initOk = true ∧ q = speex.init rate native.value) ∨
        (p.resampler = some q ∧ p.sampleRate = rate) := by
  rw [usedResampler, if_pos ⟨hrate, hpos, List.length_pos_iff.mpr hsrc⟩]
  by_cases hstale : p.Stale rate
  · rw [ensureResampler_stale hstale]
    have hnot : ¬(p.resampler = some q ∧ p.sampleRate = rate) := by
      rintro ⟨hq, hsame⟩
      rcases hstale with hnone | hother
      · rw [hnone] at hq
        cases hq
      · exact hother hsame
    cases initOk with
    | false => simp [hnot]
    | true =>
      rw [if_pos rfl, Option.some.injEq]
      constructor
      · exact fun h => Or.inl ⟨hstale, rfl, h.symm⟩
      · rintro (⟨-, -, rfl⟩ | h)
        · rfl
        · exact absurd h hnot
  · obtain ⟨hsome, hsame⟩ := not_or.mp hstale
    rw [not_not] at hsame
    obtain ⟨q', hq'⟩ := Option.ne_none_iff_exists'.mp hsome
    rw [ensureResampler_cached hq' hsame]
    simp [hstale, hsame]

theorem cutShort_iff (hrate : rate ≠ native.value) (hpos : 0 < rate) (hsrc : src ≠ []) :
    p.CutShort speex native rate src initOk ↔
      ∃ q, p.usedResampler speex native rate src initOk = some q ∧
        p.TakesPart native (processBlock speex native q rate src).1 := by
  constructor
  · intro h
    cases h with
    | new h hinit hpart =>
      exact ⟨_, (usedResampler_eq_some hrate hpos hsrc).mpr (Or.inl ⟨h, hinit, rfl⟩), hpart⟩
    | cached q hcached hsame hpart =>
      exact ⟨q, (usedResampler_eq_some hrate hpos hsrc).mpr (Or.inr ⟨hcached, hsame⟩), hpart⟩
  · rintro ⟨q, hq, hpart⟩
    rcases (usedResampler_eq_some hrate hpos hsrc).mp hq with ⟨h, hinit, rfl⟩ | ⟨hcached, hsame⟩
    · exact .new h hinit hpart
    · exact .cached q hcached hsame hpart

theorem Coherent.of_same {p' : Playback ρ} (h : p.Coherent speex native)
    (hresampler : p'.resampler = p.resampler) (hrate : p'.sampleRate = p.sampleRate) :
    p'.Coherent speex native := by
  intro q hq
  rw [hrate]
  exact h q (hresampler ▸ hq)

/-- The resampler at hand after `ensureResampler` is the one of the rate. -/
theorem ensureResampler_created (h : p.Coherent speex native) {q : ρ}
    (hq : (p.ensureResampler speex native rate initOk).resampler = some q) :
    (p.ensureResampler speex native rate initOk).sampleRate = rate ∧
      CreatedFor speex rate native.value q := by
  unfold ensureResampler at hq ⊢
  split at hq
  next hstale =>
    rw [if_pos hstale]
    split at hq
    next hok =>
      rw [if_pos hok]
      obtain rfl := Option.some.inj hq
      exact ⟨rfl, .init⟩
    next => cases hq
  next hstale =>
    rw [if_neg hstale]
    have hrate : p.sampleRate = rate := not_not.mp fun hne => hstale (Or.inr hne)
    exact ⟨hrate, hrate ▸ h q hq⟩

theorem usedResampler_created (h : p.Coherent speex native) {q : ρ}
    (hq : p.usedResampler speex native rate src initOk = some q) :
    CreatedFor speex rate native.value q := by
  unfold usedResampler at hq
  split at hq
  · exact (ensureResampler_created h hq).2
  · cases hq

theorem resample_coherent (h : p.Coherent speex native) :
    (p.resample speex native rate src initOk).1.Coherent speex native := by
  unfold resample
  split
  · simp only
    split
    next hnone =>
      intro q hq
      rw [hnone] at hq
      cases hq
    next q hq =>
      obtain ⟨hrate, hcreated⟩ := ensureResampler_created h hq
      intro q' hq'
      obtain rfl := Option.some.inj hq'
      show CreatedFor speex (p.ensureResampler speex native rate initOk).sampleRate native.value _
      rw [hrate]
      exact hcreated.process _ _
  · exact h

theorem queueAudio_coherent (h : p.Coherent speex native) :
    (p.queueAudio speex native rate src initOk).1.Coherent speex native := by
  unfold queueAudio
  split
  · exact h
  · split
    · exact h
    · have hr := @resample_coherent ρ speex native p rate src initOk h
      exact hr.of_same rfl rfl

theorem streamFrameWrite_coherent (h : p.Coherent speex native) (locked : Bool)
    (rframe : Option Nat) : (p.streamFrameWrite native locked rframe).1.Coherent speex native := by
  cases hr : p.reads native locked with
  | true =>
    cases hi : replaces native rframe with
    | true =>
      rw [streamFrameWrite_injects hr hi]
      exact h.of_same rfl rfl
    | false =>
      rw [streamFrameWrite_loses hr hi]
      exact h.of_same rfl rfl
  | false =>
    rcases streamFrameWrite_idle rframe hr with ht | ⟨-, ht⟩
    · rw [ht]
      exact h
    · rw [ht]
      exact h.of_same rfl rfl

theorem streamSessionBreak_coherent (h : p.Coherent speex native) :
    (p.streamSessionBreak speex).1.Coherent speex native := by
  unfold streamSessionBreak
  split
  · exact h
  · intro q hq
    obtain ⟨q', hq', rfl⟩ := Option.map_eq_some_iff.mp hq
    exact (h q' hq').resetMem

/-- What is appended to the buffer for a block at another rate is the output of a resampler that
was created for that rate, or nothing. -/
def BlockLaw (speex : Speex ρ) (native : NativeRate) (p : Playback ρ) (rate : Int)
    (src : List UInt8) (initOk : Bool) (p' : Playback ρ) : Prop :=
  rate ≠ native.value → p'.buffer = p.buffer ∨
    ∃ q, p.usedResampler speex native rate src initOk = some q ∧
      CreatedFor speex rate native.value q ∧
      p'.buffer = p.buffer ++ sampleBytes (processBlock speex native q rate src).1

/-- A block at another rate is queued as it is. -/
def PassesThrough (speex : Speex ρ) (native : NativeRate) (p : Playback ρ) (rate : Int)
    (src : List UInt8) (initOk : Bool) : Prop :=
  rate ≠ native.value ∧ p.Queues native src ∧ p.Verbatim speex native rate src initOk

/-- A block at another rate is queued in part. -/
def QueuesPart (speex : Speex ρ) (native : NativeRate) (p : Playback ρ) (rate : Int)
    (src : List UInt8) (initOk : Bool) : Prop :=
  rate ≠ native.value ∧ 0 < rate ∧ src ≠ [] ∧ p.CutShort speex native rate src initOk

theorem not_verbatim_of_part {q : ρ} (hsrc : src ≠ [])
    (hq : p.usedResampler speex native rate src initOk = some q)
    (hpart : p.TakesPart native (processBlock speex native q rate src).1) :
    ¬p.Verbatim speex native rate src initOk := by
  intro hverbatim
  have hlong := hpart.long
  rcases (verbatim_iff hsrc).mp hverbatim with hnone | ⟨q', hq', hout⟩
  · rw [hnone] at hq
    cases hq
  · obtain rfl := Option.some.inj (hq.symm.trans hq')
    rw [hout] at hlong
    exact absurd hlong (by decide)

/-- The part of the output that is taken is not the whole of it, nor nothing. -/
theorem TakesPart.ne {samples : List Sample} (h : p.TakesPart native samples) :
    outBytes samples ≠ [] ∧ (outBytes samples).length < (sampleBytes samples).length := by
  have hlong := h.long
  have hlt := Nat.mod_lt (samples.length * 2) (by decide : 0 < 2 ^ 32)
  have htaken := h.taken
  have hlen := outBytes_length samples
  constructor
  · intro hnil
    rw [hnil] at hlen
    exact htaken hlen.symm
  · rw [hlen, sampleBytes_length]
    unfold uint32
    omega

theorem queueAudio_law_iff (h : p.Coherent speex native) (hsrc : src ≠ []) :
    p.BlockLaw speex native rate src initOk (p.queueAudio speex native rate src initOk).1 ↔
      ¬(p.PassesThrough speex native rate src initOk ∨
        p.QueuesPart speex native rate src initOk) := by
  have hmakes {q : ρ} (hq : p.usedResampler speex native rate src initOk = some q)
      (hpart : p.TakesPart native (processBlock speex native q rate src).1) :
      p.Makes speex native rate src initOk q :=
    ⟨hq, not_verbatim_of_part hsrc hq hpart, hpart.enabled, hpart.kept,
      (outBytes_length _).symm ▸ hpart.room⟩
  rcases @queueAudio_cases ρ speex native p rate src initOk hsrc with
    ⟨hsame, hnot, hnone⟩ | ⟨hbuffer, hqueues, hverbatim⟩ | ⟨q, hbuffer, hq⟩
  · refine iff_of_true (fun _ => Or.inl hsame) ?_
    rintro (hpass | ⟨hrate, hpos, -, hcut⟩)
    · exact hnot hpass.2
    · obtain ⟨q, hq, hpart⟩ := (cutShort_iff hrate hpos hsrc).mp hcut
      exact hnone q (hmakes hq hpart)
  · constructor
    · rintro hlaw (⟨hrate, -, -⟩ | ⟨hrate, hpos, -, hcut⟩)
      · rcases hlaw hrate with heq | ⟨q, hq, -, heq⟩
        · exact hsrc (List.append_right_eq_self.mp (hbuffer.symm.trans heq))
        · rcases (verbatim_iff hsrc).mp hverbatim with hnone | ⟨q', hq', hout⟩
          · rw [hnone] at hq
            cases hq
          · obtain rfl := Option.some.inj (hq.symm.trans hq')
            rw [hout, hbuffer] at heq
            exact hsrc (List.append_cancel_left heq)
      · obtain ⟨q, hq, hpart⟩ := (cutShort_iff hrate hpos hsrc).mp hcut
        exact not_verbatim_of_part hsrc hq hpart hverbatim
    · intro hpass hrate
      exact absurd (Or.inl ⟨hrate, hqueues, hverbatim⟩) hpass
  · have hcreated := usedResampler_created h hq.used
    constructor
    · rintro hlaw (hpass | ⟨hrate, hpos, -, hcut⟩)
      · exact hq.changed hpass.2.2
      · obtain ⟨q', hq', hpart⟩ := (cutShort_iff hrate hpos hsrc).mp hcut
        obtain rfl := Option.some.inj (hq.used.symm.trans hq')
        obtain ⟨hne, hlt⟩ := hpart.ne
        rcases hlaw hrate with heq | ⟨q', hq', -, heq⟩
        · exact hne (List.append_right_eq_self.mp (hbuffer.symm.trans heq))
        · obtain rfl := Option.some.inj (hq.used.symm.trans hq')
          rw [← List.append_cancel_left (hbuffer.symm.trans heq)] at hlt
          exact absurd hlt (Nat.lt_irrefl _)
    · intro hwhole hrate
      by_cases hlong : (processBlock speex native q rate src).1.length < 2 ^ 31
      · rw [outBytes_eq hlong] at hbuffer
        exact Or.inr ⟨q, hq.used, hcreated, hbuffer⟩
      · -- all that is left of the output is nothing
        have hpos : 0 < rate := by
          by_contra hneg
          exact hq.changed (.noRate (Int.not_lt.mp hneg))
        have hroom := hq.room
        rw [outBytes_length] at hroom
        have htaken : uint32 ((processBlock speex native q rate src).1.length * 2) = 0 := by
          by_contra hne
          exact hwhole (Or.inr ⟨hrate, hpos, hsrc, (cutShort_iff hrate hpos hsrc).mpr
            ⟨q, hq.used, hq.enabled, hq.kept, Nat.le_of_not_lt hlong, hne, hroom⟩⟩)
        rw [outBytes, htaken, List.take_zero, List.append_nil] at hbuffer
        exact Or.inl hbuffer

end Playback

namespace PlaybackRun

variable {ρ : Type*} (speex : Speex ρ) (native : NativeRate)

/-- A block is delivered and obeys the law. -/
def Resampled (r : PlaybackRun ρ) : PlaybackAct → Prop
  | .streamAudio sampleRate decodedAudio initOk =>
    r.play.BlockLaw speex native sampleRate decodedAudio initOk
      (r.step speex native (.streamAudio sampleRate decodedAudio initOk)).play
  | .binary rawAudioActive rawSampleRate data initOk =>
    r.play.BlockLaw speex native rawSampleRate data initOk
      (r.step speex native (.binary rawAudioActive rawSampleRate data initOk)).play
  | _ => True

def PassesThrough (r : PlaybackRun ρ) : PlaybackAct → Prop
  | .streamAudio sampleRate decodedAudio initOk =>
    r.play.PassesThrough speex native sampleRate decodedAudio initOk
  | .binary rawAudioActive rawSampleRate data initOk =>
    rawAudioActive = true ∧ r.play.PassesThrough speex native rawSampleRate data initOk
  | _ => False

def QueuesPart (r : PlaybackRun ρ) : PlaybackAct → Prop
  | .streamAudio sampleRate decodedAudio initOk =>
    r.play.QueuesPart speex native sampleRate decodedAudio initOk
  | .binary rawAudioActive rawSampleRate data initOk =>
    rawAudioActive = true ∧ r.play.QueuesPart speex native rawSampleRate data initOk
  | _ => False

/-- A block at another rate is queued as it is, or in part. -/
def Misqueues (r : PlaybackRun ρ) (a : PlaybackAct) : Prop :=
  r.PassesThrough speex native a ∨ r.QueuesPart speex native a

variable {speex} {native} {r : PlaybackRun ρ}

theorem step_streamAudio_cases (sampleRate : Int) (decodedAudio : List UInt8) (initOk : Bool) :
    (decodedAudio = [] ∧
        (r.step speex native (.streamAudio sampleRate decodedAudio initOk)).play = r.play) ∨
      (decodedAudio ≠ [] ∧
        (r.step speex native (.streamAudio sampleRate decodedAudio initOk)).play =
          (r.play.queueAudio speex native sampleRate decodedAudio initOk).1) := by
  simp only [step, arrive, Playback.eventCallback]
  by_cases hempty : decodedAudio = []
  · rw [if_pos (by simp [hempty])]
    exact Or.inl ⟨hempty, rfl⟩
  · rw [if_neg (by simp [hempty])]
    exact Or.inr ⟨hempty, rfl⟩

theorem step_binary_cases (rawAudioActive : Bool) (rawSampleRate : Int) (data : List UInt8)
    (initOk : Bool) :
    (¬(rawAudioActive = true ∧ data ≠ []) ∧
        (r.step speex native (.binary rawAudioActive rawSampleRate data initOk)).play = r.play) ∨
      ((rawAudioActive = true ∧ data ≠ []) ∧
        (r.step speex native (.binary rawAudioActive rawSampleRate data initOk)).play =
          (r.play.queueAudio speex native rawSampleRate data initOk).1) := by
  simp only [step, arrive, Playback.onBinaryData]
  by_cases hheard : rawAudioActive = true ∧ data ≠ []
  · rw [if_neg (by simpa using hheard)]
    exact Or.inr ⟨hheard, rfl⟩
  · rw [if_pos (by simpa [Bool.eq_false_or_eq_true, or_iff_not_imp_left] using hheard)]
    exact Or.inl ⟨hheard, rfl⟩

theorem coherent_step (h : r.play.Coherent speex native) (a : PlaybackAct) :
    (r.step speex native a).play.Coherent speex native := by
  cases a with
  | streamAudio sampleRate decodedAudio initOk =>
    rcases @step_streamAudio_cases ρ speex native r sampleRate decodedAudio initOk with
      ⟨-, hplay⟩ | ⟨-, hplay⟩
    · rw [hplay]
      exact h
    · rw [hplay]
      exact Playback.queueAudio_coherent h
  | binary rawAudioActive rawSampleRate data initOk =>
    rcases @step_binary_cases ρ speex native r rawAudioActive rawSampleRate data initOk with
      ⟨-, hplay⟩ | ⟨-, hplay⟩
    · rw [hplay]
      exact h
    · rw [hplay]
      exact Playback.queueAudio_coherent h
  | tick locked rframe => exact Playback.streamFrameWrite_coherent h locked rframe
  | breakCommand =>
    simp only [step]
    split
    · exact h
    · exact Playback.streamSessionBreak_coherent h
  | cleanup => exact h

theorem resampled_iff (h : r.play.Coherent speex native) (a : PlaybackAct) :
    r.Resampled speex native a ↔ ¬r.Misqueues speex native a := by
  cases a with
  | streamAudio sampleRate decodedAudio initOk =>
    simp only [Resampled, Misqueues, PassesThrough, QueuesPart]
    rcases @step_streamAudio_cases ρ speex native r sampleRate decodedAudio initOk with
      ⟨hempty, hplay⟩ | ⟨hsrc, hplay⟩
    · rw [hplay]
      refine iff_of_true (fun _ => Or.inl rfl) ?_
      rintro (hpass | hpart)
      · exact hpass.2.1.nonempty hempty
      · exact hpart.2.2.1 hempty
    · rw [hplay]
      exact Playback.queueAudio_law_iff h hsrc
  | binary rawAudioActive rawSampleRate data initOk =>
    simp only [Resampled, Misqueues, PassesThrough, QueuesPart]
    rcases @step_binary_cases ρ speex native r rawAudioActive rawSampleRate data initOk with
      ⟨hunheard, hplay⟩ | ⟨⟨hactive, hsrc⟩, hplay⟩
    · rw [hplay]
      refine iff_of_true (fun _ => Or.inl rfl) ?_
      rintro (hpass | hpart)
      · exact hunheard ⟨hpass.1, hpass.2.2.1.nonempty⟩
      · exact hunheard ⟨hpart.1, hpart.2.2.2.1⟩
    · rw [hplay, and_iff_right hactive, and_iff_right hactive]
      exact Playback.queueAudio_law_iff h hsrc
  | tick | breakCommand | cleanup => exact iff_of_true trivial (not_or.mpr ⟨not_false, not_false⟩)

end PlaybackRun

/-- In every run, what is appended for blocks at another rate is output of a resampler for that
rate, exactly when no such block is queued as it is or in part. -/
theorem resampled_audio_iff {ρ : Type*} (speex : Speex ρ) (native : NativeRate) (enabled : Bool)
    (acts : List PlaybackAct) :
    Each (PlaybackStep speex native) (PlaybackRun.Resampled speex native) (.start native enabled)
        acts ↔
      Never (PlaybackStep speex native) (PlaybackRun.Misqueues speex native)
        (.start native enabled) acts := by
  have hstart : (PlaybackRun.start native enabled : PlaybackRun ρ).play.Coherent speex native := by
    intro q hq
    cases hq
  refine @each_iff_never _ _ _ (fun r => r.play.Coherent speex native) _ _ ?_ ?_ _ _ hstart
  · rintro r a t h - rfl
    exact PlaybackRun.coherent_step h a
  · intro r a h
    exact PlaybackRun.resampled_iff h a

/-- The resampler cannot be created: a block at 16000 is queued for a channel at 8000 as it
is. -/
theorem failed_resampler_passes_audio :
    ¬Each (PlaybackStep copySpeex rate8000) (PlaybackRun.Resampled copySpeex rate8000)
      (.start rate8000 true) [.streamAudio 16000 [1, 2] false] := by
  intro h
  have hlaw := h [] _ _ (List.prefix_refl _) (Run.nil _)
  have hstale : (PlaybackRun.start rate8000 true : PlaybackRun Unit).play.Stale 16000 :=
    Or.inl rfl
  have hcoherent : (PlaybackRun.start rate8000 true : PlaybackRun Unit).play.Coherent copySpeex
      rate8000 := by
    intro q hq
    cases hq
  refine (PlaybackRun.resampled_iff hcoherent _).mp hlaw
    (Or.inl ⟨by decide, ?_, .notCreated hstale rfl⟩)
  exact ⟨rfl, rfl, by decide, by decide⟩

end ModAudioStream
