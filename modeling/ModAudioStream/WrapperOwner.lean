import ModAudioStream.StreamerWrapper

namespace ModAudioStream

/-- What a call at `f.pc` of thread `k` relies on. -/
structure WrapperCall.Fits (f : WrapperCall) (k : Nat) (sh : WrapperShared) : Prop where
  inside : f.pc.inside = true → sh.owner = some k ∨ sh.destroyed = true
  claiming : f.pc = .setStarted → sh.cleanupStarted = false
  body : f.pc.body = true → sh.cleanupStarted = true
  published : f.pc.published = true → sh.pAudioStreamer = true
  taken : f.pc.taken = true → sh.pAudioStreamer = false ∧ sh.deletions = 0
  done : f.pc = .disconnect ∨ f.pc = .destroyMutex → sh.pAudioStreamer = false

namespace WrapperShared

/-- What holds of the shared state alone. -/
structure Sound (sh : WrapperShared) : Prop where
  unclaimed : sh.cleanupStarted = false → sh.pAudioStreamer = true ∧ sh.bodies = 0
  claimed : sh.cleanupStarted = true → sh.bodies = 1
  published : sh.pAudioStreamer = true → sh.destroyed = false ∧ sh.deletions = 0
  deletions : sh.deletions ≤ 1
  staleCopies : sh.staleCopies = 0

end WrapperShared

namespace WrapperCall

variable {sh : WrapperShared} {f g : WrapperCall} {k k' : Nat} {env : WrapperEnv}

/-- `g` is another call than `f`: on another thread, or below it on the same stack. -/
structure Beside (f : WrapperCall) (k : Nat) (g : WrapperCall) (k' : Nat) : Prop where
  apart : k' ≠ k ∨ g.pc = .deleteWrapper
  oneBody : f.pc.body = true → g.pc.body = false

/-- Where a call relies on nothing. -/
def free (pc : WrapperPc) : Bool := !pc.inside && !pc.body

theorem fits_free (h : free f.pc = true) : f.Fits k sh := by
  cases hpc : f.pc <;> rw [hpc] at h <;> cases h <;>
    exact ⟨by rw [hpc]; nofun, by rw [hpc]; nofun, by rw [hpc]; nofun, by rw [hpc]; nofun,
      by rw [hpc]; nofun, by rw [hpc]; rintro (h | h) <;> cases h⟩

theorem mem_ite_left {b : Prop} [Decidable b] (h : g ∈ if b then [] else [f]) : g = f := by
  split at h
  · cases h
  · exact List.mem_singleton.mp h

theorem mem_ite_right {b : Prop} [Decidable b] (h : g ∈ if b then [f] else []) : g = f := by
  split at h
  · exact List.mem_singleton.mp h
  · cases h

theorem destroyed_of_inside (hf : f.Fits k sh) (hg : g.Fits k' sh) (hb : f.Beside k g k')
    (hfin : f.pc.inside = true) (hgin : g.pc.inside = true) : sh.destroyed = true := by
  rcases hf.inside hfin with hk | hd
  · rcases hg.inside hgin with hk' | hd
    · have hkk : k' = k := Option.some.inj (hk'.symm.trans hk)
      rcases hb.apart with hne | hpc
      · exact absurd hkk hne
      · rw [hpc] at hgin
        cases hgin
    · exact hd
  · exact hd

theorem inside_of_published {pc : WrapperPc} (h : pc.published = true) : pc.inside = true := by
  cases pc <;> first | rfl | cases h

/-- As long as the wrapper is in `pAudioStreamer`, the mutex keeps other calls out. -/
theorem not_inside_beside (hs : sh.Sound) (hf : f.Fits k sh) (hg : g.Fits k' sh)
    (hb : f.Beside k g k') (hfin : f.pc.inside = true) (hp : sh.pAudioStreamer = true) :
    g.pc.inside = false := by
  by_contra hgin
  have hd := destroyed_of_inside hf hg hb hfin (by simpa using hgin)
  rw [(hs.published hp).1] at hd
  cases hd

theorem fits_beside_lock {sh' : WrapperShared} (hg : g.Fits k' sh)
    (hlock : sh.lock k env = some sh') : g.Fits k' sh' := by
  unfold WrapperShared.lock at hlock
  split at hlock
  next hd =>
    split at hlock
    next =>
      obtain rfl := Option.some.inj hlock
      exact hg
    next => cases hlock
  next hd =>
    split at hlock
    next howner =>
      obtain rfl := Option.some.inj hlock
      refine ⟨fun hin => ?_, hg.claiming, hg.body, hg.published, hg.taken, hg.done⟩
      rcases hg.inside hin with hk' | hd'
      · rcases howner with hnone | hk
        · rw [hnone] at hk'
          cases hk'
        · have hkk : k' = k := Option.some.inj (hk'.symm.trans hk)
          exact Or.inl (by rw [hkk])
      · exact absurd hd' hd
    next => cases hlock

theorem fits_beside_unlock (hf : f.Fits k sh) (hg : g.Fits k' sh) (hb : f.Beside k g k')
    (hfin : f.pc.inside = true) : g.Fits k' sh.unlock := by
  unfold WrapperShared.unlock
  split
  next => exact hg
  next hd =>
    have hout : g.pc.inside = true → False := fun hgin =>
      hd (destroyed_of_inside hf hg hb hfin hgin)
    split
    next =>
      exact ⟨fun hin => (hout hin).elim, hg.claiming, hg.body, hg.published, hg.taken, hg.done⟩
    next =>
      exact ⟨fun hin => (hout hin).elim, hg.claiming, hg.body, hg.published, hg.taken, hg.done⟩

theorem fits_beside_setStarted (hs : sh.Sound) (hf : f.Fits k sh) (hg : g.Fits k' sh)
    (hb : f.Beside k g k') (hpc : f.pc = .setStarted) :
    g.Fits k' { sh with cleanupStarted := true, bodies := sh.bodies + 1 } := by
  have hp := (hs.unclaimed (hf.claiming hpc)).1
  have hout := not_inside_beside hs hf hg hb (by rw [hpc]; rfl) hp
  refine ⟨hg.inside, fun hset => ?_, fun _ => rfl, hg.published, hg.taken, hg.done⟩
  rw [hset] at hout
  cases hout

theorem fits_beside_clearWrapper (hs : sh.Sound) (hf : f.Fits k sh) (hg : g.Fits k' sh)
    (hb : f.Beside k g k') (hpc : f.pc = .clearWrapper) :
    g.Fits k' { sh with pAudioStreamer := false } := by
  have hp := hf.published (by rw [hpc]; rfl)
  have hout := not_inside_beside hs hf hg hb (by rw [hpc]; rfl) hp
  refine ⟨hg.inside, hg.claiming, hg.body, fun hpub => ?_, fun htaken => ?_, fun _ => rfl⟩
  · rw [inside_of_published hpub] at hout
    cases hout
  · exact ⟨rfl, (hg.taken htaken).2⟩

theorem body_of_taken {pc : WrapperPc} (h : pc.taken = true) : pc.body = true := by
  cases pc <;> first | rfl | cases h

theorem fits_beside_delete (hg : g.Fits k' sh) (hb : f.Beside k g k')
    (hpc : f.pc = .deleteWrapper) :
    g.Fits k' { sh with deletions := sh.deletions + 1 } := by
  refine ⟨hg.inside, hg.claiming, hg.body, hg.published, fun htaken => ?_, hg.done⟩
  have hone := hb.oneBody (by rw [hpc]; rfl)
  rw [body_of_taken htaken] at hone
  cases hone

theorem fits_copy (hg : g.Fits k' sh) : g.Fits k' sh.copy := by
  unfold WrapperShared.copy
  split
  next => exact ⟨hg.inside, hg.claiming, hg.body, hg.published, hg.taken, hg.done⟩
  next => exact hg

theorem fits_destroyed (hg : g.Fits k' sh) : g.Fits k' { sh with destroyed := true } :=
  ⟨fun _ => Or.inr rfl, hg.claiming, hg.body, hg.published, hg.taken, hg.done⟩

/-- A step of one call keeps what another one relies on. -/
theorem fits_beside (hs : sh.Sound) (hf : f.Fits k sh) (hg : g.Fits k' sh)
    (hb : f.Beside k g k') : g.Fits k' (sh.call k f env).1 := by
  unfold WrapperShared.call
  cases hpc : f.pc with
  | closeRequested | readRequested | readStarted | fetchBug | testStarted | take | removeBug
  | disconnect | testWrapper => exact hg
  | lock =>
    cases hlock : sh.lock k env with
    | none => exact hg
    | some sh' => exact fits_beside_lock hg hlock
  | trylock =>
    cases hlock : sh.lock k env with
    | none => exact hg
    | some sh' => exact fits_beside_lock hg hlock
  | setStarted => exact fits_beside_setStarted hs hf hg hb hpc
  | clearPrivate => exact ⟨hg.inside, hg.claiming, hg.body, hg.published, hg.taken, hg.done⟩
  | clearWrapper => exact fits_beside_clearWrapper hs hf hg hb hpc
  | copyTaken =>
    cases f.spWrap with
    | true => exact fits_copy hg
    | false => exact hg
  | unlockClaimed => exact fits_beside_unlock hf hg hb (by rw [hpc]; rfl)
  | deleteWrapper =>
    cases f.spWrap with
    | true => exact fits_beside_delete hg hb hpc
    | false => exact hg
  | destroyMutex => exact fits_destroyed hg
  | copyWrapper => exact fits_copy hg
  | unlock => exact fits_beside_unlock hf hg hb (by rw [hpc]; rfl)

end WrapperCall

namespace WrapperShared

variable {sh sh' : WrapperShared} {f : WrapperCall} {k : Nat} {env : WrapperEnv}

theorem sound_lock (hs : sh.Sound) (hlock : sh.lock k env = some sh') : sh'.Sound := by
  unfold lock at hlock
  split at hlock
  next =>
    split at hlock
    next =>
      obtain rfl := Option.some.inj hlock
      exact hs
    next => cases hlock
  next =>
    split at hlock
    next =>
      obtain rfl := Option.some.inj hlock
      exact ⟨hs.unclaimed, hs.claimed, hs.published, hs.deletions, hs.staleCopies⟩
    next => cases hlock

theorem sound_unlock (hs : sh.Sound) : sh.unlock.Sound := by
  unfold unlock
  split
  next => exact hs
  next =>
    split
    next => exact ⟨hs.unclaimed, hs.claimed, hs.published, hs.deletions, hs.staleCopies⟩
    next => exact ⟨hs.unclaimed, hs.claimed, hs.published, hs.deletions, hs.staleCopies⟩

theorem sound_copy (hs : sh.Sound) (hd : sh.deletions = 0) : sh.copy.Sound := by
  unfold copy
  rw [if_neg (by omega)]
  exact hs

theorem sound_setStarted (hs : sh.Sound) (hc : sh.cleanupStarted = false) :
    ({ sh with cleanupStarted := true, bodies := sh.bodies + 1 } : WrapperShared).Sound := by
  obtain ⟨-, hbodies⟩ := hs.unclaimed hc
  refine ⟨fun h => (by cases h), fun _ => ?_, hs.published, hs.deletions, hs.staleCopies⟩
  change sh.bodies + 1 = 1
  rw [hbodies]

theorem sound_clearWrapper (hs : sh.Sound) (hc : sh.cleanupStarted = true) :
    ({ sh with pAudioStreamer := false } : WrapperShared).Sound := by
  refine ⟨fun h => ?_, hs.claimed, fun h => (by cases h), hs.deletions, hs.staleCopies⟩
  have hfalse : sh.cleanupStarted = false := h
  rw [hc] at hfalse
  cases hfalse

theorem sound_delete (hs : sh.Sound) (hp : sh.pAudioStreamer = false)
    (hd : sh.deletions = 0) :
    ({ sh with deletions := sh.deletions + 1 } : WrapperShared).Sound := by
  refine ⟨hs.unclaimed, hs.claimed, fun h => ?_, ?_, hs.staleCopies⟩
  · have htrue : sh.pAudioStreamer = true := h
    rw [hp] at htrue
    cases htrue
  · change sh.deletions + 1 ≤ 1
    omega

theorem sound_destroyed (hs : sh.Sound) (hp : sh.pAudioStreamer = false) :
    ({ sh with destroyed := true } : WrapperShared).Sound := by
  refine ⟨hs.unclaimed, hs.claimed, fun h => ?_, hs.deletions, hs.staleCopies⟩
  have htrue : sh.pAudioStreamer = true := h
  rw [hp] at htrue
  cases htrue

theorem call_sound (hs : sh.Sound) (hf : f.Fits k sh) : (sh.call k f env).1.Sound := by
  unfold call
  cases hpc : f.pc with
  | closeRequested | readRequested | readStarted | fetchBug | testStarted | take | removeBug
  | disconnect | testWrapper => exact hs
  | lock =>
    cases hlock : sh.lock k env with
    | none => exact hs
    | some sh' => exact sound_lock hs hlock
  | trylock =>
    cases hlock : sh.lock k env with
    | none => exact hs
    | some sh' => exact sound_lock hs hlock
  | setStarted => exact sound_setStarted hs (hf.claiming hpc)
  | clearPrivate => exact ⟨hs.unclaimed, hs.claimed, hs.published, hs.deletions, hs.staleCopies⟩
  | clearWrapper => exact sound_clearWrapper hs (hf.body (by rw [hpc]; rfl))
  | copyTaken =>
    obtain ⟨-, hd⟩ := hf.taken (by rw [hpc]; rfl)
    cases f.spWrap with
    | true => exact sound_copy hs hd
    | false => exact hs
  | unlockClaimed => exact sound_unlock hs
  | deleteWrapper =>
    obtain ⟨hp, hd⟩ := hf.taken (by rw [hpc]; rfl)
    cases f.spWrap with
    | true => exact sound_delete hs hp hd
    | false => exact hs
  | destroyMutex => exact sound_destroyed hs (hf.done (Or.inr hpc))
  | copyWrapper =>
    have hp := hf.published (by rw [hpc]; rfl)
    exact sound_copy hs (hs.published hp).2
  | unlock => exact sound_unlock hs

theorem lock_owner (hlock : sh.lock k env = some sh') :
    sh'.owner = some k ∨ sh'.destroyed = true := by
  unfold lock at hlock
  split at hlock
  next hd =>
    split at hlock
    next =>
      obtain rfl := Option.some.inj hlock
      exact Or.inr hd
    next => cases hlock
  next =>
    split at hlock
    next =>
      obtain rfl := Option.some.inj hlock
      exact Or.inl rfl
    next => cases hlock

theorem unlock_keeps (sh : WrapperShared) : sh.unlock.cleanupStarted = sh.cleanupStarted ∧
    sh.unlock.pAudioStreamer = sh.pAudioStreamer ∧ sh.unlock.deletions = sh.deletions := by
  unfold unlock
  split
  next => exact ⟨rfl, rfl, rfl⟩
  next => split <;> exact ⟨rfl, rfl, rfl⟩

theorem call_fits_lock (hf : f.Fits k sh) (hpc : f.pc = .lock) :
    ∀ g ∈ (sh.call k f env).2, g.Fits k (sh.call k f env).1 := by
  intro g hg
  simp only [call, hpc] at hg ⊢
  cases hlock : sh.lock k env with
  | none =>
    rw [hlock] at hg
    obtain rfl := List.mem_singleton.mp hg
    exact hf
  | some sh' =>
    rw [hlock] at hg
    obtain rfl := List.mem_singleton.mp hg
    have howner := lock_owner hlock
    split
    next => exact ⟨fun _ => howner, nofun, nofun, nofun, nofun, nofun⟩
    next => exact ⟨fun _ => howner, nofun, nofun, nofun, nofun, nofun⟩

theorem call_fits_unlockClaimed (hf : f.Fits k sh) (hpc : f.pc = .unlockClaimed) :
    ∀ g ∈ (sh.call k f env).2, g.Fits k (sh.call k f env).1 := by
  intro g hg
  simp only [call, hpc] at hg ⊢
  obtain rfl := List.mem_singleton.mp hg
  obtain ⟨hstarted, hwrapper, hdeletions⟩ := unlock_keeps sh
  have hbody := hf.body (by rw [hpc]; rfl)
  have htaken := hf.taken (by rw [hpc]; rfl)
  rw [← hstarted] at hbody
  rw [← hwrapper, ← hdeletions] at htaken
  split
  next => exact ⟨nofun, nofun, fun _ => hbody, nofun, fun _ => htaken, nofun⟩
  next => exact ⟨nofun, nofun, fun _ => hbody, nofun, fun _ => htaken, nofun⟩

theorem call_fits_copyTaken (hf : f.Fits k sh) (hpc : f.pc = .copyTaken) :
    ∀ g ∈ (sh.call k f env).2, g.Fits k (sh.call k f env).1 := by
  intro g hg
  simp only [call, hpc] at hg ⊢
  have hin := hf.inside (by rw [hpc]; rfl)
  have hbody := hf.body (by rw [hpc]; rfl)
  have htaken := hf.taken (by rw [hpc]; rfl)
  have hnext : ∀ f' : WrapperCall, f'.pc = .unlockClaimed → f'.Fits k sh := by
    intro f' hf'
    exact ⟨fun _ => hin, by rw [hf']; nofun, fun _ => hbody, by rw [hf']; nofun,
      fun _ => htaken, by rw [hf']; nofun⟩
  cases hsp : f.spWrap with
  | true =>
    simp only [hsp, if_true] at hg ⊢
    obtain rfl := List.mem_singleton.mp hg
    exact WrapperCall.fits_copy (hnext _ rfl)
  | false =>
    simp only [hsp, Bool.false_eq_true, if_false] at hg ⊢
    obtain rfl := List.mem_singleton.mp hg
    exact hnext _ rfl

theorem call_fits_removeBug (hf : f.Fits k sh) (hpc : f.pc = .removeBug) :
    ∀ g ∈ (sh.call k f env).2, g.Fits k (sh.call k f env).1 := by
  intro g hg
  simp only [call, hpc] at hg ⊢
  have hbody := hf.body (by rw [hpc]; rfl)
  have htaken := hf.taken (by rw [hpc]; rfl)
  have hnext : (f.goto .deleteWrapper).Fits k sh :=
    ⟨nofun, nofun, fun _ => hbody, nofun, fun _ => htaken, nofun⟩
  cases hcalls : env.callsBack with
  | true =>
    simp only [hcalls, if_true] at hg
    rcases List.mem_cons.mp hg with rfl | hg
    · exact WrapperCall.fits_free rfl
    · obtain rfl := List.mem_singleton.mp hg
      exact hnext
  | false =>
    simp only [hcalls, Bool.false_eq_true, if_false] at hg
    obtain rfl := List.mem_singleton.mp hg
    exact hnext

theorem call_fits_deleteWrapper (hf : f.Fits k sh) (hpc : f.pc = .deleteWrapper) :
    ∀ g ∈ (sh.call k f env).2, g.Fits k (sh.call k f env).1 := by
  intro g hg
  simp only [call, hpc] at hg ⊢
  have hbody := hf.body (by rw [hpc]; rfl)
  obtain ⟨hp, -⟩ := hf.taken (by rw [hpc]; rfl)
  cases hsp : f.spWrap with
  | true =>
    simp only [hsp, if_true] at hg ⊢
    obtain rfl := List.mem_singleton.mp hg
    exact ⟨nofun, nofun, fun _ => hbody, nofun, nofun, fun _ => hp⟩
  | false =>
    simp only [hsp, Bool.false_eq_true, if_false] at hg ⊢
    obtain rfl := List.mem_singleton.mp hg
    exact ⟨nofun, nofun, fun _ => hbody, nofun, nofun, fun _ => hp⟩

/-- What a call relies on at its next step holds after its step, also of a callback. -/
theorem call_fits (hs : sh.Sound) (hf : f.Fits k sh) :
    ∀ g ∈ (sh.call k f env).2, g.Fits k (sh.call k f env).1 := by
  intro g hg
  cases hpc : f.pc with
  | closeRequested =>
    simp only [call, hpc] at hg ⊢
    obtain rfl := List.mem_singleton.mp hg
    exact WrapperCall.fits_free rfl
  | readRequested =>
    simp only [call, hpc] at hg ⊢
    obtain rfl := WrapperCall.mem_ite_left hg
    exact WrapperCall.fits_free rfl
  | readStarted =>
    simp only [call, hpc] at hg ⊢
    obtain rfl := WrapperCall.mem_ite_left hg
    exact WrapperCall.fits_free rfl
  | fetchBug =>
    simp only [call, hpc] at hg ⊢
    obtain rfl := WrapperCall.mem_ite_right hg
    exact WrapperCall.fits_free rfl
  | lock => exact call_fits_lock hf hpc g hg
  | trylock =>
    simp only [call, hpc] at hg ⊢
    cases hlock : sh.lock k env with
    | none =>
      rw [hlock] at hg
      cases hg
    | some sh' =>
      rw [hlock] at hg
      obtain rfl := List.mem_singleton.mp hg
      exact ⟨fun _ => lock_owner hlock, nofun, nofun, nofun, nofun, nofun⟩
  | testStarted =>
    simp only [call, hpc] at hg ⊢
    obtain rfl := List.mem_singleton.mp hg
    have hin := hf.inside (by rw [hpc]; rfl)
    split
    next => exact ⟨fun _ => hin, nofun, nofun, nofun, nofun, nofun⟩
    next hc => exact ⟨fun _ => hin, fun _ => by simpa using hc, nofun, nofun, nofun, nofun⟩
  | setStarted =>
    simp only [call, hpc] at hg ⊢
    obtain rfl := List.mem_singleton.mp hg
    have hin := hf.inside (by rw [hpc]; rfl)
    obtain ⟨hp, -⟩ := hs.unclaimed (hf.claiming hpc)
    exact ⟨fun _ => hin, nofun, fun _ => rfl, fun _ => hp, nofun, nofun⟩
  | clearPrivate | take =>
    simp only [call, hpc] at hg ⊢
    obtain rfl := List.mem_singleton.mp hg
    have hin := hf.inside (by rw [hpc]; rfl)
    have hbody := hf.body (by rw [hpc]; rfl)
    have hp := hf.published (by rw [hpc]; rfl)
    exact ⟨fun _ => hin, nofun, fun _ => hbody, fun _ => hp, nofun, nofun⟩
  | clearWrapper =>
    simp only [call, hpc] at hg ⊢
    obtain rfl := List.mem_singleton.mp hg
    have hin := hf.inside (by rw [hpc]; rfl)
    have hbody := hf.body (by rw [hpc]; rfl)
    have hp := hf.published (by rw [hpc]; rfl)
    obtain ⟨-, hd⟩ := hs.published hp
    exact ⟨fun _ => hin, nofun, fun _ => hbody, nofun, fun _ => ⟨rfl, hd⟩, nofun⟩
  | copyTaken => exact call_fits_copyTaken hf hpc g hg
  | unlockClaimed => exact call_fits_unlockClaimed hf hpc g hg
  | removeBug => exact call_fits_removeBug hf hpc g hg
  | deleteWrapper => exact call_fits_deleteWrapper hf hpc g hg
  | disconnect =>
    simp only [call, hpc] at hg ⊢
    obtain rfl := List.mem_singleton.mp hg
    have hbody := hf.body (by rw [hpc]; rfl)
    have hp := hf.done (Or.inl hpc)
    exact ⟨nofun, nofun, fun _ => hbody, nofun, nofun, fun _ => hp⟩
  | destroyMutex =>
    simp only [call, hpc] at hg
    cases hg
  | testWrapper =>
    simp only [call, hpc] at hg ⊢
    obtain rfl := List.mem_singleton.mp hg
    have hin := hf.inside (by rw [hpc]; rfl)
    split
    next hp => exact ⟨fun _ => hin, nofun, nofun, fun _ => hp, nofun, nofun⟩
    next => exact ⟨fun _ => hin, nofun, nofun, nofun, nofun, nofun⟩
  | copyWrapper =>
    simp only [call, hpc] at hg ⊢
    obtain rfl := List.mem_singleton.mp hg
    have hin := hf.inside (by rw [hpc]; rfl)
    exact WrapperCall.fits_copy ⟨fun _ => hin, nofun, nofun, nofun, nofun, nofun⟩
  | unlock =>
    simp only [call, hpc] at hg
    cases hg

/-- A call stays where it is on the stack, returns, or waits there for a callback. -/
theorem call_stack (sh : WrapperShared) (k : Nat) (f : WrapperCall) (env : WrapperEnv) :
    (sh.call k f env).2 = [] ∨ (∃ g, (sh.call k f env).2 = [g] ∧
      (g.pc.body = true → f.pc.body = true ∨ f.pc = .setStarted)) ∨
      (f.pc.body = true ∧
        (sh.call k f env).2 = [.start .closeCallback, f.goto .deleteWrapper]) := by
  unfold call
  cases hpc : f.pc with
  | closeRequested => exact Or.inr (Or.inl ⟨_, rfl, nofun⟩)
  | readRequested =>
    cases sh.closeRequested with
    | true => exact Or.inl rfl
    | false => exact Or.inr (Or.inl ⟨_, rfl, nofun⟩)
  | readStarted =>
    cases env.audioPaused || sh.cleanupStarted with
    | true => exact Or.inl rfl
    | false => exact Or.inr (Or.inl ⟨_, rfl, nofun⟩)
  | fetchBug =>
    cases sh.bug with
    | true => exact Or.inr (Or.inl ⟨_, rfl, nofun⟩)
    | false => exact Or.inl rfl
  | lock =>
    cases sh.lock k env with
    | none => exact Or.inr (Or.inl ⟨f, rfl, by rw [hpc]; nofun⟩)
    | some sh' =>
      refine Or.inr (Or.inl ⟨_, rfl, ?_⟩)
      split <;> nofun
  | trylock =>
    cases sh.lock k env with
    | none => exact Or.inl rfl
    | some sh' => exact Or.inr (Or.inl ⟨_, rfl, nofun⟩)
  | testStarted =>
    refine Or.inr (Or.inl ⟨_, rfl, ?_⟩)
    cases sh.cleanupStarted <;> nofun
  | setStarted => exact Or.inr (Or.inl ⟨_, rfl, fun _ => Or.inr rfl⟩)
  | clearPrivate | take | clearWrapper | unlockClaimed | disconnect =>
    exact Or.inr (Or.inl ⟨_, rfl, fun _ => Or.inl rfl⟩)
  | copyTaken =>
    cases f.spWrap with
    | true => exact Or.inr (Or.inl ⟨_, rfl, fun _ => Or.inl rfl⟩)
    | false => exact Or.inr (Or.inl ⟨_, rfl, fun _ => Or.inl rfl⟩)
  | removeBug =>
    cases env.callsBack with
    | true => exact Or.inr (Or.inr ⟨rfl, rfl⟩)
    | false => exact Or.inr (Or.inl ⟨_, rfl, fun _ => Or.inl rfl⟩)
  | deleteWrapper =>
    cases f.spWrap with
    | true => exact Or.inr (Or.inl ⟨_, rfl, fun _ => Or.inl rfl⟩)
    | false => exact Or.inr (Or.inl ⟨_, rfl, fun _ => Or.inl rfl⟩)
  | testWrapper =>
    refine Or.inr (Or.inl ⟨_, rfl, ?_⟩)
    cases sh.pAudioStreamer <;> nofun
  | copyWrapper => exact Or.inr (Or.inl ⟨_, rfl, nofun⟩)
  | destroyMutex | unlock => exact Or.inl rfl

end WrapperShared

namespace WrapperRun

def bodies (stack : List WrapperCall) : Nat := stack.countP fun f => f.pc.body

/-- The invariant of every run. -/
structure Safe (s : WrapperRun) : Prop where
  sound : s.shared.Sound
  fits : ∀ k, ∀ f ∈ s.threads k, f.Fits k s.shared
  waiting : ∀ k, ∀ f ∈ (s.threads k).tail, f.pc = .deleteWrapper
  once : ∀ k, bodies (s.threads k) ≤ 1
  sole : ∀ k k', 0 < bodies (s.threads k) → 0 < bodies (s.threads k') → k = k'

theorem safe_fresh (ops : Nat → WrapperOp) : (fresh ops).Safe := by
  have hfree : ∀ op, WrapperCall.free (WrapperCall.start op).pc = true := by
    intro op
    cases op <;> rfl
  have hbody : ∀ op, bodies [WrapperCall.start op] = 0 := by
    intro op
    cases op <;> rfl
  constructor
  · exact ⟨fun _ => ⟨rfl, rfl⟩, nofun, fun _ => ⟨rfl, rfl⟩, Nat.zero_le _, rfl⟩
  · intro k f hf
    obtain rfl := List.mem_singleton.mp hf
    exact WrapperCall.fits_free (hfree _)
  · intro k f hf
    cases hf
  · intro k
    exact (hbody (ops k)).trans_le (Nat.zero_le 1)
  · intro k k' hk
    exact absurd (hbody (ops k)) (Nat.pos_iff_ne_zero.mp hk)

theorem bodies_cons (f : WrapperCall) (rest : List WrapperCall) :
    bodies (f :: rest) = bodies rest + if f.pc.body then 1 else 0 :=
  List.countP_cons

theorem bodies_pos_of_mem {f : WrapperCall} {stack : List WrapperCall} (hf : f ∈ stack)
    (hbody : f.pc.body = true) : 0 < bodies stack :=
  List.countP_pos_iff.mpr ⟨f, hf, hbody⟩

/-- A step adds a body to the stack only when it sets `cleanup_started`. -/
theorem bodies_call (sh : WrapperShared) (k : Nat) (f : WrapperCall) (env : WrapperEnv)
    (rest : List WrapperCall) :
    bodies ((sh.call k f env).2 ++ rest) ≤ bodies (f :: rest) ∨
      (f.pc = .setStarted ∧ bodies ((sh.call k f env).2 ++ rest) ≤ 1 + bodies rest) := by
  rw [bodies_cons]
  rcases WrapperShared.call_stack sh k f env with hout | ⟨g, hout, hbody⟩ | ⟨hf, hout⟩
  · rw [hout, List.nil_append]
    exact Or.inl (Nat.le_add_right _ _)
  · rw [hout, List.singleton_append, bodies_cons]
    by_cases hg : g.pc.body = true
    · rcases hbody hg with hf | hset
      · rw [if_pos hg, if_pos hf]
        exact Or.inl (le_refl _)
      · rw [if_pos hg]
        exact Or.inr ⟨hset, by omega⟩
    · rw [if_neg hg]
      exact Or.inl (by omega)
  · have hcallback : (WrapperCall.start .closeCallback).pc.body = false := rfl
    have hwaits : (f.goto .deleteWrapper).pc.body = true := rfl
    rw [hout, List.cons_append, List.singleton_append, bodies_cons, bodies_cons, hcallback,
      hwaits, hf]
    exact Or.inl (le_refl _)

section Step

variable {s : WrapperRun} {k : Nat} {f : WrapperCall} {rest : List WrapperCall}

theorem bodies_unclaimed (h : s.Safe) (hc : s.shared.cleanupStarted = false) (k : Nat) :
    bodies (s.threads k) = 0 := by
  refine List.countP_eq_zero.mpr fun f hf hbody => ?_
  have hstarted := (h.fits k f hf).body hbody
  rw [hc] at hstarted
  cases hstarted

theorem beside_below (h : s.Safe) (hk : s.threads k = f :: rest) {g : WrapperCall}
    (hg : g ∈ rest) : f.Beside k g k := by
  have hpc : g.pc = .deleteWrapper := h.waiting k g (by rw [hk]; exact hg)
  refine ⟨Or.inr hpc, fun hf => ?_⟩
  have hpos := bodies_pos_of_mem hg (by rw [hpc]; rfl)
  have honce := h.once k
  rw [hk, bodies_cons, if_pos hf] at honce
  omega

theorem beside_apart (h : s.Safe) (hk : s.threads k = f :: rest) {k' : Nat} {g : WrapperCall}
    (hne : k' ≠ k) (hg : g ∈ s.threads k') : f.Beside k g k' := by
  refine ⟨Or.inl hne, fun hf => ?_⟩
  by_contra hbody
  have hpos' := bodies_pos_of_mem hg (by simpa using hbody)
  have hpos := bodies_pos_of_mem (by rw [hk]; exact List.mem_cons_self : f ∈ s.threads k) hf
  exact hne (h.sole k' k hpos' hpos)

theorem bodies_step (h : s.Safe) (hk : s.threads k = f :: rest) (env : WrapperEnv) :
    bodies ((s.shared.call k f env).2 ++ rest) ≤ bodies (f :: rest) ∨
      (bodies ((s.shared.call k f env).2 ++ rest) ≤ 1 ∧ ∀ k', bodies (s.threads k') = 0) := by
  rcases bodies_call s.shared k f env rest with hle | ⟨hset, hle⟩
  · exact Or.inl hle
  · have hf := h.fits k f (by rw [hk]; exact List.mem_cons_self)
    have hnone := bodies_unclaimed h (hf.claiming hset)
    have hrest := hnone k
    rw [hk, bodies_cons] at hrest
    exact Or.inr ⟨by omega, hnone⟩

theorem safe_call (h : s.Safe) (hk : s.threads k = f :: rest) (env : WrapperEnv) :
    Safe ⟨(s.shared.call k f env).1,
      Function.update s.threads k ((s.shared.call k f env).2 ++ rest)⟩ := by
  have hf := h.fits k f (by rw [hk]; exact List.mem_cons_self)
  have hbodies := bodies_step h hk env
  have honce : bodies (f :: rest) ≤ 1 := hk ▸ h.once k
  generalize hthreads : Function.update s.threads k ((s.shared.call k f env).2 ++ rest) = threads
  have hself : threads k = (s.shared.call k f env).2 ++ rest := by
    rw [← hthreads, Function.update_self]
  have hother : ∀ k', k' ≠ k → threads k' = s.threads k' := fun k' hne => by
    rw [← hthreads, Function.update_of_ne hne]
  constructor
  · exact WrapperShared.call_sound h.sound hf
  · intro k' g (hg : g ∈ threads k')
    by_cases hkk : k' = k
    · rw [hkk, hself] at hg
      rw [hkk]
      rcases List.mem_append.mp hg with hg | hg
      · exact WrapperShared.call_fits h.sound hf g hg
      · have hgfits := h.fits k g (by rw [hk]; exact List.mem_cons_of_mem f hg)
        exact WrapperCall.fits_beside h.sound hf hgfits (beside_below h hk hg)
    · rw [hother k' hkk] at hg
      exact WrapperCall.fits_beside h.sound hf (h.fits k' g hg) (beside_apart h hk hkk hg)
  · intro k' g (hg : g ∈ (threads k').tail)
    by_cases hkk : k' = k
    · have hrest : ∀ g ∈ rest, g.pc = .deleteWrapper := fun g hg =>
        h.waiting k g (by rw [hk]; exact hg)
      rw [hkk, hself] at hg
      rcases WrapperShared.call_stack s.shared k f env with hout | ⟨g', hout, -⟩ | ⟨-, hout⟩
      · rw [hout] at hg
        exact hrest g (List.mem_of_mem_tail hg)
      · rw [hout] at hg
        exact hrest g hg
      · rw [hout] at hg
        rcases List.mem_cons.mp hg with rfl | hg
        · rfl
        · exact hrest g hg
    · rw [hother k' hkk] at hg
      exact h.waiting k' g hg
  · intro k'
    change bodies (threads k') ≤ 1
    by_cases hkk : k' = k
    · rw [hkk, hself]
      rcases hbodies with hle | ⟨hle, -⟩
      · exact hle.trans honce
      · exact hle
    · rw [hother k' hkk]
      exact h.once k'
  · -- a thread with a body had one before, unless no thread had
    have hkeep : ∀ k', k' ≠ k → 0 < bodies (threads k') → ¬0 < bodies (threads k) := by
      intro k' hne hpos' hpos
      rw [hother k' hne] at hpos'
      rw [hself] at hpos
      rcases hbodies with hle | ⟨-, hnone⟩
      · exact hne (h.sole k' k hpos' (by rw [hk]; omega))
      · have hzero := hnone k'
        omega
    intro k₁ k₂ (h₁ : 0 < bodies (threads k₁)) (h₂ : 0 < bodies (threads k₂))
    by_cases hk₁ : k₁ = k
    · by_cases hk₂ : k₂ = k
      · exact hk₁.trans hk₂.symm
      · exact absurd (hk₁ ▸ h₁) (hkeep k₂ hk₂ h₂)
    · by_cases hk₂ : k₂ = k
      · exact absurd (hk₂ ▸ h₂) (hkeep k₁ hk₁ h₁)
      · rw [hother k₁ hk₁] at h₁
        rw [hother k₂ hk₂] at h₂
        exact h.sole k₁ k₂ h₁ h₂

theorem safe_requestClose (h : s.Safe) :
    Safe { s with shared := { s.shared with closeRequested := true } } := by
  refine ⟨?_, fun k f hf => ?_, h.waiting, h.once, h.sole⟩
  · have hs := h.sound
    exact ⟨hs.unclaimed, hs.claimed, hs.published, hs.deletions, hs.staleCopies⟩
  · have hfits := h.fits k f hf
    exact ⟨hfits.inside, hfits.claiming, hfits.body, hfits.published, hfits.taken, hfits.done⟩

theorem safe_step (h : s.Safe) (a : WrapperAct) : (s.step a).Safe := by
  cases a with
  | requestClose => exact safe_requestClose h
  | thread k env =>
    unfold step
    cases hk : s.threads k with
    | nil =>
      simp only [hk]
      exact h
    | cons f rest =>
      simp only [hk]
      exact safe_call h hk env

end Step

/-- The wrapper was deleted at most once and not copied after that, and the body of
`stream_session_cleanup` ran at most once. -/
structure OwnedOnce (s : WrapperRun) : Prop where
  deletions : s.shared.deletions ≤ 1
  staleCopies : s.shared.staleCopies = 0
  bodies : s.shared.bodies ≤ 1

theorem ownedOnce_of_safe {s : WrapperRun} (h : s.Safe) : s.OwnedOnce := by
  refine ⟨h.sound.deletions, h.sound.staleCopies, ?_⟩
  cases hc : s.shared.cleanupStarted with
  | true => exact Nat.le_of_eq (h.sound.claimed hc)
  | false =>
    obtain ⟨-, hbodies⟩ := h.sound.unclaimed hc
    omega

end WrapperRun

/-- Whatever calls there are and however their steps and those of the callbacks alternate. -/
theorem wrapper_owned_once (ops : Nat → WrapperOp) (acts : List WrapperAct) :
    Always WrapperStep WrapperRun.OwnedOnce (.fresh ops) acts := by
  have hsafe : Always WrapperStep WrapperRun.Safe (.fresh ops) acts := by
    refine always_of_invariant ?_ (WrapperRun.safe_fresh ops) acts
    rintro s a t hs rfl
    exact WrapperRun.safe_step hs a
  exact hsafe.imp fun s => WrapperRun.ownedOnce_of_safe

end ModAudioStream
