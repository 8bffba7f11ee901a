import Mathlib.Data.List.Basic

namespace ModAudioStream

/-- An incremental decoder. `next buf` is `none` while `buf` does not begin with
a whole item, and otherwise the item with what follows it. Bytes that arrive
later never change an item already complete. An item in `stops` ends the
decoding. -/
structure Decoder (α β : Type*) where
  next : List α → Option (β × List α)
  stops : β → Bool
  shrinks : ∀ {buf b rest}, next buf = some (b, rest) → rest.length < buf.length
  stable : ∀ {buf b rest} (more : List α),
    next buf = some (b, rest) → next (buf ++ more) = some (b, rest ++ more)

/-- What a decoding leaves: the items read, the bytes not consumed, and whether
an item in `stops` ended it. -/
structure Decoded (α β : Type*) where
  items : List β
  rest : List α
  stopped : Bool

namespace Decoder

variable {α β : Type*} (d : Decoder α β)

def decode (buf : List α) : Decoded α β :=
  match _h : d.next buf with
  | none => ⟨[], buf, false⟩
  | some (b, rest) =>
    if d.stops b then ⟨[b], rest, true⟩
    else
      let r := decode rest
      ⟨b :: r.items, r.rest, r.stopped⟩
termination_by buf.length
decreasing_by exact d.shrinks _h

/-- Decodes a stream that arrives in chunks; what is left of one chunk is kept
in front of the next, and chunks after a stop are not read. -/
def feed (buf : List α) : List (List α) → Decoded α β
  | [] => ⟨[], buf, false⟩
  | chunk :: chunks =>
    let r := d.decode (buf ++ chunk)
    if r.stopped then r
    else
      let r' := feed r.rest chunks
      ⟨r.items ++ r'.items, r'.rest, r'.stopped⟩

variable {d}

theorem decode_of_none {buf : List α} (h : d.next buf = none) :
    d.decode buf = ⟨[], buf, false⟩ := by
  rw [decode]
  split
  next => rfl
  next b rest he => simp [h] at he

theorem decode_of_stop {buf rest : List α} {b : β} (h : d.next buf = some (b, rest))
    (hs : d.stops b = true) : d.decode buf = ⟨[b], rest, true⟩ := by
  rw [decode]
  split
  next he => simp [h] at he
  next b' rest' he =>
    cases h.symm.trans he
    simp [hs]

theorem decode_of_next {buf rest : List α} {b : β} (h : d.next buf = some (b, rest))
    (hs : d.stops b = false) :
    d.decode buf = ⟨b :: (d.decode rest).items, (d.decode rest).rest, (d.decode rest).stopped⟩ := by
  rw [decode]
  split
  next he => simp [h] at he
  next b' rest' he =>
    cases h.symm.trans he
    simp [hs]

theorem decode_cases (d : Decoder α β) {motive : List α → Prop}
    (pending : ∀ buf, d.next buf = none → motive buf)
    (stop : ∀ buf b rest, d.next buf = some (b, rest) → d.stops b = true → motive buf)
    (item : ∀ buf b rest, d.next buf = some (b, rest) → d.stops b = false →
      motive rest → motive buf)
    (buf : List α) : motive buf := by
  induction hn : buf.length using Nat.strongRecOn generalizing buf with
  | ind n ih =>
    cases h : d.next buf with
    | none => exact pending buf h
    | some p =>
      obtain ⟨b, rest⟩ := p
      cases hs : d.stops b with
      | true => exact stop buf b rest h hs
      | false => exact item buf b rest h hs (ih rest.length (hn ▸ d.shrinks h) rest rfl)

theorem next_rest_of_not_stopped {buf : List α} (h : (d.decode buf).stopped = false) :
    d.next (d.decode buf).rest = none := by
  induction buf using decode_cases d with
  | pending buf hn => rw [decode_of_none hn]; exact hn
  | stop buf b rest hn hs => simp [decode_of_stop hn hs] at h
  | item buf b rest hn hs ih =>
    rw [decode_of_next hn hs] at h ⊢
    exact ih h

theorem stopped_eq_any (buf : List α) :
    (d.decode buf).stopped = (d.decode buf).items.any d.stops := by
  induction buf using decode_cases d with
  | pending buf hn => rw [decode_of_none hn]; rfl
  | stop buf b rest hn hs => simp [decode_of_stop hn hs, hs]
  | item buf b rest hn hs ih =>
    rw [decode_of_next hn hs, List.any_cons, hs, Bool.false_or]
    exact ih

theorem decode_append_of_stopped {buf : List α} (more : List α)
    (h : (d.decode buf).stopped = true) :
    d.decode (buf ++ more) = ⟨(d.decode buf).items, (d.decode buf).rest ++ more, true⟩ := by
  induction buf using decode_cases d with
  | pending buf hn => simp [decode_of_none hn] at h
  | stop buf b rest hn hs => rw [decode_of_stop (d.stable more hn) hs, decode_of_stop hn hs]
  | item buf b rest hn hs ih =>
    rw [decode_of_next hn hs] at h ⊢
    rw [decode_of_next (d.stable more hn) hs, ih h]

/-- Decoding may pause anywhere: the rest of one buffer is where the next begins. -/
theorem decode_append {buf : List α} (more : List α) (h : (d.decode buf).stopped = false) :
    d.decode (buf ++ more) =
      ⟨(d.decode buf).items ++ (d.decode ((d.decode buf).rest ++ more)).items,
        (d.decode ((d.decode buf).rest ++ more)).rest,
        (d.decode ((d.decode buf).rest ++ more)).stopped⟩ := by
  induction buf using decode_cases d with
  | pending buf hn => simp [decode_of_none hn]
  | stop buf b rest hn hs => simp [decode_of_stop hn hs] at h
  | item buf b rest hn hs ih =>
    rw [decode_of_next hn hs] at h ⊢
    rw [decode_of_next (d.stable more hn) hs, ih h]
    rfl

/-- Chunked decoding reads the same items as decoding the whole stream at once,
and without a stop it leaves the same bytes. -/
theorem feed_eq_decode (chunks : List (List α)) {buf : List α} (hbuf : d.next buf = none) :
    (d.feed buf chunks).items = (d.decode (buf ++ chunks.flatten)).items ∧
    (d.feed buf chunks).stopped = (d.decode (buf ++ chunks.flatten)).stopped ∧
    ((d.feed buf chunks).stopped = false →
      (d.feed buf chunks).rest = (d.decode (buf ++ chunks.flatten)).rest) := by
  induction chunks generalizing buf with
  | nil => simp [feed, decode_of_none hbuf]
  | cons chunk chunks ih =>
    rw [List.flatten_cons, ← List.append_assoc, feed]
    cases hs : (d.decode (buf ++ chunk)).stopped with
    | true =>
      rw [decode_append_of_stopped chunks.flatten hs]
      simp [hs]
    | false =>
      obtain ⟨hi, ht, hr⟩ := ih (next_rest_of_not_stopped hs)
      simp only [Bool.false_eq_true, if_false]
      rw [decode_append chunks.flatten hs]
      exact ⟨by rw [hi], ht, hr⟩

theorem next_of_proper_prefix {buf tail : List α} {b : β} (h : d.next buf = some (b, []))
    (hp : tail <+: buf) (hne : tail ≠ buf) : d.next tail = none := by
  obtain ⟨more, rfl⟩ := hp
  cases ht : d.next tail with
  | none => rfl
  | some p =>
    obtain ⟨b', rest⟩ := p
    have he := Option.some.inj ((d.stable more ht).symm.trans h)
    have hnil : rest ++ more = [] := (Prod.mk.inj he).2
    have hmore : more = [] := (List.append_eq_nil_iff.mp hnil).2
    exact absurd (by simp [hmore]) hne

/-- Decoding inverts an encoding that `next` inverts item by item. -/
theorem decode_flatMap {γ : Type*} {encode : γ → List α} {item : γ → β} {tail : List α}
    (xs : List γ)
    (round : ∀ x ∈ xs, ∀ more, d.next (encode x ++ more) = some (item x, more))
    (goes : ∀ x ∈ xs, d.stops (item x) = false) (htail : d.next tail = none) :
    d.decode (xs.flatMap encode ++ tail) = ⟨xs.map item, tail, false⟩ := by
  induction xs with
  | nil => simpa using decode_of_none htail
  | cons x xs ih =>
    have hn := round x (by simp) (xs.flatMap encode ++ tail)
    have ih := ih (fun y hy => round y (by simp [hy])) (fun y hy => goes y (by simp [hy]))
    rw [List.flatMap_cons, List.append_assoc, decode_of_next hn (goes x (by simp)), ih]
    rfl

/-- Of an encoded list, decoding reads the items up to the first one that stops it, and that one. -/
theorem decode_flatMap_stops {γ : Type*} {encode : γ → List α} {item : γ → β} {tail : List α}
    (xs : List γ)
    (round : ∀ x ∈ xs, ∀ more, d.next (encode x ++ more) = some (item x, more))
    (htail : d.next tail = none) :
    let out := d.decode (xs.flatMap encode ++ tail)
    out.items = (xs.takeWhile fun x => !d.stops (item x)).map item ++
        ((xs.find? fun x => d.stops (item x)).map item).toList ∧
      out.stopped = xs.any (fun x => d.stops (item x)) ∧
      (out.stopped = false → out.rest = tail) := by
  induction xs with
  | nil => simp [decode_of_none htail]
  | cons x xs ih =>
    have hn := round x (by simp) (xs.flatMap encode ++ tail)
    rw [List.flatMap_cons, List.append_assoc]
    cases hs : d.stops (item x) with
    | true =>
      rw [decode_of_stop hn hs]
      simp [hs]
    | false =>
      obtain ⟨hitems, hstopped, hrest⟩ := ih fun y hy => round y (by simp [hy])
      rw [decode_of_next hn hs]
      refine ⟨?_, ?_, hrest⟩
      · rw [hitems]
        simp [hs]
      · rw [hstopped]
        simp [hs]

end Decoder

end ModAudioStream
