import Mathlib.Data.List.Infix

namespace ModAudioStream

def crlf : List UInt8 := [0x0D, 0x0A]

/-- A line, without the CRLF behind it. -/
def IsLine (line : List UInt8) : Prop := ¬crlf <:+: line

/-- The first line of a stream, and what follows its CRLF. -/
def readLine : List UInt8 → Option (List UInt8 × List UInt8)
  | [] => none
  | c :: s =>
    if c = 0x0D ∧ s.head? = some 0x0A then some ([], s.tail)
    else (readLine s).map fun out => (c :: out.1, out.2)

def joinLines (lines : List (List UInt8)) : List UInt8 := (lines.map (· ++ crlf)).flatten

@[simp] theorem joinLines_nil : joinLines [] = [] := rfl

@[simp] theorem joinLines_cons (line : List UInt8) (lines : List (List UInt8)) :
    joinLines (line :: lines) = line ++ (crlf ++ joinLines lines) := by
  simp [joinLines]

theorem joinLines_append (lines more : List (List UInt8)) :
    joinLines (lines ++ more) = joinLines lines ++ joinLines more := by
  simp [joinLines]

theorem isLine_nil : IsLine [] := by
  intro h
  have hnil := List.eq_nil_of_infix_nil h
  cases hnil

theorem isLine_of_not_mem {line : List UInt8} (h : 0x0D ∉ line) : IsLine line := fun hin =>
  h (hin.subset List.mem_cons_self)

theorem IsLine.part {line part : List UInt8} (h : IsLine line) (hp : part <:+: line) :
    IsLine part := fun hin => h (hin.trans hp)

theorem isLine_cons {c : UInt8} {line : List UInt8} (hc : ¬(c = 0x0D ∧ line.head? = some 0x0A))
    (h : IsLine line) : IsLine (c :: line) := by
  intro hin
  rcases List.infix_cons_iff.mp hin with hpre | hin
  · obtain ⟨t, ht⟩ := hpre
    obtain ⟨rfl, htail⟩ := List.cons.inj ht
    exact hc ⟨rfl, by rw [← htail]; rfl⟩
  · exact h hin

theorem IsLine.append {a b : List UInt8} (ha : IsLine a) (hb : 0x0D ∉ b)
    (hhead : b.head? ≠ some 0x0A) : IsLine (a ++ b) := by
  induction a with
  | nil => exact isLine_of_not_mem hb
  | cons c a ih =>
    refine isLine_cons ?_ (ih (ha.part (List.infix_cons List.infix_rfl)))
    rintro ⟨rfl, hhead'⟩
    cases a with
    | nil => exact hhead hhead'
    | cons d a =>
      obtain rfl : d = 0x0A := Option.some.inj hhead'
      exact ha ⟨[], a, rfl⟩

theorem readLine_line {line : List UInt8} (h : IsLine line) (rest : List UInt8) :
    readLine (line ++ (crlf ++ rest)) = some (line, rest) := by
  induction line with
  | nil => rfl
  | cons c line ih =>
    have hline := ih (h.part (List.infix_cons List.infix_rfl))
    have hc : ¬(c = 0x0D ∧ (line ++ (crlf ++ rest)).head? = some 0x0A) := by
      rintro ⟨rfl, hhead⟩
      cases line with
      | nil => cases hhead
      | cons d line =>
        obtain rfl : d = 0x0A := Option.some.inj hhead
        exact h ⟨[], line, rfl⟩
    rw [List.cons_append, readLine, if_neg hc, hline]
    rfl

theorem readLine_eq_some {s line rest : List UInt8} (h : readLine s = some (line, rest)) :
    s = line ++ (crlf ++ rest) ∧ IsLine line := by
  induction s generalizing line with
  | nil => cases h
  | cons c s ih =>
    rw [readLine] at h
    split at h
    next hc =>
      obtain ⟨rfl, rfl⟩ := Prod.mk.inj (Option.some.inj h)
      obtain ⟨rfl, hhead⟩ := hc
      cases s with
      | nil => cases hhead
      | cons d s =>
        obtain rfl : d = 0x0A := Option.some.inj hhead
        exact ⟨rfl, isLine_nil⟩
    next hc =>
      obtain ⟨out, hout, heq⟩ := Option.map_eq_some_iff.mp h
      obtain ⟨rfl, rfl⟩ := Prod.mk.inj heq
      obtain ⟨rfl, hline⟩ := ih hout
      refine ⟨rfl, isLine_cons (fun hcr => hc ⟨hcr.1, ?_⟩) hline⟩
      rw [List.head?_append, hcr.2]
      rfl

/-- Without a line to read, no CRLF is there at all. -/
theorem isLine_of_readLine {s : List UInt8} (h : readLine s = none) : IsLine s := by
  intro hin
  induction s with
  | nil => exact isLine_nil hin
  | cons c s ih =>
    rw [readLine] at h
    split at h
    next => cases h
    next hc =>
      have hs : readLine s = none := Option.map_eq_none_iff.mp h
      exact isLine_cons hc (ih hs) hin

/-- The lines up to the first blank one, and what follows that. -/
def readLines (s : List UInt8) : Option (List (List UInt8) × List UInt8) :=
  match _h : readLine s with
  | none => none
  | some (line, rest) =>
    if line = [] then some ([], rest)
    else (readLines rest).map fun out => (line :: out.1, out.2)
termination_by s.length
decreasing_by
  have hs := congrArg List.length (readLine_eq_some _h).1
  simp only [List.length_append] at hs
  have hcrlf : crlf.length = 2 := rfl
  omega

theorem readLines_of_some {s line rest : List UInt8} (h : readLine s = some (line, rest)) :
    readLines s = if line = [] then some ([], rest)
      else (readLines rest).map fun out => (line :: out.1, out.2) := by
  rw [readLines]
  split
  next h' =>
    rw [h] at h'
    cases h'
  next line' rest' h' =>
    obtain ⟨rfl, rfl⟩ := Prod.mk.inj (Option.some.inj (h'.symm.trans h))
    rfl

theorem readLines_joinLines {lines : List (List UInt8)}
    (h : ∀ line ∈ lines, IsLine line ∧ line ≠ []) (rest : List UInt8) :
    readLines (joinLines lines ++ (crlf ++ rest)) = some (lines, rest) := by
  induction lines with
  | nil =>
    rw [joinLines_nil, List.nil_append]
    exact readLines_of_some (readLine_line isLine_nil rest)
  | cons line lines ih =>
    obtain ⟨hline, hne⟩ := h line List.mem_cons_self
    have htail := ih fun l hl => h l (List.mem_cons_of_mem line hl)
    rw [joinLines_cons, List.append_assoc, List.append_assoc,
      readLines_of_some (readLine_line hline _), if_neg hne, htail]
    rfl

/-- No proper beginning of a line and its CRLF ends in one. -/
theorem eq_of_crlf_suffix {line p : List UInt8} (h : IsLine line) (hp : p <+: line ++ crlf)
    (hend : crlf <:+ p) : p = line ++ crlf := by
  obtain ⟨q, rfl⟩ := hend
  obtain ⟨t, ht⟩ := hp
  rcases List.append_eq_append_iff.mp (by simpa using ht : q ++ (crlf ++ t) = line ++ crlf) with
    ⟨d, rfl, hd⟩ | ⟨d, rfl, hd⟩
  · cases d with
    | nil => simp
    | cons x d =>
      -- a CRLF that begins inside the line is in it, or leaves no room for the one behind
      have hlen := congrArg List.length hd
      simp only [List.length_append, List.length_cons] at hlen
      have hcrlf : crlf.length = 2 := rfl
      cases d with
      | nil =>
        have h1 := congrArg (fun l => l[1]?) hd
        simp [crlf] at h1
      | cons y d =>
        have h0 := congrArg (fun l => l[0]?) hd
        have h1 := congrArg (fun l => l[1]?) hd
        obtain rfl : 0x0D = x := by simpa [crlf] using h0
        obtain rfl : 0x0A = y := by simpa [crlf] using h1
        exact absurd ⟨q, d, by simp [crlf]⟩ h
  · have hlen := congrArg List.length hd
    simp only [List.length_append] at hlen
    obtain rfl : d = [] := List.eq_nil_of_length_eq_zero (by omega)
    simp

/-- A CRLF CRLF has a blank line at its end, or before. -/
theorem readLines_blank (q t : List UInt8) :
    ∃ lines rest, readLines (q ++ (crlf ++ (crlf ++ t))) = some (lines, rest) ∧ t <:+ rest := by
  cases hq : readLine q with
  | none =>
    have hread := readLine_line (isLine_of_readLine hq) (crlf ++ t)
    have hblank : readLine (crlf ++ t) = some ([], t) := readLine_line isLine_nil t
    rw [readLines_of_some hread, readLines_of_some hblank]
    by_cases hnil : q = []
    · rw [if_pos hnil]
      exact ⟨[], _, rfl, List.suffix_append _ _⟩
    · rw [if_neg hnil]
      exact ⟨[q], t, rfl, List.suffix_rfl⟩
  | some out =>
    obtain ⟨line, more⟩ := out
    obtain ⟨rfl, hline⟩ := readLine_eq_some hq
    have hread := readLine_line hline (more ++ (crlf ++ (crlf ++ t)))
    rw [List.append_assoc, List.append_assoc, readLines_of_some hread]
    by_cases hnil : line = []
    · rw [if_pos hnil]
      exact ⟨[], _, rfl, more ++ (crlf ++ crlf), by simp⟩
    · obtain ⟨lines, rest, hrest, hsuf⟩ := readLines_blank more t
      rw [if_neg hnil, hrest]
      exact ⟨line :: lines, rest, rfl, hsuf⟩
termination_by q.length
decreasing_by
  have hcrlf : crlf.length = 2 := rfl
  simp_all
  omega

/-- The stream ends with a CRLF CRLF, and has no other. -/
def EndsAtBlankLine (s : List UInt8) : Prop :=
  crlf ++ crlf <:+ s ∧ ∀ p, p <+: s → crlf ++ crlf <:+ p → p = s

theorem endsAtBlankLine {lines : List (List UInt8)} (hne : lines ≠ [])
    (h : ∀ line ∈ lines, IsLine line ∧ line ≠ []) :
    EndsAtBlankLine (joinLines lines ++ crlf) := by
  constructor
  · obtain ⟨init, last, rfl⟩ := (List.eq_nil_or_concat' lines).resolve_left hne
    rw [joinLines_append, joinLines_cons, joinLines_nil]
    exact ⟨joinLines init ++ last, by simp⟩
  · rintro p ⟨t, ht⟩ ⟨q, rfl⟩
    obtain ⟨lines', rest, hread, hsuf⟩ := readLines_blank q t
    have hall := readLines_joinLines h []
    rw [List.append_nil, ← ht, List.append_assoc, List.append_assoc, hread] at hall
    obtain ⟨-, rfl⟩ := Prod.mk.inj (Option.some.inj hall)
    rw [← ht, List.suffix_nil.mp hsuf, List.append_nil]

end ModAudioStream
