import ModAudioStream.HandshakeResponse
import Mathlib.Data.List.DropRight

namespace ModAudioStream

/-- Blanks in front, and blanks and line ends behind, are no part of a value. -/
def trimmed (value : List UInt8) : List UInt8 :=
  (value.dropWhile fun c => (ascii " \t").contains c).rdropWhile
    fun c => (ascii " \t\r\n").contains c

/-- A response up to its blank line: the lines of it, without their CRLFs. -/
structure ResponseHead where
  statusLine : List UInt8
  headers : List (List UInt8)
  isLine_status : IsLine statusLine
  isLine_headers : ∀ line ∈ headers, IsLine line ∧ line ≠ []

namespace ResponseHead

def bytes (h : ResponseHead) : List UInt8 :=
  h.statusLine ++ (crlf ++ (joinLines h.headers ++ crlf))

/-- The response switches protocols and proves that the server has seen the key. -/
structure Upgrades (h : ResponseHead) (expectedAccept : List UInt8) : Prop where
  status : statusNumber h.statusLine = some 101
  accept : ∃ line ∈ h.headers, hasName line acceptName = true ∧
    trimmed (line.drop acceptName.length) = expectedAccept

end ResponseHead

theorem findIdx?_split {s : List UInt8} {p : UInt8 → Bool} {i : Nat}
    (h : s.findIdx? p = some i) : ∃ before c after, s = before ++ c :: after ∧
      before.length = i ∧ p c = true ∧ ∀ x ∈ before, p x = false := by
  obtain ⟨hi, hp, hbefore⟩ := List.findIdx?_eq_some_iff_getElem.mp h
  refine ⟨s.take i, s[i], s.drop (i + 1), ?_, ?_, hp, ?_⟩
  · rw [← List.drop_eq_getElem_cons hi, List.take_append_drop]
  · rw [List.length_take]
    omega
  · intro x hx
    obtain ⟨j, hj, rfl⟩ := List.mem_iff_getElem.mp hx
    rw [List.length_take] at hj
    rw [List.getElem_take]
    simpa using hbefore j (by omega)

theorem rdropWhile_append {p : UInt8 → Bool} {tail : List UInt8} (ht : ∀ c ∈ tail, p c = true)
    (x : List UInt8) : (x ++ tail).rdropWhile p = x.rdropWhile p := by
  induction tail using List.reverseRecOn with
  | nil => rw [List.append_nil]
  | append_singleton tail c ih =>
    have hc := ht c (by simp)
    rw [← List.append_assoc, List.rdropWhile_concat_pos _ _ _ hc]
    exact ih fun y hy => ht y (List.mem_append_left _ hy)

theorem trimmed_crlf (x : List UInt8) : trimmed (x ++ crlf) = trimmed x := by
  have hcrlf : ∀ c ∈ crlf, (ascii " \t\r\n").contains c = true := List.all_eq_true.mp (by decide)
  unfold trimmed
  rw [List.dropWhile_append]
  split
  next hall =>
    rw [List.isEmpty_iff] at hall
    rw [hall]
    rfl
  next => exact rdropWhile_append hcrlf _

theorem acceptValue_eq_some {headerLine value : List UInt8}
    (h : acceptValue headerLine = some value) : 22 < headerLine.length ∧
      hasName headerLine acceptName = true ∧ value = trimmed (headerLine.drop 21) := by
  unfold acceptValue at h
  split at h
  next hname =>
    obtain ⟨hlen, hname⟩ := hname
    refine ⟨hlen, hname, ?_⟩
    split at h
    next start stop hstart hstop =>
      split at h
      next hlt =>
        obtain rfl := Option.some.inj h
        obtain ⟨i, hi, rfl⟩ := Option.map_eq_some_iff.mp hstart
        obtain ⟨j, hj, rfl⟩ := Option.map_eq_some_iff.mp hstop
        obtain ⟨blanks, c, rest, hsplit, rfl, hc, hblanks⟩ := findIdx?_split hi
        obtain ⟨tail, d, front, hrev, rfl, hd, htail⟩ := findIdx?_split hj
        -- the line once as its parts in front of the value, once as those behind it
        have hline : headerLine = front.reverse ++ ([d] ++ tail.reverse) := by
          have hback := congrArg List.reverse hrev
          simpa using hback
        have hfront : headerLine.length - 1 - tail.length = front.reverse.length := by
          rw [hline]
          simp only [List.length_append, List.length_reverse, List.length_singleton]
          omega
        rw [hfront] at hlt ⊢
        have hvalue : headerLine.drop (blanks.length + 21) = c :: rest := by
          rw [Nat.add_comm, ← List.drop_drop, hsplit, List.drop_left]
        have hvalue' : headerLine.drop (blanks.length + 21) =
            (front.reverse.drop (blanks.length + 21) ++ [d]) ++ tail.reverse := by
          rw [hline, List.drop_append_of_le_length (by omega), List.append_assoc]
        have hlen' : (front.reverse.drop (blanks.length + 21) ++ [d]).length =
            front.reverse.length - (blanks.length + 21) + 1 := by
          simp only [List.length_append, List.length_drop, List.length_singleton]
        rw [hvalue', ← hlen', List.take_left]
        unfold trimmed
        rw [hsplit, List.dropWhile_append_of_pos (by simpa using hblanks),
          List.dropWhile_cons_of_neg (by simpa using hc), ← hvalue, hvalue',
          rdropWhile_append (by simpa using htail), List.rdropWhile_concat_neg _ _ _
          (by simpa using hd)]
      next => cases h
    next => cases h
  next => cases h

theorem acceptValue_line {line value : List UInt8} (h : acceptValue (line ++ crlf) = some value) :
    hasName line acceptName = true ∧ trimmed (line.drop acceptName.length) = value := by
  obtain ⟨hlen, hname, rfl⟩ := acceptValue_eq_some h
  have hcrlf : crlf.length = 2 := rfl
  have hlen' : acceptName.length = 21 := rfl
  rw [List.length_append] at hlen
  rw [hasName, List.take_append_of_le_length (by omega)] at hname
  rw [List.drop_append_of_le_length (by omega), trimmed_crlf, hlen']
  exact ⟨hname, rfl⟩

theorem takeWhile_isDigit_crlf (z : List UInt8) :
    (z ++ crlf).takeWhile isDigit = z.takeWhile isDigit := by
  have hcrlf : crlf.takeWhile isDigit = [] := rfl
  rw [List.takeWhile_append, hcrlf, List.append_nil]
  split
  next hall => exact ((List.takeWhile_prefix _).eq_of_length hall).symm
  next => rfl

theorem unsign_crlf {y : List UInt8} (hy : y ≠ []) :
    unsign (y ++ crlf) = ((unsign y).1, (unsign y).2 ++ crlf) := by
  cases y with
  | nil => exact absurd rfl hy
  | cons c y =>
    rw [List.cons_append, unsign, unsign]
    split
    · rfl
    · split <;> rfl

theorem scanNumber_crlf (x : List UInt8) : scanNumber (x ++ crlf) = scanNumber x := by
  unfold scanNumber
  rw [List.dropWhile_append]
  split
  next hall =>
    rw [List.isEmpty_iff] at hall
    rw [hall]
    rfl
  next hne =>
    rw [List.isEmpty_iff] at hne
    simp only [unsign_crlf hne, takeWhile_isDigit_crlf]

theorem prefix_crlf {p : List UInt8} (hp : 0x0D ∉ p) (line : List UInt8) :
    p <+: line ++ crlf ↔ p <+: line := by
  have hsplit : line ++ crlf = line ++ [0x0D] ++ [0x0A] := by
    rw [List.append_assoc]
    rfl
  constructor
  · intro h
    rw [hsplit] at h
    rcases List.prefix_concat_iff.mp h with rfl | h
    · exact absurd (by simp) hp
    · rcases List.prefix_concat_iff.mp h with rfl | h
      · exact absurd (by simp) hp
      · exact h
  · intro h
    exact h.trans (List.prefix_append _ _)

theorem statusNumber_crlf (line : List UInt8) :
    statusNumber (line ++ crlf) = statusNumber line := by
  have hcrlf : crlf.takeWhile (· != 0) = crlf := rfl
  unfold statusNumber
  rw [List.takeWhile_append, hcrlf]
  split
  next hall =>
    -- no NUL in the line: its C string goes on to the CRLF
    have hline : line.takeWhile (· != 0) = line := (List.takeWhile_prefix _).eq_of_length hall
    rw [hline]
    by_cases hpre : ascii "HTTP/1.1" <+: line
    · have hlen := hpre.length_le
      have h8 : (ascii "HTTP/1.1").length = 8 := rfl
      rw [if_pos ((prefix_crlf (by decide) line).mpr hpre), if_pos hpre,
        List.drop_append_of_le_length (by omega), scanNumber_crlf]
    · rw [if_neg (mt (prefix_crlf (by decide) line).mp hpre), if_neg hpre]
  next => rfl

namespace ResponseReader

/-- What follows the end of a line. -/
def resume (expectedAccept rest : List UInt8) : ResponseStep → Except HandshakeFailure (List UInt8)
  | .more r => readResponse expectedAccept r rest
  | .done => .ok rest
  | .failed e => .error e

theorem readResponse_cons (expectedAccept : List UInt8) (r : ResponseReader) (c : UInt8)
    (s : List UInt8) : readResponse expectedAccept r (c :: s) =
      resume expectedAccept s (r.feed expectedAccept c) := by
  rw [readResponse]
  cases r.feed expectedAccept c <;> rfl

theorem stops_iff {line : List UInt8} {cap : Nat} :
    stops line cap = true ↔ crlf <:+ line ∨ cap ≤ line.length := decide_eq_true_iff

/-- What the loop over the characters of a line takes for one. -/
structure IsChunk (chunk : List UInt8) (cap : Nat) : Prop where
  stops : stops chunk cap = true
  goes : ∀ p, p <+: chunk → p ≠ chunk → ResponseReader.stops p cap = false

theorem isChunk_line {line : List UInt8} {cap : Nat} (hline : IsLine line)
    (hcap : line.length + 2 ≤ cap) : IsChunk (line ++ crlf) cap := by
  refine ⟨stops_iff.mpr (Or.inl (List.suffix_append _ _)), fun p hp hne => ?_⟩
  by_contra hstop
  rcases stops_iff.mp (by simpa using hstop) with hend | hlen
  · exact hne (eq_of_crlf_suffix hline hp hend)
  · refine hne (hp.eq_of_length_le ?_)
    have hcrlf : crlf.length = 2 := rfl
    rw [List.length_append]
    omega

/-- A line that does not fit is cut. -/
theorem isChunk_cut {chunk : List UInt8} (hchunk : IsLine chunk) :
    IsChunk chunk chunk.length := by
  refine ⟨stops_iff.mpr (Or.inr (le_refl _)), fun p hp hne => ?_⟩
  by_contra hstop
  rcases stops_iff.mp (by simpa using hstop) with hend | hlen
  · exact hchunk (hend.isInfix.trans hp.isInfix)
  · exact hne (hp.eq_of_length_le hlen)

theorem IsChunk.isLine_part {chunk p : List UInt8} {cap : Nat} (h : IsChunk chunk cap)
    (hp : p <+: chunk) (hne : p ≠ chunk) : IsLine p := by
  rintro ⟨before, after, rfl⟩
  have hprefix : before ++ crlf <+: chunk := (List.prefix_append _ _).trans hp
  have hshort : before ++ crlf ≠ chunk := by
    intro heq
    have hle := hp.length_le
    rw [← heq, List.length_append] at hle
    obtain rfl : after = [] := List.eq_nil_of_length_eq_zero (by omega)
    exact hne ((List.append_nil _).trans heq)
  have hgo := h.goes _ hprefix hshort
  rw [stops_iff.mpr (Or.inl (List.suffix_append _ _))] at hgo
  cases hgo

/-- Of a line with its CRLF the loop takes what fits. -/
theorem isChunk_take {line : List UInt8} (hline : IsLine line) (cap : Nat) :
    IsChunk ((line ++ crlf).take cap) cap := by
  have hcrlf : crlf.length = 2 := rfl
  have hlen : (line ++ crlf).length = line.length + 2 := by rw [List.length_append, hcrlf]
  by_cases hcap : line.length + 2 ≤ cap
  · rw [List.take_of_length_le (hlen ▸ hcap)]
    exact isChunk_line hline hcap
  · have htake : ((line ++ crlf).take cap).length = cap := by
      rw [List.length_take, hlen]
      omega
    have hne : (line ++ crlf).take cap ≠ line ++ crlf := by
      intro heq
      rw [heq, hlen] at htake
      omega
    have hcut := isChunk_cut ((isChunk_line hline (le_refl _)).isLine_part
      (List.take_prefix _ _) hne)
    rwa [htake] at hcut

theorem readResponse_status {expectedAccept chunk p : List UInt8}
    (h : IsChunk chunk statusLineCap) {more : List UInt8} (hne : more ≠ [])
    (hp : p ++ more = chunk) (rest : List UInt8) :
    readResponse expectedAccept (.status p) (more ++ rest) =
      resume expectedAccept rest (endStatus chunk) := by
  induction more generalizing p with
  | nil => exact absurd rfl hne
  | cons c more ih =>
    have hp' : (p ++ [c]) ++ more = chunk := by rw [← hp]; simp
    rw [List.cons_append, readResponse_cons, feed]
    by_cases hmore : more = []
    · subst hmore
      rw [List.append_nil] at hp'
      simp only [hp', h.stops, if_true, List.nil_append]
    · have hgo := h.goes (p ++ [c]) ⟨more, hp'⟩ fun heq => hmore (by simpa [heq] using hp')
      simp only [hgo]
      exact ih hmore hp'

theorem readResponse_header {expectedAccept chunk p a : List UInt8}
    (h : IsChunk chunk headerLineCap) {more : List UInt8} (hne : more ≠ [])
    (hp : p ++ more = chunk) (rest : List UInt8) :
    readResponse expectedAccept (.headers p a) (more ++ rest) =
      resume expectedAccept rest (endHeader expectedAccept chunk a) := by
  induction more generalizing p with
  | nil => exact absurd rfl hne
  | cons c more ih =>
    have hp' : (p ++ [c]) ++ more = chunk := by rw [← hp]; simp
    rw [List.cons_append, readResponse_cons, feed]
    by_cases hmore : more = []
    · subst hmore
      rw [List.append_nil] at hp'
      simp only [hp', h.stops, if_true, List.nil_append]
    · have hgo := h.goes (p ++ [c]) ⟨more, hp'⟩ fun heq => hmore (by simpa [heq] using hp')
      simp only [hgo]
      exact ih hmore hp'

theorem read_statusLine (expectedAccept : List UInt8) {line : List UInt8} (hline : IsLine line)
    (hcap : line.length + 2 ≤ statusLineCap) (rest : List UInt8) :
    readResponse expectedAccept (.status []) (line ++ (crlf ++ rest)) =
      resume expectedAccept rest (endStatus (line ++ crlf)) := by
  have hne : line ++ crlf ≠ [] := by simp [crlf]
  rw [← List.append_assoc]
  exact readResponse_status (isChunk_line hline hcap) hne (List.nil_append _) rest

theorem read_headerLine (expectedAccept a : List UInt8) {line : List UInt8} (hline : IsLine line)
    (hcap : line.length + 2 ≤ headerLineCap) (rest : List UInt8) :
    readResponse expectedAccept (.headers [] a) (line ++ (crlf ++ rest)) =
      resume expectedAccept rest (endHeader expectedAccept (line ++ crlf) a) := by
  have hne : line ++ crlf ≠ [] := by simp [crlf]
  rw [← List.append_assoc]
  exact readResponse_header (isChunk_line hline hcap) hne (List.nil_append _) rest

/-- Without a CRLF there is no blank line. -/
theorem not_ok_of_isLine {expectedAccept rest : List UInt8} (s : List UInt8) :
    (∀ p, IsLine (p ++ s) → readResponse expectedAccept (.status p) s ≠ .ok rest) ∧
      ∀ p a, IsLine (p ++ s) → readResponse expectedAccept (.headers p a) s ≠ .ok rest := by
  induction s with
  | nil => exact ⟨fun p _ => nofun, fun p a _ => nofun⟩
  | cons c s ih =>
    have hstep : ∀ {p}, IsLine (p ++ c :: s) → IsLine ((p ++ [c]) ++ s) ∧ IsLine ([] ++ s) := by
      intro p h
      rw [← List.append_cons]
      exact ⟨h, h.part ⟨p ++ [c], [], by simp⟩⟩
    constructor
    · intro p h
      obtain ⟨hsame, hnew⟩ := hstep h
      rw [readResponse_cons, feed]
      split
      next =>
        unfold endStatus
        split
        next => exact ih.2 [] [] hnew
        next => nofun
      next => exact ih.1 (p ++ [c]) hsame
    · intro p a h
      obtain ⟨hsame, hnew⟩ := hstep h
      rw [readResponse_cons, feed]
      split
      next =>
        unfold endHeader
        split
        next hblank =>
          -- the line cannot be the blank one
          have hline : IsLine crlf := hblank ▸ hsame.part (List.prefix_append _ _).isInfix
          exact absurd List.infix_rfl hline
        next => exact ih.2 [] _ hnew
      next => exact ih.2 (p ++ [c]) a hsame

/-- No line up to the blank one is longer than the cap of a header line. -/
def HeadersFit (s : List UInt8) : Prop :=
  ∀ lines line more, s = joinLines lines ++ (line ++ (crlf ++ more)) →
    (∀ l ∈ lines, IsLine l ∧ l ≠ []) → IsLine line → line.length + 2 ≤ headerLineCap

theorem headersFit_tail {line rest : List UInt8} (h : HeadersFit (line ++ (crlf ++ rest)))
    (hline : IsLine line) (hne : line ≠ []) : HeadersFit rest := by
  intro lines last more hrest hlines hlast
  refine h (line :: lines) last more ?_ ?_ hlast
  · rw [joinLines_cons, List.append_assoc, List.append_assoc, ← hrest]
  · intro l hl
    rcases List.mem_cons.mp hl with rfl | hl
    · exact ⟨hline, hne⟩
    · exact hlines l hl

theorem readResponse_headers {expectedAccept s a rest : List UInt8} (hfit : HeadersFit s)
    (h : readResponse expectedAccept (.headers [] a) s = .ok rest) :
    ∃ lines, s = joinLines lines ++ (crlf ++ rest) ∧
      (∀ line ∈ lines, IsLine line ∧ line ≠ []) ∧
      (a = expectedAccept ∨ ∃ line ∈ lines, hasName line acceptName = true ∧
        trimmed (line.drop acceptName.length) = expectedAccept) := by
  cases hs : readLine s with
  | none => exact absurd h ((not_ok_of_isLine s).2 [] a (isLine_of_readLine hs))
  | some out =>
    obtain ⟨line, tail⟩ := out
    obtain ⟨rfl, hline⟩ := readLine_eq_some hs
    have hcap := hfit [] line tail rfl (by simp) hline
    rw [read_headerLine expectedAccept a hline hcap, endHeader] at h
    by_cases hnil : line = []
    · subst hnil
      rw [if_pos (List.nil_append _)] at h
      split at h
      next ha =>
        obtain rfl : tail = rest := Except.ok.inj h
        exact ⟨[], rfl, by simp, Or.inl ha⟩
      next => cases h
    · have hcrlf : line ++ crlf ≠ crlf := fun heq => hnil (List.append_left_eq_self.mp heq)
      rw [if_neg hcrlf] at h
      obtain ⟨lines, rfl, hlines, hfound⟩ :=
        readResponse_headers (headersFit_tail hfit hline hnil) h
      refine ⟨line :: lines, ?_, ?_, ?_⟩
      · rw [joinLines_cons, List.append_assoc, List.append_assoc]
      · intro l hl
        rcases List.mem_cons.mp hl with rfl | hl
        · exact ⟨hline, hnil⟩
        · exact hlines l hl
      · rcases hfound with hhere | ⟨l, hl, hfound⟩
        · cases hvalue : acceptValue (line ++ crlf) with
          | none =>
            rw [hvalue] at hhere
            exact Or.inl hhere
          | some value =>
            rw [hvalue] at hhere
            obtain rfl : value = expectedAccept := hhere
            exact Or.inr ⟨line, List.mem_cons_self, acceptValue_line hvalue⟩
        · exact Or.inr ⟨l, List.mem_cons_of_mem line hl, hfound⟩
termination_by s.length
decreasing_by
  have hcrlf : crlf.length = 2 := rfl
  simp_all
  omega

end ResponseReader

open ResponseReader

/-- Where the status line scans as 101, the lines of the head fit the reader's caps and the number
in the first one is 101. -/
structure ResponseFits (s : List UInt8) : Prop where
  status : ∀ line rest, readLine s = some (line, rest) →
    scanStatus ((line ++ crlf).take statusLineCap) = 101 → line.length + 2 ≤ statusLineCap
  headers : ∀ line rest, readLine s = some (line, rest) →
    scanStatus ((line ++ crlf).take statusLineCap) = 101 → HeadersFit rest
  number : ∀ line rest, readLine s = some (line, rest) →
    scanStatus ((line ++ crlf).take statusLineCap) = 101 → statusNumber line = some 101

/-- What is read off the stream is its head, and the head upgrades the connection. -/
def Framed (expectedAccept s : List UInt8) : Prop :=
  ∀ rest, readResponse expectedAccept (.status []) s = .ok rest →
    ∃ head : ResponseHead, s = head.bytes ++ rest ∧ head.Upgrades expectedAccept ∧
      EndsAtBlankLine head.bytes

theorem statusNumber_ne_nil {line : List UInt8} {n : Int} (h : statusNumber line = some n) :
    line ≠ [] := by
  rintro rfl
  cases h

theorem framed_of_fits {expectedAccept s : List UInt8} (hne : expectedAccept ≠ [])
    (h : ResponseFits s) : Framed expectedAccept s := by
  intro rest hrest
  cases hs : readLine s with
  | none => exact absurd hrest ((not_ok_of_isLine s).1 [] (isLine_of_readLine hs))
  | some out =>
    obtain ⟨line, tail⟩ := out
    obtain ⟨hsplit, hline⟩ := readLine_eq_some hs
    have hscan : scanStatus ((line ++ crlf).take statusLineCap) = 101 := by
      have hnil : (line ++ crlf).take statusLineCap ≠ [] := by simp [crlf, statusLineCap]
      have hread : s = (line ++ crlf).take statusLineCap ++
          ((line ++ crlf).drop statusLineCap ++ tail) := by
        rw [← List.append_assoc, List.take_append_drop, hsplit, List.append_assoc]
      rw [hread, readResponse_status (isChunk_take hline statusLineCap) hnil (List.nil_append _),
        endStatus] at hrest
      split at hrest
      next hscan => exact hscan
      next => cases hrest
    have hcap := h.status line tail hs hscan
    have hfit := h.headers line tail hs hscan
    have hnumber := h.number line tail hs hscan
    have hlen : (line ++ crlf).length ≤ statusLineCap := by
      rw [List.length_append]
      exact hcap
    rw [List.take_of_length_le hlen] at hscan
    subst hsplit
    rw [read_statusLine expectedAccept hline hcap, endStatus, if_pos hscan] at hrest
    obtain ⟨lines, rfl, hlines, hfound⟩ := readResponse_headers hfit hrest
    have haccept := hfound.resolve_left (Ne.symm hne)
    refine ⟨⟨line, lines, hline, hlines⟩, ?_, ⟨hnumber, haccept⟩, ?_⟩
    · simp [ResponseHead.bytes]
    · have hall : ∀ l ∈ line :: lines, IsLine l ∧ l ≠ [] := by
        intro l hl
        rcases List.mem_cons.mp hl with rfl | hl
        · exact ⟨hline, statusNumber_ne_nil hnumber⟩
        · exact hlines l hl
      have hend := endsAtBlankLine (List.cons_ne_nil line lines) hall
      rw [joinLines_cons, List.append_assoc, List.append_assoc] at hend
      exact hend

end ModAudioStream
