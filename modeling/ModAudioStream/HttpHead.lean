import ModAudioStream.CrlfLines
import Mathlib.Data.List.DropRight

namespace ModAudioStream

/-- `tchar`: a letter, a digit or one of ``!#$%&'*+-.^_`|~``. -/
def isTokenByte (c : UInt8) : Bool :=
  (0x30 ≤ c && c ≤ 0x39) || (0x41 ≤ c && c ≤ 0x5A) || (0x61 ≤ c && c ≤ 0x7A) ||
    [0x21, 0x23, 0x24, 0x25, 0x26, 0x27, 0x2A, 0x2B, 0x2D, 0x2E, 0x5E, 0x5F, 0x60, 0x7C,
      0x7E].contains c

/-- No space and no control character. -/
def isTargetByte (c : UInt8) : Bool := 0x21 ≤ c && c != 0x7F

/-- No control character but the tab. -/
def isFieldByte (c : UInt8) : Bool := c == 0x09 || (0x20 ≤ c && c != 0x7F)

def isBlank (c : UInt8) : Bool := c == 0x20 || c == 0x09

def isToken (s : List UInt8) : Bool := !s.isEmpty && s.all isTokenByte

def isTarget (s : List UInt8) : Bool := !s.isEmpty && s.all isTargetByte

def trimBlanks (s : List UInt8) : List UInt8 := (s.dropWhile isBlank).rdropWhile isBlank

/-- The value of a field, without the white space around it. -/
def isFieldValue (s : List UInt8) : Bool := s.all isFieldByte && trimBlanks s == s

def httpVersion : List UInt8 := [0x48, 0x54, 0x54, 0x50, 0x2F, 0x31, 0x2E, 0x31]

/-- The head of a request: its fields are pairs of a name and a value. -/
structure RequestHead where
  method : List UInt8
  target : List UInt8
  fields : List (List UInt8 × List UInt8)

def readRequestLine (line : List UInt8) : Option (List UInt8 × List UInt8) :=
  let method := line.takeWhile (· != 0x20)
  let behind := (line.dropWhile (· != 0x20)).drop 1
  let target := behind.takeWhile (· != 0x20)
  if isToken method ∧ isTarget target ∧ behind.dropWhile (· != 0x20) = 0x20 :: httpVersion then
    some (method, target)
  else none

def readField (line : List UInt8) : Option (List UInt8 × List UInt8) :=
  let name := line.takeWhile (· != 0x3A)
  let value := trimBlanks ((line.dropWhile (· != 0x3A)).drop 1)
  if isToken name ∧ (line.dropWhile (· != 0x3A)).head? = some 0x3A ∧ value.all isFieldByte then
    some (name, value)
  else none

def readFields : List (List UInt8) → Option (List (List UInt8 × List UInt8))
  | [] => some []
  | line :: lines => (readField line).bind fun f => (readFields lines).map (f :: ·)

/-- The head at the beginning of a stream, and what follows it. -/
def readRequestHead (s : List UInt8) : Option (RequestHead × List UInt8) :=
  (readLine s).bind fun first =>
    (readRequestLine first.1).bind fun request =>
      (readLines first.2).bind fun lines =>
        (readFields lines.1).map fun fields => (⟨request.1, request.2, fields⟩, lines.2)

def requestLine (method target : List UInt8) : List UInt8 :=
  method ++ 0x20 :: (target ++ 0x20 :: httpVersion)

def fieldLine (f : List UInt8 × List UInt8) : List UInt8 := f.1 ++ 0x3A :: 0x20 :: f.2

def IsField (f : List UInt8 × List UInt8) : Prop :=
  isToken f.1 = true ∧ isFieldValue f.2 = true

theorem takeWhile_ne_append {s rest : List UInt8} {c : UInt8} (h : c ∉ s) :
    (s ++ c :: rest).takeWhile (· != c) = s := by
  have hs : ∀ x ∈ s, (x != c) = true := by
    intro x hx
    have hne : x ≠ c := fun hxc => h (hxc ▸ hx)
    simpa using hne
  rw [List.takeWhile_append_of_pos hs]
  simp

theorem dropWhile_ne_append {s rest : List UInt8} {c : UInt8} (h : c ∉ s) :
    (s ++ c :: rest).dropWhile (· != c) = c :: rest := by
  have hs : ∀ x ∈ s, (x != c) = true := by
    intro x hx
    have hne : x ≠ c := fun hxc => h (hxc ▸ hx)
    simpa using hne
  rw [List.dropWhile_append_of_pos hs]
  simp

theorem mem_of_isToken {s : List UInt8} (h : isToken s = true) :
    s ≠ [] ∧ ∀ c ∈ s, isTokenByte c = true := by
  simpa [isToken] using h

theorem mem_of_isTarget {s : List UInt8} (h : isTarget s = true) :
    s ≠ [] ∧ ∀ c ∈ s, isTargetByte c = true := by
  simpa [isTarget] using h

theorem mem_of_isFieldValue {s : List UInt8} (h : isFieldValue s = true) :
    (∀ c ∈ s, isFieldByte c = true) ∧ trimBlanks s = s := by
  simpa [isFieldValue] using h

theorem not_mem_of_all {s : List UInt8} {p : UInt8 → Bool} {c : UInt8} (hc : p c = false)
    (h : ∀ x ∈ s, p x = true) : c ∉ s := by
  intro hmem
  rw [h c hmem] at hc
  cases hc

theorem trimBlanks_cons {s : List UInt8} : trimBlanks (0x20 :: s) = trimBlanks s := rfl

theorem trimBlanks_idem (s : List UInt8) : trimBlanks (trimBlanks s) = trimBlanks s := by
  unfold trimBlanks
  rw [List.dropWhile_eq_self_iff.mpr, List.rdropWhile_idempotent]
  intro hpos
  -- the first byte that is left is the first that was no blank
  have hne : s.dropWhile isBlank ≠ [] := by
    intro hnil
    rw [hnil] at hpos
    cases hpos
  have hhead := List.dropWhile_get_zero_not isBlank s (List.length_pos_iff.mpr hne)
  obtain ⟨t, ht⟩ := List.rdropWhile_prefix isBlank (s.dropWhile isBlank)
  have hget : ((s.dropWhile isBlank).rdropWhile isBlank)[0]? = (s.dropWhile isBlank)[0]? := by
    conv => rhs; rw [← ht]
    rw [List.getElem?_append_left hpos]
  rw [List.getElem?_eq_getElem hpos,
    List.getElem?_eq_getElem (List.length_pos_iff.mpr hne)] at hget
  rw [Option.some.inj hget]
  exact hhead

theorem readField_fieldLine {f : List UInt8 × List UInt8} (h : IsField f) :
    readField (fieldLine f) = some f := by
  obtain ⟨hname, hvalue⟩ := h
  obtain ⟨-, hbytes⟩ := mem_of_isToken hname
  obtain ⟨hall, htrim⟩ := mem_of_isFieldValue hvalue
  have hcolon : (0x3A : UInt8) ∉ f.1 := not_mem_of_all (by decide) hbytes
  unfold readField fieldLine
  rw [takeWhile_ne_append hcolon, dropWhile_ne_append hcolon]
  simp only [List.drop_one, List.tail_cons, List.head?_cons, trimBlanks_cons, htrim]
  exact if_pos ⟨hname, trivial, List.all_eq_true.mpr hall⟩

/-- What is read is a field. -/
theorem isField_of_readField {line : List UInt8} {f : List UInt8 × List UInt8}
    (h : readField line = some f) : IsField f := by
  unfold readField at h
  dsimp only at h
  split at h
  next hf =>
    obtain rfl := Option.some.inj h
    obtain ⟨hname, -, hvalue⟩ := hf
    refine ⟨hname, ?_⟩
    rw [isFieldValue, hvalue, trimBlanks_idem]
    simp
  next => cases h

theorem readFields_fieldLines {fields : List (List UInt8 × List UInt8)}
    (h : ∀ f ∈ fields, IsField f) : readFields (fields.map fieldLine) = some fields := by
  induction fields with
  | nil => rfl
  | cons f fields ih =>
    have htail := ih fun g hg => h g (List.mem_cons_of_mem f hg)
    rw [List.map_cons, readFields, readField_fieldLine (h f List.mem_cons_self), htail]
    rfl

theorem isField_of_readFields {lines : List (List UInt8)}
    {fields : List (List UInt8 × List UInt8)} (h : readFields lines = some fields) :
    ∀ f ∈ fields, IsField f := by
  induction lines generalizing fields with
  | nil =>
    obtain rfl := Option.some.inj h
    simp
  | cons line lines ih =>
    obtain ⟨f, hf, h⟩ := Option.bind_eq_some_iff.mp h
    obtain ⟨tail, htail, rfl⟩ := Option.map_eq_some_iff.mp h
    intro g hg
    rcases List.mem_cons.mp hg with rfl | hg
    · exact isField_of_readField hf
    · exact ih htail g hg

theorem readRequestLine_requestLine {method target : List UInt8} (hm : isToken method = true)
    (ht : isTarget target = true) :
    readRequestLine (requestLine method target) = some (method, target) := by
  have hmspace : (0x20 : UInt8) ∉ method :=
    not_mem_of_all (by decide) (mem_of_isToken hm).2
  have htspace : (0x20 : UInt8) ∉ target :=
    not_mem_of_all (by decide) (mem_of_isTarget ht).2
  unfold readRequestLine requestLine
  rw [takeWhile_ne_append hmspace, dropWhile_ne_append hmspace]
  simp only [List.drop_one, List.tail_cons]
  rw [takeWhile_ne_append htspace, dropWhile_ne_append htspace, if_pos ⟨hm, ht, rfl⟩]

theorem isTarget_of_readRequestLine {line method target : List UInt8}
    (h : readRequestLine line = some (method, target)) : isTarget target = true := by
  unfold readRequestLine at h
  dsimp only at h
  split at h
  next hline =>
    obtain ⟨rfl, rfl⟩ := Prod.mk.inj (Option.some.inj h)
    exact hline.2.1
  next => cases h

theorem isLine_requestLine {method target : List UInt8} (hm : isToken method = true)
    (ht : isTarget target = true) : IsLine (requestLine method target) := by
  have hmcr : (0x0D : UInt8) ∉ method := not_mem_of_all (by decide) (mem_of_isToken hm).2
  have htcr : (0x0D : UInt8) ∉ target := not_mem_of_all (by decide) (mem_of_isTarget ht).2
  refine isLine_of_not_mem ?_
  simp [requestLine, hmcr, htcr, httpVersion]

theorem isLine_fieldLine {f : List UInt8 × List UInt8} (h : IsField f) :
    IsLine (fieldLine f) ∧ fieldLine f ≠ [] := by
  have hname : (0x0D : UInt8) ∉ f.1 := not_mem_of_all (by decide) (mem_of_isToken h.1).2
  have hvalue : (0x0D : UInt8) ∉ f.2 := not_mem_of_all (by decide) (mem_of_isFieldValue h.2).1
  refine ⟨isLine_of_not_mem ?_, by simp [fieldLine]⟩
  simp [fieldLine, hname, hvalue]

/-- A head that is written line by line reads back as what was written. -/
theorem readRequestHead_written {method target : List UInt8}
    {fields : List (List UInt8 × List UInt8)} (hm : isToken method = true)
    (ht : isTarget target = true) (hf : ∀ f ∈ fields, IsField f) (rest : List UInt8) :
    readRequestHead (requestLine method target ++ (crlf ++
      (joinLines (fields.map fieldLine) ++ (crlf ++ rest)))) =
        some (⟨method, target, fields⟩, rest) := by
  have hlines : ∀ line ∈ fields.map fieldLine, IsLine line ∧ line ≠ [] := by
    intro line hline
    obtain ⟨f, hmem, rfl⟩ := List.mem_map.mp hline
    exact isLine_fieldLine (hf f hmem)
  unfold readRequestHead
  rw [readLine_line (isLine_requestLine hm ht)]
  simp only [Option.bind_some]
  rw [readRequestLine_requestLine hm ht, readLines_joinLines hlines]
  simp only [Option.bind_some]
  rw [readFields_fieldLines hf]
  rfl

theorem valid_of_readRequestHead {s rest : List UInt8} {head : RequestHead}
    (h : readRequestHead s = some (head, rest)) :
    isTarget head.target = true ∧ ∀ f ∈ head.fields, IsField f := by
  obtain ⟨first, hfirst, h⟩ := Option.bind_eq_some_iff.mp h
  obtain ⟨request, hrequest, h⟩ := Option.bind_eq_some_iff.mp h
  obtain ⟨lines, hlines, h⟩ := Option.bind_eq_some_iff.mp h
  obtain ⟨fields, hfields, heq⟩ := Option.map_eq_some_iff.mp h
  obtain ⟨rfl, rfl⟩ := Prod.mk.inj heq
  exact ⟨isTarget_of_readRequestLine hrequest, isField_of_readFields hfields⟩

end ModAudioStream
