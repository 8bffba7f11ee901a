import ModAudioStream.ResponseCuts

namespace ModAudioStream

open ResponseReader

/-- A head with which a server may switch protocols: its lines fit what `doHandshake` reads, and
every accept header in it proves the key. -/
structure ResponseHead.Conforms (h : ResponseHead) (expectedAccept : List UInt8) : Prop where
  status : statusNumber h.statusLine = some 101
  status_fits : h.statusLine.length + 2 ≤ statusLineCap
  headers_fit : ∀ line ∈ h.headers, line.length + 2 ≤ headerLineCap
  named : ∃ line ∈ h.headers, hasName line acceptName = true
  proves : ∀ line ∈ h.headers, hasName line acceptName = true →
    trimmed (line.drop acceptName.length) = expectedAccept

/-- A value stands between the blanks and line ends that are no part of it. -/
theorem trimmed_split {x value : List UInt8} (h : trimmed x = value) (hne : value ≠ []) :
    ∃ blanks tail, x = blanks ++ (value ++ tail) ∧
      (∀ c ∈ blanks, (ascii " \t").contains c = true) ∧
      (∀ c ∈ tail, (ascii " \t\r\n").contains c = true) ∧
      (∀ c more, value = c :: more → (ascii " \t").contains c = false) ∧
      ∀ front d, value = front ++ [d] → (ascii " \t\r\n").contains d = false := by
  subst h
  have hx := @List.takeWhile_append_dropWhile _ (fun c => (ascii " \t").contains c) x
  have hy := List.rdropWhile_append_rtakeWhile (p := fun c => (ascii " \t\r\n").contains c)
    (l := x.dropWhile fun c => (ascii " \t").contains c)
  refine ⟨x.takeWhile fun c => (ascii " \t").contains c,
    (x.dropWhile fun c => (ascii " \t").contains c).rtakeWhile
      fun c => (ascii " \t\r\n").contains c, ?_, ?_, ?_, ?_, ?_⟩
  · rw [trimmed, hy, hx]
  · intro c hc
    exact List.mem_takeWhile_imp hc
  · intro c hc
    exact List.mem_rtakeWhile_imp hc
  · intro c more hvalue
    have hhead := List.head?_dropWhile_not (fun c => (ascii " \t").contains c) x
    rw [trimmed] at hvalue
    rw [← hy, hvalue] at hhead
    exact hhead
  · intro front d hvalue
    have hlast := List.rdropWhile_last_not (fun c => (ascii " \t\r\n").contains c)
      (x.dropWhile fun c => (ascii " \t").contains c) hne
    rw [trimmed] at hvalue
    simp only [hvalue, List.getLast_append_singleton] at hlast
    exact Bool.eq_false_iff.mpr hlast

theorem hasName_length {line name : List UInt8} (h : hasName line name = true) :
    name.length ≤ line.length := by
  have hmap : (line.take name.length).map toLower = name.map toLower := by simpa [hasName] using h
  have hlen := congrArg List.length hmap
  simp only [List.length_map, List.length_take] at hlen
  omega

/-- A header that proves the key is read as its value. -/
theorem acceptValue_of_trimmed {line value : List UInt8} (hname : hasName line acceptName = true)
    (hvalue : trimmed (line.drop acceptName.length) = value) (hlen : 2 ≤ value.length) :
    acceptValue (line ++ crlf) = some value := by
  have hne : value ≠ [] := by
    rintro rfl
    exact absurd hlen (by decide)
  obtain ⟨blanks, tail, hsplit, hblanks, htail, hfirst, hlast⟩ := trimmed_split hvalue hne
  obtain ⟨c, more, hc⟩ := List.exists_cons_of_ne_nil hne
  obtain ⟨front, d, hd⟩ := (List.eq_nil_or_concat value).resolve_left hne
  rw [List.concat_eq_append] at hd
  have hname21 : acceptName.length = 21 := rfl
  have hcrlf2 : crlf.length = 2 := rfl
  have hline21 := hasName_length hname
  rw [hname21] at hsplit hline21
  have hdrop : (line ++ crlf).drop 21 = blanks ++ c :: (more ++ tail ++ crlf) := by
    rw [List.drop_append_of_le_length hline21, hsplit, hc]
    simp
  have hlong : line.length = 21 + blanks.length + value.length + tail.length := by
    have hrest := congrArg List.length hsplit
    simp only [List.length_drop, List.length_append] at hrest
    omega
  have hstart : findFirstNotOf (line ++ crlf) (ascii " \t") 21 = some (blanks.length + 21) := by
    have hnot : (!(ascii " \t").contains c) = true := by rw [hfirst c more hc]; rfl
    rw [findFirstNotOf, hdrop, findIdx?_append (by simpa using hblanks) hnot]
    rfl
  have hstop : findLastNotOf (line ++ crlf) (ascii " \t\r\n") =
      some (20 + blanks.length + value.length) := by
    have hnot : (!(ascii " \t\r\n").contains d) = true := by rw [hlast front d hd]; rfl
    have hline : line = line.take 21 ++ (blanks ++ (front ++ [d] ++ tail)) := by
      rw [← hd, ← hsplit, List.take_append_drop]
    have hrev : (line ++ crlf).reverse = (tail ++ crlf).reverse ++
        d :: (line.take 21 ++ (blanks ++ front)).reverse := by
      conv_lhs => rw [hline]
      simp
    have htail' : ((tail ++ crlf).reverse.all fun y => !!(ascii " \t\r\n").contains y) = true := by
      have hends : ∀ y ∈ crlf, (ascii " \t\r\n").contains y = true :=
        List.all_eq_true.mp (by decide)
      rw [List.all_reverse, List.all_eq_true]
      intro y hy
      rw [Bool.not_not]
      exact (List.mem_append.mp hy).elim (htail y) (hends y)
    rw [findLastNotOf, hrev, findIdx?_append htail' hnot]
    simp only [Option.map_some, List.length_append, List.length_reverse, Option.some.injEq]
    omega
  have hsome : ∃ v, acceptValue (line ++ crlf) = some v := by
    unfold acceptValue
    rw [if_pos, hstart, hstop]
    · simp only
      rw [if_pos (by omega)]
      exact ⟨_, rfl⟩
    · refine ⟨by rw [List.length_append]; omega, ?_⟩
      rw [hasName, List.take_append_of_le_length (hasName_length hname)]
      exact hname
  obtain ⟨v, hv⟩ := hsome
  rw [hv, ← (acceptValue_line hv).2, hvalue]

namespace ResponseReader

theorem acceptValue_other {line : List UInt8} (h : ¬hasName line acceptName = true) :
    acceptValue (line ++ crlf) = none := by
  cases hvalue : acceptValue (line ++ crlf) with
  | none => rfl
  | some value => exact absurd (acceptValue_line hvalue).1 h

/-- Headers that prove the key wherever they name it leave the reader with the proof, by induction
on the lines. -/
theorem read_proving_headers {expectedAccept : List UInt8} (hlong : 2 ≤ expectedAccept.length)
    {lines : List (List UInt8)}
    (hlines : ∀ line ∈ lines, IsLine line ∧ line ≠ [] ∧ line.length + 2 ≤ headerLineCap)
    (hproves : ∀ line ∈ lines, hasName line acceptName = true →
      trimmed (line.drop acceptName.length) = expectedAccept)
    {a : List UInt8} (hproved : a = expectedAccept ∨
      ∃ line ∈ lines, hasName line acceptName = true) (rest : List UInt8) :
    readResponse expectedAccept (.headers [] a) (joinLines lines ++ (crlf ++ rest)) = .ok rest := by
  induction lines generalizing a with
  | nil =>
    obtain rfl := hproved.resolve_right (by simp)
    have hread := read_headerLine a a isLine_nil (by decide) rest
    rw [List.nil_append] at hread
    rw [joinLines_nil, List.nil_append, hread, List.nil_append, endHeader, if_pos rfl, if_pos rfl]
    rfl
  | cons line lines ih =>
    obtain ⟨hline, hne, hcap⟩ := hlines line List.mem_cons_self
    have hcrlf : line ++ crlf ≠ crlf := fun heq => hne (List.append_left_eq_self.mp heq)
    rw [joinLines_cons, List.append_assoc, List.append_assoc,
      read_headerLine expectedAccept a hline hcap, endHeader, if_neg hcrlf]
    refine ih (fun l hl => hlines l (List.mem_cons_of_mem line hl))
      (fun l hl => hproves l (List.mem_cons_of_mem line hl)) ?_
    by_cases hname : hasName line acceptName = true
    · have htrimmed := hproves line List.mem_cons_self hname
      rw [acceptValue_of_trimmed hname htrimmed hlong]
      exact Or.inl rfl
    · rw [acceptValue_other hname]
      rcases hproved with rfl | ⟨l, hl, hlname⟩
      · exact Or.inl rfl
      · rcases List.mem_cons.mp hl with rfl | hl
        · exact absurd hlname hname
        · exact Or.inr ⟨l, hl, hlname⟩

/-- A conforming head is accepted, and what follows it is left unread. -/
theorem read_conforming {digest : Digest} {head : ResponseHead}
    (h : head.Conforms (digestText digest)) (rest : List UInt8) :
    readResponse (digestText digest) (.status []) (head.bytes ++ rest) = .ok rest := by
  have hstatus : scanStatus (head.statusLine ++ crlf) = 101 := by
    rw [scanStatus, statusNumber_crlf, h.status]
    rfl
  have hlong : 2 ≤ (digestText digest).length := by
    rw [digestText_length]
    omega
  rw [ResponseHead.bytes, List.append_assoc, List.append_assoc, List.append_assoc,
    read_statusLine _ head.isLine_status h.status_fits, endStatus, if_pos hstatus]
  refine read_proving_headers hlong (fun line hl => ?_) h.proves (Or.inr h.named) rest
  exact ⟨(head.isLine_headers line hl).1, (head.isLine_headers line hl).2, h.headers_fit line hl⟩

end ResponseReader

end ModAudioStream
