import ModAudioStream.ResponsePieces

namespace ModAudioStream

open ResponseReader

theorem findIdx?_append {before after : List UInt8} {c : UInt8} {p : UInt8 → Bool}
    (hbefore : before.all (fun x => !p x) = true) (hc : p c = true) :
    (before ++ c :: after).findIdx? p = some before.length := by
  have hnone : ∀ x ∈ before, p x = false := by simpa using hbefore
  rw [List.findIdx?_append, List.findIdx?_eq_none_iff.mpr hnone]
  simp [List.findIdx?_cons, hc]

theorem isBase64_not_blank {c : UInt8} (h : isBase64 c = true) :
    (ascii " \t").contains c = false := by
  rw [← Bool.not_eq_true]
  intro hmem
  rcases List.mem_cons.mp (List.contains_iff_mem.mp hmem) with rfl | hmem
  · cases h
  · obtain rfl := List.mem_singleton.mp hmem
    cases h

/-- The line that proves the key, without its CRLF. -/
def acceptLine (value : List UInt8) : List UInt8 := acceptName ++ 0x20 :: value

theorem acceptValue_acceptLine {e : UInt8} {mid : List UInt8} (he : isBase64 e = true) :
    acceptValue (acceptLine (e :: mid ++ [0x3D]) ++ crlf) = some (e :: mid ++ [0x3D]) := by
  have hfirst : findFirstNotOf (acceptLine (e :: mid ++ [0x3D]) ++ crlf) (ascii " \t") 21 =
      some 22 := by
    have hdrop : (acceptLine (e :: mid ++ [0x3D]) ++ crlf).drop 21 =
        [0x20] ++ e :: (mid ++ [0x3D] ++ crlf) := by
      simp [acceptLine, acceptName, ascii]
    have he' : (!(ascii " \t").contains e) = true := by rw [isBase64_not_blank he]; rfl
    rw [findFirstNotOf, hdrop, findIdx?_append (by decide) he']
    rfl
  have hlen : (acceptLine (e :: mid ++ [0x3D]) ++ crlf).length = 26 + mid.length := by
    simp [acceptLine, acceptName, ascii, crlf]
    omega
  have hlast : findLastNotOf (acceptLine (e :: mid ++ [0x3D]) ++ crlf) (ascii " \t\r\n") =
      some (23 + mid.length) := by
    have hrev : (acceptLine (e :: mid ++ [0x3D]) ++ crlf).reverse =
        [0x0A, 0x0D] ++ 0x3D :: (acceptName ++ 0x20 :: e :: mid).reverse := by
      simp [acceptLine, crlf]
    rw [findLastNotOf, hlen, hrev, findIdx?_append (by decide) (by decide)]
    simp only [Option.map_some, List.length_cons, List.length_nil, Option.some.injEq]
    omega
  have hname : hasName (acceptLine (e :: mid ++ [0x3D]) ++ crlf) acceptName = true := by
    simp [hasName, acceptLine]
  have hvalue : ((acceptLine (e :: mid ++ [0x3D]) ++ crlf).drop 22).take
      (23 + mid.length - 22 + 1) = e :: mid ++ [0x3D] := by
    have hdrop : (acceptLine (e :: mid ++ [0x3D]) ++ crlf).drop 22 =
        (e :: mid ++ [0x3D]) ++ crlf := by
      simp [acceptLine, acceptName, ascii]
    have htake : 23 + mid.length - 22 + 1 = (e :: mid ++ [0x3D]).length := by
      simp only [List.length_append, List.length_cons, List.length_nil]
      omega
    rw [hdrop, htake, List.take_left]
  unfold acceptValue
  rw [if_pos ⟨by omega, hname⟩, hfirst, hlast]
  simp only
  rw [if_pos (by omega), hvalue]

theorem digestText_chars (digest : Digest) : ∀ c ∈ digestText digest, isBase64 c = true := by
  intro c hc
  rcases List.mem_append.mp hc with hc | hc
  · obtain ⟨i, -, hc⟩ := List.mem_flatMap.mp hc
    simp only [digestRound, List.mem_cons, List.not_mem_nil, or_false] at hc
    rcases hc with rfl | rfl | rfl | rfl <;> exact isBase64_b64 _ _
  · simp only [List.mem_cons, List.not_mem_nil, or_false] at hc
    rcases hc with rfl | rfl | rfl | rfl
    · exact isBase64_b64 _ _
    · exact isBase64_b64 _ _
    · exact isBase64_b64 _ _
    · rfl

theorem digestText_form (digest : Digest) :
    ∃ e mid, isBase64 e = true ∧ digestText digest = e :: mid ++ [0x3D] := by
  have hlen := digestText_length digest
  have hend : ∀ x y z : UInt8, [0x3D] <:+ [x, y, z, 0x3D] := fun x y z => ⟨[x, y, z], rfl⟩
  obtain ⟨init, hinit⟩ : [0x3D] <:+ digestText digest :=
    (hend _ _ _).trans (List.suffix_append _ _)
  cases init with
  | nil =>
    rw [← hinit] at hlen
    cases hlen
  | cons e mid =>
    refine ⟨e, mid, digestText_chars digest e ?_, hinit.symm⟩
    rw [← hinit]
    exact List.mem_cons_self

theorem cr_not_mem_acceptLine (digest : Digest) :
    0x0D ∉ acceptLine (digestText digest) := by
  intro h
  rcases List.mem_append.mp h with h | h
  · exact absurd h (by decide)
  · rcases List.mem_cons.mp h with h | h
    · cases h
    · have hchar := digestText_chars digest _ h
      cases hchar

theorem isLine_cut {cut : List UInt8} (hcut : IsLine cut) (digest : Digest) :
    IsLine (cut ++ acceptLine (digestText digest)) :=
  hcut.append (cr_not_mem_acceptLine digest) (by simp [acceptLine, acceptName, ascii])

/-- A value that goes on to another line's accept header is longer than the key. -/
theorem trimmed_cut (digest : Digest) (x : List UInt8) :
    trimmed (x ++ acceptLine (digestText digest)) ≠ digestText digest := by
  intro h
  obtain ⟨e, mid, he, hform⟩ := digestText_form digest
  have hlen := digestText_length digest
  -- nothing of the second header is trimmed
  have hkeep : ∃ y, trimmed (x ++ acceptLine (digestText digest)) =
      y ++ acceptLine (digestText digest) := by
    unfold trimmed
    have hhead : (acceptLine (digestText digest)).dropWhile (fun c => (ascii " \t").contains c) =
        acceptLine (digestText digest) := by
      rw [acceptLine, show acceptName = 0x53 :: ascii "ec-WebSocket-Accept:" from rfl]
      exact List.dropWhile_cons_of_neg (by decide)
    have hend : ∀ y, (y ++ acceptLine (digestText digest)).rdropWhile
        (fun c => (ascii " \t\r\n").contains c) = y ++ acceptLine (digestText digest) := by
      intro y
      have hsplit : y ++ acceptLine (digestText digest) =
          (y ++ (acceptName ++ 0x20 :: e :: mid)) ++ [0x3D] := by
        simp [acceptLine, hform]
      rw [hsplit]
      exact List.rdropWhile_concat_neg _ _ _ (by decide)
    rw [List.dropWhile_append]
    split
    · rw [hhead]
      exact ⟨[], hend []⟩
    · exact ⟨_, hend _⟩
  obtain ⟨y, hy⟩ := hkeep
  have hlong := congrArg List.length (hy.symm.trans h)
  have hname : acceptName.length = 21 := rfl
  simp only [List.length_append, acceptLine, List.length_cons] at hlong
  omega

namespace ResponseReader

/-- Lines that fit leave the reader at the next one. -/
theorem read_headerLines (expectedAccept : List UInt8) {lines : List (List UInt8)}
    (hlines : ∀ line ∈ lines, IsLine line ∧ line ≠ [] ∧ line.length + 2 ≤ headerLineCap)
    (a rest : List UInt8) : ∃ a', readResponse expectedAccept (.headers [] a)
      (joinLines lines ++ rest) = readResponse expectedAccept (.headers [] a') rest := by
  induction lines generalizing a with
  | nil => exact ⟨a, by rw [joinLines_nil, List.nil_append]⟩
  | cons line lines ih =>
    obtain ⟨hline, hne, hcap⟩ := hlines line List.mem_cons_self
    have hcrlf : line ++ crlf ≠ crlf := fun heq => hne (List.append_left_eq_self.mp heq)
    obtain ⟨a', ha'⟩ := ih (fun l hl => hlines l (List.mem_cons_of_mem line hl))
      ((acceptValue (line ++ crlf)).getD a)
    refine ⟨a', ?_⟩
    rw [joinLines_cons, List.append_assoc, List.append_assoc,
      read_headerLine expectedAccept a hline hcap, endHeader, if_neg hcrlf]
    exact ha'

theorem read_cut (expectedAccept a : List UInt8) {cut : List UInt8} (hcut : IsLine cut)
    (hlen : cut.length = headerLineCap) (rest : List UInt8) :
    ∃ a', readResponse expectedAccept (.headers [] a) (cut ++ rest) =
      readResponse expectedAccept (.headers [] a') rest := by
  have hne : cut ≠ [] := by
    rintro rfl
    cases hlen
  have hcrlf : cut ≠ crlf := by
    rintro rfl
    cases hlen
  refine ⟨(acceptValue cut).getD a, ?_⟩
  rw [readResponse_header (hlen ▸ isChunk_cut hcut) hne (List.nil_append _), endHeader,
    if_neg hcrlf]
  rfl

theorem read_acceptLine (digest : Digest) (a rest : List UInt8) :
    readResponse (digestText digest) (.headers [] a)
      (acceptLine (digestText digest) ++ (crlf ++ (crlf ++ rest))) = .ok rest := by
  obtain ⟨e, mid, he, hform⟩ := digestText_form digest
  have hline := isLine_of_not_mem (cr_not_mem_acceptLine digest)
  have hlen := digestText_length digest
  have hcap : (acceptLine (digestText digest)).length + 2 ≤ headerLineCap := by
    have hname : acceptName.length = 21 := rfl
    have hmax : headerLineCap = 4096 := rfl
    simp only [acceptLine, List.length_append, List.length_cons]
    omega
  have hvalue : acceptValue (acceptLine (digestText digest) ++ crlf) =
      some (digestText digest) := by
    rw [hform]
    exact acceptValue_acceptLine he
  have hcrlf : acceptLine (digestText digest) ++ crlf ≠ crlf := fun heq => by
    have hnil := List.append_left_eq_self.mp heq
    cases hnil
  have hblank : readResponse (digestText digest) (.headers [] (digestText digest))
      (crlf ++ rest) = .ok rest := by
    have hread := read_headerLine (digestText digest) (digestText digest) isLine_nil
      (by decide) rest
    rw [List.nil_append] at hread
    rw [hread, List.nil_append, endHeader, if_pos rfl, if_pos rfl]
    rfl
  rw [read_headerLine _ _ hline hcap, endHeader, if_neg hcrlf, hvalue]
  exact hblank

end ResponseReader

theorem ResponseHead.parts {head : ResponseHead} {statusLine : List UInt8}
    {lines : List (List UInt8)} (hstatus : IsLine statusLine)
    (hlines : ∀ line ∈ lines, IsLine line ∧ line ≠ [])
    (h : statusLine ++ (crlf ++ (joinLines lines ++ crlf)) = head.bytes) :
    head.statusLine = statusLine ∧ head.headers = lines := by
  have hread := readLine_line hstatus (joinLines lines ++ crlf)
  have hrest := readLines_joinLines hlines []
  rw [h, ResponseHead.bytes, readLine_line head.isLine_status] at hread
  obtain ⟨hline, htail⟩ := Prod.mk.inj (Option.some.inj hread)
  rw [List.append_nil, ← htail] at hrest
  have hheaders := readLines_joinLines head.isLine_headers []
  rw [List.append_nil, hrest] at hheaders
  exact ⟨hline, (Prod.mk.inj (Option.some.inj hheaders)).1.symm⟩

/-- A response whose reader is past what was right when it takes the accept line. -/
theorem not_framed_of_read (digest : Digest) (statusLine : List UInt8)
    (lines : List (List UInt8)) {s : List UInt8}
    (hread : readResponse (digestText digest) (.status []) s = .ok [])
    (hstatus : IsLine statusLine) (hlines : ∀ line ∈ lines, IsLine line ∧ line ≠ [])
    (hs : s = statusLine ++ (crlf ++ (joinLines lines ++ crlf)))
    (hwrong : statusNumber statusLine ≠ some 101 ∨ ∀ line ∈ lines,
      hasName line acceptName = true →
        trimmed (line.drop acceptName.length) ≠ digestText digest) :
    ¬Framed (digestText digest) s := by
  intro h
  obtain ⟨head, hbytes, hupgrades, -⟩ := h [] hread
  rw [List.append_nil] at hbytes
  obtain ⟨hline, hheaders⟩ := ResponseHead.parts hstatus hlines (hs.symm.trans hbytes)
  rcases hwrong with hnumber | hproof
  · exact hnumber (hline ▸ hupgrades.status)
  · obtain ⟨line, hmem, hname, hvalue⟩ := hupgrades.accept
    exact hproof line (hheaders ▸ hmem) hname hvalue

/-- What a server can have sent when the reader is about to go wrong: a number that is stored
as 101, or the beginning of a line that is cut, before the server has proved the key. -/
inductive GoesWrong (digest : Digest) : List UInt8 → Prop
  | number {statusLine : List UInt8} {n : Int} (isLine : IsLine statusLine)
      (fits : statusLine.length + 2 ≤ statusLineCap) (number : statusNumber statusLine = some n)
      (stored : storeNumber n = 101) (wrong : n ≠ 101) : GoesWrong digest (statusLine ++ crlf)
  | statusCut {cut : List UInt8} (isLine : IsLine cut) (full : cut.length = statusLineCap)
      (status : scanStatus cut = 101) : GoesWrong digest cut
  | headerCut {statusLine cut : List UInt8} {lines : List (List UInt8)}
      (isLine : IsLine statusLine) (fits : statusLine.length + 2 ≤ statusLineCap)
      (status : scanStatus statusLine = 101)
      (headers : ∀ line ∈ lines, IsLine line ∧ line ≠ [] ∧ line.length + 2 ≤ headerLineCap)
      (unproved : ∀ line ∈ lines, hasName line acceptName = true →
        trimmed (line.drop acceptName.length) ≠ digestText digest)
      (isLine_cut : IsLine cut) (full : cut.length = headerLineCap) :
      GoesWrong digest (statusLine ++ (crlf ++ (joinLines lines ++ cut)))

/-- The rest of a line that is cut can pass for the proof. -/
theorem goesWrong_not_framed {digest : Digest} {s : List UInt8} (h : GoesWrong digest s) :
    ¬Framed (digestText digest) (s ++ (acceptLine (digestText digest) ++ (crlf ++ crlf))) := by
  have haccept : ∀ a, readResponse (digestText digest) (.headers [] a)
      (acceptLine (digestText digest) ++ (crlf ++ crlf)) = .ok [] := by
    intro a
    have hread := read_acceptLine digest a []
    rwa [List.append_nil] at hread
  have hne : ∀ cut, cut ++ acceptLine (digestText digest) ≠ [] := by
    intro cut hnil
    have haccept := (List.append_eq_nil_iff.mp hnil).2
    cases haccept
  cases h with
  | @number statusLine n hline hfits hnumber hstored hwrong =>
    have hscan : scanStatus (statusLine ++ crlf) = 101 := by
      rw [scanStatus, statusNumber_crlf, hnumber]
      exact hstored
    refine not_framed_of_read digest statusLine [acceptLine (digestText digest)] ?_ hline ?_
      (by simp) (Or.inl ?_)
    · rw [List.append_assoc, read_statusLine _ hline hfits, endStatus, if_pos hscan]
      exact haccept []
    · intro line hmem
      obtain rfl := List.mem_singleton.mp hmem
      exact ⟨isLine_of_not_mem (cr_not_mem_acceptLine digest), hne []⟩
    · rw [hnumber]
      exact fun heq => hwrong (Option.some.inj heq)
  | statusCut hline hfull hstatus =>
    have hnonempty : s ≠ [] := by
      rintro rfl
      cases hfull
    refine not_framed_of_read digest _ [] ?_ (isLine_cut hline digest) (by simp) (by simp)
      (Or.inr (by simp))
    rw [readResponse_status (hfull ▸ isChunk_cut hline) hnonempty (List.nil_append _), endStatus,
      if_pos hstatus]
    exact haccept []
  | @headerCut statusLine cut lines hline hfits hstatus hheaders hunproved hcut hfull =>
    have hscan : scanStatus (statusLine ++ crlf) = 101 := by
      rw [scanStatus, statusNumber_crlf]
      exact hstatus
    refine not_framed_of_read digest statusLine
      (lines ++ [cut ++ acceptLine (digestText digest)]) ?_ hline ?_ ?_ (Or.inr ?_)
    · obtain ⟨a, ha⟩ := read_headerLines (digestText digest) hheaders []
        (cut ++ (acceptLine (digestText digest) ++ (crlf ++ crlf)))
      obtain ⟨a', ha'⟩ := read_cut (digestText digest) a hcut hfull
        (acceptLine (digestText digest) ++ (crlf ++ crlf))
      simp only [List.append_assoc]
      rw [read_statusLine _ hline hfits, endStatus, if_pos hscan, resume, ha, ha', haccept]
    · intro line hmem
      rcases List.mem_append.mp hmem with hmem | hmem
      · exact ⟨(hheaders line hmem).1, (hheaders line hmem).2.1⟩
      · obtain rfl := List.mem_singleton.mp hmem
        exact ⟨isLine_cut hcut digest, hne cut⟩
    · rw [joinLines_append, joinLines_cons, joinLines_nil]
      simp
    · intro line hmem hname
      rcases List.mem_append.mp hmem with hmem | hmem
      · exact hunproved line hmem hname
      · obtain rfl := List.mem_singleton.mp hmem
        have hshort : acceptName.length ≤ cut.length := by
          rw [hfull]
          decide
        rw [List.drop_append_of_le_length hshort]
        exact trimmed_cut digest _

/-- A response is framed exactly when no pieces by which it is accepted are misread. In particular
it is when its lines fit, and one that has gone wrong can be continued so that it is not. -/
theorem response_framed_iff (digest : Digest) :
    (∀ s, Framed (digestText digest) s ↔ ∀ status pieces rest,
      Accepted (digestText digest) s status pieces rest →
        ¬Misread (digestText digest) s status pieces) ∧
      (∀ s, ResponseFits s → Framed (digestText digest) s) ∧
      ∀ s, GoesWrong digest s → ∃ more, ¬Framed (digestText digest) (s ++ more) := by
  refine ⟨fun s => framed_iff, fun s => framed_of_fits ?_,
    fun s h => ⟨_, goesWrong_not_framed h⟩⟩
  intro hnil
  have hlen := digestText_length digest
  rw [hnil] at hlen
  cases hlen

/-- A header of 4096 characters, and a second one behind it on the same line. -/
theorem long_header_not_framed : ¬∀ (digest : Digest) (s : List UInt8),
    Framed (digestText digest) s := by
  intro h
  have hcut : GoesWrong ⟨List.replicate 20 0, rfl⟩ (ascii "HTTP/1.1 101" ++ (crlf ++
      (joinLines [] ++ List.replicate 4096 0x78))) := by
    refine .headerCut (isLine_of_not_mem (by decide)) (by decide) (by decide) (by simp) (by simp)
      (isLine_of_not_mem ?_) List.length_replicate
    intro hmem
    have hx := List.eq_of_mem_replicate hmem
    cases hx
  exact goesWrong_not_framed hcut (h _ _)

end ModAudioStream
