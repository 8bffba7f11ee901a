import ModAudioStream.ResponseFraming

namespace ModAudioStream

namespace ResponseReader

/-- A stream has something that the reader takes for a line, or it never stops. -/
theorem exists_chunk {cap : Nat} (s : List UInt8) {p : List UInt8}
    (hp : ∀ q, q <+: p → stops q cap = false) :
    (∃ more rest, more ≠ [] ∧ s = more ++ rest ∧ IsChunk (p ++ more) cap) ∨
      ∀ q, q <+: p ++ s → stops q cap = false := by
  induction s generalizing p with
  | nil =>
    right
    rw [List.append_nil]
    exact hp
  | cons c s ih =>
    by_cases hstop : stops (p ++ [c]) cap = true
    · refine Or.inl ⟨[c], s, by simp, rfl, hstop, fun q hq hne => hp q ?_⟩
      exact (List.prefix_concat_iff.mp hq).resolve_left hne
    · have hp' : ∀ q, q <+: p ++ [c] → stops q cap = false := by
        intro q hq
        rcases List.prefix_concat_iff.mp hq with rfl | hq
        · exact Bool.eq_false_iff.mpr hstop
        · exact hp q hq
      rcases ih hp' with ⟨more, rest, -, hs, hchunk⟩ | hnone
      · refine Or.inl ⟨c :: more, rest, by simp, by rw [hs]; rfl, ?_⟩
        rw [List.append_cons]
        exact hchunk
      · right
        rw [List.append_cons]
        exact hnone

theorem stops_nil {cap : Nat} (hcap : 0 < cap) (q : List UInt8) (hq : q <+: []) :
    stops q cap = false := by
  obtain rfl := List.prefix_nil.mp hq
  refine Bool.eq_false_iff.mpr fun hstop => ?_
  rcases stops_iff.mp hstop with hend | hlen
  · have hnil := List.suffix_nil.mp hend
    cases hnil
  · rw [List.length_nil] at hlen
    omega

theorem status_not_ok {expectedAccept rest : List UInt8} {s p : List UInt8}
    (h : ∀ q, q <+: p ++ s → stops q statusLineCap = false) :
    readResponse expectedAccept (.status p) s ≠ .ok rest := by
  induction s generalizing p with
  | nil => nofun
  | cons c s ih =>
    have hgo : stops (p ++ [c]) statusLineCap = false := h _ (by simp)
    rw [readResponse_cons, feed]
    simp only [hgo]
    refine ih fun q hq => h q ?_
    rwa [List.append_cons]

theorem headers_not_ok {expectedAccept rest a : List UInt8} {s p : List UInt8}
    (h : ∀ q, q <+: p ++ s → stops q headerLineCap = false) :
    readResponse expectedAccept (.headers p a) s ≠ .ok rest := by
  induction s generalizing p with
  | nil => nofun
  | cons c s ih =>
    have hgo : stops (p ++ [c]) headerLineCap = false := h _ (by simp)
    rw [readResponse_cons, feed]
    simp only [hgo]
    refine ih fun q hq => h q ?_
    rwa [List.append_cons]

/-- The pieces that the reader takes for header lines, up to one that is just a CRLF. -/
inductive Pieces : List UInt8 → List (List UInt8) → List UInt8 → Prop
  | blank (rest : List UInt8) : Pieces (crlf ++ rest) [] rest
  | piece {chunk s rest : List UInt8} {pieces : List (List UInt8)}
      (hchunk : IsChunk chunk headerLineCap) (hne : chunk ≠ crlf) (h : Pieces s pieces rest) :
      Pieces (chunk ++ s) (chunk :: pieces) rest

/-- What the pieces leave in `serverAccept`. -/
def provedBy (serverAccept : List UInt8) (pieces : List (List UInt8)) : List UInt8 :=
  pieces.foldl (fun a piece => (acceptValue piece).getD a) serverAccept

theorem IsChunk.ne_nil {chunk : List UInt8} {cap : Nat} (h : IsChunk chunk cap) (hcap : 0 < cap) :
    chunk ≠ [] := by
  rintro rfl
  have hgo := stops_nil hcap [] List.prefix_rfl
  rw [h.stops] at hgo
  cases hgo

theorem read_chunk (expectedAccept a : List UInt8) {chunk : List UInt8}
    (h : IsChunk chunk headerLineCap) (rest : List UInt8) :
    readResponse expectedAccept (.headers [] a) (chunk ++ rest) =
      resume expectedAccept rest (endHeader expectedAccept chunk a) :=
  readResponse_header h (h.ne_nil (by decide)) (List.nil_append _) rest

theorem isChunk_crlf : IsChunk crlf headerLineCap := isChunk_line isLine_nil (by decide)

theorem Pieces.read {expectedAccept s rest : List UInt8} {pieces : List (List UInt8)}
    (h : Pieces s pieces rest) {a : List UInt8} (ha : provedBy a pieces = expectedAccept) :
    readResponse expectedAccept (.headers [] a) s = .ok rest := by
  induction h generalizing a with
  | blank rest =>
    obtain rfl : a = expectedAccept := ha
    rw [read_chunk a a isChunk_crlf, endHeader, if_pos rfl, if_pos rfl]
    rfl
  | piece hchunk hne _ ih =>
    rw [read_chunk expectedAccept a hchunk, endHeader, if_neg hne]
    exact ih ha

theorem pieces_of_read {expectedAccept s rest a : List UInt8}
    (h : readResponse expectedAccept (.headers [] a) s = .ok rest) :
    ∃ pieces, Pieces s pieces rest ∧ provedBy a pieces = expectedAccept := by
  rcases @exists_chunk headerLineCap s [] (stops_nil (by decide)) with
    ⟨chunk, more, hne, rfl, hchunk⟩ | hnone
  · rw [List.nil_append] at hchunk
    rw [read_chunk expectedAccept a hchunk, endHeader] at h
    by_cases hblank : chunk = crlf
    · rw [if_pos hblank] at h
      split at h
      next ha =>
        obtain rfl : more = rest := Except.ok.inj h
        subst hblank
        exact ⟨[], .blank more, ha⟩
      next => cases h
    · rw [if_neg hblank] at h
      obtain ⟨pieces, hpieces, hproved⟩ := pieces_of_read h
      exact ⟨chunk :: pieces, .piece hchunk hblank hpieces, hproved⟩
  · exact absurd h (headers_not_ok hnone)
termination_by s.length
decreasing_by
  have hpos := List.length_pos_iff.mpr hne
  simp_all

end ResponseReader

open ResponseReader

/-- The reader accepts the response: it takes `status` for the status line and `pieces` for the
header lines, and leaves `rest`. -/
structure Accepted (expectedAccept s status : List UInt8) (pieces : List (List UInt8))
    (rest : List UInt8) : Prop where
  chunk : IsChunk status statusLineCap
  scanned : scanStatus status = 101
  split : ∃ more, s = status ++ more ∧ Pieces more pieces rest
  proved : provedBy [] pieces = expectedAccept

/-- The reader accepts a response by the pieces that it divides it into. -/
theorem read_iff_accepted {expectedAccept s rest : List UInt8} :
    readResponse expectedAccept (.status []) s = .ok rest ↔
      ∃ status pieces, Accepted expectedAccept s status pieces rest := by
  constructor
  · intro h
    rcases @exists_chunk statusLineCap s [] (stops_nil (by decide)) with
      ⟨status, more, hne, rfl, hchunk⟩ | hnone
    · rw [List.nil_append] at hchunk
      rw [readResponse_status hchunk hne (List.nil_append _), endStatus] at h
      split at h
      next hscan =>
        obtain ⟨pieces, hpieces, hproved⟩ := pieces_of_read h
        exact ⟨status, pieces, hchunk, hscan, ⟨more, rfl, hpieces⟩, hproved⟩
      next => cases h
    · exact absurd h (status_not_ok hnone)
  · rintro ⟨status, pieces, hchunk, hscan, ⟨more, rfl, hpieces⟩, hproved⟩
    rw [readResponse_status hchunk (hchunk.ne_nil (by decide)) (List.nil_append _), endStatus,
      if_pos hscan]
    exact hpieces.read hproved

/-- The piece in front of the blank one is not the end of a line. -/
def EndsCut : List UInt8 → List (List UInt8) → Prop
  | last, [] => ¬crlf <:+ last
  | _, piece :: pieces => EndsCut piece pieces

/-- A cut between CR and LF hides the blank line behind them. -/
def HidesBlank : List UInt8 → List (List UInt8) → Prop
  | _, [] => False
  | last, piece :: pieces =>
    ([0x0D] <:+ last ∧ piece = 0x0A :: crlf) ∨ HidesBlank piece pieces

/-- Lines up to a blank one, and what follows that. -/
def Lines (s : List UInt8) (lines : List (List UInt8)) (rest : List UInt8) : Prop :=
  s = joinLines lines ++ (crlf ++ rest) ∧ ∀ line ∈ lines, IsLine line ∧ line ≠ []

theorem Lines.readLines_eq {s rest : List UInt8} {lines : List (List UInt8)}
    (h : Lines s lines rest) : readLines s = some (lines, rest) := by
  rw [h.1]
  exact readLines_joinLines h.2 rest

theorem lines_line {line s rest : List UInt8} {lines : List (List UInt8)} (hline : IsLine line)
    (hne : line ≠ []) (h : Lines s lines rest) :
    Lines (line ++ (crlf ++ s)) (line :: lines) rest := by
  refine ⟨by rw [h.1, joinLines_cons]; simp, fun l hl => ?_⟩
  rcases List.mem_cons.mp hl with rfl | hl
  · exact ⟨hline, hne⟩
  · exact h.2 l hl

theorem exists_lines_iff {line s rest : List UInt8} (hline : IsLine line) (hne : line ≠ []) :
    (∃ lines, Lines (line ++ (crlf ++ s)) lines rest) ↔ ∃ lines, Lines s lines rest := by
  constructor
  · rintro ⟨lines, h⟩
    have hread := h.readLines_eq
    rw [readLines_of_some (readLine_line hline s), if_neg hne] at hread
    obtain ⟨out, hout, heq⟩ := Option.map_eq_some_iff.mp hread
    obtain ⟨rfl, rfl⟩ := Prod.mk.inj heq
    refine ⟨out.1, ?_, fun l hl => h.2 l (List.mem_cons_of_mem _ hl)⟩
    have hall := h.1
    rw [joinLines_cons, List.append_assoc, List.append_assoc, List.append_cancel_left_eq,
      List.append_cancel_left_eq] at hall
    exact hall
  · rintro ⟨lines, h⟩
    exact ⟨_, lines_line hline hne h⟩

theorem IsLine.append_line {a b : List UInt8} (ha : IsLine a) (hb : IsLine b)
    (hcut : ¬([0x0D] <:+ a ∧ b.head? = some 0x0A)) : IsLine (a ++ b) := by
  induction a with
  | nil => exact hb
  | cons c a ih =>
    have ha' : IsLine a := ha.part (List.infix_cons List.infix_rfl)
    have hcut' : ¬([0x0D] <:+ a ∧ b.head? = some 0x0A) := fun h =>
      hcut ⟨h.1.trans (List.suffix_cons c a), h.2⟩
    refine isLine_cons ?_ (ih ha' hcut')
    rintro ⟨rfl, hhead⟩
    cases a with
    | nil => exact hcut ⟨List.suffix_rfl, hhead⟩
    | cons d a =>
      obtain rfl : d = 0x0A := Option.some.inj hhead
      exact ha ⟨[], a, rfl⟩

theorem not_cr_suffix {last : List UInt8} (hend : crlf <:+ last) : ¬[0x0D] <:+ last := by
  rintro ⟨a, ha⟩
  obtain ⟨b, rfl⟩ := hend
  have hlast := congrArg List.getLast? ha
  simp [crlf] at hlast

theorem suffix_of_tail {c d : UInt8} {l : List UInt8} (hne : l ≠ []) :
    [d] <:+ c :: l ↔ [d] <:+ l := by
  rw [List.suffix_cons_iff]
  refine or_iff_right fun heq => hne ?_
  exact (List.cons.inj heq).2.symm

theorem suffix_of_append {d : UInt8} {a l : List UInt8} (hne : l ≠ []) :
    [d] <:+ a ++ l ↔ [d] <:+ l := by
  induction a with
  | nil => rfl
  | cons c a ih =>
    rw [List.cons_append, suffix_of_tail (List.append_ne_nil_of_right_ne_nil a hne)]
    exact ih

namespace ResponseReader

/-- A chunk that ends in a CRLF is a line with it. -/
theorem IsChunk.line {chunk : List UInt8} {cap : Nat} (h : IsChunk chunk cap)
    (hend : crlf <:+ chunk) : ∃ line, chunk = line ++ crlf ∧ IsLine line := by
  obtain ⟨line, rfl⟩ := hend
  refine ⟨line, rfl, h.isLine_part (List.prefix_append _ _) fun heq => ?_⟩
  have hnil := List.self_eq_append_right.mp heq
  cases hnil

/-- Any other one is cut at the cap. -/
theorem IsChunk.cut {chunk : List UInt8} {cap : Nat} (h : IsChunk chunk cap)
    (hend : ¬crlf <:+ chunk) : IsLine chunk ∧ cap ≤ chunk.length := by
  refine ⟨?_, (stops_iff.mp h.stops).resolve_left hend⟩
  rintro ⟨before, after, hsplit⟩
  cases after using List.reverseRecOn with
  | nil => exact hend ⟨before, by simpa using hsplit⟩
  | append_singleton after c =>
    have hp : before ++ crlf ++ after <+: chunk := ⟨[c], by simpa using hsplit⟩
    have hne : before ++ crlf ++ after ≠ chunk := by
      intro heq
      have hlen := congrArg List.length (heq.trans hsplit.symm)
      simp at hlen
    exact h.isLine_part hp hne ⟨before, after, rfl⟩

theorem Pieces.longer {s rest : List UInt8} {pieces : List (List UInt8)}
    (h : Pieces s pieces rest) : rest.length < s.length := by
  induction h with
  | blank rest =>
    have hcrlf : crlf.length = 2 := rfl
    rw [List.length_append]
    omega
  | piece _ _ _ ih =>
    rw [List.length_append]
    omega

/-- Where the reader is in the lines of a response behind a piece: at the beginning of a line, or
behind `part` of one that has been cut. -/
inductive Behind : List UInt8 → List UInt8 → Prop
  | line {last : List UInt8} (hend : crlf <:+ last) : Behind [] last
  | part {part last : List UInt8} (hline : IsLine part) (hlen : 2 ≤ part.length)
      (hend : ¬crlf <:+ last) (hcr : [0x0D] <:+ part ↔ [0x0D] <:+ last) : Behind part last

theorem Behind.ends_cr {part last : List UInt8} (h : Behind part last)
    (hcr : [0x0D] <:+ part) : [0x0D] <:+ last := by
  cases h with
  | line _ => exact absurd (List.suffix_nil.mp hcr) (by simp)
  | part _ _ _ hiff => exact hiff.mp hcr

/-- Whether there are lines in what begins with `w`, which ends in `chunk`, depends on the part of
a line that is left of `w`. -/
def EndsIn (w chunk : List UInt8) : Prop :=
  ∃ part, Behind part chunk ∧ ∀ t rest,
    (∃ lines, Lines (w ++ t) lines rest) ↔ ∃ lines, Lines (part ++ t) lines rest

theorem endsIn_of_chunk {w chunk : List UInt8}
    (hwhole : crlf <:+ chunk → ∃ line, w = line ++ crlf ∧ IsLine line ∧ line ≠ [])
    (hcut : ¬crlf <:+ chunk → IsLine w ∧ 2 ≤ w.length ∧ ([0x0D] <:+ w ↔ [0x0D] <:+ chunk)) :
    EndsIn w chunk := by
  by_cases hend : crlf <:+ chunk
  · obtain ⟨line, rfl, hline, hne⟩ := hwhole hend
    refine ⟨[], .line hend, fun t rest => ?_⟩
    rw [List.append_assoc]
    exact exists_lines_iff hline hne
  · obtain ⟨hline, hlen, hcr⟩ := hcut hend
    exact ⟨w, .part hline hlen hend hcr, fun t rest => Iff.rfl⟩

/-- A line in front makes no difference. -/
theorem EndsIn.behind_line {line w chunk : List UInt8} (h : EndsIn w chunk) (hline : IsLine line)
    (hne : line ≠ []) : EndsIn (line ++ (crlf ++ w)) chunk := by
  obtain ⟨part, hbehind, hiff⟩ := h
  refine ⟨part, hbehind, fun t rest => ?_⟩
  rw [List.append_assoc, List.append_assoc, exists_lines_iff hline hne]
  exact hiff t rest

/-- The LF of a CRLF that has been cut ends the line in front of it; the chunk is the next one. -/
theorem endsIn_of_carry {chunk : List UInt8} (hchunk : IsChunk (0x0A :: chunk) headerLineCap)
    (hblank : chunk ≠ crlf) : EndsIn chunk (0x0A :: chunk) := by
  have hcap : headerLineCap = 4096 := rfl
  refine endsIn_of_chunk (fun hend => ?_) fun hend => ?_
  · obtain ⟨line, hsplit, hline⟩ := hchunk.line hend
    cases line with
    | nil => cases hsplit
    | cons c line =>
      obtain ⟨rfl, rfl⟩ := List.cons.inj hsplit
      refine ⟨line, rfl, hline.part (List.infix_cons List.infix_rfl), ?_⟩
      rintro rfl
      exact hblank rfl
  · obtain ⟨hline, hlen⟩ := hchunk.cut hend
    rw [List.length_cons] at hlen
    have hne : chunk ≠ [] := by
      rintro rfl
      rw [List.length_nil] at hlen
      omega
    exact ⟨hline.part (List.infix_cons List.infix_rfl), by omega, (suffix_of_tail hne).symm⟩

/-- Any other chunk goes on with the line that `part` is of. -/
theorem endsIn_of_part {part chunk : List UInt8} (hpart : IsLine part)
    (hchunk : IsChunk chunk headerLineCap) (hblank : chunk ≠ crlf)
    (hcarry : ¬([0x0D] <:+ part ∧ chunk.head? = some 0x0A)) : EndsIn (part ++ chunk) chunk := by
  have hcap : headerLineCap = 4096 := rfl
  refine endsIn_of_chunk (fun hend => ?_) fun hend => ?_
  · obtain ⟨line, rfl, hline⟩ := hchunk.line hend
    have hne : line ≠ [] := by
      rintro rfl
      exact hblank rfl
    refine ⟨part ++ line, (List.append_assoc _ _ _).symm, ?_,
      List.append_ne_nil_of_right_ne_nil part hne⟩
    refine hpart.append_line hline fun hcut => hcarry ⟨hcut.1, ?_⟩
    rw [List.head?_append, hcut.2]
    rfl
  · obtain ⟨hline, hlen⟩ := hchunk.cut hend
    refine ⟨hpart.append_line hline hcarry, ?_, suffix_of_append (hchunk.ne_nil (by decide))⟩
    rw [List.length_append]
    omega

theorem Behind.isLine {part last : List UInt8} (h : Behind part last) : IsLine part := by
  cases h with
  | line _ => exact isLine_nil
  | part hline _ _ _ => exact hline

/-- What stands in front of a CR that has been cut off from its LF is a line. -/
theorem Behind.line_of_cr {y last : List UInt8} (h : Behind (y ++ [0x0D]) last) :
    IsLine y ∧ y ≠ [] := by
  refine ⟨h.isLine.part (List.prefix_append _ _).isInfix, ?_⟩
  rintro rfl
  cases h with
  | part _ hlen _ _ => simp at hlen

theorem Behind.next {part last chunk : List UInt8} (h : Behind part last)
    (hchunk : IsChunk chunk headerLineCap) (hblank : chunk ≠ crlf)
    (hhide : ¬([0x0D] <:+ last ∧ chunk = 0x0A :: crlf)) : EndsIn (part ++ chunk) chunk := by
  by_cases hcarry : [0x0D] <:+ part ∧ chunk.head? = some 0x0A
  · obtain ⟨hcr, hhead⟩ := hcarry
    have hlast := h.ends_cr hcr
    obtain ⟨y, rfl⟩ := hcr
    cases chunk with
    | nil => cases hhead
    | cons c chunk =>
      obtain rfl : c = 0x0A := Option.some.inj hhead
      have hsplit : y ++ [0x0D] ++ 0x0A :: chunk = y ++ (crlf ++ chunk) := by simp [crlf]
      rw [hsplit]
      have hends := endsIn_of_carry hchunk fun heq => hhide ⟨hlast, by rw [heq]⟩
      exact hends.behind_line h.line_of_cr.1 h.line_of_cr.2
  · exact endsIn_of_part h.isLine hchunk hblank hcarry

/-- The reader ends where the first blank line does, unless it takes the end of a cut line for
that one or a cut hides it. -/
theorem Pieces.lines_iff {s rest part last : List UInt8} {pieces : List (List UInt8)}
    (h : Pieces s pieces rest) (hbehind : Behind part last) :
    (∃ lines, Lines (part ++ s) lines rest) ↔
      ¬EndsCut last pieces ∧ ¬HidesBlank last pieces := by
  induction h generalizing part last with
  | blank rest =>
    cases hbehind with
    | line hend =>
      exact ⟨fun _ => ⟨not_not_intro hend, id⟩, fun _ => ⟨[], rfl, by simp⟩⟩
    | part hline hlen hend _ =>
      refine iff_of_false ?_ fun hnot => hnot.1 hend
      -- the CRLF ends the line that `part` is of, and no blank one
      rintro ⟨lines, hlines⟩
      have hne : part ≠ [] := by
        rintro rfl
        simp at hlen
      obtain ⟨lines', hlines'⟩ := (exists_lines_iff hline hne).mp ⟨lines, hlines⟩
      have hlong := congrArg List.length hlines'.1
      have hcrlf : crlf.length = 2 := rfl
      simp only [List.length_append] at hlong
      omega
  | @piece chunk s rest pieces hchunk hblank hpieces ih =>
    by_cases hhide : [0x0D] <:+ last ∧ chunk = 0x0A :: crlf
    · refine iff_of_false ?_ fun hnot => hnot.2 (Or.inl hhide)
      obtain ⟨hcr, rfl⟩ := hhide
      rintro ⟨lines, hlines⟩
      cases hbehind with
      | line hend => exact not_cr_suffix hend hcr
      | part hline hlen hend hiff =>
        obtain ⟨y, rfl⟩ := hiff.mpr hcr
        have hy := (Behind.part hline hlen hend hiff).line_of_cr
        have hsplit : y ++ [0x0D] ++ (0x0A :: crlf ++ s) = y ++ (crlf ++ ([] ++ (crlf ++ s))) := by
          simp [crlf]
        rw [hsplit] at hlines
        obtain ⟨lines', hlines'⟩ := (exists_lines_iff hy.1 hy.2).mp ⟨lines, hlines⟩
        have hread := hlines'.readLines_eq
        rw [readLines_of_some (readLine_line isLine_nil s), if_pos rfl] at hread
        have hrest := (Prod.mk.inj (Option.some.inj hread)).2
        have hlong := hpieces.longer
        rw [hrest] at hlong
        exact absurd hlong (Nat.lt_irrefl _)
    · obtain ⟨part', hbehind', hiff⟩ := hbehind.next hchunk hblank hhide
      rw [← List.append_assoc, hiff s rest, ih hbehind', HidesBlank, or_iff_right hhide]
      rfl

theorem endsIn_status {status : List UInt8} (h : IsChunk status statusLineCap)
    (hscan : scanStatus status = 101) : EndsIn status status := by
  refine endsIn_of_chunk (fun hend => ?_) fun hend => ?_
  · obtain ⟨line, rfl, hline⟩ := h.line hend
    refine ⟨line, rfl, hline, ?_⟩
    rintro rfl
    cases hscan
  · obtain ⟨hline, hlen⟩ := h.cut hend
    have hcap : statusLineCap = 1024 := rfl
    exact ⟨hline, by omega, Iff.rfl⟩

end ResponseReader

theorem Accepted.lines_iff {expectedAccept s status rest : List UInt8}
    {pieces : List (List UInt8)} (h : Accepted expectedAccept s status pieces rest) :
    (∃ lines, Lines s lines rest) ↔ ¬EndsCut status pieces ∧ ¬HidesBlank status pieces := by
  obtain ⟨hchunk, hscan, ⟨more, rfl, hpieces⟩, -⟩ := h
  obtain ⟨part, hbehind, hiff⟩ := endsIn_status hchunk hscan
  rw [hiff]
  exact hpieces.lines_iff hbehind

/-- How the pieces of a response that is accepted can differ from its lines: the blank one is the
end of a line that has been cut, a cut hides the blank line, the status line has another number than
its piece, or only a piece of a line proves the key. -/
inductive Misread (expectedAccept s status : List UInt8) (pieces : List (List UInt8)) : Prop
  | early (h : EndsCut status pieces)
  | hidden (h : HidesBlank status pieces)
  | number {line rest : List UInt8} (first : readLine s = some (line, rest))
      (wrong : statusNumber line ≠ some 101)
  | unproved {line rest : List UInt8} {lines : List (List UInt8)}
      (head : readLines s = some (line :: lines, rest))
      (wrong : ∀ l ∈ lines, hasName l acceptName = true →
        trimmed (l.drop acceptName.length) ≠ expectedAccept)

theorem Lines.readLine_eq {s line rest : List UInt8} {lines : List (List UInt8)}
    (h : Lines s (line :: lines) rest) :
    readLine s = some (line, joinLines lines ++ (crlf ++ rest)) := by
  rw [h.1, joinLines_cons, List.append_assoc, List.append_assoc]
  exact readLine_line (h.2 line List.mem_cons_self).1 _

theorem ResponseHead.lines {head : ResponseHead} {s rest : List UInt8}
    (hne : head.statusLine ≠ []) (hs : s = head.bytes ++ rest) :
    Lines s (head.statusLine :: head.headers) rest := by
  refine ⟨by rw [hs, ResponseHead.bytes]; simp, fun l hl => ?_⟩
  rcases List.mem_cons.mp hl with rfl | hl
  · exact ⟨head.isLine_status, hne⟩
  · exact head.isLine_headers l hl

/-- An accepted response is framed exactly when its pieces are not misread. -/
theorem framed_iff {expectedAccept s : List UInt8} : Framed expectedAccept s ↔
    ∀ status pieces rest, Accepted expectedAccept s status pieces rest →
      ¬Misread expectedAccept s status pieces := by
  constructor
  · intro h status pieces rest haccepted hmisread
    obtain ⟨head, hs, hupgrades, -⟩ := h rest (read_iff_accepted.mpr ⟨status, pieces, haccepted⟩)
    have hlines := ResponseHead.lines (statusNumber_ne_nil hupgrades.status) hs
    obtain ⟨hend, hhide⟩ := haccepted.lines_iff.mp ⟨_, hlines⟩
    cases hmisread with
    | early h => exact hend h
    | hidden h => exact hhide h
    | number first wrong =>
      rw [hlines.readLine_eq] at first
      obtain ⟨rfl, -⟩ := Prod.mk.inj (Option.some.inj first)
      exact wrong hupgrades.status
    | unproved hhead wrong =>
      rw [hlines.readLines_eq] at hhead
      obtain ⟨hlist, -⟩ := Prod.mk.inj (Option.some.inj hhead)
      obtain ⟨-, rfl⟩ := List.cons.inj hlist
      obtain ⟨l, hl, hname, hvalue⟩ := hupgrades.accept
      exact wrong l hl hname hvalue
  · intro h rest hread
    obtain ⟨status, pieces, haccepted⟩ := read_iff_accepted.mp hread
    have hright := h status pieces rest haccepted
    obtain ⟨lines, hlines⟩ := haccepted.lines_iff.mpr
      ⟨fun hend => hright (.early hend), fun hhide => hright (.hidden hhide)⟩
    cases lines with
    | nil =>
      have hread := readLine_line isLine_nil rest
      refine absurd (.number (hlines.1 ▸ hread) ?_) hright
      nofun
    | cons line lines =>
      have hnumber : statusNumber line = some 101 := by
        by_contra hwrong
        exact hright (.number hlines.readLine_eq hwrong)
      have hproof : ∃ l ∈ lines, hasName l acceptName = true ∧
          trimmed (l.drop acceptName.length) = expectedAccept := by
        by_contra hwrong
        push Not at hwrong
        exact hright (.unproved hlines.readLines_eq hwrong)
      have hend := endsAtBlankLine (List.cons_ne_nil line lines) hlines.2
      rw [joinLines_cons, List.append_assoc, List.append_assoc] at hend
      refine ⟨⟨line, lines, (hlines.2 line List.mem_cons_self).1,
        fun l hl => hlines.2 l (List.mem_cons_of_mem line hl)⟩, hlines.1.trans ?_,
        ⟨hnumber, hproof⟩, hend⟩
      simp [ResponseHead.bytes]

end ModAudioStream
