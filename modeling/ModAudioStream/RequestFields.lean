import ModAudioStream.UpgradeRequest

namespace ModAudioStream

theorem trimBlanks_of_all {s : List UInt8} (h : ∀ c ∈ s, isBlank c = false) :
    trimBlanks s = s := by
  unfold trimBlanks
  have hfront : s.dropWhile isBlank = s := by
    rw [List.dropWhile_eq_self_iff]
    intro hpos
    simpa using h _ (List.getElem_mem hpos)
  rw [hfront, List.rdropWhile_eq_self_iff]
  intro hne
  simpa using h _ (List.getLast_mem hne)

theorem isTargetByte_iff {c : UInt8} : isTargetByte c = true ↔ 0x21 ≤ c.toNat ∧ c ≠ 0x7F := by
  simp [isTargetByte, UInt8.le_iff_toNat_le]

theorem isFieldByte_of_isTargetByte {c : UInt8} (h : isTargetByte c = true) :
    isFieldByte c = true ∧ isBlank c = false := by
  obtain ⟨hlo, hne⟩ := isTargetByte_iff.mp h
  have h20 : (0x20 : UInt8).toNat = 32 := rfl
  have h09 : (0x09 : UInt8).toNat = 9 := rfl
  constructor
  · have hle : (0x20 : UInt8) ≤ c := by
      rw [UInt8.le_iff_toNat_le]
      omega
    simp [isFieldByte, hle, hne]
  · have hspace : c ≠ 0x20 := by
      rintro rfl
      omega
    have htab : c ≠ 0x09 := by
      rintro rfl
      omega
    simp [isBlank, hspace, htab]

/-- A value without blanks and control characters. -/
theorem isFieldValue_of_all {s : List UInt8} (h : ∀ c ∈ s, isTargetByte c = true) :
    isFieldValue s = true := by
  have hbytes : s.all isFieldByte = true :=
    List.all_eq_true.mpr fun c hc => (isFieldByte_of_isTargetByte (h c hc)).1
  have htrim : trimBlanks s = s :=
    trimBlanks_of_all fun c hc => (isFieldByte_of_isTargetByte (h c hc)).2
  rw [isFieldValue, hbytes, htrim]
  simp

theorem isTargetByte_of_isAlnum {c : UInt8} (h : isAlnum c = true) : isTargetByte c = true := by
  have hne : c ≠ 0x7F := by
    rintro rfl
    cases h
  refine isTargetByte_iff.mpr ⟨?_, hne⟩
  simp only [isAlnum, isDigit, Bool.or_eq_true, Bool.and_eq_true, decide_eq_true_eq,
    UInt8.le_iff_toNat_le] at h
  have h30 : (0x30 : UInt8).toNat = 48 := rfl
  have h41 : (0x41 : UInt8).toNat = 65 := rfl
  have h61 : (0x61 : UInt8).toNat = 97 := rfl
  omega

theorem isTargetByte_of_isHostChar {c : UInt8} (h : isHostChar c = true) :
    isTargetByte c = true := by
  simp only [isHostChar, Bool.or_eq_true, beq_iff_eq] at h
  rcases h with ((h | rfl) | rfl) | rfl
  · exact isTargetByte_of_isAlnum h
  · rfl
  · rfl
  · rfl

theorem isTargetByte_of_isBase64 {c : UInt8} (h : isBase64 c = true) : isTargetByte c = true := by
  simp only [isBase64, Bool.or_eq_true, beq_iff_eq] at h
  rcases h with ((h | rfl) | rfl) | rfl
  · exact isTargetByte_of_isAlnum h
  · rfl
  · rfl
  · rfl

theorem isTargetByte_digit {c : Char} (h : c.isDigit = true) :
    isTargetByte (UInt8.ofNat c.toNat) = true := by
  obtain ⟨hlo, hhi⟩ : 48 ≤ c.toNat ∧ c.toNat ≤ 57 := by
    simpa [Char.isDigit, UInt32.le_iff_toNat_le] using h
  have hnat : (UInt8.ofNat c.toNat).toNat = c.toNat := by
    rw [UInt8.toNat_ofNat']
    omega
  refine isTargetByte_iff.mpr ⟨by omega, fun heq => ?_⟩
  have h7f := congrArg UInt8.toNat heq
  rw [hnat] at h7f
  have h127 : (0x7F : UInt8).toNat = 127 := rfl
  omega

theorem toString_chars (n : Int) : ∀ c ∈ ascii (toString n), isTargetByte c = true := by
  intro b hb
  obtain ⟨c, hc, rfl⟩ := List.mem_map.mp hb
  have hdigits : ∀ (m : Nat), ∀ c ∈ m.repr.toList, c.isDigit = true := by
    intro m c hc
    rw [Nat.toList_repr] at hc
    exact Nat.isDigit_of_mem_toDigits (by decide) (by decide) hc
  rw [Int.toString_eq_repr] at hc
  cases n with
  | ofNat m => exact isTargetByte_digit (hdigits m c hc)
  | negSucc m =>
    have hsplit : (Int.negSucc m).repr = "-" ++ m.succ.repr := rfl
    rw [hsplit, String.toList_append] at hc
    rcases List.mem_append.mp hc with hc | hc
    · obtain rfl := List.mem_singleton.mp hc
      rfl
    · exact isTargetByte_digit (hdigits m.succ c hc)

theorem isField_fixedFields {client : UrlFields} {wsKey : List UInt8}
    (hhost : ∀ c ∈ client.host, isHostChar c = true) (hkey : ∀ c ∈ wsKey, isBase64 c = true) :
    ∀ f ∈ fixedFields client wsKey, IsField f := by
  have hport : ∀ c ∈ hostPort client, isTargetByte c = true := by
    intro c hc
    unfold hostPort at hc
    split at hc
    · rcases List.mem_append.mp hc with hc | hc
      · obtain rfl := List.mem_singleton.mp hc
        rfl
      · exact toString_chars client.port c hc
    · cases hc
  have hvalue : isFieldValue (client.host ++ hostPort client) = true := by
    refine isFieldValue_of_all fun c hc => ?_
    rcases List.mem_append.mp hc with hc | hc
    · exact isTargetByte_of_isHostChar (hhost c hc)
    · exact hport c hc
  have hwsKey : isFieldValue wsKey = true :=
    isFieldValue_of_all fun c hc => isTargetByte_of_isBase64 (hkey c hc)
  intro f hf
  simp only [fixedFields, List.mem_cons, List.not_mem_nil, or_false] at hf
  rcases hf with rfl | rfl | rfl | rfl | rfl
  · exact ⟨rfl, hvalue⟩
  · exact ⟨rfl, rfl⟩
  · exact ⟨rfl, rfl⟩
  · exact ⟨rfl, hwsKey⟩
  · exact ⟨rfl, rfl⟩

theorem isReserved_fixedFields (client : UrlFields) (wsKey : List UInt8) :
    ∀ f ∈ fixedFields client wsKey, isReserved f.1 = true := by
  intro f hf
  simp only [fixedFields, List.mem_cons, List.not_mem_nil, or_false] at hf
  rcases hf with rfl | rfl | rfl | rfl | rfl <;> rfl

theorem fixedFields_once (client : UrlFields) (wsKey : List UInt8) {name : List UInt8}
    (h : name ∈ reservedNames) :
    ((fixedFields client wsKey).filter fun f => sameName name f.1).length = 1 := by
  simp only [reservedNames, List.mem_cons, List.not_mem_nil, or_false] at h
  rcases h with rfl | rfl | rfl | rfl | rfl <;> rfl

/-- The members can stand in a head, and are told apart there. -/
structure MembersClear (members : List (List UInt8 × List UInt8)) : Prop where
  isField : ∀ m ∈ members, IsField m
  unreserved : ∀ m ∈ members, isReserved m.1 = false
  names : (members.map (·.1)).Nodup

section Request

variable {client : UrlFields} {wsKey : List UInt8}
  {members : List (List UInt8 × List UInt8)}

theorem filter_reserved {fields : List (List UInt8 × List UInt8)}
    (h : ∀ f ∈ fields, isReserved f.1 = false) {name : List UInt8} (hname : name ∈ reservedNames) :
    (fields.filter fun f => sameName name f.1) = [] := by
  refine List.filter_eq_nil_iff.mpr fun f hf hsame => ?_
  have hreserved : isReserved f.1 = true := List.any_eq_true.mpr ⟨name, hname, hsame⟩
  rw [h f hf] at hreserved
  cases hreserved

theorem filter_unreserved (h : ∀ f ∈ members, isReserved f.1 = false) :
    ((fixedFields client wsKey ++ members).filter fun f => !isReserved f.1) = members := by
  have hfixed : ((fixedFields client wsKey).filter fun f => !isReserved f.1) = [] := by
    refine List.filter_eq_nil_iff.mpr fun f hf => ?_
    simp [isReserved_fixedFields client wsKey f hf]
  have hmembers : (members.filter fun f => !isReserved f.1) = members := by
    refine List.filter_eq_self.mpr fun f hf => ?_
    simp [h f hf]
  rw [List.filter_append, hfixed, hmembers, List.nil_append]

/-- The request with the headers that the members become. -/
def memberRequest (client : UrlFields) (wsKey : List UInt8)
    (members : List (List UInt8 × List UInt8)) : List UInt8 :=
  upgradeRequest client wsKey (members.foldl putHeader [])

theorem readRequestHead_member (hhost : ∀ c ∈ client.host, isHostChar c = true)
    (hkey : ∀ c ∈ wsKey, isBase64 c = true) (hpath : isTarget client.path = true)
    (hmembers : ∀ m ∈ members, IsField m) :
    readRequestHead (memberRequest client wsKey members) =
      some (⟨ascii "GET", client.path,
        fixedFields client wsKey ++ members.foldl putHeader []⟩, []) := by
  rw [memberRequest, upgradeRequest_eq]
  refine readRequestHead_written (by decide) hpath (fun f hf => ?_) []
  rcases List.mem_append.mp hf with hf | hf
  · exact isField_fixedFields hhost hkey f hf
  · rcases mem_putHeaders hf with hf | hf
    · exact hmembers f hf
    · cases hf

theorem unambiguous_of_clear (hhost : ∀ c ∈ client.host, isHostChar c = true)
    (hkey : ∀ c ∈ wsKey, isBase64 c = true) (hpath : isTarget client.path = true)
    (h : MembersClear members) :
    Unambiguous client wsKey members (memberRequest client wsKey members) := by
  have hunreserved : ∀ f ∈ members.foldl putHeader [], isReserved f.1 = false := by
    intro f hf
    rcases mem_putHeaders hf with hf | hf
    · exact h.unreserved f hf
    · cases hf
  refine ⟨_, readRequestHead_member hhost hkey hpath h.isField, rfl, rfl, ?_, ?_, ?_⟩
  · intro name hname
    rw [List.filter_append, filter_reserved hunreserved hname, List.append_nil]
    exact fixedFields_once client wsKey hname
  · exact List.mem_append_left _ (by simp [fixedFields])
  · rw [filter_unreserved hunreserved]
    have hperm := @putHeaders_perm members [] (by simpa using h.names)
    simpa using hperm

/-- A request that reads back right tells what it was made of. -/
theorem clear_of_unambiguous (hhost : ∀ c ∈ client.host, isHostChar c = true)
    (hkey : ∀ c ∈ wsKey, isBase64 c = true)
    (h : Unambiguous client wsKey members (memberRequest client wsKey members)) :
    isTarget client.path = true ∧ MembersClear members := by
  obtain ⟨head, hread, -, htarget, -, -, hperm⟩ := h
  obtain ⟨hvalid, hfields⟩ := valid_of_readRequestHead hread
  have hpath : isTarget client.path = true := htarget ▸ hvalid
  have hmember : ∀ m ∈ members, IsField m ∧ isReserved m.1 = false := by
    intro m hm
    obtain ⟨hmem, hunreserved⟩ := List.mem_filter.mp (hperm.mem_iff.mpr hm)
    exact ⟨hfields m hmem, by simpa using hunreserved⟩
  refine ⟨hpath, fun m hm => (hmember m hm).1, fun m hm => (hmember m hm).2, ?_⟩
  -- the map has each name once, and it has all members
  rw [readRequestHead_member hhost hkey hpath fun m hm => (hmember m hm).1] at hread
  obtain ⟨rfl, -⟩ := Prod.mk.inj (Option.some.inj hread)
  have hunreserved : ∀ f ∈ members.foldl putHeader [], isReserved f.1 = false := by
    intro f hf
    rcases mem_putHeaders hf with hf | hf
    · exact (hmember f hf).2
    · cases hf
  rw [filter_unreserved hunreserved] at hperm
  exact (hperm.map (·.1)).nodup_iff.mp (nodup_putHeaders (by simp))

end Request

/-- What `doHandshake` sends for the headers text reads back right. -/
def RequestReads (parse : List UInt8 → Option CJson) (extraHeaders : Option (List UInt8))
    (client : UrlFields) (wsKey : List UInt8) : Prop :=
  ∃ hdrs, streamerHeaders parse extraHeaders = some hdrs ∧
    Unambiguous client wsKey (headerMembers parse extraHeaders)
      (upgradeRequest client wsKey hdrs)

theorem requestReads_iff {client : UrlFields} {wsKey : List UInt8}
    (hhost : ∀ c ∈ client.host, isHostChar c = true) (hkey : ∀ c ∈ wsKey, isBase64 c = true)
    (parse : List UInt8 → Option CJson) (extraHeaders : Option (List UInt8)) :
    RequestReads parse extraHeaders client wsKey ↔ isTarget client.path = true ∧
      headersThrow parse extraHeaders = false ∧
        MembersClear (headerMembers parse extraHeaders) := by
  rw [RequestReads, streamerHeaders_eq]
  cases headersThrow parse extraHeaders with
  | true =>
    constructor
    · rintro ⟨hdrs, hnone, -⟩
      cases hnone
    · rintro ⟨-, hthrow, -⟩
      cases hthrow
  | false =>
    constructor
    · rintro ⟨hdrs, hsome, h⟩
      obtain rfl := Option.some.inj hsome
      obtain ⟨hpath, hclear⟩ := clear_of_unambiguous hhost hkey h
      exact ⟨hpath, rfl, hclear⟩
    · rintro ⟨hpath, -, hclear⟩
      exact ⟨_, rfl, unambiguous_of_clear hhost hkey hpath hclear⟩

namespace WsUri

theorem isTargetByte_scheme (u : WsUri) : ∀ b ∈ u.scheme, isTargetByte b = true := by
  unfold scheme
  split
  · exact List.all_eq_true.mp (by decide)
  · exact List.all_eq_true.mp (by decide)

theorem isTargetByte_port (u : WsUri) : ∀ b ∈ portText u.port, isTargetByte b = true := by
  intro b hb
  cases hport : u.port with
  | none =>
    rw [hport] at hb
    cases hb
  | some digits =>
    rw [hport] at hb
    rcases List.mem_cons.mp hb with rfl | hb
    · rfl
    · have hdigit := u.port_digits digits hport b hb
      exact isTargetByte_of_isAlnum (by simp [isAlnum, hdigit])

/-- Only the path of a URI can hold what a request target cannot. -/
theorem isTarget_readPath (u : WsUri) :
    isTarget u.readPath = true ↔ ∀ b ∈ u.bytes, isTargetByte b = true := by
  have hpath : isTarget u.readPath = true ↔ ∀ b ∈ u.path, isTargetByte b = true := by
    unfold readPath
    split
    next hnil =>
      rw [hnil]
      simp [isTarget, ascii, isTargetByte]
    next hne => simp [isTarget, hne]
  rw [hpath]
  constructor
  · intro h b hb
    rcases List.mem_append.mp hb with hb | hb
    · exact u.isTargetByte_scheme b hb
    · rcases List.mem_append.mp hb with hb | hb
      · exact isTargetByte_of_isHostChar (u.host_chars b hb)
      · rcases List.mem_append.mp hb with hb | hb
        · exact u.isTargetByte_port b hb
        · exact h b hb
  · intro h b hb
    exact h b (List.mem_append_right _ (List.mem_append_right _ (List.mem_append_right _ hb)))

end WsUri

/-- The client that an accepted URI gives, and the URI that it then has. -/
theorem setUrl_accepted {url : CString} {wsUri : List UInt8} (h : validateWsUri url = some wsUri)
    (beyond : List UInt8) (c : UrlFields) :
    ∃ u : WsUri, u.bytes = url.bytes.take (maxWsUri - 1) ∧
      setUrl (stringAt wsUri beyond) c = ⟨u.tls, u.host, u.readPort, u.readPath⟩ := by
  obtain ⟨⟨u, hu⟩, rfl⟩ := (WsUri.validateWsUri_iff url wsUri).mp h
  refine ⟨u.cut (maxWsUri - 1) u.scheme_length_lt, ?_, ?_⟩
  · rw [WsUri.bytes_cut, hu]
  · rw [stringAt_terminated, ← hu, ← WsUri.bytes_cut u u.scheme_length_lt, WsUri.setUrl_bytes]

/-- The request reads back right if and only if what is copied of the URI has no blank and no
control character, and the headers text makes no string of a null pointer and has members
that can stand as fields of their own. -/
theorem upgrade_request_reads_iff (url : CString) (wsUri beyond : List UInt8) (c : UrlFields)
    (buf : List UInt8) (parse : List UInt8 → Option CJson) (extraHeaders : Option (List UInt8))
    (h : validateWsUri url = some wsUri) :
    RequestReads parse extraHeaders (setUrl (stringAt wsUri beyond) c) (base64Loop buf) ↔
      (∀ b ∈ url.bytes.take (maxWsUri - 1), isTargetByte b = true) ∧
        headersThrow parse extraHeaders = false ∧
          MembersClear (headerMembers parse extraHeaders) := by
  obtain ⟨u, hbytes, hclient⟩ := setUrl_accepted h beyond c
  rw [hclient, requestReads_iff u.host_chars (base64Loop_chars buf), u.isTarget_readPath, hbytes]

/-- `ws://h` without headers: the request is `GET / HTTP/1.1` with the five fields. -/
theorem plain_request_reads : RequestReads (fun _ => none) none
    (setUrl (stringAt (strncpy ⟨ascii "ws://h", by decide⟩ (maxWsUri - 1) ++ [0]) [])
      ⟨false, [], 0, []⟩) (base64Loop (List.replicate 16 0)) := by
  let u : WsUri := ⟨false, ascii "h", none, [], by decide, List.all_eq_true.mp (by decide),
    (fun digits hd => (by cases hd)), (fun c hc => (by cases hc))⟩
  refine (upgrade_request_reads_iff ⟨ascii "ws://h", by decide⟩ _ [] _ _ _ none
    ((WsUri.validateWsUri_iff _ _).mpr ⟨⟨u, by decide⟩, rfl⟩)).mpr
      ⟨List.all_eq_true.mp (by decide), rfl, ?_⟩
  exact ⟨fun m hm => (by cases hm), fun m hm => (by cases hm), List.nodup_nil⟩

/-- `ws://h/a b` is accepted, and its request line has a blank too many. -/
theorem blank_path_misreads : ¬∀ (url : CString) (wsUri : List UInt8),
    validateWsUri url = some wsUri → RequestReads (fun _ => none) none
      (setUrl (stringAt wsUri []) ⟨false, [], 0, []⟩) (base64Loop (List.replicate 16 0)) := by
  intro hall
  let u : WsUri := ⟨false, ascii "h", none, ascii "/a b", by decide,
    List.all_eq_true.mp (by decide), (fun digits hd => (by cases hd)),
    (fun c hc => (Option.some.inj hc).symm)⟩
  have hurl : validateWsUri ⟨ascii "ws://h/a b", by decide⟩ =
      some (strncpy ⟨ascii "ws://h/a b", by decide⟩ (maxWsUri - 1) ++ [0]) :=
    (WsUri.validateWsUri_iff _ _).mpr ⟨⟨u, by decide⟩, rfl⟩
  obtain ⟨v, hbytes, hclient⟩ := setUrl_accepted hurl [] ⟨false, [], 0, []⟩
  have hreads := hall _ _ hurl
  rw [hclient, requestReads_iff v.host_chars (base64Loop_chars _), v.isTarget_readPath,
    hbytes] at hreads
  exact absurd (hreads.1 0x20 (by decide)) (by decide)

end ModAudioStream
