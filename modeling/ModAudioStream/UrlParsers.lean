import ModAudioStream.WsUri

namespace ModAudioStream

theorem strchr_append {xs : List UInt8} {c : UInt8} (h : c ∉ xs) (ys : List UInt8) :
    strchr (xs ++ ys) c = (strchr ys c).map (· + xs.length) := by
  have hnone : xs.findIdx? (· == c) = none := by
    rw [List.findIdx?_eq_none_iff]
    intro x hx
    have hne : x ≠ c := fun hxc => h (hxc ▸ hx)
    simpa using hne
  rw [strchr, List.findIdx?_append, hnone]
  simp [strchr]

theorem scanAuthority_iff {s : List UInt8} : scanAuthority s = true ↔
    ∃ host port path, s = host ++ (WsUri.portText port ++ path) ∧ host ≠ [] ∧
      (∀ c ∈ host, isHostChar c = true) ∧ (∀ digits ∈ port, ∀ c ∈ digits, isDigit c = true) ∧
      ∀ c ∈ path.head?, c = 0x2F := by
  constructor
  · intro h
    unfold scanAuthority at h
    split at h
    next => cases h
    next host rest hscan =>
      obtain ⟨rfl, hchars, hrest⟩ := scanHost_eq_some hscan
      obtain ⟨hne, hport⟩ := (Bool.and_eq_true _ _).mp h
      have hne : host ≠ [] := by simpa using hne
      cases rest with
      | nil => exact ⟨host, none, [], rfl, hne, hchars, nofun, nofun⟩
      | cons c port =>
        rcases hrest c (by simp) with rfl | rfl
        · obtain ⟨digits, path, rfl, hd, hp⟩ := scanPort_iff.mp (by simpa using hport)
          refine ⟨host, some digits, path, rfl, hne, hchars, ?_, hp⟩
          intro ds hds
          obtain rfl : digits = ds := Option.some.inj hds
          exact hd
        · exact ⟨host, none, _, rfl, hne, hchars, nofun, by simp⟩
  · rintro ⟨host, port, path, rfl, hne, hchars, hd, hp⟩
    unfold scanAuthority
    cases port with
    | none =>
      rw [WsUri.portText, List.nil_append, scanHost_host hchars fun c hc => Or.inr (hp c hc)]
      cases path with
      | nil => simpa using hne
      | cons c path =>
        obtain rfl : c = 0x2F := hp c (by simp)
        simpa using hne
    | some digits =>
      have hport : scanPort (digits ++ path) = true :=
        scanPort_iff.mpr ⟨digits, path, rfl, hd digits rfl, hp⟩
      rw [WsUri.portText, scanHost_host hchars fun c hc => Or.inl (by simpa using hc.symm)]
      simpa [hport] using hne

namespace WsUri

theorem ws_not_wss (s : List UInt8) : ¬ascii "ws://" <+: ascii "wss://" ++ s := by
  rintro ⟨t, ht⟩
  have h2 := congrArg (fun l => l[2]?) ht
  simp [ascii] at h2

theorem wss_not_ws (s : List UInt8) : ¬ascii "wss://" <+: ascii "ws://" ++ s := by
  rintro ⟨t, ht⟩
  have h2 := congrArg (fun l => l[2]?) ht
  simp [ascii] at h2

theorem exists_bytes_iff (tls : Bool) (s : List UInt8) : (∃ u : WsUri, u.tls = tls ∧
    u.authority = s) ↔ scanAuthority s = true := by
  rw [scanAuthority_iff]
  constructor
  · rintro ⟨u, -, rfl⟩
    exact ⟨u.host, u.port, u.path, rfl, u.host_ne, u.host_chars, u.port_digits, u.path_slash⟩
  · rintro ⟨host, port, path, rfl, hne, hchars, hd, hp⟩
    exact ⟨⟨tls, host, port, path, hne, hchars, hd, hp⟩, rfl, rfl⟩

/-- The validator accepts exactly the URIs with these parts, and copies what fits. -/
theorem validateWsUri_iff (url : CString) (array : List UInt8) :
    validateWsUri url = some array ↔
      (∃ u : WsUri, u.bytes = url.bytes) ∧ array = strncpy url (maxWsUri - 1) ++ [0] := by
  have hws : ∀ s, url.bytes = ascii "ws://" ++ s →
      ((∃ u : WsUri, u.bytes = url.bytes) ↔ scanAuthority s = true) := by
    intro s hs
    rw [← exists_bytes_iff false, hs]
    constructor
    · rintro ⟨u, hu⟩
      have htls : u.tls = false := by
        cases htls : u.tls
        · rfl
        · rw [bytes, scheme, htls, if_pos rfl] at hu
          exact absurd ⟨s, hu.symm⟩ (ws_not_wss u.authority)
      rw [bytes, scheme, htls] at hu
      exact ⟨u, htls, List.append_cancel_left hu⟩
    · rintro ⟨u, htls, rfl⟩
      exact ⟨u, by rw [bytes, scheme, htls]; rfl⟩
  have hwss : ∀ s, url.bytes = ascii "wss://" ++ s →
      ((∃ u : WsUri, u.bytes = url.bytes) ↔ scanAuthority s = true) := by
    intro s hs
    rw [← exists_bytes_iff true, hs]
    constructor
    · rintro ⟨u, hu⟩
      have htls : u.tls = true := by
        cases htls : u.tls
        · rw [bytes, scheme, htls, if_neg (by simp)] at hu
          exact absurd ⟨s, hu.symm⟩ (wss_not_ws u.authority)
        · rfl
      rw [bytes, scheme, htls] at hu
      exact ⟨u, htls, List.append_cancel_left hu⟩
    · rintro ⟨u, htls, rfl⟩
      exact ⟨u, by rw [bytes, scheme, htls]; rfl⟩
  unfold validateWsUri
  split
  next hpre =>
    obtain ⟨s, hs⟩ := hpre
    rw [hws s hs.symm, ← hs, show (ascii "ws://" ++ s).drop 5 = s from rfl]
    split
    next hscan => simp [hscan, eq_comm]
    next hscan => simp [hscan]
  next hnot =>
    split
    next hpre =>
      obtain ⟨s, hs⟩ := hpre
      rw [hwss s hs.symm, ← hs, show (ascii "wss://" ++ s).drop 6 = s from rfl]
      split
      next hscan => simp [hscan, eq_comm]
      next hscan => simp [hscan]
    next hnot' =>
      constructor
      · nofun
      · rintro ⟨⟨u, hu⟩, -⟩
        rw [← hu, bytes, scheme] at hnot hnot'
        cases htls : u.tls
        · exact absurd ⟨u.authority, by rw [htls]; rfl⟩ hnot
        · exact absurd ⟨u.authority, by rw [htls]; rfl⟩ hnot'

theorem strchr_path {path : List UInt8} (h : ∀ c ∈ path.head?, c = 0x2F) :
    strchr path 0x2F = if path = [] then none else some 0 := by
  cases path with
  | nil => rfl
  | cons c path =>
    obtain rfl : c = 0x2F := h c (by simp)
    simp [strchr, List.findIdx?_cons]

theorem slash_not_mem (u : WsUri) : (0x2F : UInt8) ∉ u.host ++ portText u.port := by
  intro h
  rcases List.mem_append.mp h with h | h
  · exact (isHostChar_ne (u.host_chars _ h)).2 rfl
  · cases hport : u.port with
    | none =>
      rw [hport] at h
      cases h
    | some digits =>
      rw [hport] at h
      rcases List.mem_cons.mp h with h | h
      · cases h
      · exact isDigit_ne_slash (u.port_digits digits hport _ h) rfl

theorem colon_not_mem (u : WsUri) : (0x3A : UInt8) ∉ u.host := fun h =>
  (isHostChar_ne (u.host_chars _ h)).1 rfl

/-- The port that `setUrl` reads. -/
def readPort (u : WsUri) : Int :=
  match u.port with
  | some digits => atoi (digits ++ u.path)
  | none => u.defaultPort

def readPath (u : WsUri) : List UInt8 := if u.path = [] then ascii "/" else u.path

/-- The path that `setUrl` cuts off, before it puts `/` for none. -/
theorem drop_slash (u : WsUri) :
    ((strchr u.authority 0x2F).map u.authority.drop).getD [] = u.path := by
  rw [authority, ← List.append_assoc, strchr_append u.slash_not_mem, strchr_path u.path_slash]
  by_cases hpath : u.path = []
  · simp [hpath]
  · simp [hpath]

theorem setAuthority_authority (u : WsUri) (c : UrlFields) (hport : c.port = u.defaultPort) :
    setAuthority u.authority c = ⟨c.useTls, u.host, u.readPort, u.readPath⟩ := by
  have hfinish : ∀ port : Int,
      (if u.path.isEmpty then (⟨c.useTls, u.host, port, ascii "/"⟩ : UrlFields)
        else ⟨c.useTls, u.host, port, u.path⟩) = ⟨c.useTls, u.host, port, u.readPath⟩ := by
    intro port
    by_cases hpath : u.path = []
    · simp [hpath, readPath]
    · simp [hpath, readPath]
  have hslash : strchr u.authority 0x2F =
      if u.path = [] then none else some (u.host.length + (portText u.port).length) := by
    rw [authority, ← List.append_assoc, strchr_append u.slash_not_mem, strchr_path u.path_slash]
    split
    · rfl
    · simp
  have hcolon : strchr u.authority 0x3A =
      (strchr (portText u.port ++ u.path) 0x3A).map (· + u.host.length) :=
    strchr_append u.colon_not_mem _
  unfold setAuthority
  simp only [drop_slash]
  cases hp : u.port with
  | some digits =>
    have hj : strchr u.authority 0x3A = some u.host.length := by
      rw [hcolon, hp]
      simp [portText, strchr, List.findIdx?_cons]
    have hlt : (strchr u.authority 0x2F).all (u.host.length < ·) = true := by
      rw [hslash, hp]
      split
      · rfl
      · simp [portText]
    have htake : u.authority.take u.host.length = u.host := by
      rw [authority, List.take_left]
    have hdrop : u.authority.drop (u.host.length + 1) = digits ++ u.path := by
      rw [authority, ← List.drop_drop, List.drop_left, hp]
      rfl
    simp only [hj, hlt, if_true, htake, hdrop]
    have hread : u.readPort = atoi (digits ++ u.path) := by rw [readPort, hp]
    rw [hread, ← hfinish]
  | none =>
    have hread : u.readPort = c.port := by rw [readPort, hp, hport]
    have htake : u.authority.take ((strchr u.authority 0x2F).getD u.authority.length) =
        u.host := by
      rw [hslash, hp]
      by_cases hpath : u.path = []
      · simp [authority, hpath, hp, portText]
      · simp [authority, hpath, hp, portText]
    have hlate : ∀ j, strchr u.authority 0x3A = some j →
        (strchr u.authority 0x2F).all (j < ·) = false := by
      intro j hj
      rw [hcolon, hp] at hj
      obtain ⟨k, hk, rfl⟩ := Option.map_eq_some_iff.mp hj
      have hpath : u.path ≠ [] := by
        intro hpath
        simp [hpath, portText, strchr] at hk
      rw [hslash, if_neg hpath, hp]
      simp [portText]
    rw [hread, ← hfinish]
    cases hj : strchr u.authority 0x3A with
    | none => simp only [htake]
    | some j => simp only [hlate j hj, htake, Bool.false_eq_true, if_false]

theorem setUrl_bytes (u : WsUri) (c : UrlFields) :
    setUrl u.bytes c = ⟨u.tls, u.host, u.readPort, u.readPath⟩ := by
  unfold setUrl
  cases htls : u.tls
  · have hb : u.bytes = ascii "ws://" ++ u.authority := by rw [bytes, scheme, htls]; rfl
    rw [hb, if_neg (wss_not_ws _), if_pos (List.prefix_append _ _)]
    exact setAuthority_authority u _ (by rw [defaultPort, htls]; rfl)
  · have hb : u.bytes = ascii "wss://" ++ u.authority := by rw [bytes, scheme, htls]; rfl
    rw [hb, if_pos (List.prefix_append _ _)]
    exact setAuthority_authority u _ (by rw [defaultPort, htls]; rfl)

/-- Where the path begins. -/
def pathStart (u : WsUri) : Nat := u.scheme.length + u.host.length + (portText u.port).length

theorem scheme_length_lt (u : WsUri) : u.scheme.length < maxWsUri - 1 := by
  unfold scheme
  split <;> decide

theorem bytes_length (u : WsUri) : u.bytes.length = u.pathStart + u.path.length := by
  simp only [bytes, authority, pathStart, List.length_append]
  omega

/-- The URI that is left of `u` when only its first `n` bytes are copied. -/
def cut (u : WsUri) (n : Nat) (h : u.scheme.length < n) : WsUri where
  tls := u.tls
  host := u.host.take (n - u.scheme.length)
  port := if n ≤ u.scheme.length + u.host.length then none
    else u.port.map (List.take (n - u.scheme.length - u.host.length - 1))
  path := u.path.take (n - u.pathStart)
  host_ne := by
    intro hnil
    rcases List.take_eq_nil_iff.mp hnil with hn | hn
    · omega
    · exact u.host_ne hn
  host_chars := fun c hc => u.host_chars c (List.mem_of_mem_take hc)
  port_digits := by
    intro digits hd c hc
    split at hd
    · cases hd
    · obtain ⟨all, hall, rfl⟩ := Option.map_eq_some_iff.mp hd
      exact u.port_digits all hall c (List.mem_of_mem_take hc)
  path_slash := by
    intro c hc
    cases hpath : u.path with
    | nil => simp [hpath] at hc
    | cons x path =>
      rw [hpath] at hc
      cases hn : n - u.pathStart with
      | zero => simp [hn] at hc
      | succ k => exact u.path_slash c (by simpa [hn, hpath] using hc)

theorem portText_cut (u : WsUri) {n : Nat} (h : u.scheme.length < n) :
    portText (u.cut n h).port = (portText u.port).take (n - u.scheme.length - u.host.length) := by
  change portText (if n ≤ u.scheme.length + u.host.length then none
    else u.port.map (List.take (n - u.scheme.length - u.host.length - 1))) = _
  split
  next hn =>
    rw [show n - u.scheme.length - u.host.length = 0 by omega, List.take_zero]
    rfl
  next hn =>
    cases u.port with
    | none => simp [portText]
    | some digits =>
      obtain ⟨k, hk⟩ : ∃ k, n - u.scheme.length - u.host.length = k + 1 :=
        ⟨n - u.scheme.length - u.host.length - 1, by omega⟩
      simp [portText, hk]

theorem bytes_cut (u : WsUri) {n : Nat} (h : u.scheme.length < n) :
    (u.cut n h).bytes = u.bytes.take n := by
  have hscheme : (u.cut n h).scheme = u.scheme.take n := by
    rw [List.take_of_length_le (by omega)]
    rfl
  have hstart : n - u.pathStart =
      n - u.scheme.length - u.host.length - (portText u.port).length := by
    rw [pathStart]
    omega
  rw [bytes, authority, portText_cut, hscheme, bytes, authority, List.take_append,
    List.take_append, List.take_append]
  rw [← hstart]
  rfl

/-- The digits behind the colon, if there is one, are a port. -/
def PortInRange (u : WsUri) : Prop :=
  ∀ digits ∈ u.port, 1 ≤ digitsValue digits ∧ digitsValue digits ≤ 65535

/-- The copy holds the URI, or what it cuts off says no more than what `setUrl` puts for
nothing: a path `/`, or the default port. -/
def FitsCopy (u : WsUri) : Prop :=
  u.bytes.length ≤ maxWsUri - 1 ∨
    (u.pathStart = maxWsUri - 1 ∧ u.path = ascii "/") ∨
      (u.scheme.length + u.host.length = maxWsUri - 1 ∧
        (∃ digits ∈ u.port, digitsValue digits = u.defaultPort) ∧ u.readPath = ascii "/")

end WsUri

/-- The client has what the URI says. -/
structure UrlFields.Agrees (c : UrlFields) (u : WsUri) : Prop where
  useTls : c.useTls = u.tls
  host : c.host = u.host
  port : match u.port with
    | some digits => c.port = digitsValue digits ∧ 1 ≤ digitsValue digits ∧
        digitsValue digits ≤ 65535
    | none => c.port = u.defaultPort
  path : c.path = u.readPath

namespace WsUri

theorem readPort_digits {u : WsUri} {digits : List UInt8} (hp : u.port = some digits)
    (hlt : digitsValue digits < 2 ^ 31) : u.readPort = digitsValue digits := by
  rw [readPort, hp]
  cases digits with
  | nil => exact atoi_of_no_digit u.path_slash
  | cons d ds =>
    refine atoi_digits (u.port_digits _ hp) (fun c hc => ?_) (List.cons_ne_nil d ds) hlt
    obtain rfl := u.path_slash c hc
    rfl

theorem take_readPath (u : WsUri) (n : Nat) :
    (if u.path.take n = [] then ascii "/" else u.path.take n) = u.readPath ↔
      u.path.length ≤ n ∨ (n = 0 ∧ u.path = ascii "/") := by
  unfold readPath
  by_cases hfit : u.path.length ≤ n
  · simp [List.take_of_length_le hfit, hfit]
  · have hne : u.path ≠ [] := by
      intro hnil
      simp [hnil] at hfit
    rw [if_neg hne]
    by_cases hn : n = 0
    · subst hn
      simp [hne, eq_comm]
    · have htake : u.path.take n ≠ [] := by simp [hn, hne]
      rw [if_neg htake]
      constructor
      · intro heq
        have hlen := congrArg List.length heq
        rw [List.length_take] at hlen
        omega
      · rintro (h | ⟨h, -⟩)
        · exact absurd h hfit
        · exact absurd h hn

theorem host_cut_iff (u : WsUri) {n : Nat} (h : u.scheme.length < n) :
    (u.cut n h).host = u.host ↔ u.scheme.length + u.host.length ≤ n := by
  change u.host.take (n - u.scheme.length) = u.host ↔ _
  rw [List.take_eq_self_iff]
  omega

theorem cut_port {u : WsUri} {n : Nat} {digits : List UInt8} (h : u.scheme.length < n)
    (hp : u.port = some digits) (hn : u.scheme.length + u.host.length < n) :
    (u.cut n h).port = some (digits.take (n - u.scheme.length - u.host.length - 1)) := by
  change (if n ≤ u.scheme.length + u.host.length then none else _) = _
  rw [if_neg (by omega), hp]
  rfl

theorem cut_no_port (u : WsUri) {n : Nat} (h : u.scheme.length < n)
    (hn : n ≤ u.scheme.length + u.host.length) : (u.cut n h).port = none :=
  if_pos hn

theorem digitsValue_take_lt {digits : List UInt8} {k : Nat} (hk : k < digits.length)
    (hpos : 1 ≤ digitsValue digits) : digitsValue (digits.take k) < digitsValue digits := by
  have hge := digitsValue_append_ge (digits.take k) (digits.drop k)
  rw [List.take_append_drop, List.length_drop] at hge
  obtain ⟨j, hj⟩ : ∃ j, digits.length - k = j + 1 := ⟨digits.length - k - 1, by omega⟩
  have hten : 10 ≤ 10 ^ (digits.length - k) := by
    rw [hj, Nat.pow_succ]
    have hone : 0 < 10 ^ j := Nat.pow_pos (by omega)
    omega
  have hmul : 10 * digitsValue (digits.take k) ≤
      10 ^ (digits.length - k) * digitsValue (digits.take k) := Nat.mul_le_mul_right _ hten
  omega

theorem readPort_cut_iff {u : WsUri} {n : Nat} {digits : List UInt8}
    (h : u.scheme.length < n) (hp : u.port = some digits)
    (hn : u.scheme.length + u.host.length ≤ n) (hpos : 1 ≤ digitsValue digits)
    (hmax : digitsValue digits ≤ 65535) :
    (u.cut n h).readPort = digitsValue digits ↔ u.pathStart ≤ n ∨
      (u.scheme.length + u.host.length = n ∧ digitsValue digits = u.defaultPort) := by
  have hstart : u.pathStart = u.scheme.length + u.host.length + (digits.length + 1) := by
    rw [pathStart, hp]
    rfl
  by_cases heq : u.scheme.length + u.host.length = n
  · have hread : (u.cut n h).readPort = u.defaultPort := by
      rw [readPort, cut_no_port u h (by omega)]
      rfl
    rw [hread]
    omega
  · have hport := cut_port h hp (by omega)
    generalize hk : n - u.scheme.length - u.host.length - 1 = k at hport
    by_cases hfit : digits.length ≤ k
    · rw [List.take_of_length_le hfit] at hport
      have hread := readPort_digits hport (by omega)
      rw [hread]
      omega
    · have hlt := digitsValue_take_lt (by omega : k < digits.length) hpos
      have hread := readPort_digits hport (by omega)
      rw [hread]
      omega

theorem agrees_cut_iff (u : WsUri) {n : Nat} (h : u.scheme.length < n) (c : UrlFields) :
    (setUrl (u.cut n h).bytes c).Agrees u ↔ u.scheme.length + u.host.length ≤ n ∧
      (∀ digits ∈ u.port, (u.cut n h).readPort = digitsValue digits ∧
        1 ≤ digitsValue digits ∧ digitsValue digits ≤ 65535) ∧
      (u.path.length ≤ n - u.pathStart ∨ (n - u.pathStart = 0 ∧ u.path = ascii "/")) := by
  rw [setUrl_bytes, ← host_cut_iff u h, ← take_readPath]
  constructor
  · rintro ⟨-, hhost, hport, hpath⟩
    refine ⟨hhost, fun digits hp => ?_, hpath⟩
    rw [hp] at hport
    exact hport
  · rintro ⟨hhost, hport, hpath⟩
    refine ⟨rfl, hhost, ?_, hpath⟩
    cases hp : u.port with
    | some digits => exact hport digits hp
    | none =>
      have hcut : (u.cut n h).port = none := by
        change (if n ≤ u.scheme.length + u.host.length then none else _) = _
        rw [hp]
        simp
      change (u.cut n h).readPort = u.defaultPort
      rw [readPort, hcut]
      rfl

theorem agrees_iff (u : WsUri) (c : UrlFields) :
    (setUrl (u.bytes.take (maxWsUri - 1)) c).Agrees u ↔ u.PortInRange ∧ u.FitsCopy := by
  have hscheme := u.scheme_length_lt
  rw [← bytes_cut u hscheme, agrees_cut_iff, PortInRange, FitsCopy, bytes_length]
  have hnone : u.path = [] ↔ u.path.length = 0 := List.length_eq_zero_iff.symm
  have hslash : u.path = ascii "/" → u.readPath = ascii "/" ∧ u.path.length = 1 := by
    intro hpath
    rw [readPath, hpath]
    decide
  cases hp : u.port with
  | none =>
    have hstart : u.pathStart = u.scheme.length + u.host.length := by rw [pathStart, hp]; rfl
    constructor
    · rintro ⟨hhost, -, hfit | ⟨hzero, hpath⟩⟩
      · exact ⟨fun digits hd => (by cases hd), Or.inl (by omega)⟩
      · exact ⟨fun digits hd => (by cases hd), Or.inr (Or.inl ⟨by omega, hpath⟩)⟩
    · rintro ⟨-, hfit | ⟨heq, hpath⟩ | ⟨-, ⟨digits, hd, -⟩, -⟩⟩
      · exact ⟨by omega, fun digits hd => (by cases hd), Or.inl (by omega)⟩
      · exact ⟨by omega, fun digits hd => (by cases hd), Or.inr ⟨by omega, hpath⟩⟩
      · cases hd
  | some digits =>
    have hstart : u.pathStart = u.scheme.length + u.host.length + (digits.length + 1) := by
      rw [pathStart, hp]
      rfl
    constructor
    · rintro ⟨hhost, hport, hpath⟩
      obtain ⟨hread, hpos, hmax⟩ := hport digits rfl
      refine ⟨?_, ?_⟩
      · intro ds hds
        obtain rfl := Option.some.inj hds
        exact ⟨hpos, hmax⟩
      · rcases (readPort_cut_iff hscheme hp hhost hpos hmax).mp hread with hin | ⟨heq, hval⟩
        · rcases hpath with hfit | ⟨hzero, hpath⟩
          · exact Or.inl (by omega)
          · exact Or.inr (Or.inl ⟨by omega, hpath⟩)
        · refine Or.inr (Or.inr ⟨heq, ⟨digits, rfl, hval⟩, ?_⟩)
          rcases hpath with hfit | ⟨-, hpath⟩
          · exact if_pos (hnone.mpr (by omega))
          · exact (hslash hpath).1
    · rintro ⟨hrange, hfit⟩
      obtain ⟨hpos, hmax⟩ := hrange digits rfl
      have hport : u.scheme.length + u.host.length ≤ maxWsUri - 1 →
          (u.pathStart ≤ maxWsUri - 1 ∨ (u.scheme.length + u.host.length = maxWsUri - 1 ∧
            digitsValue digits = u.defaultPort)) →
          ∀ ds ∈ some digits, (u.cut (maxWsUri - 1) hscheme).readPort = digitsValue ds ∧
            1 ≤ digitsValue ds ∧ digitsValue ds ≤ 65535 := by
        intro hhost hin ds hds
        obtain rfl := Option.some.inj hds
        exact ⟨(readPort_cut_iff hscheme hp hhost hpos hmax).mpr hin, hpos, hmax⟩
      rcases hfit with hfit | ⟨heq, hpath⟩ | ⟨heq, ⟨ds, hds, hval⟩, hpath⟩
      · exact ⟨by omega, hport (by omega) (Or.inl (by omega)), Or.inl (by omega)⟩
      · exact ⟨by omega, hport (by omega) (Or.inl (by omega)), Or.inr ⟨by omega, hpath⟩⟩
      · obtain rfl := Option.some.inj hds
        refine ⟨by omega, hport (by omega) (Or.inr ⟨heq, hval⟩), ?_⟩
        by_cases hnil : u.path = []
        · exact Or.inl (by rw [hnil]; exact Nat.zero_le _)
        · rw [readPath, if_neg hnil] at hpath
          exact Or.inr ⟨by omega, hpath⟩

end WsUri

theorem stringAt_terminated (src : CString) (n : Nat) (beyond : List UInt8) :
    stringAt (strncpy src n ++ [0]) beyond = src.bytes.take n := by
  have hbytes : ∀ b ∈ src.bytes.take n, (b != 0) = true := by
    intro b hb
    have hne : b ≠ 0 := fun h0 => src.noNul (h0 ▸ List.mem_of_mem_take hb)
    simpa using hne
  unfold stringAt strncpy
  rw [List.append_assoc, List.append_assoc, List.takeWhile_append_of_pos hbytes]
  cases n - src.bytes.length with
  | zero => simp
  | succ k => simp [List.replicate_succ]

/-- What is accepted are the URIs, and the client then agrees with one if and only if its port
is a port and the copy holds it, or cuts off nothing that counts. -/
theorem url_parsers_agree_iff (url : CString) (c : UrlFields) :
    ((validateWsUri url).isSome = true ↔ ∃ u : WsUri, u.bytes = url.bytes) ∧
      ∀ wsUri beyond, validateWsUri url = some wsUri →
        ∀ u : WsUri, u.bytes = url.bytes →
          ((setUrl (stringAt wsUri beyond) c).Agrees u ↔ u.PortInRange ∧ u.FitsCopy) := by
  refine ⟨?_, ?_⟩
  · rw [Option.isSome_iff_exists]
    constructor
    · rintro ⟨wsUri, h⟩
      exact ((WsUri.validateWsUri_iff url wsUri).mp h).1
    · intro hu
      exact ⟨_, (WsUri.validateWsUri_iff url _).mpr ⟨hu, rfl⟩⟩
  · intro wsUri beyond h u hu
    obtain ⟨-, rfl⟩ := (WsUri.validateWsUri_iff url wsUri).mp h
    rw [stringAt_terminated, ← hu]
    exact u.agrees_iff c

/-- `ws://h:0` is accepted, and port 0 is no port. -/
theorem url_parsers_disagree : ¬∀ (url : CString) (c : UrlFields) (wsUri : List UInt8),
    validateWsUri url = some wsUri → ∀ u : WsUri, u.bytes = url.bytes →
      (setUrl (stringAt wsUri []) c).Agrees u := by
  intro hall
  let u : WsUri := ⟨false, ascii "h", some (ascii "0"), [], by decide,
    List.all_eq_true.mp (by decide),
    (fun digits hd c hc => by
      obtain rfl := Option.some.inj hd
      exact List.all_eq_true.mp (by decide : (ascii "0").all isDigit = true) c hc),
    (fun c hc => by cases hc)⟩
  have hagrees := hall ⟨ascii "ws://h:0", by decide⟩ ⟨false, [], 0, []⟩
    (strncpy ⟨ascii "ws://h:0", by decide⟩ (maxWsUri - 1) ++ [0])
    ((WsUri.validateWsUri_iff _ _).mpr ⟨⟨u, by decide⟩, rfl⟩) u (by decide)
  have hport := hagrees.port
  exact absurd hport.2.1 (by decide)

end ModAudioStream
