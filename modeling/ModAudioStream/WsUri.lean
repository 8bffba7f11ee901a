import ModAudioStream.CStrings

namespace ModAudioStream

def maxWsUri : Nat := 4096

def isHostChar (c : UInt8) : Bool := isAlnum c || c == 0x2D || c == 0x2E || c == 0x5F

/-- The loop over the host: what it passes and what it stops at. -/
def scanHost : List UInt8 → Option (List UInt8 × List UInt8)
  | [] => some ([], [])
  | c :: s =>
    if c = 0x3A ∨ c = 0x2F then some ([], c :: s)
    else if isHostChar c then (scanHost s).map fun out => (c :: out.1, out.2)
    else none

/-- The loop over the port. -/
def scanPort : List UInt8 → Bool
  | [] => true
  | c :: s => c = 0x2F || (isDigit c && scanPort s)

def scanAuthority (s : List UInt8) : Bool :=
  match scanHost s with
  | none => false
  | some (host, rest) =>
    !host.isEmpty &&
      match rest with
      | [] => true
      | c :: port => c != 0x3A || scanPort port

/-- The array that `validate_ws_uri` writes, when it accepts `url`. -/
def validateWsUri (url : CString) : Option (List UInt8) :=
  let copy := strncpy url (maxWsUri - 1) ++ [0]
  if ascii "ws://" <+: url.bytes then
    if scanAuthority (url.bytes.drop 5) then some copy else none
  else if ascii "wss://" <+: url.bytes then
    if scanAuthority (url.bytes.drop 6) then some copy else none
  else none

/-- The members that `setUrl` sets. -/
structure UrlFields where
  useTls : Bool
  host : List UInt8
  port : Int
  path : List UInt8
deriving DecidableEq, Repr

/-- What `setUrl` does with the text behind the scheme. -/
def setAuthority (start : List UInt8) (c : UrlFields) : UrlFields :=
  let slash := strchr start 0x2F
  let colon := strchr start 0x3A
  let path := (slash.map start.drop).getD []
  let c' :=
    match colon with
    | some j =>
      if slash.all (j < ·) then
        { c with host := start.take j, port := atoi (start.drop (j + 1)), path := path }
      else { c with host := start.take (slash.getD start.length), path := path }
    | none => { c with host := start.take (slash.getD start.length), path := path }
  if c'.path.isEmpty then { c' with path := ascii "/" } else c'

def setUrl (url : List UInt8) (c : UrlFields) : UrlFields :=
  if ascii "wss://" <+: url then
    setAuthority (url.drop 6) { c with useTls := true, port := 443 }
  else if ascii "ws://" <+: url then
    setAuthority (url.drop 5) { c with useTls := false, port := 80 }
  else c

/-- The parts of a URI: its scheme, host, digits behind the colon and path. -/
structure WsUri where
  tls : Bool
  host : List UInt8
  port : Option (List UInt8)
  path : List UInt8
  host_ne : host ≠ []
  host_chars : ∀ c ∈ host, isHostChar c = true
  port_digits : ∀ digits ∈ port, ∀ c ∈ digits, isDigit c = true
  path_slash : ∀ c ∈ path.head?, c = 0x2F

namespace WsUri

def scheme (u : WsUri) : List UInt8 := if u.tls then ascii "wss://" else ascii "ws://"

def defaultPort (u : WsUri) : Nat := if u.tls then 443 else 80

def portText (port : Option (List UInt8)) : List UInt8 :=
  match port with
  | some digits => 0x3A :: digits
  | none => []

def authority (u : WsUri) : List UInt8 := u.host ++ (portText u.port ++ u.path)

def bytes (u : WsUri) : List UInt8 := u.scheme ++ u.authority

end WsUri

theorem isHostChar_ne {c : UInt8} (h : isHostChar c = true) : c ≠ 0x3A ∧ c ≠ 0x2F := by
  constructor <;> rintro rfl <;> cases h

theorem isDigit_ne_slash {c : UInt8} (h : isDigit c = true) : c ≠ 0x2F := by
  rintro rfl
  cases h

theorem scanHost_host {host rest : List UInt8} (hh : ∀ c ∈ host, isHostChar c = true)
    (hrest : ∀ c ∈ rest.head?, c = 0x3A ∨ c = 0x2F) :
    scanHost (host ++ rest) = some (host, rest) := by
  induction host with
  | nil =>
    cases rest with
    | nil => rfl
    | cons c rest => simp [scanHost, hrest c (by simp)]
  | cons c host ih =>
    have hc := isHostChar_ne (hh c (by simp))
    have htail := ih fun x hx => hh x (List.mem_cons_of_mem c hx)
    simp [scanHost, hc.1, hc.2, hh c (by simp), htail]

theorem scanHost_eq_some {s host rest : List UInt8} (h : scanHost s = some (host, rest)) :
    s = host ++ rest ∧ (∀ c ∈ host, isHostChar c = true) ∧
      ∀ c ∈ rest.head?, c = 0x3A ∨ c = 0x2F := by
  induction s generalizing host with
  | nil =>
    obtain ⟨rfl, rfl⟩ := Prod.mk.inj (Option.some.inj h)
    simp
  | cons c s ih =>
    unfold scanHost at h
    split at h
    next hc =>
      obtain ⟨rfl, rfl⟩ := Prod.mk.inj (Option.some.inj h)
      simpa using hc
    next =>
      split at h
      next hchar =>
        obtain ⟨out, hout, heq⟩ := Option.map_eq_some_iff.mp h
        obtain ⟨rfl, rfl⟩ := Prod.mk.inj heq
        obtain ⟨rfl, hall, hrest⟩ := ih hout
        refine ⟨rfl, fun x hx => ?_, hrest⟩
        rcases List.mem_cons.mp hx with rfl | hx
        · exact hchar
        · exact hall x hx
      next => cases h

theorem scanPort_iff {s : List UInt8} : scanPort s = true ↔ ∃ digits path,
    s = digits ++ path ∧ (∀ c ∈ digits, isDigit c = true) ∧ ∀ c ∈ path.head?, c = 0x2F := by
  induction s with
  | nil => exact ⟨fun _ => ⟨[], [], by simp⟩, fun _ => rfl⟩
  | cons c s ih =>
    simp only [scanPort, Bool.or_eq_true, decide_eq_true_eq, Bool.and_eq_true, ih]
    constructor
    · rintro (rfl | ⟨hc, digits, path, rfl, hd, hp⟩)
      · exact ⟨[], _, rfl, by simp, by simp⟩
      · refine ⟨c :: digits, path, rfl, fun x hx => ?_, hp⟩
        rcases List.mem_cons.mp hx with rfl | hx
        · exact hc
        · exact hd x hx
    · rintro ⟨digits, path, hs, hd, hp⟩
      cases digits with
      | nil =>
        obtain rfl : c :: s = path := hs
        exact Or.inl (hp c (by simp))
      | cons d digits =>
        obtain ⟨rfl, rfl⟩ := List.cons.inj hs
        exact Or.inr ⟨hd c (by simp), digits, path, rfl,
          fun x hx => hd x (List.mem_cons_of_mem c hx), hp⟩

end ModAudioStream
