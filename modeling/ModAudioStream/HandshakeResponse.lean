import ModAudioStream.Base64Text
import ModAudioStream.CrlfLines

namespace ModAudioStream

/-- Where `doHandshake` calls `fail`. -/
inductive HandshakeFailure where
  | sendRequest
  | closedInStatus
  | badStatus (status : Int)
  | closedInHeaders
  | acceptMismatch
deriving DecidableEq, Repr

def HandshakeFailure.message : HandshakeFailure → List UInt8
  | .sendRequest => ascii "Failed to send HTTP upgrade request"
  | .closedInStatus => ascii "Connection closed during WebSocket handshake"
  | .badStatus status => ascii "Bad HTTP status: " ++ ascii (toString status)
  | .closedInHeaders => ascii "Connection closed during WebSocket handshake headers"
  | .acceptMismatch => ascii "WebSocket accept key mismatch"

/-- The number that `%d` finds. -/
def scanNumber (s : List UInt8) : Option Int :=
  let t := unsign (s.dropWhile isSpace)
  let digits := t.2.takeWhile isDigit
  if digits.isEmpty then none
  else some (if t.1 then -(digitsValue digits : Int) else digitsValue digits)

/-- The `int` that `%d` stores for it, by way of a `long`. -/
def storeNumber (n : Int) : Int := int32 (max (-2 ^ 63) (min (2 ^ 63 - 1) n))

/-- What stands behind `HTTP/1.1` in the C string of a line, as a number. -/
def statusNumber (line : List UInt8) : Option Int :=
  let text := line.takeWhile (· != 0)
  if ascii "HTTP/1.1" <+: text then scanNumber (text.drop 8) else none

/-- `sscanf(response.c_str(), "HTTP/1.1 %d", &status)` with `status` 0 before. -/
def scanStatus (response : List UInt8) : Int := ((statusNumber response).map storeNumber).getD 0

def findFirstNotOf (s set : List UInt8) (pos : Nat) : Option Nat :=
  ((s.drop pos).findIdx? fun c => !set.contains c).map (· + pos)

def findLastNotOf (s set : List UInt8) : Option Nat :=
  (s.reverse.findIdx? fun c => !set.contains c).map (s.length - 1 - ·)

def acceptName : List UInt8 := ascii "Sec-WebSocket-Accept:"

/-- `strncasecmp(line.c_str(), name, strlen(name)) == 0`. -/
def hasName (line name : List UInt8) : Bool :=
  (line.take name.length).map toLower == name.map toLower

/-- What a header line, with its CRLF, says that `serverAccept` is. -/
def acceptValue (headerLine : List UInt8) : Option (List UInt8) :=
  if 22 < headerLine.length ∧ hasName headerLine acceptName then
    match findFirstNotOf headerLine (ascii " \t") 21,
        findLastNotOf headerLine (ascii " \t\r\n") with
    | some start, some stop =>
      if start < stop then some ((headerLine.drop start).take (stop - start + 1)) else none
    | _, _ => none
  else none

def statusLineCap : Nat := 1024

def headerLineCap : Nat := 4096

/-- What `doHandshake` has read of the response: of its status line, or of a header line. -/
inductive ResponseReader where
  | status (response : List UInt8)
  | headers (headerLine serverAccept : List UInt8)
deriving DecidableEq, Repr

inductive ResponseStep where
  | more (reader : ResponseReader)
  | done
  | failed (e : HandshakeFailure)
deriving DecidableEq, Repr

namespace ResponseReader

/-- The loop over the characters of a line stops, at its CRLF or at its cap. -/
def stops (line : List UInt8) (cap : Nat) : Bool := decide (crlf <:+ line ∨ cap ≤ line.length)

def endStatus (response : List UInt8) : ResponseStep :=
  if scanStatus response = 101 then .more (.headers [] [])
  else .failed (.badStatus (scanStatus response))

def endHeader (expectedAccept headerLine serverAccept : List UInt8) : ResponseStep :=
  if headerLine = crlf then
    if serverAccept = expectedAccept then .done else .failed .acceptMismatch
  else .more (.headers [] ((acceptValue headerLine).getD serverAccept))

/-- One character is read. -/
def feed (expectedAccept : List UInt8) (r : ResponseReader) (c : UInt8) : ResponseStep :=
  match r with
  | .status response =>
    let response := response ++ [c]
    if stops response statusLineCap then endStatus response else .more (.status response)
  | .headers headerLine serverAccept =>
    let headerLine := headerLine ++ [c]
    if stops headerLine headerLineCap then endHeader expectedAccept headerLine serverAccept
    else .more (.headers headerLine serverAccept)

/-- The connection is closed, or the read fails. -/
def closed : ResponseReader → HandshakeFailure
  | .status _ => .closedInStatus
  | .headers _ _ => .closedInHeaders

/-- `doHandshake` from here on, over what the server sends: what it leaves unread. -/
def readResponse (expectedAccept : List UInt8) :
    ResponseReader → List UInt8 → Except HandshakeFailure (List UInt8)
  | r, [] => .error r.closed
  | r, c :: s =>
    match r.feed expectedAccept c with
    | .more r' => readResponse expectedAccept r' s
    | .done => .ok s
    | .failed e => .error e

end ResponseReader

end ModAudioStream
