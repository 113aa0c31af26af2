import RobotBridge.Base64
import RobotBridge.WebSocket.Digest

/-! The opening handshake: a request to upgrade a connection, and the check that the answer grants it
and that its sender has read the request's key. -/
namespace RobotBridge.WebSocket.Opening

def salt : String := "258EAFA5-E914-47DA-95CA-C5AB0DC85B11"

def keyText (key : List UInt8) : String := String.ofList (Base64.encode key)

def acceptance (key : List UInt8) : String :=
  String.ofList (Base64.encode (Digest.ofBytes (keyText key ++ salt).toUTF8.toList))

def request (authority : String) (key : List UInt8) : String :=
  "\r\n".intercalate
    ["GET / HTTP/1.1", "Host: " ++ authority, "Connection: Upgrade", "Upgrade: websocket",
      "Sec-WebSocket-Version: 13", "Sec-WebSocket-Key: " ++ keyText key, "", ""]

inductive Answer where
  | incomplete
  | refused (reason : String)
  /-- Granted; the rest is the beginning of the stream. -/
  | granted (rest : List UInt8)
deriving DecidableEq, Repr

/-- Lines up to an empty one, and what follows it; `none` if there is no empty line yet. -/
def headLines (line : List UInt8) : List UInt8 → Option (List (List UInt8) × List UInt8)
  | [] => none
  | 10 :: rest =>
    let ended := (if line.head? = some 13 then line.drop 1 else line).reverse
    if ended = [] then some ([], rest)
    else (headLines [] rest).map fun (lines, rest) => (ended :: lines, rest)
  | b :: rest => headLines (b :: line) rest

def trim (cs : List Char) : List Char :=
  let blank (c : Char) := c == ' ' || c == '\t'
  ((cs.dropWhile blank).reverse.dropWhile blank).reverse

def lower (cs : List Char) : List Char := cs.map Char.toLower

def header (line : List Char) : List Char × List Char :=
  let (name, value) := line.span (· != ':')
  (lower name, trim (value.drop 1))

def status? (line : List Char) : Option (List Char) :=
  let (version, rest) := line.span (· != ' ')
  if version = "HTTP/1.1".toList then some ((rest.drop 1).takeWhile (· != ' ')) else none

def judge (key : List UInt8) (lines : List (List Char)) (rest : List UInt8) : Answer :=
  let headers := lines.tail.map header
  let value (name : String) : Option (List Char) := headers.lookup name.toList
  match lines.head?.bind status? with
  | none => .refused "WebSocket protocol error: invalid answer to the handshake"
  | some status =>
    if status ≠ ['1', '0', '1'] then .refused ("HTTP error: " ++ String.ofList status)
    else if (value "upgrade").map lower ≠ some "websocket".toList then
      .refused "WebSocket protocol error: Missing \"Upgrade: websocket\" header"
    else if (value "connection").map lower ≠ some "upgrade".toList then
      .refused "WebSocket protocol error: Missing \"Connection: upgrade\" header"
    else if value "sec-websocket-accept" ≠ some (acceptance key).toList then
      .refused "WebSocket protocol error: Key mismatch in \"Sec-WebSocket-Accept\" header"
    else .granted rest

def read (key bytes : List UInt8) : Answer :=
  match headLines [] bytes with
  | none => .incomplete
  | some (lines, rest) =>
    judge key (lines.map fun line => line.map fun b => Char.ofNat b.toNat) rest

end RobotBridge.WebSocket.Opening
