/-! WebSocket frames and their bytes: a head that says the kind and the length, then the payload, which
a client masks. -/
namespace RobotBridge.WebSocket

inductive Opcode where
  | continuation
  | text
  | binary
  | close
  | ping
  | pong
deriving DecidableEq, Repr

def Opcode.number : Opcode → Nat
  | continuation => 0
  | text => 1
  | binary => 2
  | close => 8
  | ping => 9
  | pong => 10

def Opcode.all : List Opcode := [continuation, text, binary, close, ping, pong]

def Opcode.ofNumber? (n : Nat) : Option Opcode := Opcode.all.find? fun o => o.number = n

/-- Control frames are short and stand alone. -/
def Opcode.isControl (o : Opcode) : Bool := 8 ≤ o.number

structure Frame where
  /-- The last frame of its message. -/
  final : Bool := true
  opcode : Opcode
  payload : List UInt8
deriving DecidableEq, Repr

namespace Frame

def bigEndian : Nat → Nat → List UInt8
  | 0, _ => []
  | k + 1, n => bigEndian k (n / 256) ++ [UInt8.ofNat (n % 256)]

def ofBigEndian (bytes : List UInt8) : Nat := bytes.foldl (fun n b => n * 256 + b.toNat) 0

structure Mask where
  a : UInt8
  b : UInt8
  c : UInt8
  d : UInt8
deriving DecidableEq, Repr

/-- Combines bytes with a mask; doing it twice undoes it. -/
def Mask.over (m : Mask) : List UInt8 → List UInt8
  | [] => []
  | x :: rest => (x ^^^ m.a) :: Mask.over ⟨m.b, m.c, m.d, m.a⟩ rest

def encode (mask : Mask) (f : Frame) : List UInt8 :=
  let n := f.payload.length
  let length : List UInt8 :=
    if n < 126 then [UInt8.ofNat (128 + n)]
    else if n < UInt16.size then UInt8.ofNat (128 + 126) :: bigEndian 2 n
    else UInt8.ofNat (128 + 127) :: bigEndian 8 n
  UInt8.ofNat ((if f.final then 128 else 0) + f.opcode.number) :: length ++
    [mask.a, mask.b, mask.c, mask.d] ++ mask.over f.payload

def payloadLimit : Nat := 16 * 1024 * 1024

inductive Reading where
  /-- More bytes are needed. -/
  | incomplete
  | refused (reason : String)
  | frame (f : Frame) (rest : List UInt8)
deriving DecidableEq, Repr

/-- A whole frame of a server: no extension bits, no mask, control frames short and in one piece. -/
def check (first : Nat) (opcode : Opcode) (masked : Bool) (payload rest : List UInt8) : Reading :=
  let final := 128 ≤ first
  if first / 16 % 8 ≠ 0 then .refused "WebSocket protocol error: Reserved bits are non-zero"
  else if masked then .refused "WebSocket protocol error: Received a masked frame from server"
  else if opcode.isControl && !final then
    .refused "WebSocket protocol error: Fragmented control frame"
  else if opcode.isControl && 125 < payload.length then
    .refused "WebSocket protocol error: Control frame too big (payload must be 125 bytes or less)"
  else .frame { final, opcode, payload } rest

def readPayload (first : Nat) (opcode : Opcode) (masked : Bool) (length : Nat)
    (bytes : List UInt8) : Reading :=
  let bytes := if masked then bytes.drop 4 else bytes
  if payloadLimit < length then .refused "Space limit exceeded: Message too long"
  else if bytes.length < length then .incomplete
  else check first opcode masked (bytes.take length) (bytes.drop length)

def read : List UInt8 → Reading
  | first :: second :: bytes =>
    let masked := 128 ≤ second.toNat
    let short := second.toNat % 128
    let extra := if short = 126 then 2 else if short = 127 then 8 else 0
    let head := extra + if masked then 4 else 0
    if bytes.length < head then .incomplete
    else
      match Opcode.ofNumber? (first.toNat % 16) with
      | none => .refused "WebSocket protocol error: Encountered invalid opcode"
      | some opcode =>
        let length := if extra = 0 then short else ofBigEndian (bytes.take extra)
        readPayload first.toNat opcode masked length (bytes.drop extra)
  | _ => .incomplete

def ofText (t : String) : Frame := { opcode := .text, payload := t.toUTF8.toList }

def ofClose (code : UInt16) : Frame := { opcode := .close, payload := bigEndian 2 code.toNat }

end Frame

end RobotBridge.WebSocket
