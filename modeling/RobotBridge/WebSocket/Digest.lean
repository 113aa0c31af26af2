import RobotBridge.WebSocket.Frame

/-! The 160-bit digest that proves that a server has read the key of a handshake. -/
namespace RobotBridge.WebSocket.Digest

abbrev Word := UInt32

structure State where
  a : Word
  b : Word
  c : Word
  d : Word
  e : Word
deriving DecidableEq, Repr

def initial : State := ⟨0x67452301, 0xEFCDAB89, 0x98BADCFE, 0x10325476, 0xC3D2E1F0⟩

def rotate (n : Word) (x : Word) : Word := (x <<< n) ||| (x >>> (32 - n))

def mix (round : Nat) (b c d : Word) : Word :=
  if round < 20 then ((b &&& c) ||| (~~~b &&& d)) + 0x5A827999
  else if round < 40 then (b ^^^ c ^^^ d) + 0x6ED9EBA1
  else if round < 60 then ((b &&& c) ||| (b &&& d) ||| (c &&& d)) + 0x8F1BBCDC
  else (b ^^^ c ^^^ d) + 0xCA62C1D6

/-- `n` more words of the schedule; the words so far stand with the latest first. -/
def schedule : Nat → List Word → List Word
  | 0, ws => ws
  | n + 1, ws =>
    let word (back : Nat) := ws.getD (back - 1) 0
    schedule n (rotate 1 (word 3 ^^^ word 8 ^^^ word 14 ^^^ word 16) :: ws)

def turn (s : State) (round : Nat) (w : Word) : State :=
  ⟨rotate 5 s.a + mix round s.b s.c s.d + s.e + w, s.a, rotate 30 s.b, s.c, s.d⟩

def block (s : State) (words : List Word) : State :=
  let rounds := (schedule 64 words.reverse).reverse.zipIdx
  let t := rounds.foldl (fun t (w, round) => turn t round w) s
  ⟨s.a + t.a, s.b + t.b, s.c + t.c, s.d + t.d, s.e + t.e⟩

/-- Bytes with a one bit, zeros and the length in bits behind them, up to a multiple of 64. -/
def pad (bytes : List UInt8) : List UInt8 :=
  let n := bytes.length
  bytes ++ 0x80 :: List.replicate ((119 - n % 64) % 64) 0 ++ Frame.bigEndian 8 (8 * n)

def words (bytes : List UInt8) : List Word :=
  (List.range (bytes.length / 4)).map fun k =>
    .ofNat (Frame.ofBigEndian ((bytes.drop (4 * k)).take 4))

def ofBytes (bytes : List UInt8) : List UInt8 :=
  let ws := words (pad bytes)
  let s := (List.range (ws.length / 16)).foldl (fun s k => block s ((ws.drop (16 * k)).take 16)) initial
  [s.a, s.b, s.c, s.d, s.e].flatMap fun w => Frame.bigEndian 4 w.toNat

end RobotBridge.WebSocket.Digest
