namespace ScanBridge

abbrev Bytes := List UInt8

namespace Text

def encode (s : String) : Bytes :=
  s.toList.flatMap String.utf8EncodeChar

/-- How far the reader has got into an encoding: at a boundary between characters, or behind a
lead byte. `code` collects the bits read, `least` and `greatest` bound the next byte, and
`further` bytes are due after it. -/
inductive Progress
  | boundary
  | inside (code : Nat) (least greatest : UInt8) (further : Nat)
  deriving DecidableEq, Repr

/-- What one byte read at a boundary amounts to. The second byte's range depends on the lead byte
so that overlong forms, surrogates and values above U+10FFFF never begin. -/
def enter (b : UInt8) : List (Option Char) × Progress :=
  if b < 0x80 then ([some (Char.ofNat b.toNat)], .boundary)
  else if 0xC2 ≤ b ∧ b ≤ 0xDF then ([], .inside (b.toNat - 0xC0) 0x80 0xBF 0)
  else if b = 0xE0 then ([], .inside 0 0xA0 0xBF 1)
  else if b = 0xED then ([], .inside 0xD 0x80 0x9F 1)
  else if 0xE1 ≤ b ∧ b ≤ 0xEF then ([], .inside (b.toNat - 0xE0) 0x80 0xBF 1)
  else if b = 0xF0 then ([], .inside 0 0x90 0xBF 2)
  else if 0xF1 ≤ b ∧ b ≤ 0xF3 then ([], .inside (b.toNat - 0xF0) 0x80 0xBF 2)
  else if b = 0xF4 then ([], .inside 4 0x80 0x8F 2)
  else ([none], .boundary)

/-- One byte. A byte that does not continue the encoding ends it as a loss and is then read as if
at a boundary. -/
def advance : Progress → UInt8 → List (Option Char) × Progress
  | .boundary, b => enter b
  | .inside code least greatest further, b =>
    if least ≤ b ∧ b ≤ greatest then
      let code := code * 64 + (b.toNat - 0x80)
      match further with
      | 0 => ([some (Char.ofNat code)], .boundary)
      | n + 1 => ([], .inside code 0x80 0xBF n)
    else (none :: (enter b).1, (enter b).2)

/-- The pieces of a byte sequence from a point inside it: characters, and `none` for each maximal
malformed start of one. -/
def piecesFrom : Progress → Bytes → List (Option Char)
  | .boundary, [] => []
  | .inside .., [] => [none]
  | p, b :: bs => (advance p b).1 ++ piecesFrom (advance p b).2 bs

def pieces (bs : Bytes) : List (Option Char) := piecesFrom .boundary bs

/-- Reading with replacement: every loss becomes U+FFFD. -/
def decodeLossy (bs : Bytes) : String :=
  String.ofList ((pieces bs).map (·.getD '\uFFFD'))

def decode? (bs : Bytes) : Option String :=
  ((pieces bs).mapM id).map String.ofList

/-- The text behind the address of NUL-terminated bytes. No address reads as the empty text. -/
def ofTerminated : Option Bytes → String
  | none => ""
  | some bs => decodeLossy (bs.takeWhile (· != 0))

/-- The bytes before the terminator under which a text is handed out. A text that contains NUL has
no such form and is handed out empty. -/
def toTerminated (s : String) : Bytes :=
  if s.toList.contains '\x00' then [] else encode s

end Text

end ScanBridge
