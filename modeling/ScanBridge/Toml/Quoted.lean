import ScanBridge.Text.Hexadecimal

namespace ScanBridge.Toml

/-- Characters that stand for themselves in any string or comment: all but the control characters,
the tab excepted. -/
def isPlain (c : Char) : Bool := c = '\t' || (0x20 ≤ c.toNat && c.toNat ≠ 0x7F)

def isBlank (c : Char) : Bool := c = ' ' || c = '\t'

def scalar? (digits : List Char) : Option Char := do
  let n ← digits.foldlM (fun n c => (Text.hexValue? c).map (16 * n + ·)) 0
  if n < 0xD800 ∨ (0xDFFF < n ∧ n ≤ 0x10FFFF) then some (Char.ofNat n) else none

def unescape? : Char → Option Char
  | 'b' => some '\x08'
  | 't' => some '\t'
  | 'n' => some '\n'
  | 'f' => some '\x0c'
  | 'r' => some '\r'
  | '"' => some '"'
  | '\\' => some '\\'
  | _ => none

/-- A text, collected in reverse, and what is left. A reader starts behind the opening quotes and
leaves what is behind the closing ones. -/
abbrev Quoted := Option (List Char × List Char)

def basic (done : List Char) : List Char → Quoted
  | [] => none
  | '"' :: rest => some (done.reverse, rest)
  | '\\' :: 'u' :: a :: b :: c :: d :: rest => do basic ((← scalar? [a, b, c, d]) :: done) rest
  | '\\' :: 'U' :: a :: b :: c :: d :: e :: f :: g :: h :: rest => do
    basic ((← scalar? [a, b, c, d, e, f, g, h]) :: done) rest
  | '\\' :: c :: rest => do basic ((← unescape? c) :: done) rest
  | c :: rest => if isPlain c && c ≠ '\\' then basic (c :: done) rest else none

def literal (done : List Char) : List Char → Quoted
  | [] => none
  | '\'' :: rest => some (done.reverse, rest)
  | c :: rest => if isPlain c then literal (c :: done) rest else none

def lineEnds (cs : List Char) : Bool :=
  match cs.dropWhile isBlank with
  | '\n' :: _ => true
  | '\r' :: '\n' :: _ => true
  | _ => false

/-- A string of several lines with escapes. Up to two quotes may stand before the closing three; a
backslash at the end of a line takes all blanks and line ends behind it away, which is what
`skipping` is for. -/
def multilineBasic (skipping : Bool) (done : List Char) : List Char → Quoted
  | [] => none
  | '"' :: '"' :: '"' :: '"' :: '"' :: rest => some (('"' :: '"' :: done).reverse, rest)
  | '"' :: '"' :: '"' :: '"' :: rest => some (('"' :: done).reverse, rest)
  | '"' :: '"' :: '"' :: rest => some (done.reverse, rest)
  | '\r' :: '\n' :: rest =>
    multilineBasic skipping (if skipping then done else '\n' :: done) rest
  | '\\' :: 'u' :: a :: b :: c :: d :: rest => do
    multilineBasic false ((← scalar? [a, b, c, d]) :: done) rest
  | '\\' :: 'U' :: a :: b :: c :: d :: e :: f :: g :: h :: rest => do
    multilineBasic false ((← scalar? [a, b, c, d, e, f, g, h]) :: done) rest
  | '\\' :: c :: rest =>
    if lineEnds (c :: rest) then multilineBasic true done (c :: rest)
    else do multilineBasic false ((← unescape? c) :: done) rest
  | c :: rest =>
    if skipping && (isBlank c || c = '\n') then multilineBasic true done rest
    else if (isPlain c && c ≠ '\\') || c = '\n' then multilineBasic false (c :: done) rest
    else none

/-- A string of several lines without escapes. Up to two quotes may stand before the closing
three. -/
def multilineLiteral (done : List Char) : List Char → Quoted
  | [] => none
  | '\'' :: '\'' :: '\'' :: '\'' :: '\'' :: rest => some (('\'' :: '\'' :: done).reverse, rest)
  | '\'' :: '\'' :: '\'' :: '\'' :: rest => some (('\'' :: done).reverse, rest)
  | '\'' :: '\'' :: '\'' :: rest => some (done.reverse, rest)
  | '\r' :: '\n' :: rest => multilineLiteral ('\n' :: done) rest
  | c :: rest => if isPlain c || c = '\n' then multilineLiteral (c :: done) rest else none

def dropLineEnd : List Char → List Char
  | '\n' :: rest => rest
  | '\r' :: '\n' :: rest => rest
  | cs => cs

/-- A string on one line, which is also what a quoted key is. -/
def oneLine? : List Char → Quoted
  | '"' :: rest => basic [] rest
  | '\'' :: rest => literal [] rest
  | _ => none

def string? : List Char → Quoted
  | '"' :: '"' :: '"' :: rest => multilineBasic false [] (dropLineEnd rest)
  | '\'' :: '\'' :: '\'' :: rest => multilineLiteral [] (dropLineEnd rest)
  | cs => oneLine? cs

end ScanBridge.Toml
