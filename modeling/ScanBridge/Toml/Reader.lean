import ScanBridge.Decimal.Magnitude
import ScanBridge.Toml.Quoted
import ScanBridge.Toml.Table

namespace ScanBridge.Toml

/-- A reader takes characters from the front of a text or refuses it. Where there is a choice the
text left over decides, so a refused way leaves nothing behind. -/
abbrev Reader := StateT (List Char) Option

namespace Reader

def peek : Reader (Option Char) := do return (← get).head?

def one (p : Char → Bool) : Reader Char := fun cs =>
  match cs with
  | [] => none
  | c :: rest => if p c then some (c, rest) else none

def char (c : Char) : Reader Unit := do discard <| one (· = c)

def many (p : Char → Bool) : Reader (List Char) := fun cs => some (cs.takeWhile p, cs.dropWhile p)

def word (cs : List Char) : Reader Unit := cs.forM char

def tryChar (c : Char) : Reader Bool := do
  if (← peek) = some c then
    char c
    return true
  else return false

def lift {α : Type} (o : Option α) : Reader α := fun cs => o.map (·, cs)

end Reader

open Reader

def blanks : Reader Unit := do discard <| many isBlank

/-- A line feed, with or without a carriage return before it. -/
def lineEnd : Reader Unit := do
  discard <| tryChar '\r'
  char '\n'

def comment : Reader Unit := do
  char '#'
  discard <| many isPlain

def trailing : Reader Unit := do
  blanks
  discard <| optional comment
  if (← get).isEmpty then pure () else lineEnd

/-- Blanks, comments and line ends between the items of an array, on at most `n` lines. -/
def gap : Nat → Reader Unit
  | 0 => failure
  | n + 1 => do
    blanks
    let c ← peek
    if c = some '#' then
      comment
      lineEnd
      gap n
    else if c = some '\n' || c = some '\r' then
      lineEnd
      gap n
    else pure ()

def skip : Reader Unit := do gap ((← get).length + 1)

def isBare (c : Char) : Bool :=
  c.isAlpha || c.isDigit || c = '_' || c = '-'

def simpleKey : Reader String := do
  match oneLine? (← get) with
  | some (text, rest) =>
    set rest
    return String.ofList text
  | none =>
    let cs ← many isBare
    guard !cs.isEmpty
    return String.ofList cs

def keyParts : Nat → Reader (List String)
  | 0 => failure
  | n + 1 => do
    blanks
    let part ← simpleKey
    blanks
    if ← tryChar '.' then return part :: (← keyParts n)
    else return [part]

/-- How many levels a key or a value may have, the outermost included. -/
def depthLimit : Nat := 80

/-- A key: the path to its table and its name there. -/
def key : Reader (List String × String) := do
  let parts ← keyParts (depthLimit - 1)
  return (parts.dropLast, ← lift parts.getLast?)

def digitsOf (cs : List Char) : Nat := cs.foldl (fun n c => 10 * n + (c.toNat - '0'.toNat)) 0

def fixed (n least greatest : Nat) : Reader (List Char) := do
  let cs ← (List.replicate n ()).mapM fun _ => one Char.isDigit
  guard (least ≤ digitsOf cs && digitsOf cs ≤ greatest)
  return cs

def daysIn (year month : Nat) : Nat :=
  if month = 2 then
    if year % 4 = 0 ∧ (year % 100 ≠ 0 ∨ year % 400 = 0) then 29 else 28
  else if month = 4 ∨ month = 6 ∨ month = 9 ∨ month = 11 then 30
  else 31

def date : Reader (List Char) := do
  let year ← fixed 4 0 9999
  char '-'
  let month ← fixed 2 1 12
  char '-'
  let day ← fixed 2 1 (daysIn (digitsOf year) (digitsOf month))
  return year ++ '-' :: month ++ '-' :: day

/-- A fraction of a second. Nine digits count, and zeros at the end are not shown. -/
def secondFraction : Reader (List Char) := do
  char '.'
  let cs ← many Char.isDigit
  guard !cs.isEmpty
  let shown := ((cs.take 9).reverse.dropWhile (· = '0')).reverse
  return if shown.isEmpty then [] else '.' :: shown

def time : Reader (List Char) := do
  let hour ← fixed 2 0 23
  char ':'
  let minute ← fixed 2 0 59
  char ':'
  let second ← fixed 2 0 60
  let fraction ← optional secondFraction
  return hour ++ ':' :: minute ++ ':' :: second ++ fraction.getD []

/-- The distance from universal time. No distance is shown with a plus. -/
def zone : Reader (List Char) := do
  if (← peek) = some 'Z' ∨ (← peek) = some 'z' then
    discard <| one fun _ => true
    return ['Z']
  else
    let sign ← one fun c => c = '+' || c = '-'
    let hour ← fixed 2 0 23
    char ':'
    let minute ← fixed 2 0 59
    let sign := if digitsOf hour = 0 ∧ digitsOf minute = 0 then '+' else sign
    return sign :: hour ++ ':' :: minute

/-- Dates and times are read into the text under which they are known. -/
def dateTime : Reader (List Char) := do
  let day ← date
  let rest ← optional do
    discard <| one fun c => c = 'T' || c = 't' || c = ' '
    let time ← time
    let zone ← optional zone
    return 'T' :: time ++ zone.getD []
  return day ++ rest.getD []

/-- Digits of a class with single underscores between them, at most `n`. -/
def digitRun (p : Char → Bool) : Nat → Reader (List Char)
  | 0 => failure
  | n + 1 => do
    let c ← one p
    if (← peek) = some '_' then
      char '_'
      return c :: (← digitRun p n)
    else if (← peek).any p then return c :: (← digitRun p n)
    else return [c]

def digits (p : Char → Bool) : Reader (List Char) := do digitRun p ((← get).length + 1)

def sign : Reader (Option Char) := optional (one fun c => c = '+' || c = '-')

/-- The whole part of a decimal number, which has no leading zero. -/
def whole : Reader (List Char) := do
  if ← tryChar '0' then return ['0'] else digits Char.isDigit

def exponent : Reader Int := do
  discard <| one fun c => c = 'e' || c = 'E'
  let sign ← sign
  let cs ← digits Char.isDigit
  return if sign = some '-' then -(digitsOf cs : Int) else digitsOf cs

/-- A float. One that is too great is refused, unless it is negative. -/
def float : Reader Value := do
  let sign ← sign
  if (← peek) = some 'i' then
    word ['i', 'n', 'f']
    return .float
  else if (← peek) = some 'n' then
    word ['n', 'a', 'n']
    return .float
  else
    let whole ← whole
    let fraction ← optional do
      char '.'
      digits Char.isDigit
    let exponent ← optional exponent
    guard (fraction.isSome || exponent.isSome)
    let fraction := fraction.getD []
    let tooGreat :=
      Decimal.overflows (digitsOf (whole ++ fraction)) (exponent.getD 0 - fraction.length)
    guard (sign = some '-' || !tooGreat)
    return .float

def ofBase (base : Nat) (cs : List Char) : Nat :=
  cs.foldl (fun n c => base * n + (Text.hexValue? c).getD 0) 0

def int64? (n : Int) : Option Int64 :=
  if Int64.minValue.toInt ≤ n ∧ n ≤ Int64.maxValue.toInt then some (Int64.ofInt n) else none

def integer : Reader Value := do
  match ← get with
  | '0' :: 'x' :: rest =>
    set rest
    let cs ← digits fun c => (Text.hexValue? c).isSome
    return .integer (← lift (int64? (ofBase 16 cs)))
  | '0' :: 'o' :: rest =>
    set rest
    let cs ← digits fun c => '0' ≤ c && c ≤ '7'
    return .integer (← lift (int64? (ofBase 8 cs)))
  | '0' :: 'b' :: rest =>
    set rest
    let cs ← digits fun c => c = '0' || c = '1'
    return .integer (← lift (int64? (ofBase 2 cs)))
  | _ =>
    let sign ← sign
    let n := digitsOf (← whole)
    return .integer (← lift (int64? (if sign = some '-' then -(n : Int) else n)))

def dated : Reader Value := do return .datetime (String.ofList (← dateTime <|> time))

def arrayItems (item : Reader Value) : Nat → Reader (List Value)
  | 0 => failure
  | n + 1 => do
    skip
    if ← tryChar ']' then return []
    let v ← item
    skip
    if ← tryChar ',' then return v :: (← arrayItems item n)
    char ']'
    return [v]

def keyValue (item : Reader Value) : Reader ((List String × String) × Value) := do
  let key ← key
  char '='
  blanks
  return (key, ← item)

def inlineEntries (item : Reader Value) (t : Table) : Nat → Reader Value
  | 0 => failure
  | n + 1 => do
    let (key, v) ← keyValue item
    blanks
    let t ← lift (t.addValue key.1 key.2 v)
    if ← tryChar ',' then inlineEntries item t n
    else
      char '}'
      return t.freeze

/-- A value in which at most `levels` arrays and inline tables lie inside one another. -/
def value (levels : Nat) : Reader Value := do
  let cs ← get
  match cs with
  | '"' :: _ | '\'' :: _ =>
    let (text, rest) ← lift (string? cs)
    set rest
    return .string (String.ofList text)
  | '[' :: rest =>
    match levels with
    | 0 => failure
    | inner + 1 =>
      set rest
      return .array (← arrayItems (value inner) (rest.length + 1))
  | '{' :: rest =>
    match levels with
    | 0 => failure
    | inner + 1 =>
      set rest
      blanks
      if ← tryChar '}' then return .table []
      else inlineEntries (value inner) (.empty .explicit) (rest.length + 1)
  | 't' :: _ =>
    word ['t', 'r', 'u', 'e']
    return .boolean true
  | 'f' :: _ =>
    word ['f', 'a', 'l', 's', 'e']
    return .boolean false
  | _ => dated <|> float <|> integer

/-- A line that says something, from its first character that is no blank. -/
def line : Reader Line := do
  match ← get with
  | '[' :: '[' :: rest =>
    set rest
    let key ← key
    word [']', ']']
    trailing
    return .arrayHeader key.1 key.2
  | '[' :: rest =>
    set rest
    let key ← key
    char ']'
    trailing
    return .header key.1 key.2
  | _ =>
    let (key, v) ← keyValue (value (depthLimit - 1))
    trailing
    return .entry key.1 key.2 v

def lines : Nat → Reader (List Line)
  | 0 => failure
  | n + 1 => do
    blanks
    let c ← peek
    if c = none then return []
    else if c = some '#' || c = some '\n' || c = some '\r' then
      trailing
      lines n
    else return (← line) :: (← lines n)

/-- The entries of a document's root table. A byte order mark may stand at the front. -/
def parse? (text : String) : Option (List (String × Value)) := do
  let cs := match text.toList with
    | '\uFEFF' :: cs => cs
    | cs => cs
  let (lines, _) ← (lines (cs.length + 1)).run cs
  match ofLines lines with
  | some (.table entries) => some entries
  | _ => none

end ScanBridge.Toml
