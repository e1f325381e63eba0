import RadioSpectrum.Decimal.Literal
import RadioSpectrum.Document
import RadioSpectrum.Toml.Reader

namespace RadioSpectrum

namespace Toml

open Reader

def isBlank (c : Char) : Bool :=
  c = ' ' ∨ c = '\t'

def blanks : Reader Unit := do
  discard (many isBlank)

def isPrintable (c : Char) : Bool :=
  c = '\t' ∨ (0x20 ≤ c.toNat ∧ c.toNat ≠ 0x7f)

def newline : Reader Unit := do
  discard (attempt (char '\r'))
  char '\n'

def comment : Reader Unit := do
  char '#'
  discard (many isPrintable)

-- Blanks, comments and line ends between the parts of an array.
def gap : Reader Unit := do
  blanks
  discard (repeated do
    discard (attempt comment)
    newline
    blanks)

def lineEnd : Reader Unit := do
  blanks
  discard (attempt comment)
  either newline atEnd

def isHexDigit (c : Char) : Bool :=
  c.isDigit ∨ ('a' ≤ c ∧ c ≤ 'f') ∨ ('A' ≤ c ∧ c ≤ 'F')

def hexValue (c : Char) : Nat :=
  if c.isDigit then c.toNat - 48 else if 'a' ≤ c then c.toNat - 87 else c.toNat - 55

def ofBase (base : Nat) (ds : List Char) : Nat :=
  ds.foldl (fun n c => base * n + hexValue c) 0

def codePoint (n : Nat) : Reader Char := do
  let ds ← upTo (one isHexDigit) n
  let code := ofBase 16 ds
  if ds.length = n ∧ code.isValidChar then return Char.ofNat code else refuse

def escape : Reader Char := do
  match ← one fun _ => true with
  | 'b' => return '\x08'
  | 't' => return '\t'
  | 'n' => return '\n'
  | 'f' => return '\x0c'
  | 'r' => return '\r'
  | '"' => return '"'
  | '\\' => return '\\'
  | 'u' => codePoint 4
  | 'U' => codePoint 8
  | _ => refuse

def basicString : Reader String := do
  char '"'
  let cs ← repeated (either (one fun c => isPrintable c ∧ c ≠ '"' ∧ c ≠ '\\') do
    char '\\'
    escape)
  char '"'
  return String.ofList cs

def literalString : Reader String := do
  char '\''
  let cs ← many fun c => isPrintable c ∧ c ≠ '\''
  char '\''
  return String.ofList cs

-- The text between two marks of three quotes. Up to two quotes may stand in front of the closing
-- mark.
def betweenMarks (quote : Char) (part : Reader (List Char)) : Reader String := do
  let mark := word [quote, quote, quote]
  mark
  discard (attempt newline)
  let inner := either part do
    -- one or two quotes that are followed by something else
    let qs ← many1 (· = quote)
    if qs.length ≤ 2 then return qs else refuse
  let parts ← repeated inner
  let qs ← many (· = quote)
  if 3 ≤ qs.length ∧ qs.length ≤ 5 then
    return String.ofList (parts.flatten ++ qs.drop 3)
  else refuse

def lineBreak : Reader (List Char) := do
  newline
  return ['\n']

def multilineBasicString : Reader String :=
  betweenMarks '"' (either (do return [← one fun c => isPrintable c ∧ c ≠ '"' ∧ c ≠ '\\']) <|
    either lineBreak do
      char '\\'
      either (do return [← escape]) do
        -- a backslash at the end of a line takes all blank space behind it away
        blanks
        newline
        discard (repeated (either (discard (one isBlank)) newline))
        return [])

def multilineLiteralString : Reader String :=
  betweenMarks '\'' (either (do return [← one fun c => isPrintable c ∧ c ≠ '\'']) lineBreak)

def string : Reader String :=
  either (either multilineBasicString multilineLiteralString) (either basicString literalString)

def isBareKey (c : Char) : Bool :=
  c.isAlphanum ∨ c = '_' ∨ c = '-'

def simpleKey : Reader String :=
  either (do return String.ofList (← many1 isBareKey)) (either basicString literalString)

def nestingLimit : Nat := 80

def key : Reader (List String) := do
  let ks ← separated (do
    blanks
    let k ← simpleKey
    blanks
    return k) (char '.')
  if ks.length < nestingLimit then return ks else refuse

def moreDigits (p : Char → Bool) : Reader (List Char) :=
  repeated (either (one p) do
    char '_'
    one p)

-- Digits, between two of which one underscore may stand.
def digitRun (p : Char → Bool) : Reader (List Char) := do
  let d ← one p
  return d :: (← moreDigits p)

-- A sign; `true` means a minus.
def sign : Reader Bool := do
  match ← attempt (one fun c => c = '+' ∨ c = '-') with
  | some '-' => return true
  | _ => return false

def wholePart : Reader (List Char) :=
  either (do
    let d ← one fun c => '1' ≤ c ∧ c ≤ '9'
    return d :: (← moreDigits Char.isDigit)) do
  char '0'
  return ['0']

-- Whole numbers lie below this, and their negatives not below its negative.
def integerBound : Nat := UInt64.size / 2

def bounded (n : Int) : Reader Document :=
  if -(integerBound : Int) ≤ n ∧ n < integerBound then return .integer n else refuse

def integer : Reader Document := do
  match (← rest).take 2 with
  | ['0', 'x'] => based 16 isHexDigit
  | ['0', 'o'] => based 8 fun c => '0' ≤ c ∧ c ≤ '7'
  | ['0', 'b'] => based 2 fun c => c = '0' ∨ c = '1'
  | _ =>
    let negative ← sign
    let n : Int := ofBase 10 (← wholePart)
    bounded (if negative then -n else n)
where
  based (base : Nat) (p : Char → Bool) : Reader Document := do
    modify (·.drop 2)
    bounded (ofBase base (← digitRun p))

def fractionPart : Reader (List Char) := do
  char '.'
  digitRun Char.isDigit

def exponentPart : Reader Int := do
  discard (one fun c => c = 'e' ∨ c = 'E')
  let negative ← sign
  let n : Int := ofBase 10 (← digitRun Char.isDigit)
  return if negative then -n else n

-- A number with a fraction or a power of ten. A positive one must not be too large.
def float : Reader Document := do
  let negative ← sign
  either (do
    let whole ← wholePart
    let fraction ← attempt fractionPart
    let exponent ← attempt exponentPart
    if fraction.isNone ∧ exponent.isNone then refuse
    let ds := whole ++ fraction.getD []
    let x : Float := Binary.ofDecimal negative (ofBase 10 ds)
      (exponent.getD 0 - (fraction.getD []).length)
    if !negative ∧ !x.isFinite then refuse else return .other) do
  either (word ['i', 'n', 'f']) (word ['n', 'a', 'n'])
  return .other

def fixedDigits (n : Nat) : Reader Nat := do
  let ds ← upTo (one Char.isDigit) n
  if ds.length = n then return ofBase 10 ds else refuse

def daysIn (year month : Nat) : Nat :=
  if month = 2 then
    if year % 4 = 0 ∧ (year % 100 ≠ 0 ∨ year % 400 = 0) then 29 else 28
  else if month ∈ [4, 6, 9, 11] then 30
  else 31

def date : Reader Unit := do
  let year ← fixedDigits 4
  char '-'
  let month ← fixedDigits 2
  char '-'
  let day ← fixedDigits 2
  if 1 ≤ month ∧ month ≤ 12 ∧ 1 ≤ day ∧ day ≤ daysIn year month then pure () else refuse

def time : Reader Unit := do
  let hour ← fixedDigits 2
  char ':'
  let minute ← fixedDigits 2
  char ':'
  let second ← fixedDigits 2
  discard (attempt do
    char '.'
    many1 Char.isDigit)
  if hour ≤ 23 ∧ minute ≤ 59 ∧ second ≤ 60 then pure () else refuse

def zone : Reader Unit :=
  either (discard (one fun c => c = 'Z' ∨ c = 'z')) do
    discard (one fun c => c = '+' ∨ c = '-')
    let hour ← fixedDigits 2
    char ':'
    let minute ← fixedDigits 2
    if hour ≤ 23 ∧ minute ≤ 59 then pure () else refuse

def moment : Reader Document := do
  either (do
    date
    discard (attempt do
      discard (one fun c => c = 'T' ∨ c = 't' ∨ c = ' ')
      time
      discard (attempt zone))) time
  return .other

def truth : Reader Document :=
  either (do
    word ['t', 'r', 'u', 'e']
    return .boolean true) do
  word ['f', 'a', 'l', 's', 'e']
  return .boolean false

def scalar : Reader Document :=
  either (do return .text (← string)) <| either truth <| either moment <| either float integer

end Toml

end RadioSpectrum
