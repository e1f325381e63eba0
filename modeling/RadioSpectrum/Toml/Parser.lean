import RadioSpectrum.Toml.Scalar
import RadioSpectrum.Toml.Section

namespace RadioSpectrum

namespace Toml

open Reader

def array (value : Reader Document) : Reader Document := do
  char '['
  gap
  let items ← attempt (separated (do
    let v ← value
    gap
    return v) (do
    char ','
    gap))
  discard (attempt (char ','))
  gap
  char ']'
  return .list false (items.getD [])

def inlineTable (value : Reader Document) : Reader Document := do
  char '\x7b'
  let pairs ← attempt (separated (do
    let ks ← key
    char '='
    blanks
    let v ← value
    blanks
    return (ks, v)) (char ','))
  blanks
  char '\x7d'
  match (pairs.getD []).foldlM (fun entries (ks, v) => Entries.insert? v ks entries) [] with
  | some entries => return .table .whole entries
  | none => refuse

-- A value, in which arrays and tables may be nested `depth` deep.
def value : Nat → Reader Document
  | 0 => scalar
  | depth + 1 => either (array (value depth)) <| either (inlineTable (value depth)) scalar

def line : Reader Line := do
  blanks
  match (← rest).take 2 with
  | ['[', '['] =>
    word ['[', '[']
    let path ← key
    word [']', ']']
    lineEnd
    return .item path
  | '[' :: _ =>
    char '['
    let path ← key
    char ']'
    lineEnd
    return .table path
  | cs =>
    if cs.isEmpty ∨ cs.head? = some '#' ∨ cs.head? = some '\n' ∨ cs.head? = some '\r' then
      lineEnd
      return .blank
    else
      let ks ← key
      char '='
      blanks
      let v ← value (nestingLimit - 1)
      lineEnd
      return .entry ks v

-- Lines up to the end of the text. Each takes a character at least, so `n` lines are enough for
-- as many characters.
def lines : Nat → Reader (List Line)
  | 0 => do
    atEnd
    return []
  | n + 1 => do
    if (← rest).isEmpty then return []
    return (← line) :: (← lines n)

def parse? (text : String) : Option Document := do
  -- a mark of the byte order may stand in front
  let cs := match text.toList with
    | '\ufeff' :: r => r
    | r => r
  let (ls, _) ← lines cs.length cs
  let progress ← ls.foldlM Progress.add? {}
  return .table .whole progress.root

end Toml

end RadioSpectrum
