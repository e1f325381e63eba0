namespace RadioSpectrum

namespace Toml

-- Takes some characters off the front of a text and makes a value of them, or refuses.
abbrev Reader := StateT (List Char) Option

namespace Reader

variable {β : Type}

def rest : Reader (List Char) := get

def refuse : Reader β := fun _ => none

def one (p : Char → Bool) : Reader Char
  | [] => none
  | c :: r => if p c then some (c, r) else none

def char (c : Char) : Reader Unit := do
  discard (one (· = c))

def word : List Char → Reader Unit
  | [] => pure ()
  | c :: r => do
    char c
    word r

-- The longest run of characters that satisfy `p`.
def many (p : Char → Bool) : Reader (List Char) := fun cs =>
  some (cs.takeWhile p, cs.dropWhile p)

def many1 (p : Char → Bool) : Reader (List Char) := fun cs =>
  match cs.takeWhile p with
  | [] => none
  | ds => some (ds, cs.dropWhile p)

def attempt (r : Reader β) : Reader (Option β) := fun cs =>
  match r cs with
  | some (b, cs) => some (some b, cs)
  | none => some (none, cs)

def either (r s : Reader β) : Reader β := fun cs =>
  match r cs with
  | some x => some x
  | none => s cs

-- A reader at most `n` times, for as long as it does not refuse.
def upTo (r : Reader β) : Nat → Reader (List β)
  | 0 => pure []
  | n + 1 => do
    match ← attempt r with
    | none => pure []
    | some b => return b :: (← upTo r n)

-- A reader for as long as it does not refuse. Each time it has to take a character at least.
def repeated (r : Reader β) : Reader (List β) := fun cs => upTo r cs.length cs

def separated (r : Reader β) (separator : Reader Unit) : Reader (List β) := do
  let first ← r
  let others ← repeated do
    separator
    r
  return first :: others

def atEnd : Reader Unit
  | [] => some ((), [])
  | _ => none

end Reader

end Toml

end RadioSpectrum
