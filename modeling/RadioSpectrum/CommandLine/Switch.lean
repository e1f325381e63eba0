namespace RadioSpectrum

inductive Switch.Action (σ : Type) where
  | mark (set : σ → σ)
  -- It comes with a value, which may be of no use.
  | take (set : String → σ → Option σ)

structure Switch (σ : Type) where
  name : String
  letter : Option Char := none
  isRepeatable : Bool := false
  -- The next argument may be its value even if that is a negative number.
  allowsNegative : Bool := false
  action : Switch.Action σ

namespace Switch

inductive Interruption where
  | misused
  | helpAsked
deriving Repr, DecidableEq

inductive Sign where
  | long (name : String) (value : Option String)
  | short (letter : Char) (value : Option String)
deriving Repr, DecidableEq

namespace Sign

-- What stands behind the first equals sign, and what in front of it.
def cut (cs : List Char) : List Char × Option (List Char) :=
  match cs.dropWhile (· ≠ '=') with
  | [] => (cs, none)
  | _ :: value => (cs.takeWhile (· ≠ '='), some value)

def ofArgument? (arg : String) : Option Sign :=
  match arg.toList with
  | '-' :: '-' :: cs =>
    let (name, value) := cut cs
    some (.long (String.ofList name) (value.map String.ofList))
  | '-' :: letter :: '=' :: cs => some (.short letter (some (String.ofList cs)))
  | ['-', letter] => some (.short letter none)
  | '-' :: letter :: cs => some (.short letter (some (String.ofList cs)))
  | _ => none

end Sign

-- Whether characters form a number without a sign: digits, a point behind the first of them, and
-- a power of ten that has no sign either.
def isNumeral (cs : List Char) : Bool :=
  let mantissa := cs.takeWhile (· ≠ 'e')
  let digits := mantissa.filter (· ≠ '.')
  let power := cs.dropWhile (· ≠ 'e')
  digits.all Char.isDigit && mantissa.head? ≠ some '.' && mantissa.length ≤ digits.length + 1
    && (power = [] || mantissa ≠ [] && power.length ≠ 1 && power.tail.all Char.isDigit)

variable {σ : Type}

def acceptsNext (switch : Switch σ) (arg : String) : Bool :=
  match arg.toList with
  | ['-'] => true
  | '-' :: cs => switch.allowsNegative && isNumeral cs
  | _ => true

def find? (switches : List (Switch σ)) : Sign → Option (Switch σ)
  | .long name _ => switches.find? (·.name = name)
  | .short letter _ => switches.find? (·.letter = some letter)

def isHelp : Sign → Bool
  | .long name value => name = "help" ∧ value = none
  | .short letter _ => letter = 'h'

-- Reads arguments one after the other. `used` lists the switches that were given before. Two
-- hyphens end the switches, and nothing may follow them.
def read (switches : List (Switch σ)) (used : List String) (settings : σ) :
    List String → Except Interruption σ
  | [] => .ok settings
  | arg :: rest =>
    if arg = "--" then if rest = [] then .ok settings else .error .misused
    else
      match Sign.ofArgument? arg with
      | none => .error .misused
      | some sign =>
        if isHelp sign then .error .helpAsked
        else
          match find? switches sign with
          | none => .error .misused
          | some switch =>
            if switch.name ∈ used ∧ !switch.isRepeatable then .error .misused
            else
              let used := switch.name :: used
              match switch.action, sign with
              | .mark set, .long _ none => read switches used (set settings) rest
              | .mark _, _ => .error .misused
              | .take set, .long _ (some value) | .take set, .short _ (some value) =>
                match set value settings with
                | none => .error .misused
                | some settings => read switches used settings rest
              | .take set, _ =>
                match rest with
                | [] => .error .misused
                | value :: rest =>
                  if !switch.acceptsNext value then .error .misused
                  else
                    match set value settings with
                    | none => .error .misused
                    | some settings => read switches used settings rest

end Switch

end RadioSpectrum
