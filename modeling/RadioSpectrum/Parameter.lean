import RadioSpectrum.Scalar
import RadioSpectrum.StreamError

namespace RadioSpectrum

inductive DisplayUnit where
  | hertz
  | decibels
  | samples
  | samplesPerSecond
  | seconds
  | choice
  -- Off and on, as 0 and 1.
  | toggle
  | none
deriving Repr, DecidableEq

namespace DisplayUnit

def suffix : DisplayUnit → String
  | hertz => "Hz"
  | decibels => "dB"
  | samples => "smp"
  | samplesPerSecond => "S/s"
  | seconds => "s"
  | choice | toggle | none => ""

def name : DisplayUnit → String
  | hertz => "hertz"
  | decibels => "decibels"
  | samples => "samples"
  | samplesPerSecond => "samples_per_second"
  | seconds => "seconds"
  | choice => "choice"
  | toggle => "toggle"
  | none => "none"

def all : List DisplayUnit :=
  [hertz, decibels, samples, samplesPerSecond, seconds, choice, toggle, none]

def ofName? (name : String) : Option DisplayUnit :=
  all.find? (·.name = name)

end DisplayUnit

structure Parameter (α : Type) where
  id : String
  value : α
  min : α
  max : α
  step : α
  default : α
  unit : DisplayUnit := .none
deriving Repr

namespace Parameter

variable {α : Type} [Scalar α]

-- How many steps lead from the lower end to the highest grid point. More than a word holds count as
-- its greatest number.
def wholeSteps (p : Parameter α) : UInt64 :=
  Scalar.toWord (Scalar.floor ((p.max - p.min) / p.step + Scalar.tolerance))

-- How many grid points the range holds. There is one more of them than there are steps, which may be
-- one more than words count.
def stepCount (p : Parameter α) : Except (StreamError α) UInt64 :=
  if p.wholeSteps.toNat + 1 < UInt64.size then .ok (p.wholeSteps + 1) else .error .overflow

-- What is only found out after the points were counted.
def counted {β : Type} (p : Parameter α) (x : β) : Except (StreamError α) β := do
  let _ ← p.stepCount
  return x

-- This and what is built on it (`gridMax`, `snap` and `setClamped`) is for ranges of which the points
-- can be counted, as they can for every parameter that `ofRange` makes.
def topStep (p : Parameter α) : α :=
  Scalar.ofNat p.wholeSteps.toNat

def gridMax (p : Parameter α) : α :=
  p.min + p.topStep * p.step

def snap (p : Parameter α) (v : α) : α :=
  p.min + Scalar.clamp (Scalar.round ((v - p.min) / p.step)) (Scalar.ofNat 0) p.topStep * p.step

def accepts (p : Parameter α) (v : α) : Bool :=
  if !Scalar.isFinite v ∨ v < p.min - Scalar.tolerance ∨ p.max + Scalar.tolerance < v then false
  else
    let steps := (v - p.min) / p.step
    Scalar.abs (steps - Scalar.round steps)
      ≤ Scalar.tolerance * Scalar.max (Scalar.abs steps) (Scalar.ofNat 1)

def refuse (p : Parameter α) (v : α) (objection : Objection α) : StreamError α :=
  .invalidParameter p.id v objection

def set (p : Parameter α) (v : α) : Except (StreamError α) (Parameter α) :=
  if !Scalar.isFinite v then .error (p.refuse v .notFinite)
  else if v < p.min ∨ p.max < v then .error (p.refuse v (.outOfRange p.min p.max))
  else p.counted { p with value := p.snap v }

-- As `set`, for a value that has to be on the grid already.
def setExact (p : Parameter α) (v : α) : Except (StreamError α) (Parameter α) :=
  if p.accepts v then p.set v else .error (p.refuse v (.offGrid p.min p.max p.step))

-- A value that is not finite changes nothing.
def setClamped (p : Parameter α) (v : α) : Parameter α :=
  if Scalar.isFinite v then { p with value := p.snap v } else p

def reset (p : Parameter α) : Parameter α :=
  { p with value := p.default }

def ofRange (id : String) (min max step value : α) : Except (StreamError α) (Parameter α) :=
  let refuse := Except.error ∘ StreamError.invalidParameter id value
  if !(Scalar.isFinite min && Scalar.isFinite max && Scalar.isFinite step) then
    refuse .boundsNotFinite
  else if max < min then refuse (.boundsInverted min max)
  else if step ≤ Scalar.ofNat 0 then refuse (.stepNotPositive step)
  else do
    let p ← ({ id, value := min, min, max, step, default := min } : Parameter α).set value
    return { p with default := p.value }

def withUnit (p : Parameter α) (unit : DisplayUnit) : Parameter α :=
  { p with unit }

def normalized (p : Parameter α) : α :=
  if p.min < p.max then (p.value - p.min) / (p.max - p.min) else Scalar.ofNat 0

-- The value as it is shown: whole numbers where the steps are whole, three places elsewhere.
def text [Binary α] (p : Parameter α) : String :=
  let whole := Scalar.isFinite p.step ∧ p.step ≤ Scalar.floor p.step
  let value := Binary.fixedText (if whole then 0 else 3) p.value
  if p.unit.suffix.isEmpty then value else value ++ " " ++ p.unit.suffix

end Parameter

end RadioSpectrum
