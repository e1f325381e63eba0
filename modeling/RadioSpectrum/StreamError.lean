import RadioSpectrum.Decimal.Text

namespace RadioSpectrum

structure BlockId where
  number : Nat
deriving Repr, DecidableEq

namespace BlockId

def spectrum : BlockId := ⟨0⟩

def frontend : BlockId := ⟨1⟩

def all : List (BlockId × String) := [(spectrum, "spectrum"), (frontend, "frontend")]

end BlockId

inductive Objection (α : Type) where
  | boundsNotFinite
  | boundsInverted (min max : α)
  | stepNotPositive (step : α)
  | notFinite
  | outOfRange (min max : α)
  | offGrid (min max step : α)
  | notPowerOfTwo (least greatest : Nat)
  | countOutOfRange (least greatest : Nat)
  | windowTooLong (window capacity : Nat)
  | other (reason : String)
deriving Repr

inductive TransformFault where
  | emptyWindow (block : String)
  | windowTooLong (window capacity : Nat)
  | invalidMagnitude (bin : Nat) (magnitude : Float32)
  | other (reason : String)
deriving Repr

inductive StreamError (α : Type) where
  -- A chunk needs more space than is free.
  | admissionRejected (requested free : Nat)
  | malformedWindow (expected actual : Nat)
  | transformFailure (fault : TransformFault)
  -- Something was asked for after a stop.
  | shutdownInProgress
  | invalidChunk
  | alreadyRunning
  | invalidParameter (parameter : String) (value : α) (objection : Objection α)
  | unknownBlock (block : BlockId)
  | unknownParameter (block : BlockId) (index : Nat)
  -- No answer of the stream, but where the program stops: a count outgrew its words.
  | overflow
deriving Repr

namespace Objection

variable {α : Type} [Binary α]

def message : Objection α → String
  | boundsNotFinite => "non-finite bounds"
  | boundsInverted min max => "min " ++ Binary.text min ++ " exceeds max " ++ Binary.text max
  | stepNotPositive step => "step " ++ Binary.text step ++ " must be positive"
  | notFinite => "value is not finite"
  | outOfRange min max => "outside range [" ++ Binary.text min ++ ", " ++ Binary.text max ++ "]"
  | offGrid min max step =>
    "not on grid [" ++ Binary.text min ++ ", " ++ Binary.text max ++ "] step " ++ Binary.text step
  | notPowerOfTwo least greatest => s!"must be a power of two in [{least}, {greatest}]"
  | countOutOfRange least greatest => s!"must be in [{least}, {greatest}]"
  | windowTooLong window capacity =>
    s!"window of {window} samples exceeds buffer capacity {capacity}"
  | other reason => reason

end Objection

namespace TransformFault

def message : TransformFault → String
  | emptyWindow block => s!"block '{block}' declares an empty window"
  | windowTooLong window capacity =>
    s!"window of {window} samples does not fit buffer of {capacity}"
  | invalidMagnitude bin magnitude =>
    s!"bin {bin} holds invalid magnitude " ++ Binary.text magnitude
  | other reason => reason

end TransformFault

namespace StreamError

variable {α : Type}

def message [Binary α] : StreamError α → String
  | admissionRejected requested free =>
    s!"admission rejected: {requested} samples requested, {free} free"
  | malformedWindow expected actual =>
    s!"malformed window: expected {expected} samples, got {actual}"
  | transformFailure fault => "transform failure: " ++ fault.message
  | shutdownInProgress => "flowgraph is shutting down"
  | invalidChunk => "sample chunk must not be empty"
  | alreadyRunning => "flowgraph is already running"
  | invalidParameter parameter value objection =>
    "invalid value " ++ Binary.text value ++ " for parameter '" ++ parameter ++ "': "
      ++ objection.message
  | unknownBlock block => s!"unknown block {block.number}"
  | unknownParameter block index => s!"unknown parameter {index} on block {block.number}"
  | overflow => "attempt to add with overflow"

-- The same operation may succeed later.
def isRecoverable : StreamError α → Bool
  | admissionRejected .. => true
  | _ => false

-- The error costs one window and nothing else.
def isWindowFault : StreamError α → Bool
  | malformedWindow .. | transformFailure _ => true
  | _ => false

end StreamError

end RadioSpectrum
