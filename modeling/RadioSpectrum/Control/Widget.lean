import RadioSpectrum.Parameter

namespace RadioSpectrum

inductive FetchKind where
  | freq
  | time
deriving Repr, DecidableEq

def FetchKind.name : FetchKind → String
  | freq => "freq"
  | time => "time"

inductive WidgetKind where
  | slider (block : BlockId) (index : Nat)
  | picker (fetch : FetchKind)
deriving Repr, DecidableEq

-- The address of the flowgraph in the same process; an empty one means the same.
def localUrl : String := "local"

def isLocalUrl (url : String) : Bool :=
  url.isEmpty || url = localUrl

structure Widget (α : Type) where
  url : String
  kind : WidgetKind
  param : Parameter α
deriving Repr

namespace Widget

variable {α : Type}

def id (w : Widget α) : String :=
  w.param.id

def value (w : Widget α) : α :=
  w.param.value

def isLocal (w : Widget α) : Bool :=
  isLocalUrl w.url

end Widget

inductive ControlError (α : Type) where
  | unknownWidget (id : String)
  | duplicateWidget (id : String)
  | invalidWidget (id : String) (source : StreamError α)
  | outOfRange (id : String) (value min max : α)
  -- The flowgraph refused the value.
  | target (id : String) (source : StreamError α)
  | endpoint (url : String) (source : String)
  -- As `StreamError.overflow`.
  | overflow
deriving Repr

namespace ControlError

variable {α : Type}

def ofParameter (id : String) : StreamError α → ControlError α
  | .overflow => overflow
  | source => invalidWidget id source

variable [Binary α]

def message : ControlError α → String
  | unknownWidget id => "unknown widget '" ++ id ++ "'"
  | duplicateWidget id => "widget '" ++ id ++ "' is already registered"
  | invalidWidget id source => "invalid widget '" ++ id ++ "': " ++ source.message
  | outOfRange id value min max =>
    "value " ++ Binary.text value ++ " for widget '" ++ id ++ "' is outside [" ++ Binary.text min
      ++ ", " ++ Binary.text max ++ "]"
  | target id source => "widget '" ++ id ++ "' update rejected: " ++ source.message
  | endpoint url source => "endpoint '" ++ url ++ "' failed: " ++ source
  | overflow => (StreamError.overflow (α := α)).message

def cause? : ControlError α → Option String
  | invalidWidget _ source | target _ source => some source.message
  | endpoint _ source => some source
  | unknownWidget _ | duplicateWidget _ | outOfRange .. | overflow => none

end ControlError

end RadioSpectrum
