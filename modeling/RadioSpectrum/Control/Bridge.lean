import RadioSpectrum.Control.Widget
import RadioSpectrum.Snapshot

namespace RadioSpectrum

-- The number under which a listener is known. No number is used twice.
structure ListenerId where
  number : Nat
deriving Repr, DecidableEq

structure Bridge (α : Type) where
  widgets : List (Widget α) := []
  listeners : List ListenerId := []
  nextListener : Nat := 0
  hasSnapshots : Bool := false

-- What a listener is told: a widget and the value that its target has stored.
structure ControlEvent (α : Type) where
  id : String
  value : α
deriving Repr

-- Everything that a bridge talks to: the parameters of the flowgraph, and remote endpoints. What
-- answers may keep a state of its own, and may change the bridge while it is at work.
structure Targets (α σ : Type) where
  update : BlockId → Nat → α → Bridge α × σ → Except (StreamError α) α × Bridge α × σ
  call : String → BlockId → Nat → α → Bridge α × σ → Except String Unit × Bridge α × σ
  fetch : String → FetchKind → α → Bridge α × σ → Except String Unit × Bridge α × σ

def noEndpointMessage (url : String) : String :=
  "no endpoint client for '" ++ url ++ "'"

namespace Bridge

variable {α σ : Type}

def listen (b : Bridge α) : ListenerId × Bridge α :=
  let listener : ListenerId := ⟨b.nextListener⟩
  (listener,
    { b with listeners := b.listeners ++ [listener], nextListener := b.nextListener + 1 })

def unlisten (b : Bridge α) (listener : ListenerId) : Bool × Bridge α :=
  (listener ∈ b.listeners, { b with listeners := b.listeners.filter (· ≠ listener) })

def widget? (b : Bridge α) (id : String) : Option (Widget α) :=
  b.widgets.find? (·.id = id)

def value? (b : Bridge α) (id : String) : Option α :=
  (b.widget? id).map (·.value)

def place (w : Widget α) : List (Widget α) → List (Widget α)
  | [] => [w]
  | v :: r => if w.id < v.id then w :: v :: r else v :: place w r

def insert (b : Bridge α) (w : Widget α) : Except (ControlError α) (Bridge α) :=
  if (b.widget? w.id).isSome then .error (.duplicateWidget w.id)
  else .ok { b with widgets := place w b.widgets }

def remove (b : Bridge α) (id : String) : Bool × Bridge α :=
  ((b.widget? id).isSome, { b with widgets := b.widgets.filter (·.id ≠ id) })

def modify (b : Bridge α) (id : String) (f : Parameter α → Parameter α) : Bridge α :=
  { b with
    widgets := b.widgets.map fun w => if w.id = id then { w with param := f w.param } else w }

variable [Scalar α]

def addSlider (b : Bridge α) (id url : String) (block : BlockId) (index min max step value : Nat) :
    Except (ControlError α) (Bridge α) := do
  let n (k : Nat) : α := Scalar.ofNat k
  let param ← (Parameter.ofRange id (n min) (n max) (n step) (n value)).mapError (.ofParameter id)
  b.insert { url, kind := .slider block index, param }

def addPicker (b : Bridge α) (id url : String) (fetch : FetchKind) (min max step : α)
    (unit : DisplayUnit) : Except (ControlError α) (Bridge α) := do
  let param ← (Parameter.ofRange id min max step min).mapError (.ofParameter id)
  b.insert { url, kind := .picker fetch, param := param.withUnit unit }

def addFreq (b : Bridge α) (id url : String) (min max : α) : Except (ControlError α) (Bridge α) :=
  b.addPicker id url .freq min max (Scalar.ofNat 1) .hertz

def addTime (b : Bridge α) (id url : String) (min max : α) : Except (ControlError α) (Bridge α) :=
  b.addPicker id url .time min max 1e-3 .seconds

-- Adds sliders for the entries of a table from position `index` on. An entry whose id is taken
-- ends it; the sliders before it stay.
def addEntries (b : Bridge α) (url : String) (block : BlockId) (index : Nat) :
    List (Parameter α) → Except (ControlError α) Unit × Bridge α
  | [] => (.ok (), b)
  | param :: rest =>
    match b.insert { url, kind := .slider block index, param } with
    | .error e => (.error e, b)
    | .ok b => b.addEntries url block (index + 1) rest

def addBlock (b : Bridge α) (url : String) (block : BlockId) (table : List (Parameter α)) :
    Except (ControlError α) Unit × Bridge α :=
  b.addEntries url block 0 table

-- Hands a value on the grid to what a widget drives. The answer is the value that is in force.
def dispatch (targets : Targets α σ) (w : Widget α) (value : α) (b : Bridge α) (s : σ) :
    Except (ControlError α) α × Bridge α × σ :=
  let failed := ControlError.endpoint w.url
  match w.kind with
  | .slider block index =>
    if w.isLocal then
      let (answer, rest) := targets.update block index value (b, s)
      (answer.mapError (.target w.id), rest)
    else
      let (answer, rest) := targets.call w.url block index value (b, s)
      ((answer.map fun () => value).mapError failed, rest)
  | .picker fetch =>
    let (answer, rest) := targets.fetch w.url fetch value (b, s)
    ((answer.map fun () => value).mapError failed, rest)

-- A widget was moved to a value. A value in its range goes to the target on the nearest grid
-- point; what the target stores becomes the value of the widget, and every listener is told. If
-- anything fails, no listener hears of it.
def notify (targets : Targets α σ) (b : Bridge α) (s : σ) (id : String) (value : α) :
    Except (ControlError α) (α × List (ListenerId × ControlEvent α)) × Bridge α × σ :=
  match b.widget? id with
  | none => (.error (.unknownWidget id), b, s)
  | some w =>
    if !Scalar.isFinite value ∨ value < w.param.min ∨ w.param.max < value then
      (.error (.outOfRange id value w.param.min w.param.max), b, s)
    else
      match b.dispatch targets w (w.param.snap value) s with
      | (.error e, rest) => (.error e, rest)
      | (.ok applied, b, s) =>
        -- the widget may have been removed while its target was at work
        let b := b.modify id (·.setClamped applied)
        (.ok (applied, b.listeners.map fun l => (l, ⟨id, applied⟩)), b, s)

def spectrum {β : Type} (b : Bridge α) (latest : Snapshot β) : Option (Snapshot β) :=
  if b.hasSnapshots then some latest else none

def describe (b : Bridge α) : String :=
  "ControlBridge \x7b widgets: " ++ toString b.widgets.length ++ ", listeners: "
    ++ toString b.listeners.length ++ ", snapshots: " ++ toString b.hasSnapshots ++ " \x7d"

end Bridge

end RadioSpectrum
