import RadioSpectrum.CommandLine.Columns
import RadioSpectrum.CommandLine.Failure
import RadioSpectrum.CommandLine.Request
import RadioSpectrum.JsonDocument
import RadioSpectrum.Settings
import RadioSpectrum.Spectrum.Fourier

namespace RadioSpectrum

namespace CommandLine

def configuration {m : Type → Type} [Monad m] [Files m] (path : Option String) :
    Command m FlowgraphConfig :=
  match path with
  | none => return {}
  | some path => Command.within .config (Settings.load path)

def flowgraph (kernel : Kernel) (config : FlowgraphConfig) :
    Except Failure (Flowgraph.State Float) :=
  (Flowgraph.State.ofConfig (Flowgraph.spectrumFactory kernel) config).mapError .config

abbrev Listing := BlockId × String × List (Parameter Float)

namespace Listing

def number (x : Float) : JsonDocument :=
  .verbatim (Binary.jsonText Binary.jsonRange64 x)

def entry (p : Parameter Float) : JsonDocument :=
  .object [("id", .string p.id), ("value", number p.value), ("min", number p.min),
    ("max", number p.max), ("step", number p.step), ("default", number p.default),
    ("unit", .string p.unit.name)]

def document : Listing → JsonDocument
  | (block, name, table) =>
    .object [("block", .verbatim (toString block.number)), ("name", .string name),
      ("parameters", .list (table.map entry))]

def line (index id min max step value : String) : String :=
  "  " ++ String.intercalate " " [Columns.left 4 index, Columns.left 12 id, Columns.right 14 min,
    Columns.right 14 max, Columns.right 10 step, Columns.right 16 value]

def lines : Listing → List String
  | (block, name, table) =>
    s!"Block {block.number} ({name})" :: line "idx" "id" "min" "max" "step" "value"
      :: table.mapIdx (fun i p =>
        line (toString i) p.id (Binary.text p.min) (Binary.text p.max) (Binary.text p.step) p.text)
      ++ [""]

end Listing

namespace ParamsRequest

variable {m : Type → Type} [Monad m] [Files m] [Console m]

def perform (r : ParamsRequest) : Command m Unit := do
  let config ← configuration r.config
  if r.isToml then
    Command.expect .config (config.validate (α := Float))
    let toml ← Command.expect .config (Settings.toToml config)
    (Console.print toml : m Unit)
  else
    let flow ← Command.expect id (flowgraph .machine config)
    let tables ← Command.expect .stream flow.tables
    if r.isJson then Command.say ((JsonDocument.list (tables.map Listing.document)).render 0)
    else (tables.flatMap Listing.lines).forM Command.say

end ParamsRequest

end CommandLine

end RadioSpectrum
