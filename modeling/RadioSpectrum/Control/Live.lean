import RadioSpectrum.Control.Bridge
import RadioSpectrum.Flowgraph.Control

namespace RadioSpectrum

namespace Targets

variable {α : Type} [Scalar α]

-- Parameters go to the flowgraph; every remote request fails.
def live : Targets α (Flowgraph.State α) where
  update block index value
    | (b, s) =>
      match s.update block index value with
      | .error e => (.error e, b, s)
      | .ok (stored, s) => (.ok stored, b, s)
  call url _ _ _ rest := (.error (noEndpointMessage url), rest)
  fetch url _ _ rest := (.error (noEndpointMessage url), rest)

end Targets

namespace Bridge

variable {α : Type}

def ofTables (tables : List (BlockId × String × List (Parameter α))) :
    Except (ControlError α) (Bridge α) :=
  tables.foldlM
    (fun b (block, _, table) => do
      let (result, b) := b.addBlock "" block table
      result
      return b)
    {}

end Bridge

end RadioSpectrum
