namespace RadioSpectrum

-- A complete result. Generation 0 stands for "nothing yet".
structure Snapshot (β : Type) where
  generation : Nat
  bins : List β
deriving Repr, BEq

namespace Snapshot

variable {β : Type}

def empty : Snapshot β := ⟨0, []⟩

def length (s : Snapshot β) : Nat :=
  s.bins.length

def isEmpty (s : Snapshot β) : Bool :=
  s.bins.isEmpty

end Snapshot

-- The cell that readers look into, and the count that its only publisher keeps.
structure SnapshotStore (β : Type) where
  current : Snapshot β := .empty
  published : Nat := 0

namespace SnapshotStore

variable {β : Type}

def publish (s : SnapshotStore β) (bins : List β) : SnapshotStore β :=
  { current := ⟨s.published + 1, bins⟩, published := s.published + 1 }

def generation (s : SnapshotStore β) : Nat :=
  s.current.generation

def describe (s : SnapshotStore β) : String :=
  "SnapshotStore \x7b generation: " ++ toString s.generation ++ ", bins: "
    ++ toString s.current.length ++ " \x7d"

end SnapshotStore

end RadioSpectrum
