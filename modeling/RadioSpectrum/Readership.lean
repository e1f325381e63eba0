import RadioSpectrum.Snapshot

namespace RadioSpectrum

-- Stores, readers and kept snapshots are numbered in the order in which they came.
structure Readership (β : Type) where
  stores : List (SnapshotStore β) := []
  -- The store that each reader looks into.
  readers : List Nat := []
  kept : List (Snapshot β) := []

namespace Readership

variable {β : Type}

-- Sets up a store that nothing was published in, with a first reader.
def add (r : Readership β) : (Nat × Nat) × Readership β :=
  ((r.stores.length, r.readers.length),
    { r with stores := r.stores ++ [{}], readers := r.readers ++ [r.stores.length] })

def publish (r : Readership β) (store : Nat) (bins : List β) : Option (Nat × Readership β) := do
  let s ← r.stores[store]?
  let s := s.publish bins
  return (s.published, { r with stores := r.stores.set store s })

def published? (r : Readership β) (store : Nat) : Option Nat := do
  let s ← r.stores[store]?
  return s.published

-- The publisher of a store makes a reader of it.
def enrol (r : Readership β) (store : Nat) : Option (Nat × Readership β) := do
  let _ ← r.stores[store]?
  return (r.readers.length, { r with readers := r.readers ++ [store] })

def clone (r : Readership β) (reader : Nat) : Option (Nat × Readership β) := do
  let store ← r.readers[reader]?
  return (r.readers.length, { r with readers := r.readers ++ [store] })

def store? (r : Readership β) (reader : Nat) : Option (SnapshotStore β) := do
  r.stores[← r.readers[reader]?]?

def read? (r : Readership β) (reader : Nat) : Option (Snapshot β) := do
  let s ← r.store? reader
  return s.current

def keep (r : Readership β) (reader : Nat) : Option (Nat × Readership β) := do
  let seen ← r.read? reader
  return (r.kept.length, { r with kept := r.kept ++ [seen] })

end Readership

end RadioSpectrum
