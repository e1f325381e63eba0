import RadioSpectrum.Document

namespace RadioSpectrum

namespace Toml

-- The entries of a table in the order in which they were first named.
abbrev Entries := List (String × Document)

namespace Entries

-- Replaces an entry in its place, or adds it at the end.
def put (entries : Entries) (k : String) (d : Document) : Entries :=
  if entries.any (·.1 = k) then entries.map fun e => if e.1 = k then (k, d) else e
  else entries ++ [(k, d)]

-- Changes the entries of a table, or those of the last table of an open list. `passes` tells
-- which tables may be entered.
def enter? (passes : Origin → Bool) (f : Entries → Option Entries) : Document → Option Document
  | .table origin inner => if passes origin then (f inner).map (.table origin) else none
  | .list true items =>
    match items.getLast? with
    | some (.table origin inner) =>
      (f inner).map fun inner => .list true (items.dropLast ++ [.table origin inner])
    | _ => none
  | _ => none

-- Adds a value under joined keys. The tables on the way are made where they are missing, and must
-- not have been written down whole or opened by a heading.
def insert? (value : Document) : List String → Entries → Option Entries
  | [], _ => none
  | [k], entries => if (entries.lookup k).isSome then none else some (entries.put k value)
  | k :: k' :: ks, entries =>
    match entries.lookup k with
    | none => do return entries.put k (.table .joined (← insert? value (k' :: ks) []))
    | some d => do
      -- the last table on the way has to be one that only joined keys lead to
      let passes (origin : Origin) : Bool := origin = .joined ∨ (origin = .passage ∧ !ks.isEmpty)
      match d, ks with
      | .list .., [] => none
      | d, _ => return entries.put k (← enter? passes (insert? value (k' :: ks)) d)

-- Missing tables on the way are made.
def heading? (f : String → Entries → Option Entries) : List String → Entries → Option Entries
  | [], _ => none
  | [k], entries => f k entries
  | k :: k' :: ks, entries =>
    match entries.lookup k with
    | none => do return entries.put k (.table .passage (← heading? f (k' :: ks) []))
    | some d => do return entries.put k (← enter? (· ≠ .whole) (heading? f (k' :: ks)) d)

-- Opens a table. One that headings have only led through so far may be opened, no other.
def openTable? (k : String) (entries : Entries) : Option Entries :=
  match entries.lookup k with
  | none => some (entries.put k (.table .heading []))
  | some (.table .passage inner) => some (entries.put k (.table .heading inner))
  | some _ => none

def openItem? (k : String) (entries : Entries) : Option Entries :=
  match entries.lookup k with
  | none => some (entries.put k (.list true [.table .heading []]))
  | some (.list true items) => some (entries.put k (.list true (items ++ [.table .heading []])))
  | some _ => none

def within? (f : Entries → Option Entries) : List String → Entries → Option Entries
  | [], entries => f entries
  | k :: ks, entries => do
    return entries.put k (← enter? (fun _ => true) (within? f ks) (← entries.lookup k))

end Entries

inductive Line where
  | blank
  | entry (key : List String) (value : Document)
  | table (path : List String)
  | item (path : List String)

-- The table that is filled, by the path of its heading, and the document so far.
structure Progress where
  path : List String := []
  root : Entries := []

namespace Progress

def add? (p : Progress) : Line → Option Progress
  | .blank => some p
  | .entry key value => do
    return { p with root := ← Entries.within? (Entries.insert? value key) p.path p.root }
  | .table path => do return ⟨path, ← Entries.heading? Entries.openTable? path p.root⟩
  | .item path => do return ⟨path, ← Entries.heading? Entries.openItem? path p.root⟩

end Progress

end Toml

end RadioSpectrum
