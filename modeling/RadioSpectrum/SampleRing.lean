import RadioSpectrum.StreamError

namespace RadioSpectrum

-- A circle of slots of which `length` hold samples, from `head` on. Either side may have let go
-- of it.
structure SampleRing where
  slots : Array Int8
  head : Nat
  length : Nat
  writerDropped : Bool := false
  readerDropped : Bool := false
  head_lt : head < slots.size
  length_le : length ≤ slots.size

namespace SampleRing

def capacity (r : SampleRing) : Nat :=
  r.slots.size

def free (r : SampleRing) : Nat :=
  r.capacity - r.length

def slot (r : SampleRing) (i : Nat) : Nat :=
  (r.head + i) % r.slots.size

theorem size_pos (r : SampleRing) : 0 < r.slots.size :=
  Nat.zero_lt_of_lt r.head_lt

theorem slot_lt (r : SampleRing) (i : Nat) : r.slot i < r.slots.size :=
  Nat.mod_lt _ r.size_pos

def sample (r : SampleRing) (i : Nat) : Int8 :=
  have := r.slot_lt i
  r.slots[r.slot i]

def toList (r : SampleRing) : List Int8 :=
  (List.range r.length).map r.sample

def empty (capacity : Nat) (h : 0 < capacity) : SampleRing where
  slots := Array.replicate capacity 0
  head := 0
  length := 0
  head_lt := by simpa using h
  length_le := Nat.zero_le _

def ofCapacity? (capacity : Nat) : Option SampleRing :=
  if h : 0 < capacity then some (empty capacity h) else none

def zeroCapacityMessage : String :=
  "sample buffer capacity must be non-zero"

-- Adds a sample behind the newest one. A full ring stays as it is.
def push (r : SampleRing) (x : Int8) : SampleRing :=
  if h : r.length < r.slots.size then
    let i := r.slot r.length
    have hi := r.slot_lt r.length
    { r with
      slots := r.slots.set i x
      length := r.length + 1
      head_lt := by simpa using r.head_lt
      length_le := by rw [Array.size_set]; exact h }
  else r

-- Adds a whole chunk, or nothing if it is empty or does not fit.
def write {α : Type} (r : SampleRing) (chunk : List Int8) : Except (StreamError α) SampleRing :=
  if chunk.isEmpty then .error .invalidChunk
  else if r.free < chunk.length then .error (.admissionRejected chunk.length r.free)
  else .ok (chunk.foldl push r)

def advance (r : SampleRing) (n : Nat) : SampleRing :=
  { r with
    head := r.slot n
    length := r.length - n
    head_lt := r.slot_lt n
    length_le := Nat.le_trans (Nat.sub_le _ _) r.length_le }

-- Takes exactly `n` samples, the oldest first, or nothing if there are fewer.
def read? (r : SampleRing) (n : Nat) : Option (List Int8 × SampleRing) :=
  if n ≤ r.length then some ((List.range n).map r.sample, r.advance n) else none

def discard (r : SampleRing) (n : Nat) : Nat × SampleRing :=
  let count := min n r.length
  (count, r.advance count)

def dropWriter (r : SampleRing) : SampleRing :=
  { r with writerDropped := true }

def dropReader (r : SampleRing) : SampleRing :=
  { r with readerDropped := true }

end SampleRing

end RadioSpectrum
