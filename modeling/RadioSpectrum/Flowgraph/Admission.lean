import RadioSpectrum.Flowgraph.State

namespace RadioSpectrum

namespace Flowgraph

abbrev Admission (α : Type) := Except (StreamError α) Bool

-- What a host is told. It does not learn of errors.
def Admission.isGranted {α : Type} : Admission α → Bool
  | .ok accepted => accepted
  | .error _ => false

namespace State

variable {α : Type}

-- The buffered samples that the scheduler drains without further input.
def reclaimable (s : State α) (free : Nat) : Nat :=
  let window := max s.nextWindowLength 1
  (s.ring.capacity - free) / window * window

-- Tries to take a chunk. No answer means that it is worth waiting.
def offer (s : State α) (chunk : List Int8) : Option (Admission α) × State α :=
  if s.stopping ∨ s.ring.readerDropped then (some (.error .shutdownInProgress), s)
  else
    match s.ring.write chunk with
    | .ok ring =>
      (some (.ok true),
        { s with ring, stats := s.stats.accept chunk.length, dataReady := s.dataReady.notify })
    | .error (.admissionRejected requested free) =>
      if s.policy = .wait ∧ requested ≤ free + s.reclaimable free then (none, s)
      else (some (.ok false), { s with stats := s.stats.reject })
    | .error e => (some (.error e), s)

def suspend (s : State α) (chunk : List Int8) : State α :=
  { s with suspended := some chunk, spaceFreed := s.spaceFreed.listen }

-- A signal that was kept buys one more look.
def push (s : State α) (chunk : List Int8) : Option (Admission α) × State α :=
  match s.offer chunk with
  | (some answer, s) => (some answer, s)
  | (none, s) =>
    match s.spaceFreed.spend? with
    | none => (none, s.suspend chunk)
    | some signal =>
      match { s with spaceFreed := signal }.offer chunk with
      | (some answer, s) => (some answer, s)
      | (none, s) => (none, s.suspend chunk)

def resumePush (s : State α) : Option (Admission α) × State α :=
  match s.suspended, s.spaceFreed.rise? with
  | some chunk, some signal => { s with suspended := none, spaceFreed := signal }.push chunk
  | _, _ => (none, s)

end State

end Flowgraph

end RadioSpectrum
