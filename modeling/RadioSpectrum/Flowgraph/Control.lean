import RadioSpectrum.Flowgraph.State

namespace RadioSpectrum

namespace Flowgraph

namespace State

variable {α : Type}

def stop (s : State α) : State α :=
  { s with
    stopping := true
    dataReady := s.dataReady.notify
    spaceFreed := s.spaceFreed.notify }.announce

-- An answer is the generation that is current then.
def wait (s : State α) (ticket generation : Nat) : Option Nat × State α :=
  if generation ≤ s.generation ∨ (s.stopping ∧ !s.running) then (some s.generation, s)
  else (none, { s with waits := s.waits ++ [{ ticket, generation }] })

def resumeWait (s : State α) (ticket : Nat) : Option Nat × State α :=
  match s.waits.find? (·.ticket = ticket) with
  | some w =>
    if w.woken then { s with waits := s.waits.filter (·.ticket ≠ ticket) }.wait ticket w.generation
    else (none, s)
  | none => (none, s)

variable [Scalar α]

-- The parameters of a block with the values that were asked for last.
def parameters (s : State α) (block : BlockId) : Except (StreamError α) (List (Parameter α)) :=
  if block = .spectrum then s.staged.parameters
  else if block = .frontend then .ok s.frontend.parameters
  else .error (.unknownBlock block)

def tables (s : State α) : Except (StreamError α) (List (BlockId × String × List (Parameter α))) :=
  BlockId.all.mapM fun (block, name) => do return (block, name, ← s.parameters block)

-- The scheduler takes them over before the next window.
def stage (s : State α) (config : SpectrumConfig) : State α :=
  { s with
    staged := config
    pending := some config
    dataReady := s.dataReady.notify
    spaceFreed := s.spaceFreed.notify }

-- Changes one parameter. The value has to lie on its grid, and comes back as stored.
def update (s : State α) (block : BlockId) (index : Nat) (value : α) :
    Except (StreamError α) (α × State α) := do
  if s.stopping then throw .shutdownInProgress
  if block = .spectrum then
    let next ← s.staged.withParameter index value
    if s.ring.capacity < next.windowLength then
      throw (.invalidParameter "fft_order" value (.windowTooLong next.windowLength s.ring.capacity))
    let stored := ((← next.parameters)[index]?).elim value (·.value)
    return (stored, s.stage next)
  else if block = .frontend then
    let (stored, frontend) ← s.frontend.set index value
    return (stored, { s with frontend })
  else throw (.unknownBlock block)

end State

end Flowgraph

end RadioSpectrum
