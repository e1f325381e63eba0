import RadioSpectrum.Flowgraph.State

namespace RadioSpectrum

namespace Flowgraph

namespace State

variable {α : Type}

def fault (s : State α) (error : StreamError α) : State α :=
  { s with
    stats := s.stats.fault
    faults := s.faults ++ [⟨s.scheduler.transform.name, s.scheduler.sequence, error⟩] }

def install (s : State α) (config : SpectrumConfig) (transform : Transform α) : State α :=
  { s with
    scheduler := { s.scheduler with
      transform
      decimation := max config.decimation 1
      bufferLength := transform.inputLength
      skip := 0 }
    active := config
    windowLength := transform.inputLength
    spaceFreed := s.spaceFreed.notify }

-- If that fails, or if its windows do not fit into the buffer, the old block stays.
def apply (s : State α) (config : SpectrumConfig) : State α :=
  let result := s.factory s.built config
  let s := { s with built := s.built + 1 }
  match result with
  | .error e => s.fault e
  | .ok transform =>
    if 0 < transform.inputLength ∧ transform.inputLength ≤ s.ring.capacity then
      s.install config transform
    else s.fault (.transformFailure (.windowTooLong transform.inputLength s.ring.capacity))

def takeOver (s : State α) : State α :=
  match s.pending with
  | none => s
  | some config => { s with pending := none }.apply config

def drained (s : State α) (ring : SampleRing) : State α :=
  { s with
    ring
    scheduler := { s.scheduler with phase := .boundary, sequence := s.scheduler.sequence + 1 }
    stats := s.stats.consume s.scheduler.bufferLength
    spaceFreed := s.spaceFreed.notify }

def deliver (s : State α) (bins : List Float32) : State α :=
  if s.scheduler.skip = 0 then
    { s with
      store := s.store.publish bins
      stats := s.stats.compute true
      scheduler := { s.scheduler with skip := s.scheduler.decimation - 1 } }.announce
  else
    { s with
      stats := s.stats.compute false
      scheduler := { s.scheduler with skip := s.scheduler.skip - 1 } }

def compute (s : State α) (window : List Int8) : State α :=
  match s.scheduler.transform.compute window with
  | .ok bins => s.deliver bins
  | .error e => s.fault e

def finish (s : State α) : Summary × State α :=
  ({ lastGeneration := s.store.published, discarded := s.ring.length, stats := s.stats },
    { s with
      ring := s.ring.dropReader
      running := false
      scheduler := { s.scheduler with phase := .finished } }.announce)

def park (s : State α) : State α :=
  { s with
    scheduler := { s.scheduler with phase := .parked }
    dataReady := s.dataReady.listen }

inductive Sight (α : Type) where
  | ended (s : State α)
  | drained (window : List Int8) (s : State α)
  -- There is less than a window.
  | starved (s : State α)

-- Looks once: pending settings, then a stop, then a window.
def look (s : State α) : Sight α :=
  let s := s.takeOver
  if s.stopping then .ended s
  else
    match s.ring.read? s.scheduler.bufferLength with
    | none => .starved s
    | some (window, ring) => .drained window (s.drained ring)

-- Looks. If there is nothing to do, a signal that was kept buys one more look.
def watch (s : State α) : Sight α :=
  match s.look with
  | .starved s =>
    match s.dataReady.spend? with
    | none => .starved s
    | some signal => { s with dataReady := signal }.look
  | sight => sight

def Sight.act : Sight α → Option Summary × State α
  | .ended s =>
    let (summary, s) := s.finish
    (some summary, s)
  | .drained window s => (none, s.compute window)
  | .starved s => (none, s.park)

def start (s : State α) : State α :=
  { s with
    running := true
    scheduler := { s.scheduler with
      phase := .boundary
      bufferLength := s.scheduler.transform.inputLength
      skip := 0
      sequence := 0 } }

-- The scheduler as it gets up for its turn, unless it sleeps on or is gone.
def rouse? (s : State α) : Option (State α) :=
  match s.scheduler.phase with
  | .idle => some s.start
  | .boundary => some s
  | .parked => s.dataReady.rise?.map fun signal => { s with dataReady := signal }
  | .finished | .dropped => none

def sight? (s : State α) : Option (Sight α) :=
  s.rouse?.map watch

-- One turn of the scheduler. A summary comes with the turn that ends the run.
def turn (s : State α) : Option Summary × State α :=
  match s.sight? with
  | none => (none, s)
  | some sight => sight.act

def drop (s : State α) : State α :=
  match s.scheduler.phase with
  | .idle =>
    { s with ring := s.ring.dropReader, scheduler := { s.scheduler with phase := .dropped } }
  | _ => s

end State

end Flowgraph

end RadioSpectrum
