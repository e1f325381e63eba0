import RadioSpectrum.Flowgraph.Config
import RadioSpectrum.Flowgraph.Stats
import RadioSpectrum.Flowgraph.Wakeup
import RadioSpectrum.SampleRing
import RadioSpectrum.Snapshot
import RadioSpectrum.Spectrum.Block

namespace RadioSpectrum

namespace Flowgraph

-- Makes the block for some settings. It is told how many blocks it has made before, and may fail
-- or answer differently each time.
abbrev Factory (α : Type) := Nat → SpectrumConfig → Except (StreamError α) (Transform α)

def spectrumFactory {α : Type} [Scalar α] (kernel : Kernel) : Factory α := fun _ config =>
  (SpectrumBlock.ofConfig kernel config).map (·.transform)

structure Fault (α : Type) where
  block : String
  -- The number of the last window that was drained, counted from 1.
  window : Nat
  error : StreamError α

inductive Phase where
  | idle
  -- Is between two windows.
  | boundary
  | parked
  | finished
  -- Was let go without having been run.
  | dropped
deriving Repr, DecidableEq

structure Scheduler (α : Type) where
  phase : Phase := .idle
  transform : Transform α
  decimation : Nat
  bufferLength : Nat
  -- How many results are left out before the next one is published.
  skip : Nat := 0
  sequence : Nat := 0

structure Wait where
  ticket : Nat
  generation : Nat
  woken : Bool := false
deriving Repr, DecidableEq

structure Summary where
  lastGeneration : Nat
  discarded : Nat
  stats : Stats
deriving Repr, DecidableEq

structure State (α : Type) where
  ring : SampleRing
  policy : AdmissionPolicy
  factory : Factory α
  built : Nat
  scheduler : Scheduler α
  -- The settings that were asked for last.
  staged : SpectrumConfig
  -- Settings that the scheduler has not taken over yet.
  pending : Option SpectrumConfig := none
  -- The settings that the block was made for.
  active : SpectrumConfig
  -- The window length of the block, as the gate sees it.
  windowLength : Nat
  frontend : FrontendSettings α
  stats : Stats := {}
  store : SnapshotStore Float32 := {}
  faults : List (Fault α) := []
  -- From the gate to the scheduler.
  dataReady : Wakeup := {}
  -- From the scheduler to the gate.
  spaceFreed : Wakeup := {}
  -- The chunk of a push that sleeps until space is freed.
  suspended : Option (List Int8) := none
  waits : List Wait := []
  stopping : Bool := false
  running : Bool := false

namespace State

variable {α : Type}

def generation (s : State α) : Nat :=
  s.store.generation

-- The length of the window that is drained next. Settings that are still pending count, since
-- they are taken over first.
def nextWindowLength (s : State α) : Nat :=
  match s.pending with
  | some config => config.windowLength
  | none => s.windowLength

def announce (s : State α) : State α :=
  { s with waits := s.waits.map fun w => { w with woken := true } }

def describe (s : State α) : String :=
  "FlowgraphHandle \x7b generation: " ++ toString s.generation ++ ", running: "
    ++ toString s.running ++ ", stopping: " ++ toString s.stopping ++ " \x7d"

def describeGate (s : State α) : String :=
  "IngressGate \x7b free: " ++ toString s.ring.free ++ ", capacity: " ++ toString s.ring.capacity
    ++ ", policy: " ++ s.policy.label ++ " \x7d"

variable [Scalar α]

def ofConfig (factory : Factory α) (config : FlowgraphConfig) :
    Except (ConfigError α) (State α) := do
  config.validate
  let transform ← (factory 0 config.transform).mapError .block
  let window := transform.inputLength
  if hw : window = 0 then
    throw (.block (.transformFailure (.emptyWindow transform.name)))
  else if hc : config.bufferCapacity < window then
    throw (.bufferTooSmall config.bufferCapacity window)
  else
    let frontend ← (FrontendSettings.ofConfig config.frontend).mapError .block
    return {
      ring := .empty config.bufferCapacity (by omega)
      policy := config.admission
      factory
      built := 1
      scheduler := {
        transform
        decimation := max config.transform.decimation 1
        bufferLength := window }
      staged := config.transform
      active := config.transform
      windowLength := window
      frontend }

end State

end Flowgraph

end RadioSpectrum
