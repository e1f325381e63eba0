namespace RadioSpectrum

structure Stats where
  pushesAccepted : Nat := 0
  pushesRejected : Nat := 0
  samplesAccepted : Nat := 0
  -- Samples that were drained, whatever became of their window.
  samplesConsumed : Nat := 0
  windowsComputed : Nat := 0
  windowsPublished : Nat := 0
  -- Windows that were computed and then left out.
  windowsDecimated : Nat := 0
  faults : Nat := 0
deriving Repr, DecidableEq

namespace Stats

def pendingSamples (s : Stats) : Nat :=
  s.samplesAccepted - s.samplesConsumed

def accept (s : Stats) (samples : Nat) : Stats :=
  { s with
    pushesAccepted := s.pushesAccepted + 1
    samplesAccepted := s.samplesAccepted + samples }

def reject (s : Stats) : Stats :=
  { s with pushesRejected := s.pushesRejected + 1 }

def consume (s : Stats) (samples : Nat) : Stats :=
  { s with samplesConsumed := s.samplesConsumed + samples }

def compute (s : Stats) (isPublished : Bool) : Stats :=
  { s with
    windowsComputed := s.windowsComputed + 1
    windowsPublished := s.windowsPublished + isPublished.toNat
    windowsDecimated := s.windowsDecimated + (!isPublished).toNat }

def fault (s : Stats) : Stats :=
  { s with faults := s.faults + 1 }

end Stats

end RadioSpectrum
