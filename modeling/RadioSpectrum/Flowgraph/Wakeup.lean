namespace RadioSpectrum

inductive Listener where
  | absent
  | asleep
  -- Was told to wake up and has not looked yet.
  | woken
deriving Repr, DecidableEq

structure Wakeup where
  -- A signal is kept for the next party that wants to sleep.
  permit : Bool := false
  listener : Listener := .absent
deriving Repr, DecidableEq

namespace Wakeup

-- Wakes the sleeper, or keeps the signal.
def notify (w : Wakeup) : Wakeup :=
  match w.listener with
  | .asleep => { w with listener := .woken }
  | .absent | .woken => { w with permit := true }

def spend? (w : Wakeup) : Option Wakeup :=
  if w.permit then some { w with permit := false } else none

def listen (w : Wakeup) : Wakeup :=
  { w with listener := .asleep }

def rise? (w : Wakeup) : Option Wakeup :=
  match w.listener with
  | .woken => some { w with listener := .absent }
  | .absent | .asleep => none

end Wakeup

end RadioSpectrum
