import RadioSpectrum.Flowgraph.Admission
import RadioSpectrum.Flowgraph.Control
import RadioSpectrum.Flowgraph.Turn

namespace RadioSpectrum

namespace Flowgraph

inductive FeedFault (α : Type) where
  -- A chunk does not fit, and no window can be drained.
  | stuck (chunk buffered window : Nat)
  | refused (error : StreamError α)
deriving Repr

def pieces {β : Type} (length : Nat) (xs : List β) : List (List β) :=
  if length = 0 ∨ xs = [] then [] else xs.take length :: pieces length (xs.drop length)
termination_by xs.length
decreasing_by
  have := List.length_pos_iff.mpr (show xs ≠ [] by simp_all)
  have : length ≠ 0 := by simp_all
  rw [List.length_drop]
  omega

namespace State

variable {α : Type}

def afterTurn (s : State α) : State α :=
  s.turn.2

def stuck (s : State α) (chunk : List Int8) : FeedFault α :=
  .stuck chunk.length s.stats.pendingSamples s.staged.windowLength

-- The answer is `false` if the flowgraph takes no more samples.
def feedChunk (s : State α) (chunk : List Int8) :
    Except (FeedFault α) (Bool × State α) :=
  let (answer, t) := if s.suspended.isSome then s.resumePush else s.push chunk
  match answer with
  | some (.ok true) => .ok (true, t)
  | some (.error .shutdownInProgress) => .ok (false, t)
  | some (.error e) => .error (.refused e)
  | some (.ok false) | none =>
    if answer.isSome ∧ t.stats.pendingSamples < t.staged.windowLength then .error (t.stuck chunk)
    else
      let next := t.afterTurn
      -- A chunk is waited for only while a window is buffered, which the turn drains
      -- (`Feeding.Stands.step_step_lt`), so the other branch is unreachable.
      if _ : next.ring.length < s.ring.length then next.feedChunk chunk else .error (t.stuck chunk)
termination_by s.ring.length

def feed (s : State α) : List (List Int8) → Except (FeedFault α) (State α)
  | [] => .ok s
  | chunk :: rest => do
    let (isOpen, s) ← s.feedChunk chunk
    if isOpen then s.feed rest else return s

def drain (s : State α) : State α :=
  if s.stopping ∨ s.stats.pendingSamples < s.staged.windowLength then s
  else
    let next := s.afterTurn
    -- The turn drains the window that is buffered (`Turn.drains`), so the other branch is
    -- unreachable.
    if _ : next.ring.length < s.ring.length then next.drain else next
termination_by s.ring.length

def close (s : State α) : Summary × State α :=
  match s.stop.turn with
  | (some summary, s) => (summary, s)
  | (none, s) => s.finish

def stream (s : State α) (samples : List Int8) (chunk : Nat) :
    Except (FeedFault α) (Summary × State α) := do
  let s ← s.feed (pieces chunk samples)
  return s.drain.close

end State

end Flowgraph

end RadioSpectrum
