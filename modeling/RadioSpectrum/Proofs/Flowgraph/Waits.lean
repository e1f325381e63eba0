import RadioSpectrum.Flowgraph.Control

namespace RadioSpectrum

namespace Flowgraph

namespace State

variable {α : Type} {s t : State α} {ticket generation : Nat} {answer : Option Nat}

-- There is nothing left to wait for: the generation is there, or no other will come.
def Due (s : State α) (generation : Nat) : Prop :=
  generation ≤ s.generation ∨ (s.stopping = true ∧ s.running = false)

inductive Waited (s : State α) (ticket generation : Nat) : Option Nat → State α → Prop
  | answered (due : s.Due generation) : Waited s ticket generation (some s.generation) s
  | slept (due : ¬s.Due generation) :
    Waited s ticket generation none { s with waits := s.waits ++ [{ ticket, generation }] }

theorem wait_waited (s : State α) (ticket generation : Nat) :
    Waited s ticket generation (s.wait ticket generation).1 (s.wait ticket generation).2 := by
  unfold wait
  split
  case isTrue h  => exact .answered (by simpa [Due] using h)
  case isFalse h => exact .slept (by simpa [Due] using h)

-- A call that sleeps goes on once it was woken, as if it were made anew.
inductive WaitResumed (s : State α) (ticket : Nat) : Option Nat → State α → Prop
  | asleep : WaitResumed s ticket none s
  | woken {w answer t} (mem : w ∈ s.waits) (own : w.ticket = ticket) (woken : w.woken = true)
    (r : Waited { s with waits := s.waits.filter (·.ticket ≠ ticket) } ticket w.generation answer
      t) :
    WaitResumed s ticket answer t

theorem resumeWait_waitResumed (s : State α) (ticket : Nat) :
    WaitResumed s ticket (s.resumeWait ticket).1 (s.resumeWait ticket).2 := by
  unfold resumeWait
  split
  case h_1 w hw =>
    split
    case isTrue h =>
      have ho : w.ticket = ticket := by simpa using List.find?_some hw
      exact .woken (List.mem_of_find?_eq_some hw) ho h (wait_waited _ _ _)
    case isFalse => exact .asleep
  case h_2 => exact .asleep

-- Nobody but the callers who wait is concerned.
theorem Waited.exists_waits (r : Waited s ticket generation answer t) :
    ∃ waits, t = { s with waits } := by
  cases r <;> exact ⟨_, rfl⟩

theorem WaitResumed.exists_waits (r : WaitResumed s ticket answer t) :
    ∃ waits, t = { s with waits } := by
  cases r
  case asleep  => exact ⟨_, rfl⟩
  case woken r => exact r.exists_waits

end State

end Flowgraph

end RadioSpectrum
