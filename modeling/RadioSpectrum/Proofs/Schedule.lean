import Mathlib.Order.RelClasses

namespace RadioSpectrum

namespace Schedule

section Definitions

variable {β ρ γ : Type}

-- The party that takes the step with each number.
def Fair (order : Nat → ρ) : Prop :=
  ∀ party n, ∃ m, n ≤ m ∧ order m = party

-- The parties that take the steps from `n` on, `k` of them.
def steps (order : Nat → ρ) (n k : Nat) : List ρ :=
  (List.range' n k).map order

-- That the end comes nearer by the steps of the party that is due. The steps of others bring it
-- nearer too, or the same party stays due.
structure Progress [LT γ] (step : β → ρ → β) (inv done : β → Prop) (rank : β → γ) (due : β → ρ) :
    Prop where
  keep    : ∀ {x} party, inv x → inv (step x party)
  advance : ∀ {x}, inv x → ¬done x → rank (step x (due x)) < rank x
  hold    : ∀ {x} party, inv x → ¬done x → rank (step x party) < rank x ∨
    rank (step x party) = rank x ∧ due (step x party) = due x

end Definitions

variable {β ρ γ : Type} {step : β → ρ → β} {inv done : β → Prop} {rank : β → γ} {due : β → ρ}
  {order : Nat → ρ} {x : β}

theorem steps_succ (order : Nat → ρ) (n k : Nat) :
    steps order n (k + 1) = order n :: steps order (n + 1) k := by
  rw [steps, List.range'_succ, List.map_cons, steps]

theorem steps_add (order : Nat → ρ) (n k l : Nat) :
    steps order n (k + l) = steps order n k ++ steps order (n + k) l := by
  rw [steps, ← List.range'_append_1, List.map_append, steps, steps]

namespace Progress

-- The party that is due has its step at some time, unless the rank falls before.
theorem exists_lower [LT γ] (p : Progress step inv done rank due) (h : inv x) (n d : Nat)
    (hm : order (n + d) = due x) : ∃ k, inv ((steps order n k).foldl step x) ∧
      (done ((steps order n k).foldl step x) ∨ rank ((steps order n k).foldl step x) < rank x) := by
  by_cases hd : done x
  case pos => exact ⟨0, h, .inl hd⟩
  case neg =>
    induction d generalizing x n
    case zero =>
      have hl : rank (step x (order n)) < rank x := by
        rw [show order n = due x from hm]
        exact p.advance h hd
      exact ⟨1, p.keep _ h, .inr hl⟩
    case succ d hi =>
      have h' := p.keep (order n) h
      rcases p.hold (order n) h hd with hl | ⟨hr, hs⟩
      · exact ⟨1, h', .inr hl⟩
      · by_cases hd' : done (step x (order n))
        case pos => exact ⟨1, h', .inl hd'⟩
        case neg =>
          have hm : order (n + 1 + d) = due (step x (order n)) := by
            rw [hs, ← hm, Nat.add_right_comm, Nat.add_assoc]
          obtain ⟨k, hk⟩ := hi h' (n + 1) hm hd'
          refine ⟨k + 1, ?_⟩
          rw [steps_succ, List.foldl_cons, ← hr]
          exact hk

theorem exists_done [Preorder γ] [WellFoundedLT γ] (p : Progress step inv done rank due)
    (fair : Fair order) (h : inv x) (n : Nat) : ∃ k, done ((steps order n k).foldl step x) := by
  induction hr : rank x using WellFoundedLT.induction generalizing x n
  case ind r hi =>
    subst hr
    obtain ⟨m, hn, hm⟩ := fair (due x) n
    obtain ⟨d, rfl⟩ := Nat.exists_eq_add_of_le hn
    obtain ⟨k, hk, hd | hl⟩ := p.exists_lower h n d hm
    · exact ⟨k, hd⟩
    · obtain ⟨l, hd⟩ := hi _ hl hk (n + k) rfl
      exact ⟨k + l, by rwa [steps_add, List.foldl_append]⟩

end Progress

end Schedule

end RadioSpectrum
