import RadioSpectrum.Proofs.Flowgraph.Feed

namespace RadioSpectrum

namespace Flowgraph

section Definitions

-- A push that was asked for.
structure Call where
  ticket : Nat
  chunk : List Int8
deriving Repr, DecidableEq

-- A push and what came of it.
structure Decision (α : Type) where
  call : Call
  admission : Admission α

variable {α : Type}

def Decision.verdict (d : Decision α) : Nat × Admission α :=
  (d.call.ticket, d.admission)

-- The chunks whose callers were told that they are in.
def granted (decisions : List (Decision α)) : List (List Int8) :=
  (decisions.filter (·.admission.isGranted)).map (·.call.chunk)

-- A push that sleeps at the gate is the first of those that are open.
def Owned (s : State α) (pushes : List Call) : Prop :=
  ∀ chunk, s.suspended = some chunk → pushes.head?.map Call.chunk = some chunk

-- On the way from `s` to `t`, the first of the open pushes were decided, and the others are open
-- still.
structure Served [Scalar α] (s : State α) (pushes : List Call) (decisions : List (Decision α))
    (pushes' : List Call) (t : State α) : Prop where
  run   : ∃ events, s.Run events t ∧ accepted events = granted decisions
  calls : pushes = decisions.map Decision.call ++ pushes'
  owned : Owned t pushes'

end Definitions

variable {α : Type} {s t u : State α} {chunk : List Int8} {call : Call}
  {pushes pushes' pushes'' : List Call} {decisions decisions' : List (Decision α)}

@[simp]
theorem granted_append (decisions decisions' : List (Decision α)) :
    granted (decisions ++ decisions') = granted decisions ++ granted decisions' := by
  simp [granted]

theorem isGranted_of_granted_eq_nil (h : granted decisions = []) :
    ∀ v ∈ decisions.map Decision.verdict, v.2.isGranted = false := by
  simpa [granted, Decision.verdict] using h

theorem Owned.append (h : Owned s pushes) (more : List Call) : Owned s (pushes ++ more) := by
  intro chunk hs
  have hc := h chunk hs
  cases pushes
  case nil  => simp at hc
  case cons => simpa using hc

theorem Owned.suspended (h : Owned s (call :: pushes)) :
    s.suspended = none ∨ s.suspended = some call.chunk := by
  cases hs : s.suspended
  case none       => exact .inl rfl
  case some chunk => exact .inr (by simpa using (h chunk hs).symm)

namespace State

theorem Pushed.suspended_eq {answer} (p : Pushed s chunk answer t) (free : s.suspended = none) :
    t.suspended = if answer.isSome then none else some chunk := by
  cases p
  case slept      => rfl
  case answered o => cases o <;> exact free

theorem Resumed.suspended_eq {answer} (r : Resumed s answer t) (hs : s.suspended = some chunk) :
    t.suspended = if answer.isSome then none else some chunk := by
  cases r
  case asleep => exact hs
  case woken hs' _ p =>
    obtain rfl : chunk = _ := Option.some_inj.mp (hs.symm.trans hs')
    exact p.suspended_eq rfl

theorem Updated.preserves_suspended [Scalar α] {block index value stored}
    (d : Updated s block index value stored t) : t.suspended = s.suspended := by
  cases d <;> rfl

-- The gate is asked by the push that sleeps there, or by a new one if there is none.
theorem step_of_owned [Scalar α] (h : s.suspended = none ∨ s.suspended = some chunk) :
    Step s (.push chunk (s.ask chunk).1) (s.ask chunk).2 ∧
      (s.ask chunk).2.suspended = if (s.ask chunk).1.isSome then none else some chunk := by
  unfold ask
  rcases h with hs | hs <;> simp only [hs, Option.isSome_none, Option.isSome_some, if_true]
  · exact ⟨.push chunk hs, (push_pushed s chunk).suspended_eq hs⟩
  · exact ⟨.resume hs, (resumePush_resumed s).suspended_eq hs⟩

-- Whoever asks at a gate that is shut is sent away, be it that he slept there.
theorem ask_of_stopping (h : s.Sound) (hs : s.stopping = true)
    (hc : s.suspended = none ∨ s.suspended = some chunk) :
    (s.ask chunk).1 = some (.error .shutdownInProgress) := by
  unfold ask
  rcases hc with hc | hc <;> simp only [hc, Option.isSome_none, Option.isSome_some, if_true]
  · have hn : ¬s.Open := fun o => by simp [o.stopping] at hs
    simp [push_of_not_open hn]
  · exact (h.resumePush_of_stopping hs hc).left

end State

namespace Served

variable [Scalar α]

theorem refl (h : Owned s pushes) : Served s pushes [] pushes s :=
  ⟨⟨[], .refl, rfl⟩, rfl, h⟩

theorem trans (d₁ : Served s pushes decisions pushes' t)
    (d₂ : Served t pushes' decisions' pushes'' u) :
    Served s pushes (decisions ++ decisions') pushes'' u := by
  have ⟨_, r₁, h₁⟩ := d₁.run
  have ⟨_, r₂, h₂⟩ := d₂.run
  refine ⟨⟨_, r₁.trans r₂, by simp [h₁, h₂]⟩, ?_, d₂.owned⟩
  rw [d₁.calls, d₂.calls, List.map_append, List.append_assoc]

-- More pushes may come behind those that are open.
theorem append (d : Served s pushes decisions pushes' t) (more : List Call) :
    Served s (pushes ++ more) decisions (pushes' ++ more) t :=
  ⟨d.run, by rw [d.calls, List.append_assoc], d.owned.append more⟩

theorem sound (d : Served s pushes decisions pushes' t) (h : s.Sound) : t.Sound :=
  have ⟨_, r, _⟩ := d.run
  r.sound h

-- After a stop nobody is let in.
theorem frozen (d : Served s pushes decisions pushes' t) (h : s.Sound) (hs : s.stopping = true) :
    granted decisions = [] ∧ s.Frozen t := by
  have ⟨_, r, ha⟩ := d.run
  have ⟨away, settling⟩ := r.settling h hs
  exact ⟨ha ▸ accepted_eq_nil away, settling.frozen hs⟩

-- A step that is none of the gate decides nothing.
theorem of_step {event} (h : Owned s pushes) (e : s.Step event t) (ha : event.accepted? = none)
    (hs : t.suspended = s.suspended) : Served s pushes [] pushes t := by
  refine ⟨⟨_, .step .refl e, by simp [accepted, ha, granted]⟩, rfl, fun chunk hc => ?_⟩
  exact h chunk (hs ▸ hc)

-- The first of the open pushes is decided, or goes on sleeping.
theorem ask (call : Call) (h : Owned s (call :: pushes)) :
    (∃ admission, (s.ask call.chunk).1 = some admission ∧
      Served s (call :: pushes) [⟨call, admission⟩] pushes (s.ask call.chunk).2) ∨
    ((s.ask call.chunk).1 = none ∧
      Served s (call :: pushes) [] (call :: pushes) (s.ask call.chunk).2) := by
  have ⟨e, hs⟩ := State.step_of_owned h.suspended
  generalize (s.ask call.chunk).1 = answer, (s.ask call.chunk).2 = t at e hs ⊢
  cases answer
  case none =>
    refine .inr ⟨rfl, ⟨_, .step .refl e, rfl⟩, rfl, fun chunk hc => ?_⟩
    simpa [hs] using hc
  case some admission =>
    refine .inl ⟨admission, rfl, ⟨_, .step .refl e, ?_⟩, rfl, fun chunk hc => by simp [hs] at hc⟩
    rcases admission with _ | _ | _ <;> rfl

end Served

end Flowgraph

end RadioSpectrum
