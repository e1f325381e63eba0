import RadioSpectrum.Proofs.Except
import RadioSpectrum.Proofs.Flowgraph.Gate
import RadioSpectrum.Proofs.Flowgraph.Scheduler
import RadioSpectrum.Proofs.Flowgraph.Waits

namespace RadioSpectrum

namespace Flowgraph

variable {α : Type}

-- What a step does, and what comes of it. A push or a wait without an answer sleeps; it is recorded
-- again each time it is looked after.
inductive Event (α : Type) where
  | push (chunk : List Int8) (answer : Option (Admission α))
  | update (block : BlockId) (index : Nat) (value : α) (answer : Except (StreamError α) α)
  | stop
  | turn (handoff : Option (Handoff α)) (summary : Option Summary)
  | wait (ticket : Nat) (answer : Option Nat)
  | drop

namespace Event

-- The chunk that a push got accepted.
def accepted? : Event α → Option (List Int8)
  | push chunk (some (.ok true)) => some chunk
  | _ => none

def handoff? : Event α → Option (Handoff α)
  | turn handoff _ => handoff
  | _ => none

-- The steps that wake a push though no scheduler takes part in them.
def Signals : Event α → Prop
  | stop                     => True
  | update block _ _ (.ok _) => block = .spectrum
  | _                        => False

end Event

-- The chunks that were accepted in a run, in the order in which they were.
def accepted (events : List (Event α)) : List (List Int8) :=
  events.filterMap Event.accepted?

-- What the blocks were given to compute in a run, in the order in which they were.
def handoffs (events : List (Event α)) : List (Handoff α) :=
  events.filterMap Event.handoff?

def windows (events : List (Event α)) : List (List Int8) :=
  (handoffs events).map (·.window)

@[simp]
theorem accepted_append (events events' : List (Event α)) :
    accepted (events ++ events') = accepted events ++ accepted events' :=
  List.filterMap_append

@[simp]
theorem handoffs_append (events events' : List (Event α)) :
    handoffs (events ++ events') = handoffs events ++ handoffs events' :=
  List.filterMap_append

@[simp]
theorem windows_append (events events' : List (Event α)) :
    windows (events ++ events') = windows events ++ windows events' := by
  simp [windows]

variable [Scalar α]

namespace State

-- A step of one of the parties. There is one gate, so nobody pushes while a push sleeps, and
-- whoever waits has a ticket of his own.
inductive Step : State α → Event α → State α → Prop
  | push {s} (chunk) (free : s.suspended = none) :
    Step s (.push chunk (s.push chunk).1) (s.push chunk).2
  | resume {s chunk} (suspended : s.suspended = some chunk) :
    Step s (.push chunk s.resumePush.1) s.resumePush.2
  | update {s t block index value stored} (h : s.update block index value = .ok (stored, t)) :
    Step s (.update block index value (.ok stored)) t
  | refuse {s block index value error} (h : s.update block index value = .error error) :
    Step s (.update block index value (.error error)) s
  | stop {s} : Step s .stop s.stop
  | turn {s} : Step s (.turn s.handoff? s.turn.1) s.turn.2
  | wait {s} (ticket generation) (fresh : ∀ w ∈ s.waits, w.ticket ≠ ticket) :
    Step s (.wait ticket (s.wait ticket generation).1) (s.wait ticket generation).2
  | resumeWait {s} (ticket) :
    Step s (.wait ticket (s.resumeWait ticket).1) (s.resumeWait ticket).2
  | drop {s} : Step s .drop s.drop

inductive Run (s : State α) : List (Event α) → State α → Prop
  | refl : Run s [] s
  | step {t u events event} (r : Run s events t) (e : Step t event u) :
    Run s (events ++ [event]) u

theorem Run.trans {s t u : State α} {events events'} (r₁ : Run s events t) (r₂ : Run t events' u) :
    Run s (events ++ events') u := by
  induction r₂
  case refl      => simpa using r₁
  case step e hi => exact List.append_assoc .. ▸ hi.step e

-- The states between which an event was recorded.
theorem Run.exists_step {s u : State α} {events before after event} (r : Run s events u)
    (h : events = before ++ event :: after) :
    ∃ t v, Run s before t ∧ Step t event v ∧ Run v after u := by
  induction r generalizing after
  case refl => simp at h
  case step last r e hi =>
    rcases List.eq_nil_or_concat after with rfl | ⟨between, last', rfl⟩
    case inl =>
      obtain ⟨rfl, he⟩ := List.append_inj' h rfl
      obtain rfl := List.singleton_inj.mp he
      exact ⟨_, _, r, e, .refl⟩
    case inr =>
      rw [List.concat_eq_append, ← List.cons_append, ← List.append_assoc] at h
      obtain ⟨he, hl⟩ := List.append_inj' h rfl
      obtain rfl := List.singleton_inj.mp hl
      obtain ⟨t, v, r₁, e₁, r₂⟩ := hi he
      exact ⟨t, v, r₁, e₁, List.concat_eq_append .. ▸ r₂.step e⟩

-- An update that is taken stages new settings of the spectrum block, or changes the radio at once.
inductive Updated (s : State α) (block : BlockId) (index : Nat) (value : α) : α → State α → Prop
  | staged {next table} (stopping : s.stopping = false) (spectrum : block = .spectrum)
    (changed : s.staged.withParameter index value = .ok next)
    (fits : next.windowLength ≤ s.ring.capacity) (shown : next.parameters = .ok table) :
    Updated s block index value (table[index]?.elim value (·.value)) (s.stage next)
  | tuned {stored frontend} (stopping : s.stopping = false) (radio : block = .frontend)
    (changed : s.frontend.set index value = .ok (stored, frontend)) :
    Updated s block index value stored { s with frontend }

theorem updated_of_update {s t : State α} {block index value stored}
    (h : s.update block index value = .ok (stored, t)) : Updated s block index value stored t := by
  simp only [update, ite_eq_iff, bind_eq_ok, pure_eq_ok, throw_eq_ok, false_and, and_false,
    exists_false, false_or, or_false, Bool.not_eq_true, not_lt] at h
  obtain ⟨hs, ⟨hb, next, hn, hf, table, ht, h⟩ | ⟨-, hb, ⟨_, frontend⟩, hd, h⟩⟩ := h
  · cases h
    exact .staged hs hb hn hf ht
  · cases h
    exact .tuned hs hb hd

-- A flowgraph as it is built, with everything that was checked.
inductive Built (factory : Factory α) (config : FlowgraphConfig) : State α → Prop
  | intro {transform frontend} (valid : config.transform.validate (α := α) = .ok ())
    (room : config.transform.windowLength ≤ config.bufferCapacity)
    (made : factory 0 config.transform = .ok transform) (pos : 0 < transform.inputLength)
    (fits : transform.inputLength ≤ config.bufferCapacity)
    (tuned : FrontendSettings.ofConfig config.frontend = .ok frontend) :
    Built factory config {
      ring := .empty config.bufferCapacity (pos.trans_le fits)
      policy := config.admission
      factory
      built := 1
      scheduler := {
        transform
        decimation := max config.transform.decimation 1
        bufferLength := transform.inputLength }
      staged := config.transform
      active := config.transform
      windowLength := transform.inputLength
      frontend }

theorem built_of_ofConfig {s : State α} {factory config} (h : ofConfig factory config = .ok s) :
    Built factory config s := by
  simp only [ofConfig, FlowgraphConfig.validate, ite_eq_iff, dite_eq_iff, bind_eq_ok, pure_eq_ok,
    throw_eq_ok, mapError_eq_ok, false_and, and_false, exists_false, false_or, not_lt] at h
  obtain ⟨_, ⟨_, hv, hr, -⟩, transform, ht, hp, hf, frontend, hd, rfl⟩ := h
  exact .intro hv hr ht (Nat.pos_of_ne_zero hp) hf hd

theorem Built.ring_toList {s : State α} {factory config} (b : Built factory config s) :
    s.ring.toList = [] := by
  cases b; rfl

theorem Built.ring_capacity {s : State α} {factory config} (b : Built factory config s) :
    s.ring.capacity = config.bufferCapacity := by
  cases b; simp

theorem Built.policy_eq {s : State α} {factory config} (b : Built factory config s) :
    s.policy = config.admission := by
  cases b; rfl

theorem Built.factory_eq {s : State α} {factory config} (b : Built factory config s) :
    s.factory = factory := by
  cases b; rfl

section Small

-- Leaves points as they are.
def identityKernel : Kernel where
  transform := id
  cosine _ := 1

-- A flowgraph that is small enough to be run by hand.
def smallConfig : FlowgraphConfig where
  bufferCapacity := 100
  transform := { fftSize := 64, format := .real }
  admission := .wait

theorem small_isSome :
    (ofConfig (α := Rat) (spectrumFactory identityKernel) smallConfig).toOption.isSome := by
  decide +kernel

def small : State Rat :=
  (ofConfig (spectrumFactory identityKernel) smallConfig).toOption.get small_isSome

theorem ofConfig_eq_small : ofConfig (spectrumFactory identityKernel) smallConfig = .ok small :=
  eq_ok_get small_isSome

end Small

end State

end Flowgraph

end RadioSpectrum
