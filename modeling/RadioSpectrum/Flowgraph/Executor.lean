import RadioSpectrum.Flowgraph.Admission
import RadioSpectrum.Flowgraph.Control
import RadioSpectrum.Flowgraph.Turn

namespace RadioSpectrum

namespace Flowgraph

inductive Job where
  -- A run. The first one that was asked for has its turn before the other requests. Several may
  -- be asked for, but only the one that is looked at first owns the scheduler.
  | run (isFirst isOwner : Bool)
  | push (chunk : List Int8)
  | wait
deriving Repr

structure Task where
  ticket : Nat
  job : Job
deriving Repr

def Task.load (t : Task) : Nat :=
  match t.job with
  | .push chunk => chunk.length
  | _ => 0

inductive Answer (α : Type) where
  | summary (summary : Summary)
  | alreadyRunning
  | admission (admission : Admission α)
  | generation (generation : Nat)

-- A flowgraph with its open requests in the order in which they came.
structure Executor (α : Type) where
  flow : State α
  isClaimed : Bool := false
  isRequested : Bool := false
  tasks : List Task := []

namespace Executor

variable {α : Type}

-- Some push has not been answered yet.
def isGateBusy (e : Executor α) : Bool :=
  e.tasks.any fun t => match t.job with
    | .push _ => true
    | _ => false

-- Looks at a run. A run that comes too late is refused.
def pollRun (e : Executor α) (isFirst isOwner : Bool) : Option (Answer α) × Executor α × Job :=
  if e.isClaimed ∧ !isOwner then (some .alreadyRunning, e, .run isFirst isOwner)
  else
    let (summary, flow) := e.flow.turn
    (summary.map .summary, { e with flow, isClaimed := true }, .run isFirst true)

def pollPush (e : Executor α) (chunk : List Int8) : Option (Answer α) × Executor α :=
  let (admission, flow) :=
    if e.flow.suspended.isSome then e.flow.resumePush else e.flow.push chunk
  (admission.map .admission, { e with flow })

-- Looks at one open request. A push waits for its turn if the gate is held. Apart from an answer
-- there is what remains of the request, and whether the gate is held from now on.
def look (e : Executor α) (isGateHeld : Bool) (t : Task) :
    Option (Answer α) × Executor α × Job × Bool :=
  match t.job with
  | .run isFirst isOwner =>
    let (answer, e, job) := e.pollRun isFirst isOwner
    (answer, e, job, isGateHeld)
  | .push chunk =>
    if isGateHeld then (none, e, t.job, true)
    else
      let (answer, e) := e.pollPush chunk
      (answer, e, t.job, answer.isNone)
  | .wait =>
    let (reached, flow) := e.flow.resumeWait t.ticket
    (reached.map .generation, { e with flow }, t.job, isGateHeld)

-- Looks at the open requests one after the other. Those behind an unanswered push that want to
-- push have to wait for it. Unanswered requests stay open.
def poll (e : Executor α) (isGateHeld : Bool) :
    List Task → List (Nat × Answer α) × List Task × Executor α
  | [] => ([], [], e)
  | t :: rest =>
    let (answer, e, job, isGateHeld) := e.look isGateHeld t
    let (answers, open', e) := e.poll isGateHeld rest
    match answer with
    | some a => ((t.ticket, a) :: answers, open', e)
    | none => (answers, { t with job } :: open', e)

def isFirstRun (t : Task) : Bool :=
  match t.job with
  | .run true _ => true
  | _ => false

def round (e : Executor α) : List (Nat × Answer α) × Executor α :=
  let (answers, first, e') := e.poll false (e.tasks.filter isFirstRun)
  let (answers', others, e') := e'.poll false (e.tasks.filter (!isFirstRun ·))
  (answers ++ answers', { e' with tasks := (first ++ others) })

-- What is left to be done: samples to be drained or pushed, settings to be taken over, requests
-- to be answered. A round that gets anything done lowers it.
def workLeft (e : Executor α) : Nat :=
  e.flow.ring.length + e.tasks.foldl (fun load t => load + t.load) 0 + e.tasks.length + e.flow.pending.isSome.toNat

-- The answers come with the tickets of their requests.
def settle (e : Executor α) : List (Nat × Answer α) × Executor α :=
  let (answers, next) := e.round
  if _h : next.workLeft < e.workLeft then
    let (later, last) := next.settle
    (answers ++ later, last)
  else (answers, next)
termination_by e.workLeft

def push (e : Executor α) (ticket : Nat) (chunk : List Int8) : Option (Answer α) × Executor α :=
  let (answer, e) := if e.isGateBusy then (none, e) else e.pollPush chunk
  match answer with
  | some a => (some a, e)
  | none => (none, { e with tasks := e.tasks ++ [⟨ticket, .push chunk⟩] })

def wait (e : Executor α) (ticket generation : Nat) : Option (Answer α) × Executor α :=
  let (reached, flow) := e.flow.wait ticket generation
  let e := { e with flow }
  match reached with
  | some g => (some (.generation g), e)
  | none => (none, { e with tasks := e.tasks ++ [⟨ticket, .wait⟩] })

-- Asks for the run. The first request waits for the next round; any later one is looked at now.
def run (e : Executor α) (ticket : Nat) : Option (Answer α) × Executor α :=
  if e.isRequested then
    let (answer, e, job) := e.pollRun false false
    match answer with
    | some a => (some a, e)
    | none => (none, { e with tasks := e.tasks ++ [⟨ticket, job⟩] })
  else
    (none, { e with isRequested := true, tasks := e.tasks ++ [⟨ticket, .run true false⟩] })

def isTaken (e : Executor α) : Bool :=
  e.isRequested || e.flow.scheduler.phase != .idle

def drop (e : Executor α) : Executor α :=
  if e.isTaken then e else { e with flow := e.flow.drop }

end Executor

end Flowgraph

end RadioSpectrum
