import RadioSpectrum.Flowgraph.Executor
import RadioSpectrum.Proofs.Flowgraph.Calls

namespace RadioSpectrum

namespace Flowgraph

section Definitions

variable {α : Type}

def Task.call? (t : Task) : Option Call :=
  match t.job with
  | .push chunk => some ⟨t.ticket, chunk⟩
  | _           => none

-- The pushes among some requests.
def calls (tasks : List Task) : List Call :=
  tasks.filterMap Task.call?

-- What a caller does, and what he is told.
inductive Happening (α : Type) where
  | asked (call : Call)
  | answered (ticket : Nat) (answer : Answer α)

namespace Happening

def call? : Happening α → Option Call
  | asked call  => some call
  | answered .. => none

def verdict? : Happening α → Option (Nat × Admission α)
  | answered ticket (.admission admission) => some (ticket, admission)
  | _                                      => none

end Happening

-- The pushes that were asked for, in the order in which they were.
def asked (happenings : List (Happening α)) : List Call :=
  happenings.filterMap Happening.call?

-- The answers to pushes, in the order in which they were given.
def verdicts (happenings : List (Happening α)) : List (Nat × Admission α) :=
  happenings.filterMap Happening.verdict?

def told (answers : List (Nat × Answer α)) : List (Happening α) :=
  answers.map fun (ticket, answer) => .answered ticket answer

-- The answer to one request, if there is one.
def reply (ticket : Nat) (answer : Option (Answer α)) : List (Nat × Answer α) :=
  answer.toList.map (ticket, ·)

namespace Executor

-- What is left of a request that was looked at.
def remains (t : Task) (answer : Option (Answer α)) (job : Job) : List Task :=
  if answer.isSome then [] else [{ t with job }]

-- Looks at one of the open requests alone. Pushes in front of it hold the gate.
def lookAt (e : Executor α) (before : List Task) (t : Task) (after : List Task) :
    Option (Answer α) × Executor α :=
  let (answer, e, job, _) := e.look (!(calls before).isEmpty) t
  (answer, { e with tasks := before ++ remains t answer job ++ after })

variable [Scalar α]

-- What can be done at the executor, and what the callers learn of it. The open requests may be
-- looked at in any order.
inductive Step : Executor α → List (Happening α) → Executor α → Prop
  | push {e} (call : Call) :
    Step e (.asked call :: told (reply call.ticket (e.push call.ticket call.chunk).1))
      (e.push call.ticket call.chunk).2
  | run {e} (ticket) : Step e (told (reply ticket (e.run ticket).1)) (e.run ticket).2
  | wait {e} (ticket generation) (fresh : ∀ w ∈ e.flow.waits, w.ticket ≠ ticket) :
    Step e (told (reply ticket (e.wait ticket generation).1)) (e.wait ticket generation).2
  | update {e block index value stored flow}
    (h : e.flow.update block index value = .ok (stored, flow)) : Step e [] { e with flow }
  | refuse {e block index value error} (h : e.flow.update block index value = .error error) :
    Step e [] e
  | stop {e} : Step e [] { e with flow := e.flow.stop }
  | look {e before t after} (h : e.tasks = before ++ t :: after) :
    Step e (told (reply t.ticket (e.lookAt before t after).1)) (e.lookAt before t after).2
  | round {e} : Step e (told e.round.1) e.round.2

inductive Run (e : Executor α) : List (Happening α) → Executor α → Prop
  | refl : Run e [] e
  | step {e₁ e₂ happenings happenings'} (r : Run e happenings e₁)
    (st : Step e₁ happenings' e₂) : Run e (happenings ++ happenings') e₂

-- What happened between `e` and `e'` was that pushes were called for, and that the first of all
-- that were open were decided.
def InTurn (e : Executor α) (happenings : List (Happening α)) (e' : Executor α) : Prop :=
  ∃ decisions,
    Served e.flow (calls e.tasks ++ asked happenings) decisions (calls e'.tasks) e'.flow ∧
    verdicts happenings = decisions.map Decision.verdict

end Executor

end Definitions

variable {α : Type} {t : State α} {call : Call} {task : Task} {before after : List Call}

@[simp]
theorem calls_append (tasks tasks' : List Task) :
    calls (tasks ++ tasks') = calls tasks ++ calls tasks' :=
  List.filterMap_append

@[simp]
theorem calls_singleton (t : Task) : calls [t] = t.call?.toList := by
  cases h : t.call? <;> simp [calls, h]

@[simp]
theorem asked_append (happenings happenings' : List (Happening α)) :
    asked (happenings ++ happenings') = asked happenings ++ asked happenings' :=
  List.filterMap_append

@[simp]
theorem verdicts_append (happenings happenings' : List (Happening α)) :
    verdicts (happenings ++ happenings') = verdicts happenings ++ verdicts happenings' :=
  List.filterMap_append

@[simp]
theorem told_append (answers answers' : List (Nat × Answer α)) :
    told (answers ++ answers') = told answers ++ told answers' :=
  List.map_append

@[simp]
theorem asked_nil : asked ([] : List (Happening α)) = [] :=
  rfl

@[simp]
theorem asked_cons (call : Call) (happenings : List (Happening α)) :
    asked (.asked call :: happenings) = call :: asked happenings :=
  rfl

@[simp]
theorem verdicts_cons (call : Call) (happenings : List (Happening α)) :
    verdicts (.asked call :: happenings) = verdicts happenings :=
  rfl

@[simp]
theorem asked_told (answers : List (Nat × Answer α)) : asked (told answers) = [] := by
  simp [asked, told, Happening.call?, Function.comp_def]

namespace Executor

variable {e e' : Executor α} {answer : Option (Answer α)} {job : Job} {isHeld isHeld' : Bool}

-- What looking at a request comes to.
inductive Looked (e : Executor α) (isHeld : Bool) (t : Task) :
    Option (Answer α) → Executor α → Job → Bool → Prop
  | turned {isFirst isOwner} (job : t.job = .run isFirst isOwner) :
    Looked e isHeld t (e.flow.turn.1.map .summary)
      { e with flow := e.flow.turn.2, isClaimed := true } (.run isFirst true) isHeld
  | late {isFirst isOwner} (job : t.job = .run isFirst isOwner) :
    Looked e isHeld t (some .alreadyRunning) e (.run isFirst isOwner) isHeld
  | behind {chunk : List Int8} (job : t.job = .push chunk) (held : isHeld = true) :
    Looked e isHeld t none e (.push chunk) true
  | asked {chunk : List Int8} (job : t.job = .push chunk) (free : isHeld = false) :
    Looked e isHeld t ((e.flow.ask chunk).1.map .admission)
      { e with flow := (e.flow.ask chunk).2 } (.push chunk) (e.flow.ask chunk).1.isNone
  | waited (job : t.job = .wait) :
    Looked e isHeld t ((e.flow.resumeWait t.ticket).1.map .generation)
      { e with flow := (e.flow.resumeWait t.ticket).2 } .wait isHeld

theorem pollRun_eq (e : Executor α) (isFirst isOwner : Bool) :
    e.pollRun isFirst isOwner = (some .alreadyRunning, e, .run isFirst isOwner) ∨
    e.pollRun isFirst isOwner = (e.flow.turn.1.map .summary,
      { e with flow := e.flow.turn.2, isClaimed := true }, .run isFirst true) := by
  unfold pollRun
  split
  case isTrue  => exact .inl rfl
  case isFalse => exact .inr rfl

theorem look_looked (e : Executor α) (isHeld : Bool) (t : Task) :
    let l := e.look isHeld t
    Looked e isHeld t l.1 l.2.1 l.2.2.1 l.2.2.2 := by
  unfold look
  split
  case h_1 isFirst isOwner hj =>
    rcases e.pollRun_eq isFirst isOwner with hp | hp <;> simp only [hp]
    · exact .late hj
    · exact .turned hj
  case h_2 chunk hj =>
    cases isHeld
    case true  => simpa [hj] using Looked.behind hj rfl
    case false => simpa [hj, pollPush, State.ask] using Looked.asked (e := e) hj rfl
  case h_3 hj => simpa [hj] using Looked.waited hj

theorem calls_remains (t : Task) (answer : Option (Answer α)) (job : Job) :
    calls (remains t answer job) =
      if answer.isSome then [] else ({ t with job } : Task).call?.toList := by
  cases answer
  case none => exact calls_singleton _
  case some => rfl

theorem poll_cons (e : Executor α) (isHeld : Bool) (t : Task) (rest : List Task) :
    e.poll isHeld (t :: rest) =
      let l := e.look isHeld t
      let p := l.2.1.poll l.2.2.2 rest
      (reply t.ticket l.1 ++ p.1, remains t l.1 l.2.2.1 ++ p.2.1, p.2.2) := by
  rcases hl : e.look isHeld t with ⟨_ | answer, e', job, isHeld'⟩ <;>
    simp [poll, hl, reply, remains]

theorem isGateBusy_eq_false_iff : e.isGateBusy = false ↔ calls e.tasks = [] := by
  simp only [isGateBusy, List.any_eq_false, calls, List.filterMap_eq_nil_iff]
  refine forall₂_congr fun t _ => ?_
  unfold Task.call?
  cases t.job <;> simp

theorem calls_filter_isFirstRun (tasks : List Task) : calls (tasks.filter isFirstRun) = [] := by
  rw [calls, List.filterMap_filter, List.filterMap_eq_nil_iff]
  rintro ⟨_, ⟨_ | _, _⟩ | _ | _⟩ _ <;> rfl

theorem calls_filter_not_isFirstRun (tasks : List Task) :
    calls (tasks.filter (!isFirstRun ·)) = calls tasks := by
  rw [calls, List.filterMap_filter]
  refine List.filterMap_congr ?_
  rintro ⟨_, ⟨_ | _, _⟩ | _ | _⟩ _ <;> rfl

-- A run stays a run, and a push stays a push.
theorem Looked.call?_eq (l : Looked e isHeld task answer e' job isHeld') :
    ({ task with job } : Task).call? = task.call? := by
  cases l <;> simp [Task.call?, *]

-- Whoever is the first at the gate is sent away when he is looked at.
theorem Looked.answer_of_stopping (l : Looked e false task answer e' job isHeld')
    (ht : task.call? = some call) (h : e.flow.Sound) (hs : e.flow.stopping = true)
    (hc : Owned e.flow (call :: after)) :
    answer = some (.admission (.error .shutdownInProgress)) := by
  cases l
  case asked chunk hj _ =>
    obtain rfl : ⟨task.ticket, chunk⟩ = call := by simpa [Task.call?, hj] using ht
    rw [State.ask_of_stopping h hs hc.suspended]
    rfl
  all_goals simp_all [Task.call?]

theorem Looked.calls_remains_of_stopping (l : Looked e false task answer e' job isHeld')
    (h : e.flow.Sound) (hs : e.flow.stopping = true) (hc : Owned e.flow (calls [task] ++ after)) :
    calls (remains task answer job) = [] := by
  rw [calls_remains, l.call?_eq]
  cases ht : task.call?
  case none => simp
  case some call =>
    rw [calls_singleton, ht] at hc
    simp [l.answer_of_stopping ht h hs hc]

variable [Scalar α]

theorem Looked.served (l : Looked e isHeld task answer e' job isHeld') (before)
    (held : isHeld = true ↔ before ≠ []) (h : Owned e.flow (before ++ calls [task] ++ after)) :
    ∃ decisions,
      Served e.flow (before ++ calls [task] ++ after) decisions
        (before ++ calls (remains task answer job) ++ after) e'.flow ∧
      verdicts (told (reply task.ticket answer)) = decisions.map Decision.verdict ∧
      (isHeld' = true ↔ before ++ calls (remains task answer job) ≠ []) := by
  simp only [calls_remains, calls_singleton] at h ⊢
  cases l
  case turned hj =>
    simp only [Task.call?, hj] at h ⊢
    have d := Served.of_step h .turn rfl (State.turn_turn e.flow).preserves_suspended
    refine ⟨[], ?_, ?_, ?_⟩
    · simpa using d
    · cases e.flow.turn.1 <;> rfl
    · simpa using held
  case late hj =>
    simp only [Task.call?, hj] at h ⊢
    exact ⟨[], by simpa using Served.refl h, rfl, by simpa using held⟩
  case behind hj hh =>
    simp only [Task.call?, hj] at h ⊢
    exact ⟨[], by simpa using Served.refl h, rfl, by simp⟩
  case asked chunk hj hh =>
    obtain rfl : before = [] := by simpa [hh] using held
    simp only [Task.call?, hj] at h ⊢
    rcases Served.ask ⟨task.ticket, chunk⟩ h with ⟨admission, ha, d⟩ | ⟨ha, d⟩
    · exact ⟨_, by simpa [ha] using d, by simp [ha]; rfl, by simp [ha]⟩
    · exact ⟨_, by simpa [ha] using d, by simp [ha]; rfl, by simp [ha]⟩
  case waited hj =>
    simp only [Task.call?, hj] at h ⊢
    have hw := (State.resumeWait_waitResumed e.flow task.ticket).exists_waits
    have d := Served.of_step h (.resumeWait task.ticket) rfl (by obtain ⟨_, hw⟩ := hw; rw [hw])
    refine ⟨[], ?_, ?_, ?_⟩
    · simpa using d
    · cases (e.flow.resumeWait task.ticket).1 <;> rfl
    · simpa using held

-- By induction on the requests. Those that were looked at and stay open join the ones before.
theorem poll_served (isHeld before after) (tasks : List Task) (held : isHeld = true ↔ before ≠ [])
    (h : Owned e.flow (before ++ calls tasks ++ after)) :
    let p := e.poll isHeld tasks
    ∃ decisions,
      Served e.flow (before ++ calls tasks ++ after) decisions (before ++ calls p.2.1 ++ after)
        p.2.2.flow ∧
      verdicts (told p.1) = decisions.map Decision.verdict := by
  induction tasks generalizing e isHeld before
  case nil => exact ⟨[], .refl h, rfl⟩
  case cons t rest hi =>
    have hc : before ++ calls (t :: rest) ++ after =
        before ++ calls [t] ++ (calls rest ++ after) := by
      rw [← List.singleton_append, calls_append]
      simp only [List.append_assoc]
    rw [hc] at h ⊢
    obtain ⟨ds, d, hv, held'⟩ := (look_looked e isHeld t).served before held h
    obtain ⟨ds', d', hv'⟩ := hi _ _ held' (by simpa only [List.append_assoc] using d.owned)
    simp only [poll_cons, calls_append, told_append, verdicts_append, List.append_assoc]
    simp only [List.append_assoc] at d d'
    exact ⟨ds ++ ds', d.trans d', by rw [hv, hv', List.map_append]⟩

theorem push_inTurn (h : Owned e.flow (calls e.tasks)) (call : Call) :
    let p := e.push call.ticket call.chunk
    InTurn e (.asked call :: told (reply call.ticket p.1)) p.2 := by
  have hc : (⟨call.ticket, .push call.chunk⟩ : Task).call? = some call := rfl
  replace h := h.append [call]
  cases hb : e.isGateBusy
  case true  => exact ⟨[], by simpa [push, hb, hc] using Served.refl h, by simp [push, hb]; rfl⟩
  case false =>
    have ht := isGateBusy_eq_false_iff.mp hb
    have hp : e.pollPush call.chunk =
        ((e.flow.ask call.chunk).1.map .admission, { e with flow := (e.flow.ask call.chunk).2 }) :=
      rfl
    rw [ht] at h
    rcases Served.ask call h with ⟨admission, ha, d⟩ | ⟨ha, d⟩
    · exact ⟨_, by simpa [push, hb, hp, ha, ht] using d, by simp [push, hb, hp, ha]; rfl⟩
    · exact ⟨_, by simpa [push, hb, hp, ha, ht, hc] using d, by simp [push, hb, hp, ha]; rfl⟩

-- Whatever does not concern the gate leaves the open pushes alone.
theorem inTurn_of_step {event} (answers) (h : Owned e.flow (calls e.tasks))
    (st : e.flow.Step event e'.flow) (ha : event.accepted? = none)
    (hs : e'.flow.suspended = e.flow.suspended) (hc : calls e'.tasks = calls e.tasks)
    (hv : verdicts (told answers) = []) : InTurn e (told answers) e' :=
  ⟨[], by simpa [hc] using Served.of_step h st ha hs, hv⟩

theorem InTurn.refl (h : Owned e.flow (calls e.tasks)) : InTurn e [] e :=
  ⟨[], by simpa using Served.refl h, rfl⟩

theorem run_inTurn (h : Owned e.flow (calls e.tasks)) (ticket : Nat) :
    InTurn e (told (reply ticket (e.run ticket).1)) (e.run ticket).2 := by
  have hc (isFirst isOwner) : (⟨ticket, .run isFirst isOwner⟩ : Task).call? = none := rfl
  unfold run
  split
  case isTrue =>
    rcases e.pollRun_eq false false with hp | hp <;> simp only [hp]
    · exact ⟨[], by simpa using Served.refl h, rfl⟩
    · have hs := (State.turn_turn e.flow).preserves_suspended
      cases hm : e.flow.turn.1
      · exact inTurn_of_step _ h .turn rfl hs (by simp [hc]) rfl
      · exact inTurn_of_step _ h .turn rfl hs rfl rfl
  case isFalse => exact ⟨[], by simpa [hc, reply, told] using Served.refl h, rfl⟩

theorem wait_inTurn (h : Owned e.flow (calls e.tasks)) {ticket : Nat} (generation : Nat)
    (fresh : ∀ w ∈ e.flow.waits, w.ticket ≠ ticket) :
    let p := e.wait ticket generation
    InTurn e (told (reply ticket p.1)) p.2 := by
  have hc : (⟨ticket, .wait⟩ : Task).call? = none := rfl
  have st := State.Step.wait ticket generation fresh
  obtain ⟨_, hw⟩ := (State.wait_waited e.flow ticket generation).exists_waits
  have hs : (e.flow.wait ticket generation).2.suspended = e.flow.suspended := by rw [hw]
  unfold wait
  generalize e.flow.wait ticket generation = answer at st hs
  rcases answer with ⟨_ | g, t⟩
  · exact inTurn_of_step _ h st rfl hs (by simp [hc]) rfl
  · exact inTurn_of_step _ h st rfl hs rfl rfl

theorem lookAt_inTurn {beforeTasks afterTasks : List Task}
    (ht : e.tasks = beforeTasks ++ task :: afterTasks) (h : Owned e.flow (calls e.tasks)) :
    let p := e.lookAt beforeTasks task afterTasks
    InTurn e (told (reply task.ticket p.1)) p.2 := by
  have hc : calls e.tasks = calls beforeTasks ++ calls [task] ++ calls afterTasks := by
    rw [ht, ← calls_append, ← calls_append, List.append_assoc, List.singleton_append]
  rw [hc] at h
  have l := look_looked e (!(calls beforeTasks).isEmpty) task
  obtain ⟨ds, d, hv, _⟩ := l.served _ (by simp) h
  exact ⟨ds, by simpa [lookAt, hc] using d, hv⟩

-- A round looks at the first run, and then at all that push.
theorem round_eq (h : Owned e.flow (calls e.tasks)) :
    let p := e.poll false (e.tasks.filter isFirstRun)
    let q := p.2.2.poll false (e.tasks.filter (!isFirstRun ·))
    e.round = (p.1 ++ q.1, { q.2.2 with tasks := p.2.1 ++ q.2.1 }) ∧ calls p.2.1 = [] ∧
      verdicts (told p.1) = [] ∧ Served e.flow (calls e.tasks) [] (calls e.tasks) p.2.2.flow := by
  intro p q
  have hf : calls (e.tasks.filter isFirstRun) = [] := calls_filter_isFirstRun e.tasks
  obtain ⟨ds, d, hv⟩ : ∃ ds, Served e.flow (calls e.tasks) ds (calls p.2.1 ++ calls e.tasks)
      p.2.2.flow ∧ verdicts (told p.1) = ds.map Decision.verdict := by
    have d := poll_served false [] (calls e.tasks) (e.tasks.filter isFirstRun) (by simp)
      (by simpa [hf] using h)
    simpa [hf] using d
  -- No push was looked at, and so all of them are open still.
  obtain ⟨rfl, ho⟩ : ds = [] ∧ calls p.2.1 = [] := by
    have hl := congrArg List.length d.calls
    simp only [List.length_append, List.length_map] at hl
    exact ⟨List.length_eq_zero_iff.mp (by omega), List.length_eq_zero_iff.mp (by omega)⟩
  rw [ho, List.nil_append] at d
  exact ⟨rfl, ho, hv, d⟩

theorem round_inTurn (h : Owned e.flow (calls e.tasks)) : InTurn e (told e.round.1) e.round.2 := by
  have hn := calls_filter_not_isFirstRun e.tasks
  obtain ⟨hr, ho, hv, d⟩ := round_eq h
  obtain ⟨ds, d', hv'⟩ := poll_served false [] [] (e.tasks.filter (!isFirstRun ·)) (by simp)
    (by simpa [hn] using d.owned)
  simp only [List.nil_append, List.append_nil, hn] at d'
  refine ⟨ds, ?_, ?_⟩
  · rw [hr, calls_append, ho, asked_told, List.append_nil]
    exact d.trans d'
  · rw [hr, told_append, verdicts_append, hv, hv', List.nil_append]

theorem Step.inTurn {happenings} (st : Step e happenings e') (h : Owned e.flow (calls e.tasks)) :
    InTurn e happenings e' := by
  cases st
  case push call             => exact push_inTurn h call
  case run ticket            => exact run_inTurn h ticket
  case wait generation fresh => exact wait_inTurn h generation fresh
  case update hu =>
    have hs := (State.updated_of_update hu).preserves_suspended
    exact inTurn_of_step [] h (.update hu) rfl hs rfl rfl
  case refuse  => exact .refl h
  case stop    => exact inTurn_of_step [] h .stop rfl rfl rfl rfl
  case look ht => exact lookAt_inTurn ht h
  case round   => exact round_inTurn h

theorem Run.inTurn {happenings} (r : Run e happenings e') (h : Owned e.flow (calls e.tasks)) :
    InTurn e happenings e' := by
  induction r
  case refl => exact .refl h
  case step happenings happenings' _ st hi =>
    obtain ⟨ds, d, hv⟩ := hi
    obtain ⟨ds', d', hv'⟩ := st.inTurn d.owned
    refine ⟨ds ++ ds', ?_, by simp [hv, hv']⟩
    rw [asked_append, ← List.append_assoc]
    exact (d.append (asked happenings')).trans d'

-- A pass over the requests after a stop answers every push among them.
theorem poll_of_stopping (tasks : List Task) (h : e.flow.Sound) (hs : e.flow.stopping = true)
    (hc : Owned e.flow (calls tasks)) : calls (e.poll false tasks).2.1 = [] := by
  induction tasks generalizing e
  case nil => rfl
  case cons t rest hi =>
    replace hc : Owned e.flow (calls [t] ++ calls rest) := by
      rwa [← calls_append, List.singleton_append]
    have l := look_looked e false t
    have hr := l.calls_remains_of_stopping h hs hc
    obtain ⟨_, d, _, held⟩ := l.served [] (by simp) hc
    simp only [hr, List.nil_append] at d held
    have hh : (e.look false t).2.2.2 = false := by simpa using held
    have hs' := (d.frozen h hs).right.stopping.trans hs
    rw [poll_cons, calls_append, hr, hh]
    exact hi (d.sound h) hs' d.owned

theorem round_of_stopping (h : e.flow.Sound) (hs : e.flow.stopping = true)
    (hc : Owned e.flow (calls e.tasks)) : calls e.round.2.tasks = [] := by
  have hn := calls_filter_not_isFirstRun e.tasks
  obtain ⟨hr, ho, _, d⟩ := round_eq hc
  have hs' := (d.frozen h hs).right.stopping.trans hs
  rw [hr, calls_append, ho, List.nil_append]
  exact poll_of_stopping _ (d.sound h) hs' (hn.symm ▸ d.owned)

-- Every push gets its answer in its turn: what was answered are the first of the pushes that were
-- asked for, and the others are open. What came in are the chunks of those who were told so, one
-- behind the other. After a stop all who are still there are sent away.
theorem pushes_in_order {s₀ : State α} {factory config happenings}
    (h₀ : State.ofConfig factory config = .ok s₀) (r : Run { flow := s₀ } happenings e) :
    (∃ decisions events,
      asked happenings = decisions.map Decision.call ++ calls e.tasks ∧
      verdicts happenings = decisions.map Decision.verdict ∧
      State.Run s₀ events e.flow ∧ accepted events = granted decisions ∧
      (windows events).flatten ++ e.flow.ring.toList = (granted decisions).flatten) ∧
    (e.flow.stopping = true →
      (∀ happenings' e', Run e happenings' e' →
        (∀ v ∈ verdicts happenings', v.2.isGranted = false) ∧
        e'.flow.ring.toList = e.flow.ring.toList) ∧
      (∀ before t after call, e.tasks = before ++ t :: after → calls before = [] →
        t.call? = some call →
        (e.lookAt before t after).1 = some (.admission (.error .shutdownInProgress)) ∧
        calls (e.lookAt before t after).2.tasks = calls after) ∧
      calls e.round.2.tasks = []) := by
  have b := State.built_of_ofConfig h₀
  have hc : Owned s₀ [] := by cases b; nofun
  obtain ⟨ds, d, hv⟩ := r.inTurn hc
  have h := d.sound b.sound
  constructor
  · obtain ⟨events, run, ha⟩ := d.run
    refine ⟨ds, events, d.calls, hv, run, ha, ?_⟩
    rw [run.conserves, b.ring_toList, ha, List.nil_append]
  · intro hs
    refine ⟨fun happenings' e' r' => ?_, fun before t after call ht hb hc => ?_,
      round_of_stopping h hs d.owned⟩
    · obtain ⟨ds', d', hv'⟩ := r'.inTurn d.owned
      have ⟨hg, f⟩ := d'.frozen h hs
      exact ⟨hv' ▸ isGranted_of_granted_eq_nil hg, f.samples⟩
    · have ho : Owned e.flow (call :: calls after) := by
        have ho := d.owned
        rwa [ht, calls_append, hb, ← List.singleton_append, calls_append, calls_singleton, hc] at ho
      have ha := (look_looked e false t).answer_of_stopping hc h hs ho
      simp [lookAt, hb, ha, remains]

section Crowd

def crowdConfig : FlowgraphConfig :=
  { State.fickleConfig with admission := .wait }

theorem crowd_isSome : (State.ofConfig State.fickle crowdConfig).toOption.isSome := by
  decide +kernel

def alone : Executor Rat where
  flow := (State.ofConfig State.fickle crowdConfig).toOption.get crowd_isSome

-- The second push sleeps until windows are drained, and the third one has to wait for it, though
-- there is room for its chunk.
def crowd : Executor Rat :=
  (((alone.push 0 (List.replicate 63 0)).2.push 1 [7, 8, 9]).2.push 2 [1]).2

def dismissed : Executor Rat :=
  { crowd with flow := crowd.flow.stop }

theorem pushes_in_order_crowd :
    ∃ happenings, State.ofConfig State.fickle crowdConfig = .ok alone.flow ∧
      Run alone happenings dismissed ∧ dismissed.flow.stopping = true ∧
      (asked happenings).map Call.ticket = [0, 1, 2] ∧
      (verdicts happenings).map (fun v => (v.1, v.2.isGranted)) = [(0, true)] ∧
      calls dismissed.tasks = [⟨1, [7, 8, 9]⟩, ⟨2, [1]⟩] ∧
      dismissed.flow.ring.toList = List.replicate 63 0 ∧
      calls dismissed.round.2.tasks = [] ∧
      (verdicts (told dismissed.round.1)).map (fun v => (v.1, v.2.isGranted)) =
        [(1, false), (2, false)] ∧
      dismissed.round.2.flow.ring.toList = dismissed.flow.ring.toList := by
  have h₀ : State.ofConfig State.fickle crowdConfig = .ok alone.flow := eq_ok_get crowd_isSome
  have r : Run alone _ dismissed :=
    .step (.step (.step (.step .refl (.push ⟨0, List.replicate 63 0⟩)) (.push ⟨1, [7, 8, 9]⟩))
      (.push ⟨2, [1]⟩)) .stop
  have ⟨hs, ho⟩ := (pushes_in_order h₀ r).right rfl
  have ⟨_, hr⟩ := hs _ _ (.step .refl .round)
  exact ⟨_, h₀, r, rfl, by decide +kernel, by decide +kernel, by decide +kernel, by decide +kernel,
    ho.right, by decide +kernel, hr⟩

end Crowd

end Executor

end Flowgraph

end RadioSpectrum
