import Mathlib.Data.Prod.Lex
import RadioSpectrum.Proofs.Flowgraph.Attempts
import RadioSpectrum.Proofs.Flowgraph.Feed
import RadioSpectrum.Proofs.Schedule

namespace RadioSpectrum

namespace Flowgraph

section Definitions

variable {α : Type}

-- What comes of one attempt to feed a chunk.
inductive Attempted (α : Type) where
  | taken
  | shut
  | failed (fault : FeedFault α)
  | again

-- What a feeder is at: the chunk that it offers and those behind it, or nothing any more.
inductive Feeder (α : Type) where
  | busy (chunk : List Int8) (rest : List (List Int8))
  | ended (result : Except (FeedFault α) Unit)

inductive Party where
  | feeder
  | scheduler
deriving DecidableEq

-- A flowgraph and its feeder, with what happened so far.
structure Feeding (α : Type) where
  flow : State α
  feeder : Feeder α
  history : List (Event α) := []

namespace Feeder

def ofChunks : List (List Int8) → Feeder α
  | [] => .ended (.ok ())
  | chunk :: rest => .busy chunk rest

-- How many chunks are still to be taken.
def left : Feeder α → Nat
  | busy _ rest => rest.length + 1
  | ended _ => 0

def next (chunk : List Int8) (rest : List (List Int8)) : Attempted α → Feeder α
  | .taken => ofChunks rest
  | .shut => .ended (.ok ())
  | .failed fault => .ended (.error fault)
  | .again => .busy chunk rest

end Feeder

-- What an attempt comes to, by the answer of the gate. A chunk that was turned away is not worth
-- another attempt if there is no whole window left to be drained.
def State.verdict (t : State α) (chunk : List Int8) : Option (Admission α) → Attempted α
  | some (.ok true) => .taken
  | some (.error .shutdownInProgress) => .shut
  | some (.error e) => .failed (.refused e)
  | some (.ok false) =>
    if t.stats.pendingSamples < t.staged.windowLength then .failed (t.stuck chunk) else .again
  | none => .again

def State.attempt (s : State α) (chunk : List Int8) : Attempted α :=
  (s.ask chunk).2.verdict chunk (s.ask chunk).1

namespace Feeding

def start (s : State α) (chunks : List (List Int8)) : Feeding α where
  flow := s
  feeder := .ofChunks chunks

def step (x : Feeding α) : Party → Feeding α
  | .scheduler =>
    { x with
      flow := x.flow.turn.2
      history := x.history ++ [.turn x.flow.handoff? x.flow.turn.1] }
  | .feeder =>
    match x.feeder with
    | .ended _ => x
    | .busy chunk rest => {
        flow := (x.flow.ask chunk).2
        feeder := .next chunk rest (x.flow.attempt chunk)
        history := x.history ++ [.push chunk (x.flow.ask chunk).1] }

def play (x : Feeding α) (parties : List Party) : Feeding α :=
  parties.foldl step x

def Ended (x : Feeding α) : Prop :=
  ∃ result, x.feeder = .ended result

-- The chunks that are left count first, and then the samples in the ring.
def rank (x : Feeding α) : Nat ×ₗ Nat :=
  toLex (x.feeder.left, x.flow.ring.length)

-- Whoever can bring the end nearer: the scheduler if there is a window to be drained, or else the
-- feeder.
def due (x : Feeding α) : Party :=
  if x.flow.staged.windowLength ≤ x.flow.ring.length then .scheduler else .feeder

-- From `x` to `y` a step of `party` brought the end nearer, or somebody else was due and still is.
def Moved (party : Party) (x y : Feeding α) : Prop :=
  y.rank < x.rank ∨ y.rank = x.rank ∧ y.due = x.due ∧ x.due ≠ party

end Feeding

namespace State

-- What the gate says to a chunk that is being fed, and what becomes of the flowgraph.
inductive Tried (s : State α) (chunk : List Int8) : Option (Admission α) → State α → Prop
  | taken {t} (room : chunk.length ≤ s.ring.free)
    (length : t.ring.length = s.ring.length + chunk.length) (suspended : t.suspended = none) :
    Tried s chunk (some (.ok true)) t
  | refused {t} (full : s.ring.free < chunk.length) (ring : t.ring = s.ring)
    (suspended : t.suspended = none) : Tried s chunk (some (.ok false)) t
  | asleep {t} (full : s.ring.free < chunk.length) (ring : t.ring = s.ring)
    (suspended : t.suspended = some chunk) (fits : s.Fits chunk) : Tried s chunk none t

variable [Scalar α]

-- What is known of a flowgraph `s` that is being fed, and that was `s₀` before.
structure Tended (kernel : Kernel) (s₀ s : State α) : Prop where
  isOpen   : s.Open
  sound    : s.Sound
  settled  : s.Settled kernel
  counted  : s.stats.pendingSamples = s.ring.length
  staged   : s.staged = s₀.staged
  capacity : s.ring.capacity = s₀.ring.capacity

end State

-- The chunk with the number `i` fits beside what those before it leave of a window.
def Fitting (s₀ : State α) (chunks : List (List Int8)) (i : Nat) : Prop :=
  ∀ chunk, chunks[i]? = some chunk →
    chunk.length ≤ s₀.ring.capacity - (chunks.take i).flatten.length % s₀.staged.windowLength

namespace Feeding

variable [Scalar α]

-- The first `i` chunks were taken, and each of them had its room.
structure At (s₀ : State α) (chunks : List (List Int8)) (i : Nat) (events : List (Event α))
    (s : State α) : Prop where
  run   : s₀.Run events s
  calm  : ∀ event ∈ events, event.Calm
  taken : accepted events = chunks.take i
  level : s.ring.length % s₀.staged.windowLength =
    (chunks.take i).flatten.length % s₀.staged.windowLength
  fits  : ∀ j < i, Fitting s₀ chunks j

-- How far feeding has come.
inductive Stands (s₀ : State α) (chunks : List (List Int8)) (x : Feeding α) : Prop
  | busy {i chunk rest} (a : At s₀ chunks i x.history x.flow) (feeder : x.feeder = .busy chunk rest)
    (left : chunks.drop i = chunk :: rest)
    (asleep : x.flow.suspended = none ∨ x.flow.suspended = some chunk ∧ x.flow.Fits chunk)
  | through (a : At s₀ chunks chunks.length x.history x.flow) (feeder : x.feeder = .ended (.ok ()))
  | stuck {i chunk} (a : At s₀ chunks i x.history x.flow) (here : chunks[i]? = some chunk)
    (large : ¬Fitting s₀ chunks i)
    (feeder : x.feeder = .ended (.error (.stuck chunk.length
      ((chunks.take i).flatten.length % s₀.staged.windowLength) s₀.staged.windowLength)))

end Feeding

end Definitions

namespace Feeding

section Ranks

variable {α : Type} {x y : Feeding α}

theorem rank_lt_of_left (hl : y.feeder.left < x.feeder.left) : y.rank < x.rank :=
  Prod.Lex.toLex_lt_toLex.mpr (.inl hl)

theorem rank_lt_of_taken {chunk rest} (hx : x.feeder = .busy chunk rest)
    (hy : y.feeder = .ofChunks rest) : y.rank < x.rank := by
  refine rank_lt_of_left ?_
  rw [hx, hy]
  cases rest <;> exact Nat.lt_succ_self _

theorem rank_lt_of_length (hf : y.feeder = x.feeder)
    (hl : y.flow.ring.length < x.flow.ring.length) : y.rank < x.rank :=
  Prod.Lex.toLex_lt_toLex.mpr (.inr ⟨congrArg Feeder.left hf, hl⟩)

theorem due_eq_scheduler :
    x.due = .scheduler ↔ x.flow.staged.windowLength ≤ x.flow.ring.length := by
  simp [due]

theorem step_busy {chunk rest} (hf : x.feeder = .busy chunk rest) : x.step .feeder =
    ⟨(x.flow.ask chunk).2, .next chunk rest (x.flow.attempt chunk),
      x.history ++ [.push chunk (x.flow.ask chunk).1]⟩ := by
  rw [step, hf]

theorem Moved.of_held {party : Party} (hf : y.feeder = x.feeder)
    (hs : y.flow.staged = x.flow.staged) (hl : y.flow.ring.length = x.flow.ring.length)
    (hd : x.due ≠ party) : Moved party x y :=
  .inr ⟨by rw [rank, rank, hf, hl], by rw [due, due, hs, hl], hd⟩

end Ranks

end Feeding

namespace State

variable {α : Type} {s t : State α} {chunk : List Int8} {answer : Option (Admission α)}

theorem feedChunk_eq (s : State α) (chunk : List Int8) :
    s.feedChunk chunk =
      match s.attempt chunk with
      | .taken => .ok (true, (s.ask chunk).2)
      | .shut => .ok (false, (s.ask chunk).2)
      | .failed fault => .error fault
      | .again =>
        if (s.ask chunk).2.turn.2.ring.length < s.ring.length then
          (s.ask chunk).2.turn.2.feedChunk chunk
        else .error ((s.ask chunk).2.stuck chunk) := by
  have ha : (if s.suspended.isSome then s.resumePush else s.push chunk) = s.ask chunk := rfl
  rw [feedChunk, attempt, ha]
  rcases s.ask chunk with ⟨_ | error | taken, t⟩
  case none =>
    dsimp only [afterTurn]
    rw [if_neg (by simp), dite_eq_ite]
    rfl
  case some.error => cases error <;> rfl
  case some.ok =>
    cases taken
    case true  => rfl
    case false =>
      simp only [afterTurn, verdict, Option.isSome_some, true_and]
      split <;> rfl

-- Draining takes whole windows out of the ring, so what is left over of them stays.
theorem Turn.length_mod [Scalar α] {kernel : Kernel} {handoff summary}
    (e : Turn s handoff summary t) (o : s.Open) (h : s.Sound) (hs : s.Settled kernel) :
    t.ring.length % s.staged.windowLength = s.ring.length % s.staged.windowLength ∧
      t.ring.length ≤ s.ring.length := by
  cases e
  case rest => exact ⟨rfl, le_rfl⟩
  case ended r k hn =>
    rw [(r.keeps.trans k.keeps).stopping, o.stopping] at hn
    contradiction
  case starved a u r k _ _ =>
    have hr : u.park.ring = s.ring := (r.keeps.trans k.keeps).ring
    exact ⟨by simp only [← hr]; rfl, by simp only [← hr]; exact le_rfl⟩
  case drained a u window ring r k _ hr c =>
    have ks := r.keeps.trans k.keeps
    have hl := (k.settled (r.settled hs)).bufferLength_eq (k.up (r.up h)).coherent
      k.pending_eq_none
    have hd := (SampleRing.read_of_read? hr).length
    rw [hl, ks.ring, ks.staged] at hd
    have ht : t.ring.length = ring.length := congrArg _ c.keeps.ring
    rw [ht, hd]
    exact ⟨(Nat.add_mod_left ..).symm, Nat.le_add_left ..⟩

-- A chunk that fits sooner or later, but not yet, has a whole window in front of it.
theorem windowLength_le_of_full (full : s.ring.free < chunk.length) (fits : s.Fits chunk) :
    s.staged.windowLength ≤ s.ring.length := by
  by_contra hl
  rw [Fits, Nat.mod_eq_of_lt (Nat.not_le.mp hl)] at fits
  exact absurd fits (Nat.not_le.mpr full)

-- What the gate says, where there is somebody to read the samples.
theorem Pushed.tried {s' : State α} (p : Pushed s' chunk answer t) (o : s'.Open)
    (free : s'.suspended = none) (ne : chunk ≠ []) (hr : s'.ring = s.ring)
    (hw : s'.Worthwhile chunk → s.Fits chunk) : Tried s chunk answer t := by
  cases p
  case slept full worth => exact .asleep (hr ▸ full) hr rfl (hw worth)
  case answered o' =>
    cases o'
    case closed hn     => exact absurd o hn
    case invalid hn _  => exact absurd hn ne
    case accepted w    => exact .taken (hr ▸ w.le_free) (hr ▸ w.length) free
    case refused full _ => exact .refused (hr ▸ full) hr free

variable [Scalar α] {kernel : Kernel} {config : FlowgraphConfig} {events : List (Event α)}
  {s₀ : State α}

theorem Run.preserves_settings (r : Run s events t) (calm : ∀ event ∈ events, event.Calm) :
    t.staged = s.staged ∧ t.frontend = s.frontend := by
  induction r
  case refl => exact ⟨rfl, rfl⟩
  case step e hi =>
    obtain ⟨calm, last⟩ := List.forall_mem_append.mp calm
    obtain ⟨hs, hf⟩ := e.preserves_settings (last _ List.mem_cons_self).not_adjusts
    obtain ⟨hs', hf'⟩ := hi calm
    exact ⟨hs.trans hs', hf.trans hf'⟩

theorem Prepared.tended (p : Prepared kernel config s₀) (r : Run s₀ events s)
    (calm : ∀ event ∈ events, event.Calm) : Tended kernel s₀ s where
  isOpen   := r.isOpen calm p.fresh.isOpen
  sound    := r.sound p.sound
  settled  := r.settled p.settled
  counted  := p.pendingSamples_eq r
  staged   := (r.preserves_settings calm).left
  capacity := r.fixed.capacity

theorem Tended.tried (h : Tended kernel s₀ s) (ne : chunk ≠ [])
    (hc : s.suspended = none ∨ s.suspended = some chunk ∧ s.Fits chunk) :
    Tried s chunk (s.ask chunk).1 (s.ask chunk).2 := by
  have hw (w : s.Worthwhile chunk) : s.Fits chunk :=
    (worthwhile_iff h.settled h.sound.coherent w.policy).mp w
  unfold ask
  rcases hc with hc | ⟨hc, fits⟩ <;> simp only [hc, Option.isSome_none, Option.isSome_some, if_true]
  · exact (push_pushed s chunk).tried h.isOpen hc ne rfl hw
  · have r := resumePush_resumed s
    generalize s.resumePush.1 = answer, s.resumePush.2 = t at r ⊢
    cases r
    case asleep hn =>
      -- It has not been woken, so that its chunk still does not fit.
      have hl : s.spaceFreed.listener = .asleep := by
        have ha := mt h.sound.patient.listener.mp (by simp [hc])
        have hw := hn.resolve_left (by simp [hc])
        cases hl : s.spaceFreed.listener <;> simp_all
      exact .asleep (h.sound.patient.full hl chunk hc) rfl hc fits
    case woken hs' _ p =>
      obtain rfl : chunk = _ := Option.some_inj.mp (hc.symm.trans hs')
      exact p.tried ⟨h.isOpen.stopping, h.isOpen.readerDropped⟩ rfl ne rfl fun w =>
        hw ⟨w.policy, w.fits⟩

end State

namespace Feeding

open State (Tended Tried Prepared)

variable {α : Type} [Scalar α] {kernel : Kernel} {config : FlowgraphConfig} {s₀ t : State α}
  {chunks rest : List (List Int8)} {chunk : List Int8} {i : Nat} {x : Feeding α}
  {answer : Option (Admission α)}

theorem of_drop_eq_cons (h : chunks.drop i = chunk :: rest) :
    chunks[i]? = some chunk ∧ chunks.drop (i + 1) = rest ∧
      chunks.take (i + 1) = chunks.take i ++ [chunk] := by
  have here : chunks[i]? = some chunk := by
    have := congrArg (·[0]?) h
    simpa using this
  refine ⟨here, ?_, ?_⟩
  · rw [← List.tail_drop, h, List.tail_cons]
  · rw [List.take_add_one, here]
    rfl

omit [Scalar α] in
theorem fitting_iff (here : chunks[i]? = some chunk) : Fitting s₀ chunks i ↔
    chunk.length ≤
      s₀.ring.capacity - (chunks.take i).flatten.length % s₀.staged.windowLength := by
  unfold Fitting
  rw [here]
  exact ⟨fun h => h chunk rfl, fun h _ he => Option.some.inj he ▸ h⟩

namespace At

variable {events : List (Event α)} {s : State α}

theorem tended (a : At s₀ chunks i events s) (p : Prepared kernel config s₀) :
    Tended kernel s₀ s :=
  p.tended a.run a.calm

-- A step by which no chunk is taken.
theorem of_silent {event} (a : At s₀ chunks i events s) (e : s.Step event t) (calm : event.Calm)
    (ha : accepted [event] = [])
    (hl : t.ring.length % s₀.staged.windowLength = s.ring.length % s₀.staged.windowLength) :
    At s₀ chunks i (events ++ [event]) t where
  run   := a.run.step e
  calm  := List.forall_mem_append.mpr ⟨a.calm, List.forall_mem_singleton.mpr calm⟩
  taken := by rw [accepted_append, ha, List.append_nil, a.taken]
  level := hl.trans a.level
  fits  := a.fits

-- The samples of a chunk that is taken come on top of those that are there.
theorem of_taken (a : At s₀ chunks i events s) (p : Prepared kernel config s₀)
    (e : s.Step (.push chunk (some (.ok true))) t) (left : chunks.drop i = chunk :: rest)
    (room : chunk.length ≤ s.ring.free) (length : t.ring.length = s.ring.length + chunk.length) :
    At s₀ chunks (i + 1) (events ++ [.push chunk (some (.ok true))]) t := by
  have h := a.tended p
  obtain ⟨here, -, ht⟩ := of_drop_eq_cons left
  constructor
  case run   => exact a.run.step e
  case calm  =>
    exact List.forall_mem_append.mpr ⟨a.calm, List.forall_mem_singleton.mpr trivial⟩
  case taken => rw [accepted_append, a.taken, ht]; rfl
  case level =>
    rw [length, ht, List.flatten_append, List.flatten_singleton, List.length_append, Nat.add_mod,
      a.level, ← Nat.add_mod]
  case fits =>
    intro j hj
    rcases Nat.lt_succ_iff_lt_or_eq.mp hj with hj | rfl
    · exact a.fits j hj
    · rw [fitting_iff here, ← a.level, ← h.capacity]
      have hf : s.ring.free = s.ring.capacity - s.ring.length := rfl
      have := Nat.mod_le s.ring.length s₀.staged.windowLength
      omega

theorem fits_iff (a : At s₀ chunks i events s) (p : Prepared kernel config s₀)
    (here : chunks[i]? = some chunk) : s.Fits chunk ↔ Fitting s₀ chunks i := by
  have h := a.tended p
  rw [fitting_iff here, State.Fits, h.staged, h.capacity, a.level]

end At

namespace Stands

theorem exists_at (st : Stands s₀ chunks x) : ∃ i, At s₀ chunks i x.history x.flow := by
  cases st <;> exact ⟨_, ‹_›⟩

theorem of_ofChunks (a : At s₀ chunks i x.history x.flow) (hi : i ≤ chunks.length)
    (left : chunks.drop i = rest) (feeder : x.feeder = .ofChunks rest)
    (free : x.flow.suspended = none) : Stands s₀ chunks x := by
  cases rest
  case nil =>
    obtain rfl := Nat.le_antisymm hi (List.drop_eq_nil_iff.mp left)
    exact .through a feeder
  case cons => exact .busy a feeder left (.inl free)

theorem start (p : Prepared kernel config s₀) : Stands s₀ chunks (start s₀ chunks) := by
  have f := p.fresh
  have a : At s₀ chunks 0 [] s₀ := by
    refine ⟨.refl, nofun, rfl, ?_, nofun⟩
    rw [← SampleRing.toList_length, f.empty]
    rfl
  exact .of_ofChunks a (Nat.zero_le _) rfl rfl f.suspended

theorem step_scheduler (st : Stands s₀ chunks x) (p : Prepared kernel config s₀) :
    Stands s₀ chunks (x.step .scheduler) ∧ Moved .scheduler x (x.step .scheduler) := by
  have u := State.turn_turn x.flow
  obtain ⟨_, a⟩ := st.exists_at
  have h := a.tended p
  have level := u.length_mod h.isOpen h.sound h.settled
  have moved : Moved .scheduler x (x.step .scheduler) := by
    rcases Nat.lt_or_eq_of_le level.right with hl | hl
    · exact .inl (rank_lt_of_length rfl hl)
    · refine .of_held rfl u.preserves_settings.left hl fun hd => ?_
      exact (u.drains h.isOpen h.sound h.settled (due_eq_scheduler.mp hd)).ne hl
  have silent {j} (a : At s₀ chunks j x.history x.flow) :
      At s₀ chunks j (x.step .scheduler).history x.flow.turn.2 :=
    a.of_silent .turn trivial rfl (h.staged ▸ level.left)
  refine ⟨?_, moved⟩
  cases st
  case busy _ a feeder left asleep =>
    obtain ⟨here, -, -⟩ := of_drop_eq_cons left
    refine .busy (silent a) feeder left ?_
    refine asleep.imp u.preserves_suspended.trans fun ⟨hc, fits⟩ => ?_
    exact ⟨u.preserves_suspended.trans hc,
      ((silent a).fits_iff p here).mpr ((a.fits_iff p here).mp fits)⟩
  case through a feeder          => exact .through (silent a) feeder
  case stuck a here large feeder => exact .stuck (silent a) here large feeder

-- The chunk is still offered, and there is a window to be drained.
theorem of_held {y : Feeding α} (a : At s₀ chunks i x.history x.flow)
    (a' : At s₀ chunks i y.history y.flow) (p : Prepared kernel config s₀)
    (hf : x.feeder = .busy chunk rest) (feeder : y.feeder = .busy chunk rest)
    (left : chunks.drop i = chunk :: rest) (ring : y.flow.ring = x.flow.ring)
    (hw : x.flow.staged.windowLength ≤ x.flow.ring.length)
    (asleep : y.flow.suspended = none ∨ y.flow.suspended = some chunk ∧ y.flow.Fits chunk) :
    Stands s₀ chunks y ∧ Moved .feeder x y := by
  have hs : y.flow.staged = x.flow.staged := (a'.tended p).staged.trans (a.tended p).staged.symm
  refine ⟨.busy a' feeder left asleep, .of_held (feeder.trans hf.symm) hs (by rw [ring]) ?_⟩
  simp [due_eq_scheduler.mpr hw]

-- A chunk that is turned away where no window is left is one that does not fit.
theorem of_tried (a : At s₀ chunks i x.history x.flow) (p : Prepared kernel config s₀)
    (feeder : x.feeder = .busy chunk rest) (left : chunks.drop i = chunk :: rest)
    (e : x.flow.Step (.push chunk answer) t) (tried : Tried x.flow chunk answer t) :
    let y : Feeding α :=
      ⟨t, .next chunk rest (t.verdict chunk answer), x.history ++ [.push chunk answer]⟩
    Stands s₀ chunks y ∧ Moved .feeder x y := by
  intro y
  obtain ⟨here, behind, -⟩ := of_drop_eq_cons left
  have h := a.tended p
  cases tried
  case taken room length suspended =>
    have hi := (List.getElem?_eq_some_iff.mp here).choose
    have a' := a.of_taken p e left room length
    exact ⟨.of_ofChunks a' hi behind rfl suspended, .inl (rank_lt_of_taken feeder rfl)⟩
  case refused full ring suspended =>
    have a' := a.of_silent e trivial rfl (by rw [ring])
    have h' := a'.tended p
    have hs : t.staged = x.flow.staged := h'.staged.trans h.staged.symm
    have hl : t.stats.pendingSamples = x.flow.ring.length := by rw [h'.counted, ring]
    by_cases hn : t.stats.pendingSamples < t.staged.windowLength
    case pos =>
      have hy : y.feeder = .ended (.error (t.stuck chunk)) := by
        simp only [y, State.verdict, if_pos hn, Feeder.next]
      rw [hl] at hn
      have large : ¬Fitting s₀ chunks i := fun fits => Nat.not_le.mpr (hs ▸ hn)
        (State.windowLength_le_of_full full ((a.fits_iff p here).mpr fits))
      refine ⟨.stuck a' here large ?_, .inl (rank_lt_of_left ?_)⟩
      · rw [hy, State.stuck, hl, ← a.level, ← h'.staged, Nat.mod_eq_of_lt hn]
      · rw [hy, feeder]
        exact Nat.succ_pos _
    case neg =>
      have hy : y.feeder = .busy chunk rest := by
        simp only [y, State.verdict, if_neg hn, Feeder.next]
      rw [hl, hs, Nat.not_lt] at hn
      exact of_held a a' p feeder hy left ring hn (.inl suspended)
  case asleep full fits ring suspended =>
    have a' := a.of_silent e trivial rfl (by rw [ring])
    have fits' : t.Fits chunk := (a'.fits_iff p here).mpr ((a.fits_iff p here).mp fits)
    have hw := State.windowLength_le_of_full full fits
    exact of_held a a' p feeder rfl left ring hw (.inr ⟨suspended, fits'⟩)

theorem step_feeder (st : Stands s₀ chunks x) (p : Prepared kernel config s₀)
    (ne : ∀ chunk ∈ chunks, chunk ≠ []) : Stands s₀ chunks (x.step .feeder) ∧
      (¬x.Ended → Moved .feeder x (x.step .feeder)) := by
  have idle {result} (hf : x.feeder = .ended result) : Stands s₀ chunks (x.step .feeder) ∧
      (¬x.Ended → Moved .feeder x (x.step .feeder)) := by
    rw [step, hf]
    exact ⟨st, fun hx => absurd ⟨_, hf⟩ hx⟩
  cases st
  case busy a feeder left asleep =>
    have h := a.tended p
    obtain ⟨here, -, -⟩ := of_drop_eq_cons left
    have tried := h.tried (ne _ (List.mem_of_getElem? here)) asleep
    obtain ⟨e, -⟩ := State.step_of_ask h.isOpen (asleep.imp_right And.left) rfl
    rw [step_busy feeder]
    obtain ⟨st, moved⟩ := of_tried a p feeder left e tried
    exact ⟨st, fun _ => moved⟩
  case through feeder => exact idle feeder
  case stuck feeder   => exact idle feeder

theorem progress (p : Prepared kernel config s₀) (ne : ∀ chunk ∈ chunks, chunk ≠ []) :
    Schedule.Progress step (Stands s₀ chunks) Ended rank due := by
  have moved {x} (party) (st : Stands s₀ chunks x) :
      Stands s₀ chunks (x.step party) ∧ (¬x.Ended → Moved party x (x.step party)) := by
    cases party
    case feeder    => exact st.step_feeder p ne
    case scheduler => exact (st.step_scheduler p).imp_right fun h _ => h
  constructor
  case keep    => exact fun party st => (moved party st).left
  case advance =>
    exact fun st hx => ((moved _ st).right hx).resolve_right fun h => h.right.right rfl
  case hold    =>
    exact fun party st hx => ((moved party st).right hx).imp_right fun h => ⟨h.left, h.right.left⟩

theorem play (st : Stands s₀ chunks x) (p : Prepared kernel config s₀)
    (ne : ∀ chunk ∈ chunks, chunk ≠ []) (parties : List Party) :
    Stands s₀ chunks (x.play parties) := by
  induction parties generalizing x
  case nil                   => exact st
  case cons party parties hi => exact hi ((progress p ne).keep party st)

-- After an attempt in vain, the turn of the scheduler takes a window out of the ring.
theorem step_step_lt (st : Stands s₀ chunks x) (p : Prepared kernel config s₀)
    (ne : ∀ chunk ∈ chunks, chunk ≠ []) (hx : ¬x.Ended)
    (hf : (x.step .feeder).feeder = x.feeder) :
    ((x.step .feeder).step .scheduler).flow.ring.length < x.flow.ring.length := by
  obtain ⟨st', moved⟩ := st.step_feeder p ne
  obtain ⟨_, moved'⟩ := st'.step_scheduler p
  have hr : ((x.step .feeder).step .scheduler).rank < x.rank := by
    rcases moved hx with hl | ⟨hr, hd, hn⟩
    · rcases moved' with hl' | ⟨hr', -, -⟩
      · exact hl'.trans hl
      · exact hr' ▸ hl
    · have hd : (x.step .feeder).due = .scheduler := by
        rw [hd]
        cases h : x.due
        case feeder    => exact absurd h hn
        case scheduler => rfl
      exact hr ▸ moved'.resolve_right fun h => h.right.right hd
  rcases Prod.Lex.toLex_lt_toLex.mp hr with hl | ⟨-, hl⟩
  · exact absurd (congrArg Feeder.left hf) hl.ne
  · exact hl

-- The party that does everything in turn keeps one of the orders that there are. An attempt in vain
-- counts together with the turn that comes after it.
theorem feed_eq_play (st : Stands s₀ chunks x) (p : Prepared kernel config s₀)
    (ne : ∀ chunk ∈ chunks, chunk ≠ []) (hf : x.feeder = .ofChunks rest) :
    ∃ parties result, (x.play parties).feeder = .ended result ∧
      x.flow.feed rest = result.map fun () => (x.play parties).flow := by
  induction hr : x.rank using WellFoundedLT.induction generalizing x rest
  case ind r hi =>
    subst hr
    cases rest
    case nil => exact ⟨[], .ok (), hf, rfl⟩
    case cons chunk rest =>
      have hb : x.feeder = .busy chunk rest := hf
      have st' := (st.step_feeder p ne).left
      have hs : (x.step .feeder).flow = (x.flow.ask chunk).2 := by rw [step_busy hb]
      have hn : (x.step .feeder).feeder = .next chunk rest (x.flow.attempt chunk) := by
        rw [step_busy hb]
      rw [State.feed, State.feedChunk_eq]
      cases ha : x.flow.attempt chunk <;> rw [ha] at hn
      case taken =>
        obtain ⟨parties, result, he, h⟩ := hi _ (rank_lt_of_taken hb hn) st' hn rfl
        exact ⟨.feeder :: parties, result, he, hs ▸ h⟩
      case shut         => exact ⟨[.feeder], .ok (), hn, congrArg Except.ok hs.symm⟩
      case failed fault => exact ⟨[.feeder], .error fault, hn, rfl⟩
      case again =>
        have hf' : ((x.step .feeder).step .scheduler).feeder = x.feeder := hn.trans hb.symm
        have hl := st.step_step_lt p ne (by simp [Ended, hb]) hf'
        obtain ⟨parties, result, he, h⟩ :=
          hi _ (rank_lt_of_length hf' hl) (st'.step_scheduler p).left (hf'.trans hf) rfl
        refine ⟨.feeder :: .scheduler :: parties, result, he, ?_⟩
        have ht : ((x.step .feeder).step .scheduler).flow = (x.flow.ask chunk).2.turn.2 :=
          congrArg (fun s : State α => s.turn.2) hs
        rw [ht] at hl h
        simp only [if_pos hl]
        exact h

end Stands

end Feeding

end Flowgraph

end RadioSpectrum
