import RadioSpectrum.Proofs.SampleRing.Slices

namespace RadioSpectrum

namespace SampleRing

-- What was asked of the ring, and what came of it.
inductive Event (α : Type) where
  | write (chunk : List Int8) (answer : Except (StreamError α) Unit)
  | read (n : Nat) (window : Option (List Int8))
  -- The samples that are gone, and how many there are said to be.
  | discard (n count : Nat) (gone : List Int8)
  | dropWriter
  | dropReader

namespace Event

variable {α : Type}

-- Samples that came in with an event.
def written : Event α → List Int8
  | write chunk (.ok _) => chunk
  | _                   => []

-- Samples that an event took out.
def removed : Event α → List Int8
  | read _ (some window) => window
  | discard _ _ gone     => gone
  | _                    => []

inductive Failed : Event α → Prop
  | write : Failed (.write chunk (.error e))
  | read  : Failed (.read n none)

end Event

section Steps

variable {α : Type}

-- One call of either half. That a half makes no calls after it was dropped is not needed below.
inductive Step : SampleRing → Event α → SampleRing → Prop
  | write      (h : r₁.write (α := α) chunk = .ok r₂) : Step r₁ (.write chunk (.ok ())) r₂
  | refuse     (h : r.write chunk = .error e) : Step r (.write chunk (.error e)) r
  | read       (h : r₁.read? n = some (window, r₂)) : Step r₁ (.read n (some window)) r₂
  | short      (h : r.read? n = none) : Step r (.read n none) r
  | discard    : Step r (.discard n (r.discard n).1 (r.toList.take (r.discard n).1)) (r.discard n).2
  | dropWriter : Step r .dropWriter r.dropWriter
  | dropReader : Step r .dropReader r.dropReader

-- Calls one after the other.
inductive Run : SampleRing → List (Event α) → SampleRing → Prop
  | refl : Run r [] r
  | step (run : Run r₁ events r₂) (s : Step r₂ event r₃) : Run r₁ (events ++ [event]) r₃

-- The same calls to a queue that holds at most `capacity` samples.
inductive QueueStep (capacity : Nat) : List Int8 → Event α → List Int8 → Prop
  | write      (hn : chunk ≠ []) (hf : chunk.length ≤ capacity - xs.length) :
    QueueStep capacity xs (.write chunk (.ok ())) (xs ++ chunk)
  | full       (hn : chunk ≠ []) (hf : capacity - xs.length < chunk.length) :
    QueueStep capacity xs
      (.write chunk (.error (.admissionRejected chunk.length (capacity - xs.length)))) xs
  | nothing    : QueueStep capacity xs (.write [] (.error .invalidChunk)) xs
  | read       (h : window.length = n) : QueueStep capacity (window ++ xs) (.read n (some window)) xs
  | short      (h : xs.length < n) : QueueStep capacity xs (.read n none) xs
  | discard    (h : gone.length = min n (gone ++ xs).length) :
    QueueStep capacity (gone ++ xs) (.discard n gone.length gone) xs
  | dropWriter : QueueStep capacity xs .dropWriter xs
  | dropReader : QueueStep capacity xs .dropReader xs

inductive QueueRun (capacity : Nat) : List Int8 → List (Event α) → List Int8 → Prop
  | refl : QueueRun capacity xs [] xs
  | step (run : QueueRun capacity xs events ys) (s : QueueStep capacity ys event zs) :
    QueueRun capacity xs (events ++ [event]) zs

end Steps

variable {α : Type} {capacity : Nat} {xs ys : List Int8} {r r₁ r₂ : SampleRing}
variable {chunk : List Int8} {n : Nat} {event : Event α} {events : List (Event α)}

theorem QueueStep.conserves (s : QueueStep capacity xs event ys) :
    event.removed ++ ys = xs ++ event.written := by
  cases s <;> simp [Event.removed, Event.written]

theorem QueueStep.eq_of_failed (s : QueueStep capacity xs event ys) (f : event.Failed) :
    ys = xs := by
  cases f <;> cases s <;> rfl

theorem QueueStep.eq_admissionRejected {e : StreamError α}
    (s : QueueStep capacity xs (.write chunk (.error e)) ys) (hn : chunk ≠ []) :
    e = .admissionRejected chunk.length (capacity - xs.length) := by
  cases s
  case full    => rfl
  case nothing => contradiction

theorem QueueRun.conserves (run : QueueRun capacity xs events ys) :
    events.flatMap Event.removed ++ ys = xs ++ events.flatMap Event.written := by
  induction run
  case refl => simp
  case step s hi =>
    simp only [List.flatMap_append, List.flatMap_singleton, List.append_assoc, s.conserves]
    simp only [← List.append_assoc, hi]

theorem free_eq (r : SampleRing) : r.free = r.capacity - r.toList.length := by
  simp [free]

theorem free_add_length (r : SampleRing) : r.free + r.length = r.capacity :=
  Nat.sub_add_cancel r.length_le_capacity

theorem write_isOk_iff :
    (∃ r', r.write (α := α) chunk = .ok r') ↔ chunk ≠ [] ∧ chunk.length ≤ r.free where
  mp h := have ⟨_, h⟩ := h; have w := written_of_write h; ⟨w.ne_nil, w.le_free⟩
  mpr h := exists_write_of_le_free h.left h.right

theorem read?_isSome_iff : (r.read? n).isSome ↔ n ≤ r.length := by
  simp [read?]

@[simp]
theorem discard_count : (r.discard n).1 = min n r.length :=
  rfl

-- The oldest samples are gone, and the others stay.
theorem discard_toList : (r.discard n).2.toList = r.toList.drop (min n r.length) := by
  have h : r.read? (min n r.length) = some (_, (r.discard n).2) :=
    if_pos (Nat.min_le_right ..)
  have d := read_of_read? h
  simp [d.toList, d.window_length]

theorem discard_length : (r.discard n).2.length = r.length - min n r.length := by
  simpa using congrArg List.length (discard_toList (r := r) (n := n))

theorem error_of_write {e : StreamError α} (h : r.write chunk = .error e) :
    QueueStep r.capacity r.toList (.write chunk (.error e)) r.toList := by
  by_cases hn : chunk = []
  case pos =>
    subst hn
    obtain rfl : .invalidChunk = e := by simpa [write_nil] using h
    exact .nothing
  case neg =>
    have hf : r.free < chunk.length := by
      by_contra hf
      have ⟨r', hr⟩ := exists_write_of_le_free (α := α) hn (Nat.not_lt.mp hf)
      simp [hr] at h
    obtain rfl : .admissionRejected chunk.length r.free = e := by
      simpa [write_eq_admissionRejected hn hf] using h
    rw [free_eq] at hf ⊢
    exact .full hn hf

namespace Step

theorem preserves_capacity (s : Step r₁ event r₂) : r₂.capacity = r₁.capacity := by
  cases s
  case write h   => exact (written_of_write h).capacity
  case read h    => exact (read_of_read? h).capacity
  all_goals rfl

theorem queue (s : Step r₁ event r₂) : QueueStep r₁.capacity r₁.toList event r₂.toList := by
  cases s
  case write h =>
    have w := written_of_write h
    rw [w.toList]
    exact .write w.ne_nil (r₁.free_eq ▸ w.le_free)
  case refuse h => exact error_of_write h
  case read h =>
    have d := read_of_read? h
    rw [d.toList]
    exact .read d.window_length
  case short h => exact .short (by simpa using read?_eq_none_iff.mp h)
  case discard n =>
    let gone := r₁.toList.take (min n r₁.length)
    have hl : gone.length = min n r₁.length := by simp [gone]
    have ha : r₁.toList = gone ++ (r₁.discard n).2.toList := by simp [gone, discard_toList]
    have hg : gone.length = min n (gone ++ (r₁.discard n).2.toList).length := by simp [← ha, hl]
    have q : QueueStep r₁.capacity _ _ _ := .discard hg (α := α)
    rwa [← ha, hl] at q
  case dropWriter => exact .dropWriter
  case dropReader => exact .dropReader

end Step

namespace Run

theorem preserves_capacity (run : Run r₁ events r₂) : r₂.capacity = r₁.capacity := by
  induction run
  case refl      => rfl
  case step s hi => rw [s.preserves_capacity, hi]

theorem queue (run : Run r₁ events r₂) : QueueRun r₁.capacity r₁.toList events r₂.toList := by
  induction run
  case refl          => exact .refl
  case step run s hi => exact .step hi (run.preserves_capacity ▸ s.queue)

end Run

theorem refines_queue (h : 0 < capacity) (run : Run (empty capacity h) events r) :
    QueueRun capacity [] events r.toList ∧
    events.flatMap Event.removed ++ r.toList = events.flatMap Event.written ∧
    r.free + r.length = capacity ∧
    (∀ chunk, (∃ r', r.write (α := α) chunk = .ok r') ↔ chunk ≠ [] ∧ chunk.length ≤ r.free) ∧
    (∀ chunk r', r.write (α := α) chunk = .ok r' → r'.slots.toList = r.filled chunk) ∧
    (∀ n, (r.read? n).isSome ↔ n ≤ r.length) ∧
    (∀ n window r', r.read? n = some (window, r') → window = r.front n) ∧
    (∀ n, (r.discard n).1 = min n r.length ∧ (r.discard n).2.length = r.length - min n r.length) ∧
    ∀ (event : Event α) r', Step r event r' →
      QueueStep capacity r.toList event r'.toList ∧
      (event.Failed → r'.toList = r.toList ∧ r'.length = r.length ∧ r'.free = r.free) ∧
      ∀ chunk e, event = .write chunk (.error e) → chunk ≠ [] →
        e = .admissionRejected chunk.length r.free := by
  have hc : r.capacity = capacity := by simpa using run.preserves_capacity
  have q : QueueRun capacity [] events r.toList := by simpa using run.queue
  refine ⟨q, by simpa using q.conserves, hc ▸ r.free_add_length, fun _ => write_isOk_iff,
    fun _ _ => slots_of_write, fun _ => read?_isSome_iff, fun _ _ _ => window_of_read?,
    fun _ => ⟨discard_count, discard_length⟩, fun event r' s => ?_⟩
  have q := hc ▸ s.queue
  refine ⟨q, fun f => ?_, ?_⟩
  case refine_1 =>
    have he := q.eq_of_failed f
    have hl : r'.length = r.length := by simpa using congrArg List.length he
    exact ⟨he, hl, by simp [free, s.preserves_capacity, hl]⟩
  case refine_2 =>
    rintro chunk e rfl hn
    rw [free_eq, hc]
    exact q.eq_admissionRejected hn

section Wrapped

def begun : SampleRing :=
  ⟨#[1, 2, 3, 0], 0, 3, false, false, by decide, by decide⟩

def drained : SampleRing :=
  ⟨#[1, 2, 3, 0], 2, 1, false, false, by decide, by decide⟩

-- The chunk that was written last goes around the end of the circle.
def wrapped : SampleRing :=
  ⟨#[5, 2, 3, 4], 2, 3, false, false, by decide, by decide⟩

theorem refines_queue_wrapped :
    ∃ (events : List (Event Float)) (h : 0 < 4), Run (empty 4 h) events wrapped ∧
      events.flatMap Event.written = [1, 2, 3, 4, 5] ∧ events.flatMap Event.removed = [1, 2] ∧
      [1, 2] ++ wrapped.toList = [1, 2, 3, 4, 5] ∧ wrapped.free + 3 = 4 ∧
      QueueStep (α := Float) 4 wrapped.toList
        (.write [6, 7] (.error (.admissionRejected 2 1))) wrapped.toList := by
  have h : 0 < 4 := by decide
  have h₁ : (empty 4 h).write (α := Float) [1, 2, 3] = .ok begun := rfl
  have h₂ : begun.read? 2 = some ([1, 2], drained) := by
    simp [read?, begun, drained, advance, sample, slot, List.range, List.range.loop]
  have h₃ : drained.write (α := Float) [4, 5] = .ok wrapped := by
    simp [write, push, drained, wrapped, slot, free, capacity]
  have h₄ : wrapped.write (α := Float) [6, 7] = .error (.admissionRejected 2 1) := by
    simp [write, wrapped, free, capacity]
  have run := Run.refl.step (.write h₁) |>.step (.read h₂) |>.step (.write h₃)
  obtain ⟨_, hq, hf, _, _, _, _, _, hs⟩ := refines_queue h run
  exact ⟨_, h, run, rfl, rfl, hq, hf, (hs _ _ (.refuse h₄)).left⟩

-- A chunk without samples is refused without a word on how many are free.
theorem empty_write_nil_reports_nothing :
    ∃ (h : 0 < 4) (e : StreamError Float), (empty 4 h).write [] = .error e ∧
      ∀ requested, e ≠ .admissionRejected requested (empty 4 h).free :=
  ⟨by decide, .invalidChunk, write_nil, fun _ => nofun⟩

end Wrapped

end SampleRing

end RadioSpectrum
