import Mathlib.Data.List.Infix
import RadioSpectrum.Readership

namespace RadioSpectrum

namespace Readership

-- What is asked of stores and readers, and what comes of it. A look is recorded with the store that
-- the reader looks into.
inductive Event (β : Type) where
  | add (store reader : Nat)
  | publish (store : Nat) (bins : List β) (generation : Nat)
  | enrol (store reader : Nat)
  | clone (original reader : Nat)
  | read (reader store : Nat) (seen : Snapshot β)
  | keep (reader store slot : Nat) (seen : Snapshot β)
  -- A snapshot that was kept is looked at again.
  | revisit (slot : Nat) (seen : Snapshot β)

namespace Event

variable {β : Type}

def bins? (store : Nat) : Event β → Option (List β)
  | publish s bins _ => if s = store then some bins else none
  | _                => none

def number? (store : Nat) : Event β → Option Nat
  | publish s _ generation => if s = store then some generation else none
  | _                      => none

def seen? (store : Nat) : Event β → Option (Snapshot β)
  | read _ s seen | keep _ s _ seen => if s = store then some seen else none
  | _                               => none

end Event

section Definitions

variable {β : Type}

-- What was published in a store, the oldest first.
def published (store : Nat) (events : List (Event β)) : List (List β) :=
  events.filterMap (Event.bins? store)

-- What the publisher of a store was told.
def numbers (store : Nat) (events : List (Event β)) : List Nat :=
  events.filterMap (Event.number? store)

-- What was seen of a store, through any reader.
def sightings (store : Nat) (events : List (Event β)) : List (Snapshot β) :=
  events.filterMap (Event.seen? store)

-- The last of all snapshots that were published, or the empty one if there are none.
def latest (all : List (List β)) : Snapshot β where
  generation := all.length
  bins := all.getLastD []

inductive Step : Readership β → Event β → Readership β → Prop
  | add {r} : Step r (.add r.add.1.1 r.add.1.2) r.add.2
  | publish {r r' store bins generation} (h : r.publish store bins = some (generation, r')) :
    Step r (.publish store bins generation) r'
  | enrol {r r' store reader} (h : r.enrol store = some (reader, r')) :
    Step r (.enrol store reader) r'
  | clone {r r' original reader} (h : r.clone original = some (reader, r')) :
    Step r (.clone original reader) r'
  | read {r reader store seen} (looks : r.readers[reader]? = some store)
    (h : r.read? reader = some seen) : Step r (.read reader store seen) r
  | keep {r r' reader store slot seen} (looks : r.readers[reader]? = some store)
    (found : r.read? reader = some seen) (h : r.keep reader = some (slot, r')) :
    Step r (.keep reader store slot seen) r'
  | revisit {r slot seen} (h : r.kept[slot]? = some seen) : Step r (.revisit slot seen) r

inductive Run (r : Readership β) : List (Event β) → Readership β → Prop
  | refl : Run r [] r
  | step {r₁ r₂ events event} (run : Run r events r₁) (e : Step r₁ event r₂) :
    Run r (events ++ [event]) r₂

-- A store after so much was published in it.
def storeOf (all : List (List β)) : SnapshotStore β where
  current := latest all
  published := all.length

-- The stores hold what was published last, and each reader has a store. In a store that is still to
-- come, nothing was published.
structure Faithful (events : List (Event β)) (r : Readership β) : Prop where
  stores  : ∀ store, r.stores.getD store {} = storeOf (published store events)
  readers : ∀ store ∈ r.readers, store < r.stores.length

-- What readers and the publisher get out of one store, over a whole history of it.
structure Consistent (store : Nat) (events : List (Event β)) (r : Readership β) : Prop where
  -- The first number is 1.
  told     : numbers store events = List.range' 1 (published store events).length
  -- A look anywhere in the history finds what was published last by then.
  seen     : ∀ before event snapshot after, events = before ++ event :: after →
    event.seen? store = some snapshot →
    (published store before = [] ∧ snapshot = .empty) ∨
    ∃ earlier bins, published store before = earlier ++ [bins] ∧
      snapshot = ⟨earlier.length + 1, bins⟩
  sorted   : (sightings store events).Pairwise (·.generation ≤ ·.generation)
  complete : ∀ a ∈ sightings store events, ∀ b ∈ sightings store events,
    a.generation = b.generation → a.bins = b.bins
  kept     : ∀ before reader slot snapshot after,
    events = before ++ .keep reader store slot snapshot :: after →
    r.kept[slot]? = some snapshot ∧ ∀ again, .revisit slot again ∈ after → again = snapshot
  -- A look never fails, whoever made the reader.
  found    : ∀ reader, r.readers[reader]? = some store →
    r.read? reader = some (latest (published store events))
  enrolled : ∀ before reader after, events = before ++ .enrol store reader :: after →
    r.readers[reader]? = some store
  cloned   : ∀ before original reader after, events = before ++ .clone original reader :: after →
    r.readers[reader]? = r.readers[original]?

-- Readers and kept snapshots stay what they are when others come.
structure Extends (r r' : Readership β) : Prop where
  readers : r.readers <+: r'.readers
  kept    : r.kept <+: r'.kept

end Definitions

variable {β : Type} {r r' r₁ r₂ : Readership β} {seen : Snapshot β} {bins : List β}
variable {event : Event β} {events before after : List (Event β)} {store reader slot : Nat}

@[simp]
theorem published_append : published store (before ++ after) =
    published store before ++ published store after :=
  List.filterMap_append

@[simp]
theorem numbers_append : numbers store (before ++ after) =
    numbers store before ++ numbers store after :=
  List.filterMap_append

@[simp]
theorem sightings_append : sightings store (before ++ after) =
    sightings store before ++ sightings store after :=
  List.filterMap_append

@[simp]
theorem latest_append (all : List (List β)) (bins : List β) :
    latest (all ++ [bins]) = ⟨all.length + 1, bins⟩ := by
  simp [latest]

theorem publish_eq_some {generation} (h : r.publish store bins = some (generation, r')) :
    ∃ s, r.stores[store]? = some s ∧ generation = s.published + 1 ∧
      r' = { r with stores := r.stores.set store (s.publish bins) } := by
  obtain ⟨s, hs, h⟩ := Option.bind_eq_some_iff.mp h
  cases h
  exact ⟨s, hs, rfl, rfl⟩

theorem enrol_eq_some (h : r.enrol store = some (reader, r')) :
    store < r.stores.length ∧ reader = r.readers.length ∧
      r' = { r with readers := r.readers ++ [store] } := by
  obtain ⟨s, hs, h⟩ := Option.bind_eq_some_iff.mp h
  cases h
  exact ⟨(List.getElem?_eq_some_iff.mp hs).choose, rfl, rfl⟩

theorem clone_eq_some {original} (h : r.clone original = some (reader, r')) :
    ∃ store, r.readers[original]? = some store ∧ reader = r.readers.length ∧
      r' = { r with readers := r.readers ++ [store] } := by
  obtain ⟨store, hs, h⟩ := Option.bind_eq_some_iff.mp h
  cases h
  exact ⟨store, hs, rfl, rfl⟩

theorem keep_eq_some (h : r.keep reader = some (slot, r')) :
    ∃ seen, r.read? reader = some seen ∧ slot = r.kept.length ∧
      r' = { r with kept := r.kept ++ [seen] } := by
  obtain ⟨seen, hs, h⟩ := Option.bind_eq_some_iff.mp h
  cases h
  exact ⟨seen, hs, rfl, rfl⟩

namespace Faithful

theorem store_eq (h : Faithful events r) {s : SnapshotStore β} (hs : r.stores[store]? = some s) :
    s = storeOf (published store events) := by
  rw [← h.stores, List.getD_eq_getElem?_getD, hs]
  rfl

-- What every reader of a store finds.
theorem read?_eq (h : Faithful events r) (hr : r.readers[reader]? = some store) :
    r.read? reader = some (latest (published store events)) := by
  have hl := h.readers store (List.mem_of_getElem? hr)
  have hs := List.getElem?_eq_getElem hl
  have he := h.store_eq hs
  simp [read?, store?, hr, hs, he, storeOf]

-- Nothing happens to a store but that something is published in it.
theorem of_silent (h : Faithful events r) (hb : ∀ store, event.bins? store = none)
    (hs : ∀ store, r'.stores.getD store {} = r.stores.getD store {})
    (hr : ∀ store ∈ r'.readers, store < r'.stores.length) : Faithful (events ++ [event]) r' := by
  refine ⟨fun store => ?_, hr⟩
  have hp : published store (events ++ [event]) = published store events := by
    simp [published, hb]
  rw [hs, hp, h.stores]

theorem publish (h : Faithful events r) {generation}
    (hp : r.publish store bins = some (generation, r')) :
    Faithful (events ++ [.publish store bins generation]) r' := by
  obtain ⟨s, hs, -, rfl⟩ := publish_eq_some hp
  have hl : store < r.stores.length := (List.getElem?_eq_some_iff.mp hs).choose
  refine ⟨fun store' => ?_, fun s' hs' => by simpa using h.readers s' hs'⟩
  by_cases he : store = store'
  case pos =>
    subst he
    have hn : published store (events ++ [.publish store bins generation]) =
        published store events ++ [bins] := by
      simp [published, Event.bins?]
    rw [hn, h.store_eq hs]
    simp [hl, storeOf, SnapshotStore.publish]
  case neg =>
    have hn : published store' (events ++ [.publish store bins generation]) =
        published store' events := by
      simp [published, Event.bins?, he]
    rw [hn, ← h.stores]
    simp [List.getElem?_set_ne he]

end Faithful

theorem getD_append_default (stores : List (SnapshotStore β)) (store : Nat) :
    (stores ++ [({} : SnapshotStore β)]).getD store {} = stores.getD store {} := by
  rw [List.getD_eq_getElem?_getD, List.getD_eq_getElem?_getD]
  rcases Nat.lt_trichotomy store stores.length with hl | rfl | hl
  · rw [List.getElem?_append_left hl]
  · simp
  · rw [List.getElem?_append_right hl.le, List.getElem?_eq_none hl.le,
      List.getElem?_eq_none (by simp; omega)]

theorem Step.faithful (e : Step r event r') (h : Faithful events r) :
    Faithful (events ++ [event]) r' := by
  cases e
  case publish hp => exact h.publish hp
  case add =>
    have hl : r.add.2.stores.length = r.stores.length + 1 := List.length_append
    refine h.of_silent (fun _ => rfl) (getD_append_default _) fun store hs => ?_
    rw [hl]
    rcases List.mem_append.mp hs with hs | hs
    · exact Nat.lt_succ_of_lt (h.readers store hs)
    · exact Nat.lt_succ_of_le (List.mem_singleton.mp hs).le
  case enrol hr =>
    obtain ⟨hl, -, rfl⟩ := enrol_eq_some hr
    exact h.of_silent (fun _ => rfl) (fun _ => rfl)
      (List.forall_mem_append.mpr ⟨h.readers, by simpa using hl⟩)
  case clone hr =>
    obtain ⟨store, hs, -, rfl⟩ := clone_eq_some hr
    have hl := h.readers store (List.mem_of_getElem? hs)
    exact h.of_silent (fun _ => rfl) (fun _ => rfl)
      (List.forall_mem_append.mpr ⟨h.readers, by simpa using hl⟩)
  case keep hr =>
    obtain ⟨seen, -, -, rfl⟩ := keep_eq_some hr
    exact h.of_silent (fun _ => rfl) (fun _ => rfl) h.readers
  case read | revisit => exact h.of_silent (fun _ => rfl) (fun _ => rfl) h.readers

theorem Run.faithful (run : Run {} events r) : Faithful events r := by
  induction run
  case refl          => exact ⟨fun _ => rfl, nofun⟩
  case step run e hi => exact e.faithful hi

theorem Step.extends (e : Step r event r') : Extends r r' := by
  cases e
  case publish hp =>
    obtain ⟨s, -, -, rfl⟩ := publish_eq_some hp
    exact ⟨List.prefix_rfl, List.prefix_rfl⟩
  case add => exact ⟨List.prefix_append .., List.prefix_rfl⟩
  case enrol hr =>
    obtain ⟨-, -, rfl⟩ := enrol_eq_some hr
    exact ⟨List.prefix_append .., List.prefix_rfl⟩
  case clone hr =>
    obtain ⟨store, -, -, rfl⟩ := clone_eq_some hr
    exact ⟨List.prefix_append .., List.prefix_rfl⟩
  case keep hr =>
    obtain ⟨seen, -, -, rfl⟩ := keep_eq_some hr
    exact ⟨List.prefix_rfl, List.prefix_append ..⟩
  case read | revisit => exact ⟨List.prefix_rfl, List.prefix_rfl⟩

theorem getElem?_mono {α : Type} {l l' : List α} {i : Nat} {a : α} (h : l <+: l')
    (ha : l[i]? = some a) : l'[i]? = some a := by
  obtain ⟨more, rfl⟩ := h
  rw [List.getElem?_append_left (List.getElem?_eq_some_iff.mp ha).choose, ha]

theorem Run.extends (run : Run r events r') : Extends r r' := by
  induction run
  case refl => exact ⟨List.prefix_rfl, List.prefix_rfl⟩
  case step e hi => exact ⟨hi.readers.trans e.extends.readers, hi.kept.trans e.extends.kept⟩

-- A run comes apart at each of its events.
theorem Run.split (run : Run r (before ++ after) r₂) :
    ∃ r₁, Run r before r₁ ∧ Run r₁ after r₂ := by
  generalize he : before ++ after = events at run
  induction run generalizing after
  case refl =>
    obtain ⟨rfl, rfl⟩ := List.append_eq_nil_iff.mp he
    exact ⟨_, .refl, .refl⟩
  case step r₁ r₂ events event run e hi =>
    rcases List.eq_nil_or_concat after with rfl | ⟨rest, last, rfl⟩
    case inl =>
      rw [List.append_nil] at he
      exact ⟨_, he ▸ run.step e, .refl⟩
    case inr =>
      rw [List.concat_eq_append, ← List.append_assoc] at he
      obtain ⟨rfl, rfl⟩ := List.append_inj' he rfl |>.imp id List.singleton_inj.mp
      obtain ⟨_, run₁, run₂⟩ := hi rfl
      exact ⟨_, run₁, by simpa using run₂.step e⟩

theorem Run.split_at (run : Run r (before ++ event :: after) r₂) :
    ∃ r₁ r', Run r before r₁ ∧ Step r₁ event r' ∧ Run r' after r₂ := by
  rw [← List.singleton_append, ← List.append_assoc] at run
  obtain ⟨r', run₁, run₂⟩ := run.split
  generalize he : before ++ [event] = events at run₁
  cases run₁
  case refl => simp at he
  case step run e =>
    obtain ⟨rfl, rfl⟩ := List.append_inj' he rfl |>.imp id List.singleton_inj.mp
    exact ⟨_, r', run, e, run₂⟩

-- Whoever looks, sees what was published last.
theorem Run.sighting (run : Run {} (before ++ event :: after) r)
    (h : event.seen? store = some seen) : seen = latest (published store before) := by
  obtain ⟨r₁, r', before_run, e, -⟩ := run.split_at
  cases e
  case read store' _ looks hr =>
    obtain ⟨rfl, rfl⟩ : store' = store ∧ _ = seen := by simpa [Event.seen?] using h
    exact Option.some.inj (hr.symm.trans (before_run.faithful.read?_eq looks))
  case keep store' _ _ looks hr _ =>
    obtain ⟨rfl, rfl⟩ : store' = store ∧ _ = seen := by simpa [Event.seen?] using h
    exact Option.some.inj (hr.symm.trans (before_run.faithful.read?_eq looks))
  all_goals cases h

-- Everything that was seen of a store was once its latest snapshot.
theorem Run.mem_sightings (run : Run {} events r) (h : seen ∈ sightings store events) :
    ∃ all, all <+: published store events ∧ seen = latest all := by
  obtain ⟨event, he, hs⟩ := List.mem_filterMap.mp h
  obtain ⟨before, after, rfl⟩ := List.append_of_mem he
  exact ⟨_, by simp, run.sighting hs⟩

theorem Run.sightings_sorted (run : Run {} events r) :
    (sightings store events).Pairwise (·.generation ≤ ·.generation) := by
  induction run
  case refl => exact .nil
  case step events event run e hi =>
    rw [sightings_append, List.pairwise_append]
    refine ⟨hi, by cases h : event.seen? store <;> simp [sightings, h], fun a ha b hb => ?_⟩
    obtain ⟨all, hp, rfl⟩ := run.mem_sightings ha
    have hb : event.seen? store = some b := by simpa [sightings] using hb
    rw [(run.step e).sighting hb]
    exact hp.length_le

theorem Run.sightings_complete (run : Run {} events r) {a b : Snapshot β}
    (ha : a ∈ sightings store events) (hb : b ∈ sightings store events)
    (hg : a.generation = b.generation) : a = b := by
  obtain ⟨all, hp, rfl⟩ := run.mem_sightings ha
  obtain ⟨all', hp', rfl⟩ := run.mem_sightings hb
  have hl : all.length = all'.length := hg
  rw [List.prefix_iff_eq_take.mp hp, List.prefix_iff_eq_take.mp hp', hl]

theorem Step.number (e : Step r (.publish store bins generation) r') (h : Faithful events r) :
    generation = (published store events).length + 1 := by
  cases e with | publish hp =>
  obtain ⟨s, hs, rfl, -⟩ := publish_eq_some hp
  rw [h.store_eq hs]
  rfl

theorem Run.numbers_eq (run : Run {} events r) :
    numbers store events = List.range' 1 (published store events).length := by
  induction run
  case refl => rfl
  case step events event run e hi =>
    rw [numbers_append, published_append, hi, List.length_append, ← List.range'_append_1]
    congr 1
    cases event
    case publish store' bins generation =>
      by_cases hs : store' = store
      case pos =>
        subst hs
        simp [numbers, published, Event.number?, Event.bins?, e.number run.faithful, Nat.add_comm]
      case neg => simp [numbers, published, Event.number?, Event.bins?, hs]
    all_goals rfl

-- A kept snapshot is what it was when it was kept, whenever it is looked at.
theorem Run.revisited (run : Run {} (before ++ .keep reader store slot seen :: after) r) :
    r.kept[slot]? = some seen ∧ ∀ seen', .revisit slot seen' ∈ after → seen' = seen := by
  obtain ⟨r₁, r', -, e, after_run⟩ := run.split_at
  cases e with | keep looks found hk =>
  obtain ⟨_, found', rfl, rfl⟩ := keep_eq_some hk
  obtain rfl := Option.some.inj (found.symm.trans found')
  have hs : (r₁.kept ++ [seen])[r₁.kept.length]? = some seen := List.getElem?_concat_length
  refine ⟨getElem?_mono after_run.extends.kept hs, fun seen' hm => ?_⟩
  obtain ⟨between, _, rfl⟩ := List.append_of_mem hm
  obtain ⟨r₂, _, run₂, e₂, -⟩ := after_run.split_at
  cases e₂ with | revisit hr =>
  exact Option.some.inj (hr.symm.trans (getElem?_mono run₂.extends.kept hs))

-- A reader that came by a clone looks where the other one looks, and a reader that a publisher made
-- looks into the publisher's store.
theorem Run.cloned {original} (run : Run {} (before ++ .clone original reader :: after) r) :
    r.readers[reader]? = r.readers[original]? := by
  obtain ⟨r₁, r', -, e, after_run⟩ := run.split_at
  cases e with | clone hc =>
  obtain ⟨store, ho, rfl, rfl⟩ := clone_eq_some hc
  have he := after_run.extends.readers
  rw [getElem?_mono he List.getElem?_concat_length,
    getElem?_mono ((List.prefix_append ..).trans he) ho]

theorem Run.enrolled (run : Run {} (before ++ .enrol store reader :: after) r) :
    r.readers[reader]? = some store := by
  obtain ⟨r₁, r', -, e, after_run⟩ := run.split_at
  cases e with | enrol hc =>
  obtain ⟨-, rfl, rfl⟩ := enrol_eq_some hc
  exact getElem?_mono after_run.extends.readers List.getElem?_concat_length

theorem latest_cases (all : List (List β)) : (all = [] ∧ latest all = .empty) ∨
    ∃ earlier bins, all = earlier ++ [bins] ∧ latest all = ⟨earlier.length + 1, bins⟩ := by
  rcases List.eq_nil_or_concat all with rfl | ⟨earlier, bins, rfl⟩
  case inl => exact .inl ⟨rfl, rfl⟩
  case inr =>
    rw [List.concat_eq_append]
    exact .inr ⟨earlier, bins, rfl, latest_append earlier bins⟩

-- Stores keep their word to any number of readers, however they come by it.
theorem reads_consistent (run : Run {} events r) (store : Nat) : Consistent store events r where
  told     := run.numbers_eq
  seen     := fun before _ _ _ he hs => by
    subst he
    rw [run.sighting hs]
    exact latest_cases (published store before)
  sorted   := run.sightings_sorted
  complete := fun _ ha _ hb hg => congrArg Snapshot.bins (run.sightings_complete ha hb hg)
  kept     := fun _ _ _ _ _ he => Run.revisited (he ▸ run)
  found    := fun _ hr => run.faithful.read?_eq hr
  enrolled := fun _ _ _ he => Run.enrolled (he ▸ run)
  cloned   := fun _ _ _ _ he => Run.cloned (he ▸ run)

section Busy

-- Two readers of one store. What the second one keeps is out of date when it is looked at again.
def busy : List (Event Nat) :=
  [.add 0 0, .read 0 0 ⟨0, []⟩, .publish 0 [5, 6] 1, .clone 0 1, .keep 1 0 0 ⟨1, [5, 6]⟩,
    .publish 0 [7] 2, .revisit 0 ⟨1, [5, 6]⟩, .read 1 0 ⟨2, [7]⟩]

def afterBusy : Readership Nat where
  stores  := [⟨⟨2, [7]⟩, 2⟩]
  readers := [0, 0]
  kept    := [⟨1, [5, 6]⟩]

theorem run_busy : Run {} busy afterBusy := by
  have run := (Run.refl (r := ({} : Readership Nat))).step .add
    |>.step (.read rfl rfl : Step _ (.read 0 0 ⟨0, []⟩) _)
    |>.step (.publish rfl : Step _ (.publish 0 [5, 6] 1) _)
    |>.step (.clone rfl : Step _ (.clone 0 1) _)
    |>.step (.keep rfl rfl rfl : Step _ (.keep 1 0 0 ⟨1, [5, 6]⟩) _)
    |>.step (.publish rfl : Step _ (.publish 0 [7] 2) _)
    |>.step (.revisit rfl : Step _ (.revisit 0 ⟨1, [5, 6]⟩) _)
    |>.step (.read rfl rfl : Step _ (.read 1 0 ⟨2, [7]⟩) _)
  exact run

theorem reads_consistent_busy : Run {} busy afterBusy ∧ Consistent 0 busy afterBusy :=
  ⟨run_busy, reads_consistent run_busy 0⟩

end Busy

end Readership

end RadioSpectrum
