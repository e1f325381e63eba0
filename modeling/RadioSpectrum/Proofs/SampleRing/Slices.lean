import RadioSpectrum.Proofs.SampleRing.Contents

namespace RadioSpectrum

namespace SampleRing

-- Slots after `xs` was copied over those from `i` on.
def overwrite (slots : List Int8) (i : Nat) (xs : List Int8) : List Int8 :=
  slots.take i ++ xs ++ slots.drop (i + xs.length)

section Overwrite

variable {slots xs : List Int8} {x : Int8} {i : Nat}

@[simp]
theorem overwrite_nil : overwrite slots i [] = slots := by
  simp [overwrite]

theorem overwrite_set (h : i < slots.length) :
    overwrite (slots.set i x) (i + 1) xs = overwrite slots i (x :: xs) := by
  have hd : (slots.set i x).drop (i + 1 + xs.length) = slots.drop (i + 1 + xs.length) :=
    List.drop_set_of_lt (by omega)
  simp [overwrite, hd, List.take_add_one, List.take_set_of_le, h]
  congr 1; omega

theorem overwrite_singleton (h : i < slots.length) : overwrite slots i [x] = slots.set i x := by
  simp [← overwrite_set h]

end Overwrite

variable {r r' : SampleRing} {x : Int8} {chunk window : List Int8} {n : Nat}

-- The slot behind the newest sample.
def tail (r : SampleRing) : Nat :=
  r.slot r.length

theorem tail_lt (r : SampleRing) : r.tail < r.capacity :=
  r.slot_lt _

theorem push_slots (h : r.length < r.capacity) :
    (r.push x).slots.toList = r.slots.toList.set r.tail x := by
  have h' : r.length < r.slots.size := h
  simp [push, h', tail]

theorem push_tail (h : r.length < r.capacity) : (r.push x).tail = (r.tail + 1) % r.capacity := by
  have h' : r.length < r.slots.size := h
  simp [push, h', tail, slot, capacity, Nat.add_assoc]

-- Slots after a chunk was copied behind the newest sample.
def filled (r : SampleRing) (chunk : List Int8) : List Int8 :=
  let room := r.capacity - r.tail
  overwrite (overwrite r.slots.toList r.tail (chunk.take room)) 0 (chunk.drop room)

theorem foldl_push_slots (h : r.length + chunk.length ≤ r.capacity) :
    (chunk.foldl push r).slots.toList = r.filled chunk := by
  induction chunk generalizing r
  case nil => simp [filled]
  case cons x chunk hi =>
    simp only [List.length_cons] at h
    have hr : r.length < r.capacity := by omega
    have ht : r.tail < r.slots.toList.length := r.tail_lt
    have hl : (r.push x).length + chunk.length ≤ (r.push x).capacity := by
      simp [push_length hr]; omega
    simp only [List.foldl_cons, hi hl, filled, push_slots hr, push_tail hr, push_capacity]
    obtain ⟨k, hk⟩ : ∃ k, r.capacity = r.tail + 1 + k := Nat.exists_eq_add_of_le r.tail_lt
    have hk' : r.capacity - r.tail = k + 1 := by omega
    cases k
    case succ k =>
      have hm : (r.tail + 1) % r.capacity = r.tail + 1 := Nat.mod_eq_of_lt (by omega)
      have hs : r.capacity - (r.tail + 1) = k + 1 := by omega
      simp [hm, hk', hs, overwrite_set ht]
    -- The last slot of the circle was filled, so the rest goes to its start.
    case zero =>
      have hm : (r.tail + 1) % r.capacity = 0 := by simp [hk]
      have hc : chunk.take r.capacity = chunk := List.take_of_length_le (by omega)
      have hd : chunk.drop r.capacity = [] := List.drop_of_length_le (by omega)
      simp [hm, hk', hc, hd, overwrite_singleton ht]

theorem slots_of_write {α : Type} (h : r.write (α := α) chunk = .ok r') :
    r'.slots.toList = r.filled chunk := by
  have w := written_of_write h
  have hl := r'.length_le_capacity
  rw [w.capacity, w.length] at hl
  obtain rfl : chunk.foldl push r = r' := by
    simpa [write, w.ne_nil, Nat.not_lt.mpr w.le_free] using h
  exact foldl_push_slots hl

-- The samples of the `n` slots from the oldest sample on.
def front (r : SampleRing) (n : Nat) : List Int8 :=
  (r.slots.toList.drop r.head).take n ++ r.slots.toList.take (n - (r.capacity - r.head))

theorem map_sample_eq_front (h : n ≤ r.capacity) : (List.range n).map r.sample = r.front n := by
  have hh : r.head < r.capacity := r.head_lt
  have hs : r.slots.size = r.capacity := rfl
  refine List.ext_getElem (by simp [front, hs]; omega) fun i hi _ => ?_
  replace hi : i < n := by simpa using hi
  simp only [front, List.getElem_append]
  split
  case isTrue hl =>
    have : (r.head + i) % r.capacity = r.head + i := Nat.mod_eq_of_lt (by simp [hs] at hl; omega)
    simp [sample, slot, hs, this]
  case isFalse hl =>
    have hl' : r.capacity - r.head ≤ i := by simp [hs] at hl; omega
    have : (r.head + i) % r.capacity = i - (r.capacity - r.head) := by
      rw [Nat.mod_eq_sub_mod (by omega), Nat.mod_eq_of_lt (by omega)]; omega
    have hm : min n (r.capacity - r.head) = r.capacity - r.head := by omega
    simp [sample, slot, hs, this, hm]

theorem window_of_read? (h : r.read? n = some (window, r')) : window = r.front n := by
  have d := read_of_read? h
  have hn : n ≤ r.length := by simp [d.length]
  obtain ⟨rfl, -⟩ : (List.range n).map r.sample = window ∧ r.advance n = r' := by
    simpa [read?, hn] using h
  exact map_sample_eq_front (hn.trans r.length_le_capacity)

end SampleRing

end RadioSpectrum
