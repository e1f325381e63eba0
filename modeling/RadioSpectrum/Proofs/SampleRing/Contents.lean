import Mathlib.Data.Nat.ModEq
import RadioSpectrum.SampleRing

namespace RadioSpectrum

namespace SampleRing

variable {α : Type} {r r' : SampleRing} {x : Int8} {chunk window : List Int8} {n : Nat}

@[simp]
theorem toList_length (r : SampleRing) : r.toList.length = r.length := by
  simp [toList]

theorem toList_getElem {i : Nat} (h : i < r.toList.length) : r.toList[i] = r.sample i := by
  simp [toList]

theorem length_le_capacity (r : SampleRing) : r.length ≤ r.capacity :=
  r.length_le

-- Places less than a whole round apart have slots of their own.
theorem slot_ne {i j : Nat} (h : i < j) (hj : j < r.capacity) : r.slot i ≠ r.slot j := by
  intro he
  have hm : i ≡ j [MOD r.capacity] := Nat.ModEq.add_left_cancel' r.head he
  have := Nat.ModEq.eq_of_lt_of_lt hm (h.trans hj) hj
  omega

section Push

variable (h : r.length < r.capacity)

include h

theorem push_length : (r.push x).length = r.length + 1 := by
  have h' : r.length < r.slots.size := h
  simp [push, h']

theorem push_sample_old {i : Nat} (hi : i < r.length) : (r.push x).sample i = r.sample i := by
  have h' : r.length < r.slots.size := h
  have hn : r.slot i ≠ r.slot r.length := slot_ne hi h
  simp [sample, push, h', slot]
  exact Array.getElem_set_ne _ _ hn.symm

theorem push_sample_new : (r.push x).sample r.length = x := by
  have h' : r.length < r.slots.size := h
  simp [sample, push, h', slot]

theorem push_toList : (r.push x).toList = r.toList ++ [x] := by
  refine List.ext_getElem (by simp [push_length h]) fun i hi _ => ?_
  rw [toList_getElem, List.getElem_append]
  simp only [toList_length, push_length h] at hi
  split
  case isTrue hl =>
    rw [toList_getElem]
    exact push_sample_old h (by simpa using hl)
  case isFalse hl =>
    have : i = r.length := by simp at hl; omega
    subst this
    simp [push_sample_new h]

end Push

@[simp]
theorem push_capacity (r : SampleRing) (x : Int8) : (r.push x).capacity = r.capacity := by
  unfold push capacity
  split <;> simp

theorem push_readerDropped (r : SampleRing) (x : Int8) :
    (r.push x).readerDropped = r.readerDropped := by
  unfold push
  split <;> rfl

@[simp]
theorem foldl_push_capacity (r : SampleRing) (chunk : List Int8) :
    (chunk.foldl push r).capacity = r.capacity := by
  induction chunk generalizing r <;> simp_all

@[simp]
theorem foldl_push_readerDropped (r : SampleRing) (chunk : List Int8) :
    (chunk.foldl push r).readerDropped = r.readerDropped := by
  induction chunk generalizing r <;> simp_all [push_readerDropped]

theorem foldl_push_toList (h : r.length + chunk.length ≤ r.capacity) :
    (chunk.foldl push r).toList = r.toList ++ chunk := by
  induction chunk generalizing r
  case nil => simp
  case cons x chunk hi =>
    simp only [List.length_cons] at h
    have hr : r.length < r.capacity := by omega
    have hl : (r.push x).length + chunk.length ≤ (r.push x).capacity := by
      simp [push_length hr]; omega
    simp [hi hl, push_toList hr]

-- A chunk that was written is not empty, found room, and is now the newest part of the contents.
structure Written (r : SampleRing) (chunk : List Int8) (r' : SampleRing) : Prop where
  ne_nil        : chunk ≠ []
  le_free       : chunk.length ≤ r.free
  toList        : r'.toList = r.toList ++ chunk
  capacity      : r'.capacity = r.capacity
  readerDropped : r'.readerDropped = r.readerDropped

theorem Written.length (w : Written r chunk r') : r'.length = r.length + chunk.length := by
  simpa using congrArg List.length w.toList

theorem written_of_write (h : r.write (α := α) chunk = .ok r') : Written r chunk r' := by
  simp only [write, List.isEmpty_iff] at h
  split at h <;> try contradiction
  case isFalse hn =>
    split at h <;> try contradiction
    case isFalse hf =>
      injection h with h
      subst h
      have := r.length_le_capacity
      have hl : r.length + chunk.length ≤ r.capacity := by simp [free] at hf; omega
      exact ⟨hn, by omega, foldl_push_toList hl, by simp, by simp⟩

theorem exists_write_of_le_free (hn : chunk ≠ []) (hf : chunk.length ≤ r.free) :
    ∃ r', r.write (α := α) chunk = .ok r' :=
  ⟨chunk.foldl push r, by simp [write, hn, Nat.not_lt.mpr hf]⟩

theorem write_eq_admissionRejected (hn : chunk ≠ []) (hf : r.free < chunk.length) :
    r.write (α := α) chunk = .error (.admissionRejected chunk.length r.free) := by
  simp [write, hn, hf]

theorem write_nil : r.write (α := α) [] = .error .invalidChunk := by
  simp [write]

-- A window that was read has the length that was asked for and was the oldest part of the
-- contents.
structure Read (r : SampleRing) (n : Nat) (window : List Int8) (r' : SampleRing) : Prop where
  window_length : window.length = n
  toList        : r.toList = window ++ r'.toList
  capacity      : r'.capacity = r.capacity
  readerDropped : r'.readerDropped = r.readerDropped

theorem Read.length (d : Read r n window r') : r.length = n + r'.length := by
  simpa [d.window_length] using congrArg List.length d.toList

theorem advance_sample (r : SampleRing) (n i : Nat) :
    (r.advance n).sample i = r.sample (n + i) := by
  simp [sample, advance, slot, Nat.add_assoc]

theorem read_of_read? (h : r.read? n = some (window, r')) : Read r n window r' := by
  unfold read? at h
  split at h <;> try contradiction
  case isTrue hn =>
    obtain ⟨rfl, rfl⟩ : (List.range n).map r.sample = window ∧ r.advance n = r' := by simpa using h
    refine ⟨by simp, ?_, rfl, rfl⟩
    obtain ⟨k, hk⟩ := Nat.exists_eq_add_of_le hn
    have hk' : (r.advance n).length = k := by simp [advance, hk]
    simp [toList, hk, hk', List.range_add, Function.comp_def, advance_sample]

theorem read?_eq_none_iff : r.read? n = none ↔ r.length < n := by
  simp [read?]

@[simp]
theorem empty_toList (h : 0 < n) : (empty n h).toList = [] :=
  rfl

@[simp]
theorem empty_capacity (h : 0 < n) : (empty n h).capacity = n := by
  simp [empty, capacity]

@[simp]
theorem dropReader_toList (r : SampleRing) : r.dropReader.toList = r.toList :=
  rfl

@[simp]
theorem dropReader_capacity (r : SampleRing) : r.dropReader.capacity = r.capacity :=
  rfl

end SampleRing

end RadioSpectrum
