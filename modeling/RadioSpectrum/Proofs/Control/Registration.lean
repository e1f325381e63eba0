import Mathlib.Data.List.Nodup
import RadioSpectrum.Control.Bridge

namespace RadioSpectrum

namespace Bridge

variable {α : Type} {b b' : Bridge α} {w v : Widget α} {url : String} {block : BlockId}
  {index : Nat} {entries : List (Parameter α)}

theorem mem_place {l : List (Widget α)} : v ∈ place w l ↔ v = w ∨ v ∈ l := by
  induction l
  case nil => simp only [place, List.mem_singleton, List.not_mem_nil, or_false]
  case cons u l hi =>
    unfold place
    split
    case isTrue  => rw [List.mem_cons]
    case isFalse => rw [List.mem_cons, hi, List.mem_cons, or_left_comm]

theorem widget?_eq_some {id : String} (h : b.widget? id = some w) : w ∈ b.widgets ∧ w.id = id :=
  ⟨List.mem_of_find?_eq_some h, by simpa using List.find?_some h⟩

theorem insert_eq_ok : b.insert w = .ok b' ↔
    (∀ v ∈ b.widgets, v.id ≠ w.id) ∧ { b with widgets := place w b.widgets } = b' := by
  have hn : (b.widget? w.id).isSome = false ↔ ∀ v ∈ b.widgets, v.id ≠ w.id := by
    simp only [widget?, Option.isSome_eq_false_iff, Option.isNone_iff_eq_none, List.find?_eq_none,
      decide_eq_true_eq]
  unfold insert
  rw [← hn]
  cases (b.widget? w.id).isSome <;> simp

-- The slider of an entry.
def slider (url : String) (block : BlockId) (index : Nat) (p : Parameter α) : Widget α where
  url
  kind := .slider block index
  param := p

theorem addEntries_cons {p : Parameter α} :
    b.addEntries url block index (p :: entries) = (.ok (), b') ↔
      ∃ c, b.insert (slider url block index p) = .ok c ∧
        c.addEntries url block (index + 1) entries = (.ok (), b') := by
  rw [addEntries, ← slider]
  cases b.insert (slider url block index p) <;> simp

theorem mem_addEntries (h : b.addEntries url block index entries = (.ok (), b')) :
    w ∈ b'.widgets ↔ w ∈ b.widgets ∨
      ∃ i p, entries[i]? = some p ∧ w = slider url block (index + i) p := by
  induction entries generalizing b index
  case nil =>
    cases h
    simp only [List.getElem?_nil, reduceCtorEq, false_and, exists_false, or_false]
  case cons p entries hi =>
    obtain ⟨c, hc, h⟩ := addEntries_cons.mp h
    obtain ⟨-, rfl⟩ := insert_eq_ok.mp hc
    have hs : (∃ i q, (p :: entries)[i]? = some q ∧ w = slider url block (index + i) q) ↔
        w = slider url block index p ∨
          ∃ i q, entries[i]? = some q ∧ w = slider url block (index + 1 + i) q := by
      rw [← Nat.or_exists_add_one]
      simp only [List.getElem?_cons_zero, List.getElem?_cons_succ, Option.some_inj, exists_eq_left',
        Nat.add_zero, Nat.add_right_comm index 1, Nat.add_assoc]
    rw [hi h, mem_place, hs, or_assoc, or_left_comm]

theorem exists_addEntries (index : Nat) (fresh : ∀ p ∈ entries, ∀ v ∈ b.widgets, v.id ≠ p.id)
    (nodup : (entries.map (·.id)).Nodup) :
    ∃ b', b.addEntries url block index entries = (.ok (), b') := by
  induction entries generalizing b index
  case nil => exact ⟨b, rfl⟩
  case cons p entries hi =>
    obtain ⟨hp, hd⟩ := List.nodup_cons.mp nodup
    have ⟨hf, hr⟩ := List.forall_mem_cons.mp fresh
    have hc : b.insert (slider url block index p) = .ok _ := insert_eq_ok.mpr ⟨hf, rfl⟩
    have hr : ∀ q ∈ entries, ∀ v ∈ place (slider url block index p) b.widgets, v.id ≠ q.id := by
      intro q hq v hv
      rcases mem_place.mp hv with rfl | hv
      · exact fun he => hp (List.mem_map.mpr ⟨q, hq, he.symm⟩)
      · exact hr q hq v hv
    obtain ⟨b', h⟩ := hi (b := { b with widgets := _ }) (index + 1) hr hd
    exact ⟨b', addEntries_cons.mpr ⟨_, hc, h⟩⟩

end Bridge

end RadioSpectrum
