import RadioSpectrum.Proofs.Parameter.Tolerance
import RadioSpectrum.Proofs.Spectrum.Table

namespace RadioSpectrum

namespace Parameter

variable {p q : Parameter Rat} {v w : Rat}

-- The value that a parameter has and the one that it goes back to play no part in what it takes.
theorem setExact_map_value (p : Parameter Rat) (x v : Rat) {β : Type} (f : Rat → β) :
    (setExact { p with value := x, default := x } v).map (fun q => f q.value) =
      (p.setExact v).map fun q => f q.value := by
  have ha : accepts { p with value := x, default := x } v = p.accepts v := rfl
  have hc : stepCount { p with value := x, default := x } = p.stepCount := rfl
  unfold setExact set counted
  rw [ha, hc]
  split_ifs <;> try rfl
  cases p.stepCount <;> rfl

-- No other grid point is as near to a value as the one that it was stored as, if it was stored close.
theorem Whole.eq_of_nearest (h : p.Whole) (hx : p.Exact) (hq : p.setExact v = .ok q)
    (hw : p.Nearest v w) : w = q.value := by
  have hs := h.step_pos
  have hd := hx v _ hq
  obtain ⟨hv⟩ := h.sound.moved_of_setExact hq
  obtain ⟨k, rfl, hk⟩ := h.onGrid_iff.mp hv
  obtain ⟨j, hj⟩ : ∃ j, w = p.point j := hw.onGrid
  rw [abs_sub_comm] at hd
  have hn : |v - p.point j| ≤ |v - p.point k| := hj ▸ hw.nearest k hk
  have hk' := abs_le.mp ((abs_sub_point_le_iff hs).mp hd)
  have hj' := abs_le.mp ((abs_sub_point_le_iff hs).mp (hn.trans hd))
  have h₁ : j < k + 1 := by exact_mod_cast (by linarith : (j : Rat) < k + 1)
  have h₂ : k < j + 1 := by exact_mod_cast (by linarith : (k : Rat) < j + 1)
  obtain rfl : j = k := by omega
  exact hj

-- The counts of a range of up to a million are far enough apart.
theorem counter_exact {id : String} {lo hi k : Nat} {unit : DisplayUnit} (h : lo ≤ hi)
    (hb : hi ≤ 1000000) : (counter id lo hi k unit).Exact := by
  have hw : (counter id lo hi k unit).Whole := counter_whole h (by omega)
  have hs : (counter id lo hi k unit).span = hi - lo := div_one _
  have hb : (hi : Rat) ≤ 1000000 := by exact_mod_cast hb
  rw [hw.exact_iff, hs]
  linarith [Nat.cast_nonneg (α := Rat) lo]

end Parameter

theorem Window.ofIndex?_index (w : Window) : ofIndex? w.index = some w := by
  cases w <;> rfl

namespace SpectrumConfig

open Parameter

variable {c d : SpectrumConfig} {i j : Nat} {p q : Parameter Rat} {v w : Rat}

theorem entry_exact (hp : p ∈ c.table) : p.Exact := by
  simp only [table, List.mem_cons, List.not_mem_nil, or_false] at hp
  rcases hp with rfl | rfl | rfl | rfl <;> exact counter_exact (by decide) (by decide)

-- An entry has the value that it starts from.
theorem entry_default (hp : p ∈ c.table) : { p with value := p.value, default := p.value } = p := by
  simp only [table, List.mem_cons, List.not_mem_nil, or_false] at hp
  rcases hp with rfl | rfl | rfl | rfl <;> rfl

theorem Valid.fftSize_eq (h : c.Valid) : c.fftSize = 2 ^ SpectrumConfig.trailingZeros c.fftSize := by
  obtain ⟨⟨m, hm, hf⟩, -⟩ := h
  rw [hf, trailingZeros_pow hm.right]

-- The table tells everything but the format.
theorem Valid.eq_of_table (hc : c.Valid) (hd : d.Valid) (hf : d.format = c.format)
    (ht : d.table = c.table) : d = c := by
  simp only [table, counter, List.cons.injEq, Parameter.mk.injEq, Nat.cast_inj, and_true,
    true_and, and_self] at ht
  obtain ⟨hz, hw, hs, hn⟩ := ht
  have hz : d.fftSize = c.fftSize := by rw [hd.fftSize_eq, hz, ← hc.fftSize_eq]
  have hw : d.window = c.window := by
    rw [← Option.some_inj, ← Window.ofIndex?_index, hw, Window.ofIndex?_index]
  have hs : d.fftShift = c.fftShift := by
    cases hd : d.fftShift <;> cases hc : c.fftShift <;> simp_all
  obtain ⟨_, _, _, _, _⟩ := d
  subst hz hw hf hs hn
  rfl

theorem decode_decode (c : SpectrumConfig) (i : Nat) (v w : Rat) :
    (c.decode i v).decode i w = c.decode i w := by
  rcases i with _ | _ | _ | _ | i <;> rfl

-- Every entry is decoded to a field of its own.
theorem decode_comm (c : SpectrumConfig) (h : i ≠ j) (v w : Rat) :
    (c.decode i v).decode j w = (c.decode j w).decode i v := by
  rcases i with _ | _ | _ | _ | i <;> rcases j with _ | _ | _ | _ | j <;> first | rfl | contradiction

namespace Valid

-- The last value counts.
theorem overridden (h : c.Valid) (hd : c.withParameter i v = .ok d) (w : Rat) :
    d.withParameter i w = c.withParameter i w := by
  obtain ⟨p, q, hp, hq, rfl⟩ := h.withParameter_eq_ok.mp hd
  have ⟨hd, ht⟩ := h.decode_setExact hp hq
  have hi : i < c.table.length := (List.getElem?_eq_some_iff.mp hp).fst
  rw [h.withParameter_of_entry hp, hd.withParameter_of_entry (ht ▸ List.getElem?_set_self hi),
    setExact_map_value p]
  simp only [decode_decode]

-- An update leaves the other entries to be set as before.
theorem unordered (h : c.Valid) (hij : i ≠ j) {e : SpectrumConfig}
    (he : c.withParameter i v >>= (·.withParameter j w) = .ok e) :
    c.withParameter j w >>= (·.withParameter i v) = .ok e := by
  obtain ⟨d, hd, he⟩ := bind_eq_ok.mp he
  obtain ⟨p, q, hp, hq, rfl⟩ := h.withParameter_eq_ok.mp hd
  have ⟨hd, ht⟩ := h.decode_setExact hp hq
  obtain ⟨p', q', hp', hq', rfl⟩ := hd.withParameter_eq_ok.mp he
  rw [ht, List.getElem?_set_ne hij] at hp'
  have ⟨hd', ht'⟩ := h.decode_setExact hp' hq'
  refine bind_eq_ok.mpr ⟨_, h.withParameter_eq_ok.mpr ⟨p', q', hp', hq', rfl⟩, ?_⟩
  refine hd'.withParameter_eq_ok.mpr ⟨p, q, ?_, hq, decode_comm c hij.symm _ _⟩
  rw [ht', List.getElem?_set_ne hij.symm, hp]

end Valid

-- What makes the table a view of the settings: each entry is read and set like a field of its own.
structure IsView (c : SpectrumConfig) (table : List (Parameter Rat)) : Prop where
  shown : c.parameters = .ok table
  -- An update succeeds if there is such an entry and the entry takes the value.
  taken : ∀ i (v : Rat), (∃ d, c.withParameter i v = .ok d) ↔
    ∃ p q, table[i]? = some p ∧ p.setExact v = .ok q
  -- The entry then holds the nearest point of its grid, and nothing else has changed.
  stored : ∀ i (v : Rat) d, c.withParameter i v = .ok d → d.validate (α := Rat) = .ok () ∧
    d.format = c.format ∧ ∃ p g, table[i]? = some p ∧ p.Nearest v g ∧
      (∀ w, p.Nearest v w → w = g) ∧
      d.parameters = .ok (table.set i { p with value := g, default := g })
  unchanged : ∀ i p, table[i]? = some p → c.withParameter i p.value = .ok c
  overridden : ∀ i (v : Rat) d, c.withParameter i v = .ok d →
    ∀ w : Rat, d.withParameter i w = c.withParameter i w
  unordered : ∀ i j, i ≠ j → ∀ (v w : Rat) e,
    c.withParameter i v >>= (·.withParameter j w) = .ok e ↔
      c.withParameter j w >>= (·.withParameter i v) = .ok e

namespace Valid

theorem stored (h : c.Valid) (hd : c.withParameter i v = .ok d) :
    d.validate (α := Rat) = .ok () ∧ d.format = c.format ∧
      ∃ p g, c.table[i]? = some p ∧ p.Nearest v g ∧ (∀ w, p.Nearest v w → w = g) ∧
        d.parameters = .ok (c.table.set i { p with value := g, default := g }) := by
  obtain ⟨p, q, hp, hq, rfl⟩ := h.withParameter_eq_ok.mp hd
  have hm := List.mem_of_getElem? hp
  have hw := (h.entry_whole hm).left
  have ⟨hd, ht⟩ := h.decode_setExact hp hq
  have hn : p.Nearest v q.value := by
    obtain ⟨-, -, rfl⟩ := set_eq_ok.mp (setExact_eq_ok.mp hq).right
    exact hw.nearest_snap v
  exact ⟨validate_eq_ok.mpr hd, decode_format _ _ _, p, _, hp, hn,
    fun _ => hw.eq_of_nearest (entry_exact hm) hq, ht ▸ hd.parameters_eq⟩

-- An entry can be set to what it shows, and what this gives shows the same table.
theorem unchanged (h : c.Valid) (hp : c.table[i]? = some p) :
    c.withParameter i p.value = .ok c := by
  have hm := List.mem_of_getElem? hp
  have hv := (h.entry_whole hm).right
  have ⟨hd, ht⟩ := h.decode hp hv
  have hs : c.table.set i p = c.table := by
    obtain ⟨hi, rfl⟩ := List.getElem?_eq_some_iff.mp hp
    exact List.set_getElem_self hi
  rw [entry_default hm, hs] at ht
  rw [h.withParameter_eq hp hv, h.eq_of_table hd (decode_format _ _ _) ht]

end Valid

-- The table of any settings that pass the checks is a view of them.
theorem view_of_valid (h : c.validate (α := Rat) = .ok ()) : ∃ table, c.IsView table := by
  have h : c.Valid := validate_eq_ok.mp h
  refine ⟨c.table, ?_⟩
  constructor
  case shown      => exact h.parameters_eq
  case taken =>
    intro i v
    constructor
    case mp =>
      rintro ⟨d, hd⟩
      obtain ⟨p, q, hp, hq, -⟩ := h.withParameter_eq_ok.mp hd
      exact ⟨p, q, hp, hq⟩
    case mpr => exact fun ⟨p, q, hp, hq⟩ => ⟨_, h.withParameter_eq_ok.mpr ⟨p, q, hp, hq, rfl⟩⟩
  case stored     => exact fun _ _ _ => h.stored
  case unchanged  => exact fun _ _ => h.unchanged
  case overridden => exact fun _ _ _ => h.overridden
  case unordered  =>
    exact fun _ _ hij _ _ _ => ⟨h.unordered hij, h.unordered hij.symm⟩

def tapered : SpectrumConfig :=
  { fftSize := 128, window := .hann, format := .real, decimation := 4 }

-- A value close to eight is taken for eight, and the size becomes the eighth power of two.
theorem view_of_valid_tapered : tapered.validate (α := Rat) = .ok () ∧
    (∃ table, tapered.IsView table) ∧
      (tapered.withParameter 0 (8 + 1e-10 : Rat)).toOption = some { tapered with fftSize := 256 } :=
  ⟨rfl, view_of_valid rfl, by decide +kernel⟩

end SpectrumConfig

end RadioSpectrum
