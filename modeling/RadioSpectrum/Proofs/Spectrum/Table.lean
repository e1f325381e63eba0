import Mathlib.Tactic.IntervalCases
import RadioSpectrum.Proofs.Parameter.Grid
import RadioSpectrum.Proofs.Spectrum.Config

namespace RadioSpectrum

namespace Scalar

theorem toNat_toWord_natCast {n : Nat} (h : n < UInt64.size) : (toWord (n : Rat)).toNat = n := by
  have hf : ⌊(n : Rat)⌋₊ = n := Nat.floor_natCast n
  have hw := toWord_floor (q := (n : Rat)) (by rwa [hf])
  rw [hf] at hw
  have : (floor (n : Rat) : Rat) = n := by
    change ((⌊(n : Rat)⌋ : Int) : Rat) = n
    rw [Int.floor_natCast, Int.cast_natCast]
  rw [← this, hw, UInt64.toNat_ofNat_of_lt' h]

end Scalar

namespace Parameter

variable {id : String} {lo hi k : Nat} {unit : DisplayUnit} {v : Rat}

-- A parameter that counts from `lo` to `hi`.
def counter (id : String) (lo hi k : Nat) (unit : DisplayUnit) : Parameter Rat where
  id
  value := k
  min := lo
  max := hi
  step := 1
  default := k
  unit

theorem counter_whole (h : lo ≤ hi) (hb : hi + 1 < 2 ^ 64) : (counter id lo hi k unit).Whole where
  step_pos := one_pos
  max_eq := by
    refine ⟨hi - lo, (Nat.succ_le_succ (Nat.sub_le hi lo)).trans_lt hb, ?_⟩
    change (hi : Rat) = lo + (hi - lo : Nat) * 1
    rw [Nat.cast_sub h]
    ring

theorem counter_onGrid_iff (h : lo ≤ hi) (hb : hi + 1 < 2 ^ 64) :
    (counter id lo hi k unit).OnGrid v ↔ ∃ n : Nat, (lo ≤ n ∧ n ≤ hi) ∧ v = n := by
  rw [(counter_whole h hb).onGrid_iff]
  constructor
  case mp =>
    rintro ⟨n, rfl, hn⟩
    have he : (counter id lo hi k unit).point n = (lo + n : Nat) := by
      change (lo : Rat) + n * 1 = _
      push_cast
      ring
    rw [he] at hn ⊢
    exact ⟨lo + n, ⟨Nat.le_add_right lo n, Nat.cast_le.mp hn⟩, rfl⟩
  case mpr =>
    rintro ⟨n, ⟨hl, hn⟩, rfl⟩
    refine ⟨n - lo, ?_, Nat.cast_le.mpr hn⟩
    change (n : Rat) = lo + (n - lo : Nat) * 1
    rw [Nat.cast_sub hl]
    ring

theorem ofRange_counter (id : String) (h : lo ≤ k ∧ k ≤ hi) (hb : hi + 1 < 2 ^ 64) :
    ofRange id (Scalar.ofNat lo) (Scalar.ofNat hi) (Scalar.ofNat 1) (Scalar.ofNat k : Rat) =
      .ok (counter id lo hi k .none) := by
  have hl := h.left.trans h.right
  have hw : (counter id lo hi k .none).Whole := counter_whole hl hb
  exact hw.ofRange_eq ((counter_onGrid_iff hl hb).mpr ⟨k, h, rfl⟩)

end Parameter

namespace Window

theorem index_le (w : Window) : w.index ≤ 4 := by
  cases w <;> decide

theorem index_ofIndex? {k : Nat} (h : k ≤ 4) : ((ofIndex? k).getD .rectangular).index = k := by
  interval_cases k <;> rfl

end Window

namespace SpectrumConfig

open Parameter

variable {c next : SpectrumConfig} {index : Nat} {p q : Parameter Rat} {v : Rat}

theorem trailingZeros_pow {m : Nat} (h : m ≤ 16) : trailingZeros (2 ^ m) = m := by
  interval_cases m <;> rfl

-- The entries of the table as counters.
def table (c : SpectrumConfig) : List (Parameter Rat) :=
  [ counter "fft_order" 6 16 (trailingZeros c.fftSize) .none,
    counter "window" 0 4 c.window.index .choice,
    counter "fft_shift" 0 1 c.fftShift.toNat .toggle,
    counter "decimation" 1 1024 c.decimation .none ]

def names : List String :=
  ["fft_order", "window", "fft_shift", "decimation"]

theorem Valid.trailingZeros (h : c.Valid) :
    6 ≤ trailingZeros c.fftSize ∧ trailingZeros c.fftSize ≤ 16 := by
  obtain ⟨⟨m, hm, hf⟩, -⟩ := h
  rwa [hf, trailingZeros_pow hm.right]

-- The table with its bounds as numerals.
theorem parameters_eq {α : Type} [Scalar α] (c : SpectrumConfig) :
    c.parameters (α := α) = do
      let n (k : Nat) : α := Scalar.ofNat k
      let order ← ofRange "fft_order" (n 6) (n 16) (n 1) (n (trailingZeros c.fftSize))
      let window ← ofRange "window" (n 0) (n 4) (n 1) (n c.window.index)
      let shift ← ofRange "fft_shift" (n 0) (n 1) (n 1) (n c.fftShift.toNat)
      let decimation ← ofRange "decimation" (n 1) (n 1024) (n 1) (n c.decimation)
      return [order, window.withUnit .choice, shift.withUnit .toggle, decimation] :=
  rfl

theorem Valid.parameters_eq (h : c.Valid) : c.parameters = .ok c.table := by
  have ho := ofRange_counter "fft_order" h.trailingZeros (by decide)
  have hw := ofRange_counter "window" ⟨Nat.zero_le _, c.window.index_le⟩ (by decide)
  have hs := ofRange_counter "fft_shift" ⟨Nat.zero_le _, c.fftShift.toNat_le⟩ (by decide)
  have hd := ofRange_counter "decimation" h.decimation (by decide)
  simp only [SpectrumConfig.parameters_eq, ho, hw, hs, hd]
  rfl

theorem Valid.entry_whole (h : c.Valid) (hp : p ∈ c.table) : p.Whole ∧ p.OnGrid p.value := by
  have hc {id lo hi k unit} (hk : lo ≤ k ∧ k ≤ hi) (hb : hi + 1 < 2 ^ 64) :
      (counter id lo hi k unit).Whole ∧ (counter id lo hi k unit).OnGrid k :=
    have hl := hk.left.trans hk.right
    ⟨counter_whole hl hb, (counter_onGrid_iff hl hb).mpr ⟨k, hk, rfl⟩⟩
  simp only [table, List.mem_cons, List.not_mem_nil, or_false] at hp
  rcases hp with rfl | rfl | rfl | rfl
  · exact hc h.trailingZeros (by decide)
  · exact hc ⟨Nat.zero_le _, c.window.index_le⟩ (by decide)
  · exact hc ⟨Nat.zero_le _, c.fftShift.toNat_le⟩ (by decide)
  · exact hc h.decimation (by decide)

-- What an entry is set to is what the settings that are decoded from it have there.
theorem Valid.decode (h : c.Valid) (hp : c.table[index]? = some p) (hv : p.OnGrid v) :
    (c.decode index v).Valid ∧
      (c.decode index v).table = c.table.set index { p with value := v, default := v } := by
  match index with
  | 0 =>
    obtain rfl := Option.some.inj hp
    obtain ⟨n, hn, rfl⟩ := (counter_onGrid_iff (by decide) (by decide)).mp hv
    have hc : c.decode 0 (n : Rat) = { c with fftSize := 2 ^ n } := by
      simp only [SpectrumConfig.decode, Scalar.toNat_toWord_natCast (hn.right.trans_lt (by decide))]
      rfl
    rw [hc]
    refine ⟨⟨⟨n, hn, rfl⟩, h.decimation⟩, ?_⟩
    simp only [table, trailingZeros_pow hn.right]
    rfl
  | 1 =>
    obtain rfl := Option.some.inj hp
    obtain ⟨n, hn, rfl⟩ := (counter_onGrid_iff (by decide) (by decide)).mp hv
    have hc : c.decode 1 (n : Rat) = { c with window := (Window.ofIndex? n).getD .rectangular } := by
      simp only [SpectrumConfig.decode, Scalar.toNat_toWord_natCast (hn.right.trans_lt (by decide))]
    rw [hc]
    refine ⟨⟨h.fftSize, h.decimation⟩, ?_⟩
    simp only [table, Window.index_ofIndex? hn.right]
    rfl
  | 2 =>
    obtain rfl := Option.some.inj hp
    obtain ⟨n, hn, rfl⟩ := (counter_onGrid_iff (by decide) (by decide)).mp hv
    have hc : (c.decode 2 (n : Rat)).fftShift.toNat = n := by
      change (decide ((1 : Nat) / (2 : Nat) ≤ (n : Rat))).toNat = n
      obtain rfl | rfl : n = 0 ∨ n = 1 := by omega
      · norm_num
      · norm_num
    refine ⟨⟨h.fftSize, h.decimation⟩, ?_⟩
    simp only [table, hc]
    rfl
  | 3 =>
    obtain rfl := Option.some.inj hp
    obtain ⟨n, hn, rfl⟩ := (counter_onGrid_iff (by decide) (by decide)).mp hv
    have hc : c.decode 3 (n : Rat) = { c with decimation := n } := by
      simp only [SpectrumConfig.decode, Scalar.toNat_toWord_natCast (hn.right.trans_lt (by decide))]
    rw [hc]
    exact ⟨⟨h.fftSize, hn⟩, rfl⟩

namespace Valid

-- An entry that can be set is set to a point of its grid.
theorem decode_setExact (h : c.Valid) (hp : c.table[index]? = some p) (hq : p.setExact v = .ok q) :
    (c.decode index q.value).Valid ∧ (c.decode index q.value).table =
      c.table.set index { p with value := q.value, default := q.value } := by
  have hw := (h.entry_whole (List.mem_of_getElem? hp)).left
  obtain ⟨hv⟩ := hw.sound.moved_of_setExact hq
  exact h.decode hp hv

-- The checks at the end never fail: an entry takes nothing that they refuse.
theorem withParameter_of_entry (h : c.Valid) (hp : c.table[index]? = some p) (v : Rat) :
    c.withParameter index v = (p.setExact v).map fun q => c.decode index q.value := by
  unfold withParameter
  simp only [h.parameters_eq, hp, bind, Except.bind]
  cases hq : p.setExact v
  case error => rfl
  case ok =>
    simp only [(validate_eq_ok (α := Rat)).mpr (h.decode_setExact hp hq).left]
    rfl

theorem withParameter_of_none (h : c.Valid) (hn : c.table[index]? = none) (v : Rat) :
    c.withParameter index v = .error (.unknownParameter .spectrum index) := by
  unfold withParameter
  simp only [h.parameters_eq, hn, bind, Except.bind]

-- What a successful update was, seen from the entry that took it.
theorem withParameter_eq_ok (h : c.Valid) : c.withParameter index v = .ok next ↔
    ∃ p q, c.table[index]? = some p ∧ p.setExact v = .ok q ∧ c.decode index q.value = next := by
  cases hi : c.table[index]?
  case none => simp only [h.withParameter_of_none hi, reduceCtorEq, false_and, exists_false]
  case some p =>
    simp only [h.withParameter_of_entry hi, map_eq_ok, Option.some.injEq, exists_and_left,
      exists_eq_left']

-- A parameter can be set to every point of its grid.
theorem withParameter_eq (h : c.Valid) (hp : c.table[index]? = some p) (hv : p.OnGrid v) :
    c.withParameter index v = .ok (c.decode index v) := by
  have hw := (h.entry_whole (List.mem_of_getElem? hp)).left
  exact h.withParameter_eq_ok.mpr ⟨p, _, hp, hw.setExact_eq hv, rfl⟩

-- Whatever is taken was taken by the entry of the table.
theorem set_of_withParameter (h : c.Valid) (hn : c.withParameter index v = .ok next) :
    ∃ p q, c.table[index]? = some p ∧ p.setExact v = .ok q ∧ next = c.decode index q.value := by
  obtain ⟨p, q, hp, hq, hd⟩ := h.withParameter_eq_ok.mp hn
  exact ⟨p, q, hp, hq, hd.symm⟩

end Valid

theorem decode_format (c : SpectrumConfig) (index : Nat) (v : Rat) :
    (c.decode index v).format = c.format := by
  unfold decode
  split <;> rfl

end SpectrumConfig

end RadioSpectrum
