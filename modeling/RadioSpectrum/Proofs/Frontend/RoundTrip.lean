import RadioSpectrum.Proofs.Frontend
import RadioSpectrum.Proofs.InPlace
import RadioSpectrum.Proofs.Parameter.Tolerance
import RadioSpectrum.Proofs.Spectrum.Table

namespace RadioSpectrum

-- The counts that a radio can be set to.
structure FrontendConfig.Plausible (c : FrontendConfig) : Prop where
  freq       : 1000000 ≤ c.freq ∧ c.freq ≤ 6000000000
  amp        : c.amp ≤ 1
  lna        : c.lna ≤ 40 ∧ 8 ∣ c.lna
  vga        : c.vga ≤ 62 ∧ 2 ∣ c.vga
  sampleRate : 1000000 ≤ c.sampleRate ∧ c.sampleRate ≤ 20000000

-- A scale with a mark at every `step` counts, and the mark that it shows at first.
structure Dial where
  id : String
  unit : DisplayUnit
  lo : Nat
  hi : Nat
  step : Nat
  default : Nat

namespace Dial

variable {d : Dial} {k n : Nat} {v : Rat} {q : Parameter Rat}

def showing (d : Dial) (k : Nat) : Parameter Rat where
  id := d.id
  value := k
  min := d.lo
  max := d.hi
  step := d.step
  default := d.default
  unit := d.unit

def HasMark (d : Dial) (k : Nat) : Prop :=
  (d.lo ≤ k ∧ k ≤ d.hi) ∧ d.step ∣ k - d.lo

instance (d : Dial) : DecidablePred d.HasMark :=
  fun _ => inferInstanceAs (Decidable (_ ∧ _))

-- That the scale ends with a mark, and that the tolerance stays below one count wherever there are
-- counts without a mark.
structure Regular (d : Dial) : Prop where
  step_pos : 0 < d.step
  hi_eq    : ∃ n, n + 1 < 2 ^ 64 ∧ d.hi = d.lo + n * d.step
  coarse   : d.step = 1 ∨ d.step < 10 ^ 9 ∧ d.hi - d.lo < 10 ^ 9
  default  : d.HasMark d.default

namespace Regular

theorem whole (h : d.Regular) (k : Nat) : (d.showing k).Whole where
  step_pos := Nat.cast_pos.mpr h.step_pos
  max_eq := by
    obtain ⟨n, hn, hh⟩ := h.hi_eq
    refine ⟨n, hn, ?_⟩
    change (d.hi : Rat) = d.lo + n * d.step
    rw [hh]
    push_cast
    rfl

theorem point_showing (k n : Nat) : (d.showing k).point n = (d.lo + n * d.step : Nat) := by
  change (d.lo : Rat) + n * d.step = _
  push_cast
  rfl

-- The points of the grid are the marks.
theorem onGrid_iff (h : d.Regular) : (d.showing k).OnGrid v ↔ ∃ n, d.HasMark n ∧ v = n := by
  rw [(h.whole k).onGrid_iff]
  constructor
  case mp =>
    rintro ⟨n, rfl, hn⟩
    rw [point_showing] at hn ⊢
    refine ⟨_, ⟨⟨Nat.le_add_right _ _, Nat.cast_le.mp hn⟩, ?_⟩, rfl⟩
    rw [Nat.add_sub_cancel_left]
    exact Nat.dvd_mul_left _ _
  case mpr =>
    rintro ⟨n, ⟨⟨hl, hh⟩, m, hm⟩, rfl⟩
    refine ⟨m, ?_, Nat.cast_le.mpr hh⟩
    rw [point_showing, Nat.mul_comm, ← hm, Nat.add_sub_cancel' hl]

-- The tolerance lets no count through that has no mark.
theorem dvd_of_accepts (h : d.Regular) (hn : d.lo ≤ n ∧ n ≤ d.hi)
    (ha : (d.showing k).accepts n) : d.step ∣ n - d.lo := by
  rcases h.coarse with hs | ⟨hs, hd⟩
  case inl => rw [hs]; exact Nat.one_dvd _
  case inr =>
    obtain ⟨m, hm⟩ := Parameter.exists_near_of_accepts (h.whole k).step_pos ha
    change |(n : Rat) - (d.lo + m * d.step)| ≤
      Scalar.tolerance * (|(n : Rat) - d.lo| ⊔ d.step) at hm
    have hv : |(n : Rat) - d.lo| ⊔ d.step < 10 ^ 9 := by
      rw [← Nat.cast_sub hn.left, Nat.abs_cast]
      exact_mod_cast (by omega : (n - d.lo) ⊔ d.step < 10 ^ 9)
    have hm : |(n : Rat) - (d.lo + m * d.step)| < 1 := by
      rw [Scalar.tolerance_eq] at hm
      linarith
    have hz : |(n : Int) - (d.lo + m * d.step)| < 1 := by exact_mod_cast hm
    have he : ((n - d.lo : Nat) : Int) = m * d.step := by
      rw [Nat.cast_sub hn.left]
      linarith [Int.abs_lt_one_iff.mp hz]
    exact Int.natCast_dvd_natCast.mp (he ▸ Dvd.intro_left m rfl)

theorem setExact_eq (h : d.Regular) (hn : d.HasMark n) :
    (d.showing k).setExact n = .ok (d.showing n) :=
  (h.whole k).setExact_eq (h.onGrid_iff.mpr ⟨n, hn, rfl⟩)

-- Counts are taken if they have a mark.
theorem setExact_eq_ok (h : d.Regular) :
    (d.showing k).setExact n = .ok q ↔ d.HasMark n ∧ d.showing n = q := by
  constructor
  case mp =>
    intro hq
    obtain ⟨ha, hs⟩ := Parameter.setExact_eq_ok.mp hq
    obtain ⟨hl, hh⟩ := (Parameter.set_eq_ok.mp hs).left
    have hr : d.lo ≤ n ∧ n ≤ d.hi := ⟨Nat.cast_le.mp hl, Nat.cast_le.mp hh⟩
    have hn : d.HasMark n := ⟨hr, h.dvd_of_accepts hr ha⟩
    exact ⟨hn, Except.ok.inj ((h.setExact_eq hn).symm.trans hq)⟩
  case mpr =>
    rintro ⟨hn, rfl⟩
    exact h.setExact_eq hn

-- Whatever is taken, a mark is shown.
theorem exists_of_setExact (h : d.Regular) (hq : (d.showing k).setExact v = .ok q) :
    ∃ n, d.HasMark n ∧ d.showing n = q := by
  obtain ⟨hv⟩ := (h.whole k).sound.moved_of_setExact hq
  obtain ⟨n, hn, rfl⟩ := h.onGrid_iff.mp hv
  exact ⟨n, hn, rfl⟩

theorem ofRange_eq (h : d.Regular) :
    Parameter.ofRange d.id (Scalar.ofNat d.lo) (Scalar.ofNat d.hi) (Scalar.ofNat d.step)
      (Scalar.ofNat d.default) = .ok { d.showing d.default with unit := .none } :=
  (h.whole d.default).ofRange_eq (h.onGrid_iff.mpr ⟨_, h.default, rfl⟩)

end Regular

end Dial

namespace FrontendSettings

open InPlace

section Dials

variable {c : FrontendConfig} {f g : FrontendSettings Rat} {index : Nat} {v stored : Rat}

def freqDial : Dial := ⟨"freq", .hertz, 1000000, 6000000000, 1, 2480000000⟩

def ampDial : Dial := ⟨"amp", .toggle, 0, 1, 1, 1⟩

def lnaDial : Dial := ⟨"lna", .decibels, 0, 40, 8, 32⟩

def vgaDial : Dial := ⟨"vga", .decibels, 0, 62, 2, 14⟩

def sampleRateDial : Dial := ⟨"sample_rate", .samplesPerSecond, 1000000, 20000000, 1, 4000000⟩

theorem freqDial_regular : freqDial.Regular :=
  ⟨by decide, ⟨5999000000, by decide, rfl⟩, .inl rfl, by decide⟩

theorem ampDial_regular : ampDial.Regular :=
  ⟨by decide, ⟨1, by decide, rfl⟩, .inl rfl, by decide⟩

theorem lnaDial_regular : lnaDial.Regular :=
  ⟨by decide, ⟨5, by decide, rfl⟩, .inr (by decide), by decide⟩

theorem vgaDial_regular : vgaDial.Regular :=
  ⟨by decide, ⟨31, by decide, rfl⟩, .inr (by decide), by decide⟩

theorem sampleRateDial_regular : sampleRateDial.Regular :=
  ⟨by decide, ⟨19000000, by decide, rfl⟩, .inl rfl, by decide⟩

-- The settings that show the counts.
def dials (c : FrontendConfig) : FrontendSettings Rat where
  freq := freqDial.showing c.freq
  amp := ampDial.showing c.amp
  lna := lnaDial.showing c.lna
  vga := vgaDial.showing c.vga
  sampleRate := sampleRateDial.showing c.sampleRate

theorem plausible_iff : c.Plausible ↔ freqDial.HasMark c.freq ∧ ampDial.HasMark c.amp ∧
    lnaDial.HasMark c.lna ∧ vgaDial.HasMark c.vga ∧ sampleRateDial.HasMark c.sampleRate := by
  constructor
  case mp =>
    rintro ⟨hf, ha, hl, hv, hr⟩
    exact ⟨⟨hf, Nat.one_dvd _⟩, ⟨⟨Nat.zero_le _, ha⟩, Nat.one_dvd _⟩,
      ⟨⟨Nat.zero_le _, hl.left⟩, hl.right⟩, ⟨⟨Nat.zero_le _, hv.left⟩, hv.right⟩,
      ⟨hr, Nat.one_dvd _⟩⟩
  case mpr =>
    rintro ⟨hf, ha, hl, hv, hr⟩
    exact ⟨hf.left, ha.left.right, ⟨hl.left.right, hl.right⟩, ⟨hv.left.right, hv.right⟩, hr.left⟩

-- The entry for a dial can be made of a count if the count has a mark.
theorem entry_iff {d : Dial} {n : Nat} {q : Parameter Rat} (h : d.Regular) :
    Entry d.id d.unit d.lo d.hi d.step d.default n q ↔ d.HasMark n ∧ d.showing n = q := by
  rw [← h.setExact_eq_ok (k := d.default)]
  constructor
  case mp =>
    rintro ⟨p, hp, hq⟩
    obtain rfl := Except.ok.inj (h.ofRange_eq.symm.trans hp)
    exact hq
  case mpr => exact fun hq => ⟨_, h.ofRange_eq, hq⟩

-- Settings are made of plausible counts and of no others.
theorem ofConfig_eq_ok_iff : ofConfig c = .ok f ↔ c.Plausible ∧ dials c = f := by
  rw [plausible_iff]
  refine (ofConfig_iff_entries.trans <| and_congr (entry_iff freqDial_regular) <|
    and_congr (entry_iff ampDial_regular) <| and_congr (entry_iff lnaDial_regular) <|
    and_congr (entry_iff vgaDial_regular) (entry_iff sampleRateDial_regular)).trans ?_
  constructor
  case mp =>
    rintro ⟨⟨hf, hf'⟩, ⟨ha, ha'⟩, ⟨hl, hl'⟩, ⟨hv, hv'⟩, hr, hr'⟩
    exact ⟨⟨hf, ha, hl, hv, hr⟩, by rw [dials, hf', ha', hl', hv', hr']⟩
  case mpr =>
    rintro ⟨⟨hf, ha, hl, hv, hr⟩, rfl⟩
    exact ⟨⟨hf, rfl⟩, ⟨ha, rfl⟩, ⟨hl, rfl⟩, ⟨hv, rfl⟩, hr, rfl⟩

theorem toConfig_dials (h : c.Plausible) : (dials c).toConfig = c := by
  obtain ⟨⟨-, hf⟩, ha, ⟨hl, -⟩, ⟨hv, -⟩, ⟨-, hr⟩⟩ := h
  have hw {n m : Nat} (hn : n ≤ m) (hm : m < UInt64.size) : (Scalar.toWord (n : Rat)).toNat = n :=
    Scalar.toNat_toWord_natCast (hn.trans_lt hm)
  simp only [toConfig, dials, Dial.showing, hw hf (by decide), hw ha (by decide), hw hl (by decide),
    hw hv (by decide), hw hr (by decide)]

-- Setting one of the dials leaves plausible counts.
theorem exists_of_set (h : c.Plausible) (hs : (dials c).set index v = .ok (stored, g)) :
    ∃ d, d.Plausible ∧ dials d = g := by
  simp only [plausible_iff] at h ⊢
  obtain ⟨hf, ha, hl, hv, hr⟩ := h
  unfold set at hs
  split at hs
  case h_6 => contradiction
  all_goals
    obtain ⟨q, hq, hs⟩ := bind_eq_ok.mp hs
    cases hs
  case h_1 =>
    obtain ⟨n, hn, rfl⟩ := freqDial_regular.exists_of_setExact hq
    exact ⟨{ c with freq := n }, ⟨hn, ha, hl, hv, hr⟩, rfl⟩
  case h_2 =>
    obtain ⟨n, hn, rfl⟩ := ampDial_regular.exists_of_setExact hq
    exact ⟨{ c with amp := n }, ⟨hf, hn, hl, hv, hr⟩, rfl⟩
  case h_3 =>
    obtain ⟨n, hn, rfl⟩ := lnaDial_regular.exists_of_setExact hq
    exact ⟨{ c with lna := n }, ⟨hf, ha, hn, hv, hr⟩, rfl⟩
  case h_4 =>
    obtain ⟨n, hn, rfl⟩ := vgaDial_regular.exists_of_setExact hq
    exact ⟨{ c with vga := n }, ⟨hf, ha, hl, hn, hr⟩, rfl⟩
  case h_5 =>
    obtain ⟨n, hn, rfl⟩ := sampleRateDial_regular.exists_of_setExact hq
    exact ⟨{ c with sampleRate := n }, ⟨hf, ha, hl, hv, hn⟩, rfl⟩

end Dials

section Calls

variable {α : Type} [Scalar α]

-- What a series of calls leaves of the settings, each call with the number of a setting and a
-- value.
def after (f : FrontendSettings α) (calls : List (Nat × α)) : FrontendSettings α :=
  calls.foldl (fun f call => ((setInPlace call.1 call.2).perform f).2) f

theorem perform_setInPlace_of_error {f : FrontendSettings α} {index : Nat} {v : α} {e}
    (h : f.set index v = .error e) : (setInPlace index v).perform f = (.error e, f) := by
  rw [setInPlace_eq, perform_transaction, h]

theorem perform_setInPlace_of_ok {f g : FrontendSettings α} {index : Nat} {v stored : α}
    (h : f.set index v = .ok (stored, g)) : (setInPlace index v).perform f = (.ok stored, g) := by
  rw [setInPlace_eq, perform_transaction, h]

theorem eq_of_perform_setInPlace {f g : FrontendSettings α} {index : Nat} {v : α} {e}
    (h : (setInPlace index v).perform f = (.error e, g)) : g = f := by
  cases hs : f.set index v
  case error =>
    rw [perform_setInPlace_of_error hs] at h
    exact (Prod.mk.inj h).right.symm
  case ok =>
    rw [perform_setInPlace_of_ok hs] at h
    cases (Prod.mk.inj h).left

-- A value that is not finite is off every grid.
theorem exists_error_of_not_finite (f : FrontendSettings α) (index : Nat) {v : α}
    (h : Scalar.isFinite v = false) : ∃ e, f.set index v = .error e := by
  have hp (p : Parameter α) : p.setExact v = .error (p.refuse v (.offGrid p.min p.max p.step)) := by
    simp [Parameter.setExact, Parameter.accepts, h]
  unfold set
  split
  case h_6  => exact ⟨_, rfl⟩
  all_goals
    rw [hp]
    exact ⟨_, rfl⟩

end Calls

-- However often they are set, the settings show plausible counts.
theorem exists_after {c : FrontendConfig} (h : c.Plausible) (calls : List (Nat × Rat)) :
    ∃ d, d.Plausible ∧ dials d = (dials c).after calls := by
  induction calls generalizing c
  case nil => exact ⟨c, h, rfl⟩
  case cons call calls hi =>
    change ∃ d, d.Plausible ∧ dials d = after ((setInPlace call.1 call.2).perform (dials c)).2 calls
    cases hs : (dials c).set call.1 call.2
    case error =>
      rw [perform_setInPlace_of_error hs]
      exact hi h
    case ok r =>
      rw [perform_setInPlace_of_ok hs]
      obtain ⟨d, hd, he⟩ := exists_of_set h hs
      exact he ▸ hi hd

-- Settings can be made of the plausible counts only, and these come back. So do the settings, from
-- the counts that they are kept as, whatever they were set to. A call that fails changes nothing,
-- and one with a value that is not finite fails, in any arithmetic.
theorem settings_return (c : FrontendConfig) :
    ((∃ f : FrontendSettings Rat, ofConfig c = .ok f) ↔ c.Plausible) ∧
    (∀ f : FrontendSettings Rat, ofConfig c = .ok f → f.toConfig = c ∧
      ∀ calls, ofConfig (f.after calls).toConfig = .ok (f.after calls)) ∧
    ∀ {α : Type} [Scalar α] (f : FrontendSettings α) (index : Nat) (v : α),
      (∀ e g, (setInPlace index v).perform f = (.error e, g) → g = f) ∧
      (Scalar.isFinite v = false → ∃ e, (setInPlace index v).perform f = (.error e, f)) := by
  refine ⟨?taken, ?returns, fun f index v => ⟨fun e g => eq_of_perform_setInPlace, ?refused⟩⟩
  case taken =>
    simp only [ofConfig_eq_ok_iff, exists_and_left, exists_eq', and_true]
  case returns =>
    intro f hf
    obtain ⟨hc, rfl⟩ := ofConfig_eq_ok_iff.mp hf
    refine ⟨toConfig_dials hc, fun calls => ?_⟩
    obtain ⟨d, hd, he⟩ := exists_after hc calls
    rw [← he, toConfig_dials hd]
    exact ofConfig_eq_ok_iff.mpr ⟨hd, rfl⟩
  case refused =>
    intro hv
    obtain ⟨e, he⟩ := exists_error_of_not_finite f index hv
    exact ⟨e, perform_setInPlace_of_error he⟩

section Extreme

-- Every setting at an end of its scale.
def extreme : FrontendConfig :=
  { freq := 6000000000, amp := 0, lna := 40, vga := 62, sampleRate := 20000000 }

theorem plausible_extreme : extreme.Plausible :=
  ⟨by decide, by decide, by decide, by decide, by decide⟩

-- One call is taken; the others ask for a gain between two marks and for a setting that there is
-- not.
def extremeCalls : List (Nat × Rat) :=
  [(3, 14), (2, 20), (7, 1)]

theorem after_extremeCalls :
    (dials extreme).after extremeCalls = dials { extreme with vga := 14 } := by
  have h₁ : (dials extreme).set 3 14 = .ok (14, dials { extreme with vga := 14 }) := by
    have hq : (vgaDial.showing 62).setExact 14 = .ok (vgaDial.showing 14) :=
      vgaDial_regular.setExact_eq (by decide)
    change (vgaDial.showing 62).setExact 14 >>= _ = _
    rw [hq]
    rfl
  have h₂ : ∃ e, (dials { extreme with vga := 14 }).set 2 20 = .error e := by
    change ∃ e, (lnaDial.showing 40).setExact (20 : Nat) >>= _ = .error e
    cases hq : (lnaDial.showing 40).setExact (20 : Nat)
    case error e => exact ⟨e, rfl⟩
    case ok q    => exact absurd (lnaDial_regular.setExact_eq_ok.mp hq).left (by decide)
  obtain ⟨e, h₂⟩ := h₂
  simp only [after, extremeCalls, List.foldl_cons, List.foldl_nil, perform_setInPlace_of_ok h₁,
    perform_setInPlace_of_error h₂]
  rfl

theorem settings_return_extreme :
    (∃ f : FrontendSettings Rat, ofConfig extreme = .ok f) ∧
    ofConfig extreme = .ok (dials extreme) ∧ (dials extreme).toConfig = extreme ∧
    ofConfig ((dials extreme).after extremeCalls).toConfig =
      .ok ((dials extreme).after extremeCalls) ∧
    ((dials extreme).after extremeCalls).toConfig = { extreme with vga := 14 } := by
  have hc : ofConfig extreme = .ok (dials extreme) :=
    ofConfig_eq_ok_iff.mpr ⟨plausible_extreme, rfl⟩
  obtain ⟨hp, hr, -⟩ := settings_return extreme
  obtain ⟨ht, ha⟩ := hr _ hc
  have hv : FrontendConfig.Plausible { extreme with vga := 14 } :=
    { plausible_extreme with vga := by decide }
  exact ⟨hp.mpr plausible_extreme, hc, ht, ha extremeCalls, after_extremeCalls ▸ toConfig_dials hv⟩

end Extreme

end FrontendSettings

end RadioSpectrum
