import RadioSpectrum.Proofs.Parameter.Grid

namespace RadioSpectrum

namespace Parameter

-- What can be asked of a parameter.
inductive Call where
  | set (v : Rat)
  | setExact (v : Rat)
  | setClamped (v : Rat)
  | reset

def Call.perform (p : Parameter Rat) : Call → Except (StreamError Rat) (Parameter Rat)
  | set v        => p.set v
  | setExact v   => p.setExact v
  | setClamped v => .ok (p.setClamped v)
  | reset        => .ok p.reset

-- What a call leaves: the parameter it gives, or the old one where it is refused.
def call (p : Parameter Rat) (c : Call) : Parameter Rat :=
  match c.perform p with
  | .ok q    => q
  | .error _ => p

def after (p : Parameter Rat) (calls : List Call) : Parameter Rat :=
  calls.foldl call p

-- That `v` lies a whole number of steps above the lower end, and above the upper end by no more
-- than `slack`.
structure Fits (p : Parameter Rat) (slack v : Rat) : Prop where
  whole : ∃ k : Nat, (v - p.min) / p.step = k
  min_le : p.min ≤ v
  le_max : v ≤ p.max + slack

structure Lawful (p : Parameter Rat) (slack : Rat) : Prop where
  value : p.Fits slack p.value
  default : p.Fits slack p.default

structure HasRange (p : Parameter Rat) (min max step : Rat) : Prop where
  min_eq : p.min = min
  max_eq : p.max = max
  step_eq : p.step = step

variable {p q : Parameter Rat} {v value min max step slack : Rat} {id : String}

theorem hasRange_of_ofRange (h : ofRange id min max step value = .ok p) :
    p.HasRange min max step ∧ min ≤ max ∧ 0 < step := by
  have ⟨hm, hs, _⟩ := ofRange_eq_ok.mp h
  obtain ⟨_, rfl, -⟩ := eq_of_ofRange h
  exact ⟨⟨rfl, rfl, rfl⟩, hm, hs⟩

-- A parameter starts from the grid, and this is where it goes back to.
theorem snap_of_ofRange (h : ofRange id min max step value = .ok p) :
    p.value = p.snap value ∧ p.default = p.snap value := by
  obtain ⟨_, rfl, hv⟩ := eq_of_ofRange h
  exact ⟨hv, hv⟩

theorem Moved.call (hs : p.Sound) (hd : p.OnGrid p.default) (hm : p.Moved q) (c : Call) :
    p.Moved (q.call c) := by
  obtain ⟨hv⟩ := hm
  unfold Parameter.call
  split
  case h_2 => exact ⟨hv⟩
  case h_1 hc =>
    cases c
    case set          => exact hs.moved_of_set hc
    case setExact     => exact hs.moved_of_setExact hc
    case setClamped v => exact Except.ok.inj hc ▸ ⟨hs.snap_onGrid v⟩
    case reset        => exact Except.ok.inj hc ▸ ⟨hd⟩

theorem Moved.after (hs : p.Sound) (hd : p.OnGrid p.default) (hm : p.Moved q) (calls : List Call) :
    p.Moved (q.after calls) := by
  induction calls generalizing q
  case nil             => exact hm
  case cons c calls hi => exact hi (hm.call hs hd c)

theorem moved_of_ofRange (h : ofRange id min max step value = .ok p) (calls : List Call) :
    p.Moved (p.after calls) := by
  have hp := sound_of_ofRange h
  have ⟨hv, hd⟩ := snap_of_ofRange h
  exact .after hp (hd ▸ hp.snap_onGrid value) ⟨hv ▸ hp.snap_onGrid value⟩ calls

theorem Moved.sound (hm : p.Moved q) (h : p.Sound) : q.Sound := by
  obtain ⟨-⟩ := hm
  exact ⟨h.ordered, h.step_pos, h.countable⟩

theorem Moved.hasRange (hm : p.Moved q) : q.HasRange p.min p.max p.step := by
  obtain ⟨-⟩ := hm
  exact ⟨rfl, rfl, rfl⟩

theorem Moved.lawful (hd : p.Fits slack p.default) (hp : ∀ {v}, p.OnGrid v → p.Fits slack v)
    (hm : p.Moved q) : q.Lawful slack := by
  obtain ⟨hv⟩ := hm
  have ⟨_, _, _⟩ := hp hv
  have ⟨_, _, _⟩ := hd
  exact ⟨⟨‹_›, ‹_›, ‹_›⟩, ⟨‹_›, ‹_›, ‹_›⟩⟩

theorem call_of_error {c : Call} {e} (h : c.perform p = .error e) : p.call c = p := by
  unfold call
  rw [h]

theorem after_concat (calls : List Call) (c : Call) :
    p.after (calls ++ [c]) = (p.after calls).call c := by
  simp only [after, List.foldl_append, List.foldl_cons, List.foldl_nil]

namespace Sound

theorem fits (h : p.Sound) {t : Rat} (ht : p.top ≤ p.span + t) (hv : p.OnGrid v) :
    p.Fits (t * p.step) v := by
  obtain ⟨k, hk, rfl⟩ := hv
  have hk : (k : Rat) ≤ p.top := Nat.cast_le.mpr hk
  exact ⟨⟨k, h.steps_point k⟩, h.min_le_point k, h.point_le_iff.mpr (hk.trans ht)⟩

theorem after_lawful (h : p.Sound) (hv : p.OnGrid p.value) (hd : p.OnGrid p.default) {t : Rat}
    (ht : p.top ≤ p.span + t) (calls : List Call) : (p.after calls).Lawful (t * p.step) :=
  Moved.after h hd ⟨hv⟩ calls |>.lawful (h.fits ht hd) (h.fits ht)

-- The highest grid point can be reached: it only has to be asked for.
theorem after_setClamped_top (h : p.Sound) :
    (p.after [.setClamped (p.point p.top)]).value = p.point p.top :=
  h.snap_of_onGrid ⟨_, le_rfl, rfl⟩

theorem top_le_span_iff (h : p.Sound) :
    (p.top : Rat) ≤ p.span ↔ ∀ k : Nat, k ≤ p.span + Scalar.tolerance → k ≤ p.span := by
  constructor
  case mp =>
    intro ht k hk
    exact (Nat.cast_le.mpr (Nat.le_floor hk)).trans ht
  case mpr => exact fun hk => hk _ h.top_le

end Sound

-- A parameter lives on its grid, up to the slack that the tolerance gives at the upper end. It never
-- leaves its range if and only if no whole number of steps exceeds the range by that slack or less.
theorem lawful_for_life (h : ofRange id min max step value = .ok p) :
    (∀ calls, (p.after calls).HasRange min max step ∧
      (p.after calls).Lawful (Scalar.tolerance * step)) ∧
    (∀ calls (c : Call) e, c.perform (p.after calls) = .error e →
      p.after (calls ++ [c]) = p.after calls) ∧
    ((∀ calls, (p.after calls).Lawful 0) ↔
      ∀ k : Nat, k ≤ (max - min) / step + Scalar.tolerance → k ≤ (max - min) / step) := by
  obtain ⟨⟨rfl, rfl, rfl⟩, -, -⟩ := hasRange_of_ofRange h
  have ⟨hv, hd⟩ := snap_of_ofRange h
  have hp := sound_of_ofRange h
  have hv : p.OnGrid p.value := hv ▸ hp.snap_onGrid value
  have hd : p.OnGrid p.default := hd ▸ hp.snap_onGrid value
  refine ⟨?slack, ?refused, Iff.trans ⟨?narrow, ?wide⟩ hp.top_le_span_iff⟩
  case slack =>
    exact fun calls => ⟨(moved_of_ofRange h calls).hasRange, hp.after_lawful hv hd hp.top_le calls⟩
  case refused => exact fun calls c e he => (after_concat calls c).trans (call_of_error he)
  case narrow =>
    intro hl
    have ht := (hl [.setClamped (p.point p.top)]).value.le_max
    rw [hp.after_setClamped_top, ← zero_mul p.step] at ht
    exact (hp.point_le_iff.mp ht).trans_eq (add_zero _)
  case wide =>
    intro ht calls
    have := hp.after_lawful hv hd (ht.trans_eq (add_zero _).symm) calls
    rwa [zero_mul] at this

-- A range that ends short of its second grid point by less than the tolerance.
def cutShort : Parameter Rat where
  id := "gain"
  value := 0
  min := 0
  max := 32 - 1 / 2 ^ 26
  step := 32
  default := 0

theorem cutShort_top : cutShort.top = 1 := by
  have : cutShort.span + Scalar.tolerance = 1 - 1 / 2 ^ 31 + 1e-9 := by
    change (32 - 1 / 2 ^ 26 - 0) / 32 + 1e-9 = _
    norm_num
  rw [top, this, Nat.floor_eq_iff (by norm_num)]
  norm_num

theorem cutShort_sound : cutShort.Sound where
  ordered := by
    change (0 : Rat) ≤ 32 - 1 / 2 ^ 26
    norm_num
  step_pos := by
    change (0 : Rat) < 32
    norm_num
  countable := by
    rw [Countable, cutShort_top]
    norm_num

theorem cutShort_snap_max : cutShort.snap cutShort.max = 32 := by
  have hs : cutShort.steps cutShort.max = 1 - 1 / 2 ^ 31 := by
    change (32 - 1 / 2 ^ 26 - 0) / 32 = _
    norm_num
  have hr : Scalar.roundRat (1 - 1 / 2 ^ 31) = 1 := by
    rw [Scalar.roundRat, if_neg (by norm_num)]
    change ⌊(1 - 1 / 2 ^ 31 + 1 / 2 : Rat)⌋ = 1
    norm_num
  rw [cutShort_sound.snap_eq, cutShort_top, hs, Scalar.nearest, hr]
  change 0 + ((1 : Nat) : Rat) * 32 = 32
  norm_num

theorem ofRange_cutShort : ofRange "gain" 0 (32 - 1 / 2 ^ 26) 32 0 = .ok cutShort := by
  have hp := cutShort_sound
  have h₀ : cutShort.point 0 = 0 := by
    change 0 + ((0 : Nat) : Rat) * 32 = 0
    norm_num
  have hs : cutShort.snap 0 = 0 := hp.snap_of_onGrid ⟨0, Nat.zero_le _, h₀.symm⟩
  refine ofRange_eq_ok.mpr ⟨hp.ordered, hp.step_pos, _,
    set_eq_ok.mpr ⟨⟨le_rfl, hp.ordered⟩, hp.countable, rfl⟩, ?_⟩
  change { cutShort with value := cutShort.snap 0, default := cutShort.snap 0 } = cutShort
  rw [hs]
  rfl

-- Asked for the upper end of its range, the parameter goes beyond it, to a value that it does not
-- accept itself.
theorem cutShort_leaves_range :
    ofRange "gain" 0 (32 - 1 / 2 ^ 26) 32 0 = .ok cutShort ∧
    ⌊(32 - 1 / 2 ^ 26 - 0 : Rat) / 32 + Scalar.tolerance⌋₊ < 2 ^ 64 ∧
    ∃ q, cutShort.set (32 - 1 / 2 ^ 26) = .ok q ∧ q.max < q.value ∧ q.accepts q.value = false := by
  have hm : (32 - 1 / 2 ^ 26 : Rat) + 1e-9 < 32 := by norm_num
  have hp := cutShort_sound
  refine ⟨ofRange_cutShort, (Nat.lt_succ_self _).trans hp.countable, _,
    set_eq_ok.mpr ⟨⟨hp.ordered, le_rfl⟩, hp.countable, rfl⟩, ?above, ?refused⟩
  case above =>
    change 32 - 1 / 2 ^ 26 < cutShort.snap cutShort.max
    rw [cutShort_snap_max]
    norm_num
  case refused =>
    change accepts cutShort (cutShort.snap cutShort.max) = false
    rw [cutShort_snap_max]
    exact if_pos (.inr (.inr hm))

theorem lawful_for_life_cutShort :
    (∀ calls, (cutShort.after calls).Lawful (Scalar.tolerance * 32)) ∧
    ¬∀ calls, (cutShort.after calls).Lawful 0 := by
  obtain ⟨hl, -, hn⟩ := lawful_for_life ofRange_cutShort
  refine ⟨fun calls => (hl calls).right, fun h => ?_⟩
  have ht : 1 ≤ (32 - 1 / 2 ^ 26 - 0) / 32 + (1e-9 : Rat) := by norm_num
  have h₁ := hn.mp h 1 (by rw [Nat.cast_one]; exact ht)
  norm_num at h₁

end Parameter

end RadioSpectrum
