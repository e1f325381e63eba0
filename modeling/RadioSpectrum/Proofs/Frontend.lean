import RadioSpectrum.Frontend
import RadioSpectrum.Proofs.Parameter.Grid

namespace RadioSpectrum

namespace FrontendSettings

variable {f g : FrontendSettings Rat} {p q : Parameter Rat} {index : Nat} {v stored : Rat}

def names : List String :=
  ["freq", "amp", "lna", "vga", "sample_rate"]

structure Tuned (f : FrontendSettings Rat) : Prop where
  names : f.parameters.map (·.id) = names
  entry : ∀ p ∈ f.parameters, p.Whole ∧ p.OnGrid p.value

-- The range and the steps of each parameter.
def ranges : List (String × Rat × Rat × Rat) :=
  [("freq", 1000000, 6000000000, 1), ("amp", 0, 1, 1), ("lna", 0, 40, 8), ("vga", 0, 62, 2),
    ("sample_rate", 1000000, 20000000, 1)]

def range (p : Parameter Rat) : String × Rat × Rat × Rat :=
  (p.id, p.min, p.max, p.step)

def Ranged (f : FrontendSettings Rat) : Prop :=
  f.parameters.map range = ranges

-- Setting a parameter changes its entry alone.
theorem set_eq_ok (h : f.set index v = .ok (stored, g)) :
    ∃ p q, f.parameters[index]? = some p ∧ p.setExact v = .ok q ∧ stored = q.value ∧
      g.parameters = f.parameters.set index q := by
  unfold set at h
  split at h
  case h_6 => contradiction
  all_goals
    obtain ⟨q, hq, h⟩ := bind_eq_ok.mp h
    cases h
    exact ⟨_, q, rfl, hq, rfl, rfl⟩

theorem Tuned.of_set (h : f.Tuned) (hs : f.set index v = .ok (stored, g)) : g.Tuned := by
  obtain ⟨p, q, hp, hq, -, hg⟩ := set_eq_ok hs
  have hw := (h.entry p (List.mem_of_getElem? hp)).left
  have hm := hw.sound.moved_of_setExact hq
  constructor
  case names =>
    obtain ⟨hi, rfl⟩ := List.getElem?_eq_some_iff.mp hp
    have hn := (f.parameters.map (·.id)).set_getElem_self (by rwa [List.length_map])
    rw [List.getElem_map] at hn
    rw [hg, List.map_set, hm.id_eq, ← h.names]
    exact hn
  case entry =>
    intro r hr
    rw [hg] at hr
    rcases List.mem_or_eq_of_mem_set hr with hr | rfl
    · exact h.entry r hr
    · exact hw.of_moved hm

-- That an entry is made of its range, and then set to the value of the configuration.
def Entry (id : String) (unit : DisplayUnit) (lo hi step default k : Nat) (q : Parameter Rat) :
    Prop :=
  ∃ p, Parameter.ofRange id (Scalar.ofNat lo) (Scalar.ofNat hi) (Scalar.ofNat step)
      (Scalar.ofNat default) = .ok p ∧ (p.withUnit unit).setExact (Scalar.ofNat k) = .ok q

section Entry

variable {id : String} {unit : DisplayUnit} {lo hi step default k : Nat}

theorem Entry.whole (e : Entry id unit lo hi step default k q) (n : Nat) (hs : 0 < step)
    (hn : n + 1 < 2 ^ 64) (hh : hi = lo + n * step) : q.id = id ∧ q.Whole ∧ q.OnGrid q.value := by
  obtain ⟨p, hp, hq⟩ := e
  obtain ⟨_, he, -⟩ := Parameter.eq_of_ofRange hp
  have hs : (0 : Rat) < step := Nat.cast_pos.mpr hs
  have hm : (hi : Rat) = lo + n * step := by
    rw [hh]
    push_cast
    rfl
  have hw : p.Whole := he ▸ ⟨hs, n, hn, hm⟩
  have hm := (hw.withUnit unit).sound.moved_of_setExact hq
  exact ⟨hm.id_eq.trans (congrArg Parameter.id he), (hw.withUnit unit).of_moved hm⟩

theorem range_of_setExact (h : p.setExact v = .ok q) : range q = range p := by
  obtain ⟨-, h⟩ := Parameter.setExact_eq_ok.mp h
  obtain ⟨-, -, rfl⟩ := Parameter.set_eq_ok.mp h
  rfl

theorem Entry.range_eq (e : Entry id unit lo hi step default k q) :
    range q = (id, (lo : Rat), (hi : Rat), (step : Rat)) := by
  obtain ⟨p, hp, hq⟩ := e
  obtain ⟨_, rfl, -⟩ := Parameter.eq_of_ofRange hp
  exact range_of_setExact hq

end Entry

theorem ofConfig_iff_entries {c : FrontendConfig} : ofConfig c = .ok f ↔
    Entry "freq" .hertz 1000000 6000000000 1 2480000000 c.freq f.freq ∧
      Entry "amp" .toggle 0 1 1 1 c.amp f.amp ∧ Entry "lna" .decibels 0 40 8 32 c.lna f.lna ∧
      Entry "vga" .decibels 0 62 2 14 c.vga f.vga ∧
      Entry "sample_rate" .samplesPerSecond 1000000 20000000 1 4000000 c.sampleRate
        f.sampleRate := by
  simp only [ofConfig, bind_eq_ok, pure_eq_ok]
  constructor
  case mp =>
    rintro ⟨_, ⟨freq, hf, rfl⟩, _, ⟨amp, ha, rfl⟩, _, ⟨lna, hl, rfl⟩, _, ⟨vga, hv, rfl⟩,
      _, ⟨rate, hr, rfl⟩, freq', hf', amp', ha', lna', hl', vga', hv', rate', hr', rfl⟩
    exact ⟨⟨_, hf, hf'⟩, ⟨_, ha, ha'⟩, ⟨_, hl, hl'⟩, ⟨_, hv, hv'⟩, ⟨_, hr, hr'⟩⟩
  case mpr =>
    rintro ⟨⟨_, hf, hf'⟩, ⟨_, ha, ha'⟩, ⟨_, hl, hl'⟩, ⟨_, hv, hv'⟩, ⟨_, hr, hr'⟩⟩
    exact ⟨_, ⟨_, hf, rfl⟩, _, ⟨_, ha, rfl⟩, _, ⟨_, hl, rfl⟩, _, ⟨_, hv, rfl⟩, _, ⟨_, hr, rfl⟩,
      _, hf', _, ha', _, hl', _, hv', _, hr', rfl⟩

theorem tuned_of_ofConfig {c : FrontendConfig} (h : ofConfig c = .ok f) : f.Tuned := by
  obtain ⟨hf, ha, hl, hv, hr⟩ := ofConfig_iff_entries.mp h
  have hf := hf.whole 5999000000 (by decide) (by decide) rfl
  have ha := ha.whole 1 (by decide) (by decide) rfl
  have hl := hl.whole 5 (by decide) (by decide) rfl
  have hv := hv.whole 31 (by decide) (by decide) rfl
  have hr := hr.whole 19000000 (by decide) (by decide) rfl
  constructor
  case names => simp only [parameters, List.map, hf, ha, hl, hv, hr, names]
  case entry =>
    simp only [parameters, List.forall_mem_cons]
    exact ⟨hf.right, ha.right, hl.right, hv.right, hr.right, nofun⟩

theorem ranged_of_ofConfig {c : FrontendConfig} (h : ofConfig c = .ok f) : f.Ranged := by
  obtain ⟨hf, ha, hl, hv, hr⟩ := ofConfig_iff_entries.mp h
  simp only [Ranged, parameters, List.map, hf.range_eq, ha.range_eq, hl.range_eq, hv.range_eq,
    hr.range_eq]
  norm_num [ranges]

theorem Ranged.of_set (h : f.Ranged) (hs : f.set index v = .ok (stored, g)) : g.Ranged := by
  obtain ⟨p, q, hp, hq, -, hg⟩ := set_eq_ok hs
  obtain ⟨hi, rfl⟩ := List.getElem?_eq_some_iff.mp hp
  have hn := (f.parameters.map range).set_getElem_self (by rwa [List.length_map])
  rw [List.getElem_map] at hn
  rw [Ranged, hg, List.map_set, range_of_setExact hq, ← h]
  exact hn

-- A value that the parameter takes is taken by the settings.
theorem exists_set (hp : f.parameters[index]? = some p) (hq : p.setExact v = .ok q) :
    ∃ g, f.set index v = .ok (q.value, g) := by
  rcases index with _ | _ | _ | _ | _ | _ <;> cases hp
  all_goals exact ⟨_, by rw [set, hq]; rfl⟩

end FrontendSettings

end RadioSpectrum
