import RadioSpectrum.Proofs.Control.Live
import RadioSpectrum.Proofs.Control.Registration
import RadioSpectrum.Proofs.Flowgraph.Tables

namespace RadioSpectrum

open Flowgraph

namespace Bridge

-- A bridge that has a slider for every entry of both tables, and no other widgets.
inductive Registered (s : State Rat) : Bridge Rat → Prop
  | intro {b b₁ b₂ : Bridge Rat} {url₁ url₂ block₁ block₂ table₁ table₂} (empty : b.widgets = [])
    (local₁ : isLocalUrl url₁) (local₂ : isLocalUrl url₂)
    (both : [block₁, block₂].Perm [.spectrum, .frontend])
    (shown₁ : s.parameters block₁ = .ok table₁) (shown₂ : s.parameters block₂ = .ok table₂)
    (added₁ : b.addBlock url₁ block₁ table₁ = (.ok (), b₁))
    (added₂ : b₁.addBlock url₂ block₂ table₂ = (.ok (), b₂)) :
    Registered s b₂

-- A widget is moved, or something happens to the flowgraph that does not change a parameter past
-- the bridge.
inductive Step : Bridge Rat × State Rat → Bridge Rat × State Rat → Prop
  | notify {b s} (id v) : Step (b, s) (b.notify .live s id v).2
  | flow {b s t event} (e : s.Step event t) (quiet : ¬event.Adjusts) : Step (b, s) (b, t)

inductive Run (x : Bridge Rat × State Rat) : Bridge Rat × State Rat → Prop
  | refl : Run x x
  | step {y z} (r : Run x y) (e : Step y z) : Run x z

-- A widget of an entry, which shows its range, its steps and its value. The value that a reset
-- goes back to is the widget's own.
inductive Shows (s : State Rat) (w : Widget Rat) : Prop
  | intro {block index p default} (isLocal : w.isLocal) (kind : w.kind = .slider block index)
    (entry : (s.table block)[index]? = some p) (param : w.param = { p with default }) : Shows s w

structure Mirrors (b : Bridge Rat) (s : State Rat) : Prop where
  shown : ∀ w ∈ b.widgets, Shows s w
  complete : ∀ {block index p}, (s.table block)[index]? = some p →
    ∃ w ∈ b.widgets, w.kind = .slider block index

-- What comes of moving a widget: nothing at all, or the nearest grid point on both sides.
inductive Notified (b : Bridge Rat) (s : State Rat) (id : String) (v : Rat) :
    Except (ControlError Rat) (Rat × List (ListenerId × ControlEvent Rat)) × Bridge Rat × State Rat →
      Prop
  | refused {error} : Notified b s id v (.error error, b, s)
  | applied {b' t block table stored told} {index : Nat} {p : Parameter Rat}
    (shown : t.parameters block = .ok table) (entry : table[index]? = some p) (name : p.id = id)
    (value : p.value = stored) (widget : b'.value? id = some stored)
    (nearest : p.Nearest v stored) : Notified b s id v (.ok (stored, told), b', t)

variable {b b' : Bridge Rat} {s t : State Rat} {w : Widget Rat} {block : BlockId} {index : Nat}
  {p : Parameter Rat} {v : Rat}

-- Two sliders of one name are sliders of one entry.
theorem Shows.entry_of_id_eq (h : s.Adjustable) (sh : Shows s w)
    (hp : (s.table block)[index]? = some p) (he : w.id = p.id) :
    ∃ default, w.isLocal ∧ w.kind = .slider block index ∧ w.param = { p with default } := by
  obtain @⟨block', index', p', default, hl, hk, hp', hw⟩ := sh
  have he : p'.id = p.id := by rw [← he, Widget.id, hw]
  obtain ⟨rfl, rfl⟩ := h.entry_inj hp hp' he
  obtain rfl := Option.some.inj (hp.symm.trans hp')
  exact ⟨default, hl, hk, hw⟩

namespace Registered

theorem mirrors (r : Registered s b) (h : s.Adjustable) : Mirrors b s := by
  obtain @⟨b₀, b₁, _, url₁, url₂, block₁, block₂, _, _, he, hl₁, hl₂, hb, ht₁, ht₂, ha₁, ha₂⟩ := r
  obtain ⟨-, rfl⟩ := h.parameters_eq_ok.mp ht₁
  obtain ⟨-, rfl⟩ := h.parameters_eq_ok.mp ht₂
  -- The widgets are the sliders of the first table and those of the second one.
  have hw (w : Widget Rat) : w ∈ b.widgets ↔
      (∃ i p, (s.table block₁)[i]? = some p ∧ w = slider url₁ block₁ i p) ∨
        ∃ i p, (s.table block₂)[i]? = some p ∧ w = slider url₂ block₂ i p := by
    rw [mem_addEntries ha₂, mem_addEntries ha₁, he]
    simp only [List.not_mem_nil, false_or, Nat.zero_add]
  constructor
  case shown =>
    intro w hm
    rcases (hw w).mp hm with ⟨i, p, hp, rfl⟩ | ⟨i, p, hp, rfl⟩
    · exact ⟨hl₁, rfl, hp, rfl⟩
    · exact ⟨hl₂, rfl, hp, rfl⟩
  case complete =>
    intro block index p hp
    have hm : block ∈ [block₁, block₂] :=
      hb.mem_iff.mpr (List.mem_pair.mpr (State.block_of_entry hp))
    rcases List.mem_pair.mp hm with rfl | rfl
    · exact ⟨_, (hw _).mpr (.inl ⟨index, p, hp, rfl⟩), rfl⟩
    · exact ⟨_, (hw _).mpr (.inr ⟨index, p, hp, rfl⟩), rfl⟩

end Registered

-- No name of an entry is taken, so that every entry gets its slider.
theorem exists_registered (h : s.Adjustable) : ∃ b, Registered s b := by
  have nodup (block) (hd : (State.entryNames block).Nodup) :
      ((s.table block).map (·.id)).Nodup := h.names_eq block ▸ hd
  obtain ⟨b₁, h₁⟩ : ∃ b₁, ({} : Bridge Rat).addBlock "" .spectrum (s.table .spectrum) = (.ok (), b₁) :=
    exists_addEntries 0 (fun _ _ _ => nofun) (nodup .spectrum (by decide))
  have fresh : ∀ p ∈ s.table .frontend, ∀ w ∈ b₁.widgets, w.id ≠ p.id := by
    intro p hp w hw he
    obtain ⟨index, hp⟩ := List.mem_iff_getElem?.mp hp
    rcases (mem_addEntries h₁).mp hw with hw | ⟨i, q, hq, rfl⟩
    · contradiction
    · have hb := (h.entry_inj hp hq he).left
      contradiction
  obtain ⟨b₂, h₂⟩ : ∃ b₂, b₁.addBlock "" .frontend (s.table .frontend) = (.ok (), b₂) :=
    exists_addEntries 0 fresh (nodup .frontend (by decide))
  exact ⟨b₂, .intro rfl rfl rfl (.refl _) (h.parameters_eq_ok.mpr ⟨.inl rfl, rfl⟩)
    (h.parameters_eq_ok.mpr ⟨.inr rfl, rfl⟩) h₁ h₂⟩

namespace Mirrors

theorem congr (m : Mirrors b s) (ht : t.staged = s.staged ∧ t.frontend = s.frontend) :
    Mirrors b t := by
  have ht (block) : t.table block = s.table block := by
    unfold State.table
    rw [ht.left, ht.right]
  constructor
  case shown =>
    intro w hw
    obtain ⟨hl, hk, hp, he⟩ := m.shown w hw
    exact ⟨hl, hk, ht _ ▸ hp, he⟩
  case complete => exact fun hp => m.complete (ht _ ▸ hp)

-- The widget of an entry is found under its name.
theorem exists_widget? (m : Mirrors b s) (h : s.Adjustable)
    (hp : (s.table block)[index]? = some p) : ∃ w default, b.widget? p.id = some w ∧
      w.isLocal ∧ w.kind = .slider block index ∧ w.param = { p with default } := by
  have ⟨u, hu, hk⟩ := m.complete hp
  obtain @⟨_, _, q, _, -, hk', hq, he⟩ := m.shown u hu
  cases hk.symm.trans hk'
  obtain rfl := Option.some.inj (hp.symm.trans hq)
  have hs : (b.widget? p.id).isSome :=
    List.find?_isSome.mpr ⟨u, hu, decide_eq_true (by rw [Widget.id, he])⟩
  have ⟨w, hw⟩ := Option.isSome_iff_exists.mp hs
  have ⟨hm, hi⟩ := widget?_eq_some hw
  have ⟨default, hw'⟩ := (m.shown w hm).entry_of_id_eq h hp hi
  exact ⟨w, default, hw, hw'⟩

theorem value?_eq (m : Mirrors b s) (h : s.Adjustable) (hp : (s.table block)[index]? = some p) :
    b.value? p.id = some p.value := by
  have ⟨w, _, hw, _, _, he⟩ := m.exists_widget? h hp
  rw [value?, hw, Option.map_some, Widget.value, he]

-- Within the range, it is the flowgraph that decides what comes of a move.
theorem notify_eq (m : Mirrors b s) (h : s.Adjustable) (hp : (s.table block)[index]? = some p)
    (hv : p.min ≤ v ∧ v ≤ p.max) :
    b.notify .live s p.id v =
      match s.update block index (p.snap v) with
      | .error e        => (.error (.target p.id e), b, s)
      | .ok (stored, t) =>
        (.ok (stored, b.listeners.map fun l => (l, ⟨p.id, stored⟩)),
          b.modify p.id (·.setClamped stored), t) := by
  obtain ⟨w, default, hw, hl, hk, he⟩ := m.exists_widget? h hp
  have hr : ¬((!Scalar.isFinite v) = true ∨ v < w.param.min ∨ w.param.max < v) := by
    rw [he]
    rintro (hf | hf | hf)
    · contradiction
    · exact absurd hv.left (not_le.mpr hf)
    · exact absurd hv.right (not_le.mpr hf)
  have hg : w.param.snap v = p.snap v := by rw [he]; rfl
  have hid : w.id = p.id := by rw [Widget.id, he]
  unfold notify
  simp only [hw, if_neg hr, dispatch_live hl hk, hg, hid]
  cases s.update block index (p.snap v) <;> rfl

theorem of_updated (m : Mirrors b s) (h : s.Adjustable) (hp : (s.table block)[index]? = some p)
    (hv : p.OnGrid v) {stored} (d : State.Updated s block index v stored t) :
    Mirrors (b.modify p.id (·.setClamped stored)) t := by
  obtain ⟨rfl, ⟨default, hs⟩, ho⟩ := h.entry_of_updated hp hv d
  have hw := (h.entry_whole (List.mem_of_getElem? hp)).left.sound
  constructor
  case shown =>
    intro w hm
    obtain ⟨u, hu, rfl⟩ := List.mem_map.mp hm
    split
    case isTrue he =>
      have ⟨default', hl, hk, hu⟩ := (m.shown u hu).entry_of_id_eq h hp he
      have hc : u.param.setClamped stored = { p with value := stored, default := default' } := by
        rw [hu]
        exact congrArg (fun value => { p with value, default := default' }) (hw.snap_of_onGrid hv)
      exact ⟨hl, hk, hs, hc⟩
    case isFalse he =>
      obtain @⟨block', index', q, default', hl, hk, hq, hu⟩ := m.shown u hu
      have hn : (block', index') ≠ (block, index) := by
        intro hb
        cases hb
        obtain rfl := Option.some.inj (hp.symm.trans hq)
        exact he (by rw [Widget.id, hu])
      exact ⟨hl, hk, (ho hn).trans hq, hu⟩
  case complete =>
    intro block' index' q hq
    have ⟨u, hu, hk⟩ : ∃ u ∈ b.widgets, u.kind = .slider block' index' := by
      by_cases hb : (block', index') = (block, index)
      case pos =>
        cases hb
        exact m.complete hp
      case neg => exact m.complete ((ho hb).symm.trans hq)
    refine ⟨_, List.mem_map.mpr ⟨u, hu, rfl⟩, ?_⟩
    split <;> exact hk

theorem notified (m : Mirrors b s) (h : s.Adjustable) (id : String) (v : Rat) :
    Notified b s id v (b.notify .live s id v) ∧
      (b.notify .live s id v).2.2.Adjustable ∧
        Mirrors (b.notify .live s id v).2.1 (b.notify .live s id v).2.2 := by
  cases hw : b.widget? id
  case none =>
    rw [notify, hw]
    exact ⟨.refused, h, m⟩
  case some w =>
    obtain ⟨hm, rfl⟩ := widget?_eq_some hw
    obtain @⟨block, index, p, default, hl, hk, hp, he⟩ := m.shown w hm
    by_cases hv : p.min ≤ v ∧ v ≤ p.max
    case neg =>
      have hr : (!Scalar.isFinite v) = true ∨ v < w.param.min ∨ w.param.max < v := by
        rw [he]
        exact .inr (by simpa only [not_and_or, not_le] using hv)
      simp only [notify, hw, if_pos hr]
      exact ⟨.refused, h, m⟩
    case pos =>
      have hid : w.id = p.id := by rw [Widget.id, he]
      rw [hid, m.notify_eq h hp hv]
      cases hu : s.update block index (p.snap v)
      case error => exact ⟨.refused, h, m⟩
      case ok answer =>
        obtain ⟨stored, t⟩ := answer
        have d := State.updated_of_update hu
        have hw := (h.entry_whole (List.mem_of_getElem? hp)).left
        have h' := h.of_updated d
        have m' := m.of_updated h hp (hw.sound.snap_onGrid v) d
        obtain ⟨rfl, ⟨_, hs⟩, -⟩ := h.entry_of_updated hp (hw.sound.snap_onGrid v) d
        have ⟨hg, hm, hn⟩ := hw.nearest_snap v
        exact ⟨.applied (h'.parameters_eq_ok.mpr ⟨State.block_of_entry hp, rfl⟩) hs rfl rfl
          (m'.value?_eq h' hs) ⟨hg, hm, hn⟩, h', m'⟩

end Mirrors

theorem Step.mirrors {x y : Bridge Rat × State Rat} (e : Step x y) (h : x.2.Adjustable)
    (m : Mirrors x.1 x.2) : y.2.Adjustable ∧ Mirrors y.1 y.2 := by
  cases e
  case notify id v  => exact (m.notified h id v).right
  case flow e quiet => exact ⟨h.of_step e, m.congr (e.preserves_settings quiet)⟩

theorem Run.mirrors {x y : Bridge Rat × State Rat} (r : Run x y) (h : x.2.Adjustable)
    (m : Mirrors x.1 x.2) : y.2.Adjustable ∧ Mirrors y.1 y.2 := by
  induction r
  case refl      => exact ⟨h, m⟩
  case step e hi => exact e.mirrors hi.left hi.right

theorem mirrors_flowgraph {kernel : Kernel} {config : FlowgraphConfig} {s₀ : State Rat} {events}
    (h₀ : State.ofConfig (spectrumFactory kernel) config = .ok s₀) (before : s₀.Run events s)
    (registered : Registered s b) (r : Run (b, s) (b', t)) :
    (∀ w ∈ b'.widgets, ∃ block index table p, w.kind = .slider block index ∧
      t.parameters block = .ok table ∧ table[index]? = some p ∧ w.id = p.id ∧
        w.value = p.value) ∧
    (∀ block table (index : Nat) (p : Parameter Rat), t.parameters block = .ok table →
      table[index]? = some p → b'.value? p.id = some p.value) ∧
    ∀ id v, Notified b' t id v (b'.notify .live t id v) := by
  have h := State.Adjustable.of_built (State.built_of_ofConfig h₀) |>.of_run before
  obtain ⟨h, m⟩ := r.mirrors h (registered.mirrors h)
  refine ⟨?widgets, ?entries, fun id v => (m.notified h id v).left⟩
  case widgets =>
    intro w hw
    obtain @⟨block, index, p, _, -, hk, hp, he⟩ := m.shown w hw
    have ht := h.parameters_eq_ok.mpr ⟨State.block_of_entry hp, rfl⟩
    exact ⟨block, index, _, p, hk, ht, hp, by rw [Widget.id, he], by rw [Widget.value, he]⟩
  case entries =>
    intro block entries index p ht hp
    obtain ⟨-, rfl⟩ := h.parameters_eq_ok.mp ht
    exact m.value?_eq h hp

section Small

open State (small smallConfig)

theorem small_adjustable : small.Adjustable :=
  .of_built (State.built_of_ofConfig State.ofConfig_eq_small)

theorem small_window : (small.table .spectrum)[1]? = some (.counter "window" 0 4 0 .choice) := by
  rw [State.table, if_pos rfl, (State.built_of_ofConfig State.ofConfig_eq_small).staged_eq]
  rfl

-- The third window function is chosen by its slider.
theorem mirrors_flowgraph_small :
    ∃ b b' t told, Registered small b ∧ b.notify .live small "window" 2 = (.ok (2, told), b', t) ∧
      ∃ block table, ∃ (index : Nat) (p : Parameter Rat), t.parameters block = .ok table ∧
        table[index]? = some p ∧ p.id = "window" ∧ p.value = 2 ∧
        b'.value? "window" = some 2 := by
  have h := small_adjustable
  have ⟨b, hb⟩ := exists_registered h
  have hg : (Parameter.counter "window" 0 4 0 .choice).OnGrid 2 :=
    (Parameter.counter_onGrid_iff (by decide) (by decide)).mpr ⟨2, by decide, rfl⟩
  have hw := (h.entry_whole (List.mem_of_getElem? small_window)).left
  obtain ⟨⟨stored, t⟩, hu⟩ : ∃ answer, small.update .spectrum 1 2 = .ok answer :=
    ⟨_, eq_ok_get State.small_update_isSome⟩
  have hn := (hb.mirrors h).notify_eq h small_window (hw.inRange hg)
  rw [hw.sound.snap_of_onGrid hg, hu] at hn
  obtain rfl := (h.entry_of_updated small_window hg (State.updated_of_update hu)).left
  have ⟨_, _, hc⟩ := mirrors_flowgraph State.ofConfig_eq_small .refl hb .refl
  have hc := hc "window" 2
  rw [show b.notify .live small "window" 2 = _ from hn] at hc
  obtain - | ⟨ht, hp, hi, he, hw, -⟩ := hc
  exact ⟨b, _, _, _, hb, hn, _, _, _, _, ht, hp, hi, he, hw⟩

end Small

end Bridge

end RadioSpectrum
