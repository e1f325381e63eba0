import RadioSpectrum.Proofs.Flowgraph.Updates
import RadioSpectrum.Proofs.Frontend
import RadioSpectrum.Proofs.Spectrum.Table

namespace RadioSpectrum

namespace Flowgraph

namespace State

variable {s t : State Rat} {block : BlockId} {index : Nat} {p : Parameter Rat} {v stored : Rat}

-- The entries that a flowgraph shows for a block; an unknown block has none.
def table (s : State Rat) (block : BlockId) : List (Parameter Rat) :=
  if block = .spectrum then s.staged.table
  else if block = .frontend then s.frontend.parameters
  else []

theorem block_of_entry (hp : (s.table block)[index]? = some p) :
    block = .spectrum ∨ block = .frontend := by
  by_contra hn
  obtain ⟨hs, hf⟩ := not_or.mp hn
  rw [table, if_neg hs, if_neg hf] at hp
  contradiction

def entryNames (block : BlockId) : List String :=
  if block = .spectrum then SpectrumConfig.names
  else if block = .frontend then FrontendSettings.names
  else []

-- No name stands for two entries.
theorem entryNames_inj {block' index'} {name : String} (h : (entryNames block)[index]? = some name)
    (h' : (entryNames block')[index']? = some name) : block' = block ∧ index' = index := by
  have hd : (SpectrumConfig.names ++ FrontendSettings.names).Nodup := by decide
  obtain ⟨hs, hf, hn⟩ := List.nodup_append.mp hd
  have inj {names : List String} {i j : Nat} (hd : names.Nodup) (h : names[i]? = some name)
      (h' : names[j]? = some name) : j = i :=
    (List.getElem?_inj (List.getElem?_eq_some_iff.mp h').choose hd).mp (h'.trans h.symm)
  have hm {names : List String} {i : Nat} (h : names[i]? = some name) : name ∈ names :=
    List.mem_of_getElem? h
  unfold entryNames at h h'
  split at h <;> split at h'
  case isTrue.isTrue hb hb' => exact ⟨hb'.trans hb.symm, inj hs h h'⟩
  case isTrue.isFalse =>
    split at h'
    · exact absurd rfl (hn _ (hm h) _ (hm h'))
    · contradiction
  case isFalse.isTrue =>
    split at h
    · exact absurd rfl (hn _ (hm h') _ (hm h))
    · contradiction
  case isFalse.isFalse =>
    split at h <;> split at h' <;> try contradiction
    rename_i hb hb'
    exact ⟨hb'.trans hb.symm, inj hf h h'⟩

-- Settings that a table can be made of.
structure Adjustable (s : State Rat) : Prop where
  valid : s.staged.Valid
  tuned : s.frontend.Tuned

namespace Adjustable

theorem congr (h : s.Adjustable) (ht : t.staged = s.staged ∧ t.frontend = s.frontend) :
    t.Adjustable :=
  ⟨ht.left ▸ h.valid, ht.right ▸ h.tuned⟩

theorem parameters_eq_ok (h : s.Adjustable) {entries} : s.parameters block = .ok entries ↔
    (block = .spectrum ∨ block = .frontend) ∧ s.table block = entries := by
  unfold parameters State.table
  rw [h.valid.parameters_eq]
  split
  case isTrue hb => simp only [hb, true_or, true_and, Except.ok.injEq]
  case isFalse hn =>
    split
    case isTrue hb  => simp only [hb, or_true, true_and, Except.ok.injEq]
    case isFalse hn' => simp only [hn, hn', or_self, false_and, reduceCtorEq]

theorem entry_whole (h : s.Adjustable) (hp : p ∈ s.table block) : p.Whole ∧ p.OnGrid p.value := by
  unfold State.table at hp
  split at hp
  case isTrue => exact h.valid.entry_whole hp
  case isFalse =>
    split at hp
    case isTrue  => exact h.tuned.entry p hp
    case isFalse => contradiction

theorem of_updated (h : s.Adjustable) (d : Updated s block index v stored t) : t.Adjustable := by
  cases d
  case staged next _ _ _ hn _ _ =>
    exact ⟨SpectrumConfig.validate_eq_ok.mp (SpectrumConfig.validate_of_withParameter hn), h.tuned⟩
  case tuned hs => exact ⟨h.valid, h.tuned.of_set hs⟩

theorem of_step (h : s.Adjustable) {event} (e : Step s event t) : t.Adjustable := by
  by_cases ha : event.Adjusts
  case pos =>
    cases e
    case update hu => exact h.of_updated (updated_of_update hu)
    all_goals contradiction
  case neg => exact h.congr (e.preserves_settings ha)

theorem of_run (h : s.Adjustable) {events} (r : Run s events t) : t.Adjustable := by
  induction r
  case refl      => exact h
  case step e hi => exact hi.of_step e

theorem of_built {factory config} (b : Built factory config s) : s.Adjustable := by
  cases b
  case intro hv _ _ _ _ hd =>
    exact ⟨SpectrumConfig.validate_eq_ok.mp hv, FrontendSettings.tuned_of_ofConfig hd⟩

-- An update that is taken sets the entry that it names and no other.
theorem set_of_updated (h : s.Adjustable) (d : Updated s block index v stored t) :
    ∃ p q default, (s.table block)[index]? = some p ∧ p.setExact v = .ok q ∧ stored = q.value ∧
      t.table block = (s.table block).set index { q with default } ∧
      ∀ other ≠ block, t.table other = s.table other := by
  cases d
  case staged next entries _ hb hn _ he =>
    subst hb
    obtain ⟨p, q, hp, hq, rfl⟩ := h.valid.set_of_withParameter hn
    have hw := (h.valid.entry_whole (List.mem_of_getElem? hp)).left
    obtain ⟨hv⟩ := hw.sound.moved_of_setExact hq
    have ⟨hv', ht⟩ := h.valid.decode hp hv
    obtain rfl := Except.ok.inj (hv'.parameters_eq.symm.trans he)
    refine ⟨p, _, _, hp, hq, ?_, ht, fun other ho => ?_⟩
    · have hi := (List.getElem?_eq_some_iff.mp hp).choose
      rw [ht, List.getElem?_set_self hi]
      rfl
    · simp only [State.table, ho, if_false]
      rfl
  case tuned hb hs =>
    subst hb
    obtain ⟨p, q, hp, hq, rfl, hg⟩ := FrontendSettings.set_eq_ok hs
    refine ⟨p, q, q.default, hp, hq, rfl, hg, fun other ho => ?_⟩
    simp only [State.table, ho, if_false]

theorem table_of_updated (h : s.Adjustable) (hp : (s.table block)[index]? = some p)
    (hv : p.OnGrid v) (d : Updated s block index v stored t) :
    stored = v ∧
      (∃ default, t.table block = (s.table block).set index { p with value := v, default }) ∧
      ∀ other ≠ block, t.table other = s.table other := by
  obtain ⟨_, q, default, hp', hq, rfl, ht, ho⟩ := h.set_of_updated d
  obtain rfl := Option.some.inj (hp.symm.trans hp')
  have hw := (h.entry_whole (List.mem_of_getElem? hp)).left
  obtain rfl := Except.ok.inj ((hw.setExact_eq hv).symm.trans hq)
  exact ⟨rfl, ⟨default, ht⟩, ho⟩

-- An update of an entry that is taken changes this entry, to the value that was asked for.
theorem entry_of_updated (h : s.Adjustable) (hp : (s.table block)[index]? = some p)
    (hv : p.OnGrid v) (d : Updated s block index v stored t) :
    stored = v ∧
      (∃ default, (t.table block)[index]? = some { p with value := v, default }) ∧
      ∀ {block' index'}, (block', index') ≠ (block, index) →
        (t.table block')[index']? = (s.table block')[index']? := by
  have hi := (List.getElem?_eq_some_iff.mp hp).choose
  obtain ⟨hs, ⟨default, ht⟩, ho⟩ := h.table_of_updated hp hv d
  refine ⟨hs, ⟨default, by rw [ht, List.getElem?_set_self hi]⟩, fun {block' index'} hn => ?_⟩
  by_cases hb : block' = block
  case pos =>
    obtain rfl := hb
    have hn : index ≠ index' := fun he => hn (by rw [he])
    rw [ht, List.getElem?_set_ne hn]
  case neg => rw [ho _ hb]

theorem names_eq (h : s.Adjustable) (block : BlockId) :
    (s.table block).map (·.id) = entryNames block := by
  unfold State.table entryNames
  split
  case isTrue => rfl
  case isFalse =>
    split
    case isTrue  => exact h.tuned.names
    case isFalse => rfl

theorem name_of_entry (h : s.Adjustable) (hp : (s.table block)[index]? = some p) :
    (entryNames block)[index]? = some p.id := by
  rw [← h.names_eq, List.getElem?_map, hp]
  rfl

-- An entry is known by its name.
theorem entry_inj (h : s.Adjustable) {block' index' p'} (hp : (s.table block)[index]? = some p)
    (hp' : (s.table block')[index']? = some p') (he : p'.id = p.id) :
    block' = block ∧ index' = index :=
  entryNames_inj (h.name_of_entry hp) (he ▸ h.name_of_entry hp')

end Adjustable

end State

end Flowgraph

end RadioSpectrum
