import RadioSpectrum.Proofs.Flowgraph.Tables
import RadioSpectrum.Proofs.InPlace

namespace RadioSpectrum

namespace Flowgraph

namespace State

section InPlace

open InPlace

variable {α : Type} [Scalar α]

-- As `update`, on the state where it stands: each write happens where its turn comes.
def updateInPlace (block : BlockId) (index : Nat) (value : α) :
    InPlace (StreamError α) (State α) α := do
  let s ← get
  if s.stopping then throw .shutdownInProgress
  if block = .spectrum then
    let next ← MonadExcept.ofExcept (s.staged.withParameter index value)
    if s.ring.capacity < next.windowLength then
      throw (.invalidParameter "fft_order" value (.windowTooLong next.windowLength s.ring.capacity))
    let table ← MonadExcept.ofExcept next.parameters
    modify fun s => { s with staged := next }
    modify fun s => { s with pending := some next }
    modify fun s => { s with dataReady := s.dataReady.notify }
    modify fun s => { s with spaceFreed := s.spaceFreed.notify }
    return table[index]?.elim value (·.value)
  else if block = .frontend then
    within (·.frontend) (fun f s => { s with frontend := f })
      (FrontendSettings.setInPlace index value)
  else throw (.unknownBlock block)

-- Every refusal comes before the first write.
theorem updateInPlace_eq (block : BlockId) (index : Nat) (value : α) :
    updateInPlace block index value = transaction fun s => s.update block index value := by
  refine eq_transaction fun s => ?_
  simp only [updateInPlace, update, FrontendSettings.setInPlace_eq, perform_bind, perform_get,
    perform_ite, perform_throw, perform_ofExcept, perform_modify, perform_pure,
    perform_transaction]
  split
  case isTrue => rfl
  case isFalse =>
    split
    case isTrue =>
      cases s.staged.withParameter index value
      case error   => rfl
      case ok next =>
        dsimp only [bind, Except.bind]
        split
        case isTrue  => rfl
        case isFalse => cases next.parameters (α := α) <;> rfl
    case isFalse =>
      split
      case isTrue =>
        rw [within_transaction fun _ => rfl, perform_transaction]
        cases s.frontend.set index value <;> rfl
      case isFalse => rfl

-- In place, an update is the same step as it is at once.
theorem step_of_updateInPlace {s t : State α} {block index value answer}
    (h : (updateInPlace block index value).perform s = (answer, t)) :
    Step s (.update block index value answer) t ∧ ((∃ e, answer = .error e) → t = s) := by
  rw [updateInPlace_eq, perform_transaction] at h
  cases hu : s.update block index value <;> simp only [hu, Prod.mk.injEq] at h
  case error e =>
    obtain ⟨rfl, rfl⟩ := h
    exact ⟨.refuse hu, fun _ => rfl⟩
  case ok =>
    obtain ⟨rfl, rfl⟩ := h
    exact ⟨.update hu, nofun⟩

end InPlace

-- That an entry was set to `stored`, as the tables of the blocks show it.
structure ReadsBack (s : State Rat) (block : BlockId) (index : Nat) (stored : Rat)
    (t : State Rat) : Prop where
  entry : ∃ entries p default, s.parameters block = .ok entries ∧ entries[index]? = some p ∧
    p.OnGrid stored ∧
    t.parameters block = .ok (entries.set index { p with value := stored, default })
  others : ∀ other ≠ block, t.parameters other = s.parameters other
  format : t.staged.format = s.staged.format ∧ t.active = s.active ∧
    ∀ next, t.pending = some next → next.format = s.staged.format

variable {s₀ s t : State Rat} {kernel : Kernel} {block : BlockId} {index : Nat} {v stored : Rat}

theorem Adjustable.parameters_congr (hs : s.Adjustable) (ht : t.Adjustable)
    (h : t.table block = s.table block) : t.parameters block = s.parameters block := by
  unfold table at h
  unfold parameters
  rw [hs.valid.parameters_eq, ht.valid.parameters_eq]
  split at h
  case isTrue hb => rw [if_pos hb, if_pos hb, h]
  case isFalse hn =>
    rw [if_neg hn, if_neg hn]
    split at h
    case isTrue hb   => rw [if_pos hb, if_pos hb, h]
    case isFalse hn' => rw [if_neg hn', if_neg hn']

theorem Updated.preserves_format (h : s.Settled kernel) (ha : s.Adjustable)
    (d : Updated s block index v stored t) :
    t.staged.format = s.staged.format ∧ t.active = s.active ∧
      ∀ next, t.pending = some next → next.format = s.staged.format := by
  cases d
  case staged hn _ _ =>
    obtain ⟨_, q, -, -, rfl⟩ := ha.valid.set_of_withParameter hn
    have hf := s.staged.decode_format index q.value
    refine ⟨hf, rfl, fun next hp => ?_⟩
    obtain rfl := Option.some.inj hp
    exact hf
  case tuned => exact ⟨rfl, rfl, fun next hp => congrArg _ (h.pending next hp)⟩

theorem Updated.readsBack (h : s.Settled kernel) (ha : s.Adjustable)
    (d : Updated s block index v stored t) : ReadsBack s block index stored t := by
  have ht := ha.of_updated d
  obtain ⟨p, q, default, hp, hq, rfl, hs, ho⟩ := ha.set_of_updated d
  have hb := block_of_entry hp
  have hw := (ha.entry_whole (List.mem_of_getElem? hp)).left
  obtain ⟨hv⟩ := hw.sound.moved_of_setExact hq
  constructor
  case entry =>
    exact ⟨_, p, default, ha.parameters_eq_ok.mpr ⟨hb, rfl⟩, hp, hv,
      ht.parameters_eq_ok.mpr ⟨hb, hs⟩⟩
  case others => exact fun other hn => ha.parameters_congr ht (ho other hn)
  case format => exact d.preserves_format h ha

-- A refusal changes nothing at all. What is taken is a point of the grid of the entry, and is read
-- back from it; nothing else shows in the tables, and the format of the samples stays.
theorem update_all_or_nothing {config events answer}
    (h₀ : ofConfig (spectrumFactory kernel) config = .ok s₀) (r : Run s₀ events s)
    (hu : (updateInPlace block index v).perform s = (answer, t)) :
    Step s (.update block index v answer) t ∧
      ((∃ error, answer = .error error) ∧ t = s ∨
        ∃ stored, answer = .ok stored ∧ ReadsBack s block index stored t) := by
  have b := built_of_ofConfig h₀
  have ⟨e, hn⟩ := step_of_updateInPlace hu
  refine ⟨e, ?_⟩
  cases answer
  case error error => exact .inl ⟨⟨error, rfl⟩, hn ⟨error, rfl⟩⟩
  case ok stored =>
    cases e
    case update h =>
      exact .inr ⟨stored, rfl,
        (updated_of_update h).readsBack (r.settled b.settled) ((Adjustable.of_built b).of_run r)⟩

section Small

theorem small_update_eq : small.update .spectrum 1 2 = .ok (2, smallShaped) := by
  have hv : ((small.update .spectrum 1 2).toOption.get small_update_isSome).1 = 2 := by
    decide +kernel
  exact (eq_ok_get small_update_isSome).trans (congrArg Except.ok (Prod.ext hv rfl))

theorem update_all_or_nothing_small :
    ofConfig (spectrumFactory identityKernel) smallConfig = .ok small ∧ Run small [] small ∧
      (updateInPlace .spectrum 1 2).perform small = (.ok 2, smallShaped) ∧
      ReadsBack small .spectrum 1 2 smallShaped := by
  have hu : (updateInPlace .spectrum 1 2).perform small = (.ok 2, smallShaped) := by
    rw [updateInPlace_eq, InPlace.perform_transaction, small_update_eq]
  refine ⟨ofConfig_eq_small, .refl, hu, ?_⟩
  rcases (update_all_or_nothing ofConfig_eq_small .refl hu).right with ⟨⟨_, h⟩, -⟩ | ⟨_, h, d⟩
  · contradiction
  · exact Except.ok.inj h ▸ d

end Small

end State

end Flowgraph

end RadioSpectrum
