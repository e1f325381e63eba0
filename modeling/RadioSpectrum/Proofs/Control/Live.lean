import RadioSpectrum.Control.Live

namespace RadioSpectrum

namespace Bridge

variable {α : Type} [Scalar α] {b b' : Bridge α} {s t : Flowgraph.State α} {w : Widget α}
  {block : BlockId} {index : Nat} {v stored : α}

theorem dispatch_live (hl : w.isLocal) (hk : w.kind = .slider block index) :
    b.dispatch .live w v s =
      match s.update block index v with
      | .error e        => (.error (.target w.id e), b, s)
      | .ok (stored, t) => (.ok stored, b, t) := by
  unfold dispatch
  rw [hk]
  simp only [hl, if_true, Targets.live]
  generalize s.update block index v = answer
  cases answer <;> rfl

theorem exists_slider_of_dispatch (h : b.dispatch .live w v s = (.ok stored, b', t)) :
    w.isLocal ∧ ∃ block index, w.kind = .slider block index := by
  unfold dispatch Targets.live at h
  split at h
  case h_2 => cases h
  case h_1 block index hk =>
    split at h
    case isTrue hl => exact ⟨hl, block, index, hk⟩
    case isFalse   => cases h

theorem exists_update_of_dispatch (h : b.dispatch .live w v s = (.ok stored, b', t)) :
    ∃ block index, s.update block index v = .ok (stored, t) := by
  obtain ⟨hl, block, index, hk⟩ := exists_slider_of_dispatch h
  rw [dispatch_live hl hk] at h
  refine ⟨block, index, ?_⟩
  split at h
  case h_1      => cases h
  case h_2 hu   => cases h; exact hu

theorem exists_update_of_notify {id told} (h : b.notify .live s id v = (.ok (stored, told), b', t)) :
    ∃ block index value, s.update block index value = .ok (stored, t) := by
  unfold notify at h
  split at h
  case h_1 => cases h
  case h_2 w _ =>
    split at h
    case isTrue => cases h
    case isFalse =>
      split at h
      case h_1    => cases h
      case h_2 hd =>
        cases h
        obtain ⟨block, index, hu⟩ := exists_update_of_dispatch hd
        exact ⟨block, index, _, hu⟩

end Bridge

end RadioSpectrum
