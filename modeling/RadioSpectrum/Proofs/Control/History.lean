import RadioSpectrum.Proofs.Control.Registry

namespace RadioSpectrum

theorem Parameter.setClamped_eq {α : Type} [Scalar α] (p : Parameter α) (v : α) :
    p.setClamped v = { p with value := if Scalar.isFinite v then p.snap v else p.value } := by
  unfold setClamped
  split <;> rfl

namespace Bridge

section Definitions

variable {α : Type}

-- What can be done to a bridge.
inductive Deed (α : Type) where
  | register (r : Registration α)
  | remove (id : String)
  | listen (listener : ListenerId)
  | unlisten (listener : ListenerId)
  -- The target of a widget has stored a value.
  | store (id : String) (value : α)

def Deed.issued? : Deed α → Option ListenerId
  | listen listener => some listener
  | _ => none

-- The handles that were given out, in the order in which they were.
def issued (deeds : List (Deed α)) : List ListenerId :=
  deeds.filterMap Deed.issued?

-- That a listener was registered, and not unregistered since.
def Listens (deeds : List (Deed α)) (listener : ListenerId) : Prop :=
  ∃ before after, deeds = before ++ .listen listener :: after ∧ .unlisten listener ∉ after

variable [Scalar α]

inductive Does (b : Bridge α) : Deed α → Bridge α → Prop
  | register (r) : Does b (.register r) (b.called r).2
  | remove (id) : Does b (.remove id) (b.remove id).2
  | listen : Does b (.listen b.listen.1) b.listen.2
  | unlisten (listener) : Does b (.unlisten listener) (b.unlisten listener).2
  | store (id value) : Does b (.store id value) (b.modify id (·.setClamped value))

inductive Course (b : Bridge α) : List (Deed α) → Bridge α → Prop
  | refl : Course b [] b
  | step {deeds deed b₁ b₂} (c : Course b deeds b₁) (d : Does b₁ deed b₂) :
    Course b (deeds ++ [deed]) b₂

-- A bridge and what was done to it since it was made.
structure Remembers (b : Bridge α) (past : List (Deed α)) : Prop where
  issued    : issued past = (List.range b.nextListener).map ListenerId.mk
  sublist   : b.listeners.Sublist (Bridge.issued past)
  listeners : ∀ l, l ∈ b.listeners ↔ Listens past l
  names     : (b.widgets.map Widget.id).Nodup

end Definitions

variable {α : Type} {b b₁ b₂ : Bridge α} {deeds during past : List (Deed α)} {deed : Deed α}
  {l : ListenerId}

@[simp]
theorem issued_append (deeds deeds' : List (Deed α)) :
    issued (deeds ++ deeds') = issued deeds ++ issued deeds' :=
  List.filterMap_append

theorem listens_concat :
    Listens (deeds ++ [deed]) l ↔ deed = .listen l ∨ Listens deeds l ∧ deed ≠ .unlisten l := by
  constructor
  case mp =>
    rintro ⟨before, after, h, hn⟩
    rcases List.eq_nil_or_concat after with rfl | ⟨after, last, rfl⟩
    · exact .inl (List.append_inj_right' h rfl |> List.singleton_inj.mp)
    · rw [List.concat_eq_append, ← List.cons_append, ← List.append_assoc] at h
      obtain ⟨hd, hl⟩ := List.append_inj' h rfl
      obtain rfl := List.singleton_inj.mp hl
      simp only [List.concat_eq_append, List.mem_append, List.mem_singleton, not_or] at hn
      exact .inr ⟨⟨before, after, hd, hn.left⟩, Ne.symm hn.right⟩
  case mpr =>
    rintro (rfl | ⟨⟨before, after, rfl, hn⟩, hd⟩)
    · exact ⟨deeds, [], rfl, List.not_mem_nil⟩
    · refine ⟨before, after ++ [deed], by simp, ?_⟩
      simpa [hn] using Ne.symm hd

theorem not_listens_nil : ¬Listens ([] : List (Deed α)) l := by
  rintro ⟨before, after, h, -⟩
  simp at h

theorem map_id_modify {f : Parameter α → Parameter α} (hf : ∀ p, (f p).id = p.id) (b : Bridge α)
    (id : String) : (b.modify id f).widgets.map Widget.id = b.widgets.map Widget.id := by
  refine List.map_map.trans (List.map_congr_left fun w _ => ?_)
  rw [Function.comp]
  split
  case isTrue  => exact hf w.param
  case isFalse => rfl

theorem Extends.names_nodup {ws} (e : b.Extends ws b₁) (h : (b.widgets.map Widget.id).Nodup) :
    (b₁.widgets.map Widget.id).Nodup := by
  rw [(e.widgets.map _).nodup_iff, List.map_append, List.nodup_append]
  refine ⟨e.names.left, h, ?_⟩
  intro _ hi _ hi' he
  obtain ⟨w, hw, rfl⟩ := List.mem_map.mp hi
  obtain ⟨v, hv, rfl⟩ := List.mem_map.mp hi'
  have hn := e.names.right w hw
  simp only [widget?, List.find?_eq_none, decide_eq_true_eq] at hn
  exact hn v hv he.symm

-- Whether a call succeeds or not, what it leaves has a few widgets more and is the same otherwise.
theorem Registers.exists_extends [Scalar α] {r : Registration α} {result}
    (h : Registers b r result) : ∃ ws, b.Extends ws result.2 := by
  cases h
  case unfit => exact ⟨[], .refl b⟩
  case fit hi =>
    cases hi
    case all e     => exact ⟨_, e⟩
    case clash e _ => exact ⟨_, e⟩

namespace Remembers

theorem fresh (hasSnapshots : Bool) : Remembers ({ hasSnapshots } : Bridge α) [] where
  issued      := rfl
  sublist     := .slnil
  listeners _ := iff_of_false List.not_mem_nil not_listens_nil
  names       := .nil

-- No handle is given out twice.
theorem issued_nodup (h : b.Remembers past) : (Bridge.issued past).Nodup := by
  rw [h.issued]
  exact List.nodup_range.map fun _ _ => congrArg ListenerId.number

-- What does not concern the listeners.
theorem of_quiet (h : b.Remembers past) (hq : ∀ l, deed ≠ .listen l ∧ deed ≠ .unlisten l)
    (hl : b₁.listeners = b.listeners ∧ b₁.nextListener = b.nextListener)
    (hn : (b₁.widgets.map Widget.id).Nodup) : b₁.Remembers (past ++ [deed]) := by
  have hi : Bridge.issued [deed] = [] := by
    cases deed
    case listen l => exact absurd rfl (hq l).left
    all_goals rfl
  constructor
  case issued    => rw [issued_append, hi, List.append_nil, h.issued, hl.right]
  case sublist   => rw [issued_append, hi, List.append_nil, hl.left]; exact h.sublist
  case listeners =>
    intro l
    rw [hl.left, h.listeners, listens_concat, or_iff_right (hq l).left, and_iff_left (hq l).right]
  case names     => exact hn

theorem listen (h : b.Remembers past) : b.listen.2.Remembers (past ++ [.listen b.listen.1]) := by
  have hi : Bridge.issued (past ++ [.listen b.listen.1]) = Bridge.issued past ++ [b.listen.1] :=
    issued_append ..
  constructor
  case issued =>
    rw [hi, h.issued]
    exact (congrArg _ List.range_succ).trans List.map_append |>.symm
  case sublist =>
    rw [hi]
    exact h.sublist.append (.refl _)
  case listeners =>
    intro l
    change l ∈ b.listeners ++ [b.listen.1] ↔ _
    rw [List.mem_append, List.mem_singleton, h.listeners, listens_concat, or_comm]
    simp [eq_comm]
  case names => exact h.names

theorem unlisten (h : b.Remembers past) (listener : ListenerId) :
    (b.unlisten listener).2.Remembers (past ++ [.unlisten listener]) := by
  have hi : Bridge.issued (past ++ [.unlisten listener]) = Bridge.issued past :=
    (issued_append ..).trans (List.append_nil _)
  constructor
  case issued  => exact hi.trans h.issued
  case sublist =>
    rw [hi]
    exact List.filter_sublist.trans h.sublist
  case listeners =>
    intro l
    change l ∈ b.listeners.filter (· ≠ listener) ↔ _
    have hn : Deed.unlisten (α := α) listener ≠ .unlisten l ↔ l ≠ listener :=
      ⟨fun h he => h (congrArg _ he.symm), fun h he => h (Deed.unlisten.inj he).symm⟩
    rw [List.mem_filter, h.listeners, listens_concat, hn]
    simp
  case names => exact h.names

variable [Scalar α]

theorem of_does (h : b.Remembers past) (d : Does b deed b₁) : b₁.Remembers (past ++ [deed]) := by
  cases d
  case register r =>
    have hr := register_registers b r
    rw [perform_register] at hr
    obtain ⟨ws, e⟩ := hr.exists_extends
    have hp := e.placed
    exact h.of_quiet (fun _ => ⟨nofun, nofun⟩) (by rw [hp]; exact ⟨rfl, rfl⟩) (e.names_nodup h.names)
  case remove id =>
    refine h.of_quiet (fun _ => ⟨nofun, nofun⟩) ⟨rfl, rfl⟩ ?_
    exact h.names.sublist (List.filter_sublist.map _)
  case listen => exact h.listen
  case unlisten l => exact h.unlisten l
  case store id value =>
    refine h.of_quiet (fun _ => ⟨nofun, nofun⟩) ⟨rfl, rfl⟩ ?_
    rw [map_id_modify fun p => by rw [p.setClamped_eq]]
    exact h.names

theorem of_course (h : b.Remembers past) (c : Course b during b₁) :
    b₁.Remembers (past ++ during) := by
  induction c
  case refl      => simpa using h
  case step d hi => exact List.append_assoc .. ▸ hi.of_does d

end Remembers

end Bridge

end RadioSpectrum
