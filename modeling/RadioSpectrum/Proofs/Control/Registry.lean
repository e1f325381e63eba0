import Mathlib.Data.List.Perm.Basic
import RadioSpectrum.Proofs.Control.Registration
import RadioSpectrum.Proofs.Except
import RadioSpectrum.Proofs.InPlace

namespace RadioSpectrum

-- A call that registers widgets.
inductive Registration (α : Type) where
  | slider (id url : String) (block : BlockId) (index min max step value : Nat)
  | freq (id url : String) (min max : α)
  | time (id url : String) (min max : α)
  | table (url : String) (block : BlockId) (entries : List (Parameter α))

namespace Registration

variable {α : Type} [Scalar α]

-- The widget of a parameter, if its range can be used.
def widget (id url : String) (kind : WidgetKind) (param : Except (StreamError α) (Parameter α)) :
    Except (ControlError α) (Widget α) :=
  (param.mapError (.ofParameter id)).map fun param => { url, kind, param }

-- The widgets that a call adds, in the order in which it does.
def widgets : Registration α → Except (ControlError α) (List (Widget α))
  | slider id url block index min max step value =>
    (widget id url (.slider block index) (Parameter.ofRange id (Scalar.ofNat min) (Scalar.ofNat max)
      (Scalar.ofNat step) (Scalar.ofNat value))).map ([·])
  | freq id url min max =>
    (widget id url (.picker .freq) ((Parameter.ofRange id min max (Scalar.ofNat 1) min).map
      (·.withUnit .hertz))).map ([·])
  | time id url min max =>
    (widget id url (.picker .time) ((Parameter.ofRange id min max 1e-3 min).map
      (·.withUnit .seconds))).map ([·])
  | table url block entries => .ok (entries.zipIdx.map fun (p, i) => Bridge.slider url block i p)

-- All calls but those with a table are for one widget.
theorem single_or_table {r : Registration α} {ws} (h : r.widgets = .ok ws) :
    (∃ w, ws = [w] ∧ ∀ url block entries, r ≠ .table url block entries) ∨
      ∃ url block entries, r = .table url block entries ∧
        ws = entries.zipIdx.map fun (p, i) => Bridge.slider url block i p := by
  cases r
  case table url block entries => exact .inr ⟨url, block, entries, rfl, (Except.ok.inj h).symm⟩
  all_goals
    obtain ⟨w, -, rfl⟩ := map_eq_ok.mp h
    exact .inl ⟨w, rfl, nofun⟩

end Registration

namespace Bridge

section Definitions

open InPlace

variable {α : Type}

-- That `ws` came in, each under a name that was free, and that the others stand as they did.
structure Extends (b : Bridge α) (ws : List (Widget α)) (b' : Bridge α) : Prop where
  placed  : b' = { b with widgets := ws.foldl (fun l w => place w l) b.widgets }
  widgets : b'.widgets.Perm (ws ++ b.widgets)
  names   : (ws.map Widget.id).Nodup ∧ ∀ w ∈ ws, b.widget? w.id = none
  lookup  : ∀ id, b'.widget? id = (ws.find? (·.id = id)).or (b.widget? id)

-- What comes of adding widgets one after the other: they all get in, or those before the first one
-- whose name is taken.
inductive Inserted (b : Bridge α) (ws : List (Widget α)) :
    Except (ControlError α) Unit × Bridge α → Prop
  | all {b'} (added : b.Extends ws b') : Inserted b ws (.ok (), b')
  | clash {before w after b'} (split : ws = before ++ w :: after) (added : b.Extends before b')
    (taken : (b'.widget? w.id).isSome) : Inserted b ws (.error (.duplicateWidget w.id), b')

-- Adds a widget to the registry where it stands.
def insertInPlace (w : Widget α) : InPlace (ControlError α) (Bridge α) Unit := do
  let b ← get
  if (b.widget? w.id).isSome then throw (.duplicateWidget w.id)
  set { b with widgets := place w b.widgets }

variable [Scalar α]

-- Makes a call. What it has added before it fails stays.
def register (r : Registration α) : InPlace (ControlError α) (Bridge α) Unit := do
  let ws ← MonadExcept.ofExcept r.widgets
  forM ws insertInPlace

-- What comes of a call.
inductive Registers (b : Bridge α) (r : Registration α) :
    Except (ControlError α) Unit × Bridge α → Prop
  | unfit {error} (asked : r.widgets = .error error) : Registers b r (.error error, b)
  | fit {ws result} (asked : r.widgets = .ok ws) (inserted : Inserted b ws result) :
    Registers b r result

-- That a call cannot fail halfway: it is for one widget, or the first name of its table is taken.
def Whole (b : Bridge α) (r : Registration α) : Prop :=
  ∀ url block p entries, r = .table url block (p :: entries) → (b.widget? p.id).isSome

-- The answer to a call that gives another bridge or none.
def kept (b : Bridge α) : Except (ControlError α) (Bridge α) → Except (ControlError α) Unit × Bridge α
  | .ok b'   => (.ok (), b')
  | .error e => (.error e, b)

-- The calls as the bridge answers them.
def called (b : Bridge α) : Registration α → Except (ControlError α) Unit × Bridge α
  | .slider id url block index min max step value =>
    b.kept (b.addSlider id url block index min max step value)
  | .freq id url min max      => b.kept (b.addFreq id url min max)
  | .time id url min max      => b.kept (b.addTime id url min max)
  | .table url block entries  => b.addBlock url block entries

end Definitions

open InPlace

variable {α : Type} {b b₁ b' : Bridge α} {w : Widget α} {ws ws' : List (Widget α)}

theorem perm_place (w : Widget α) (l : List (Widget α)) : (place w l).Perm (w :: l) := by
  induction l
  case nil => exact .refl _
  case cons v l hi =>
    unfold place
    split
    case isTrue  => exact .refl _
    case isFalse => exact (hi.cons v).trans (.swap w v l)

theorem find?_place {l : List (Widget α)} (fresh : ∀ v ∈ l, v.id ≠ w.id) (id : String) :
    (place w l).find? (·.id = id) = ([w].find? (·.id = id)).or (l.find? (·.id = id)) := by
  induction l
  case nil => simp [place]
  case cons v l hi =>
    obtain ⟨hv, hl⟩ := List.forall_mem_cons.mp fresh
    unfold place
    split
    case isTrue  => exact (List.find?_append : ([w] ++ v :: l).find? (·.id = id) = _)
    case isFalse =>
      by_cases he : v.id = id
      case neg =>
        simp only [List.find?_cons, he, decide_false, hi hl]
      case pos =>
        have hn : w.id ≠ id := fun h => hv (he.trans h.symm)
        simp [he, hn]

namespace Extends

theorem refl (b : Bridge α) : b.Extends [] b :=
  ⟨rfl, .refl _, ⟨.nil, nofun⟩, fun _ => rfl⟩

theorem of_insert (h : b.insert w = .ok b') : b.Extends [w] b' := by
  obtain ⟨hf, rfl⟩ := insert_eq_ok.mp h
  refine ⟨rfl, perm_place w b.widgets, ⟨List.nodup_singleton _, ?_⟩, find?_place hf⟩
  intro v hv
  obtain rfl := List.mem_singleton.mp hv
  simpa [widget?] using hf

theorem trans (e : b.Extends ws b₁) (e' : b₁.Extends ws' b') : b.Extends (ws ++ ws') b' := by
  -- A name that was free in the middle was free at first, and none of `ws` has it.
  have free {v} (hv : v ∈ ws') : (∀ w ∈ ws, w.id ≠ v.id) ∧ b.widget? v.id = none := by
    have hn := e'.names.right v hv
    rw [e.lookup, Option.or_eq_none_iff, List.find?_eq_none] at hn
    simpa using hn
  constructor
  case placed => rw [e'.placed, e.placed, List.foldl_append]
  case widgets =>
    calc b'.widgets
      _ |>.Perm (ws' ++ b₁.widgets) := e'.widgets
      _ |>.Perm (ws' ++ (ws ++ b.widgets)) := e.widgets.append_left ws'
      _ |>.Perm (ws ++ ws' ++ b.widgets) := by
        rw [← List.append_assoc]
        exact List.perm_append_comm.append_right _
  case names =>
    rw [List.map_append, List.nodup_append, List.forall_mem_append]
    refine ⟨⟨e.names.left, e'.names.left, ?_⟩, e.names.right, fun v hv => (free hv).right⟩
    intro _ hi _ hi' he
    obtain ⟨w, hw, rfl⟩ := List.mem_map.mp hi
    obtain ⟨v, hv, rfl⟩ := List.mem_map.mp hi'
    exact (free hv).left w hw he
  case lookup =>
    intro id
    rw [e'.lookup, e.lookup, List.find?_append, ← Option.or_assoc]
    congr 1
    cases hv : ws'.find? (·.id = id)
    case none => rw [Option.none_or, Option.or_none]
    case some v =>
      have hi : v.id = id := by simpa using List.find?_some hv
      have hn : ws.find? (·.id = id) = none := by
        simpa [hi] using (free (List.mem_of_find?_eq_some hv)).left
      rw [hn]
      rfl

-- Nothing new means nothing changed.
theorem eq_iff (e : b.Extends ws b') : b' = b ↔ ws = [] := by
  constructor
  case mp =>
    rintro rfl
    have hl := e.widgets.length_eq
    rw [List.length_append] at hl
    exact List.length_eq_zero_iff.mp (by omega)
  case mpr =>
    rintro rfl
    exact e.placed

end Extends

theorem insertInPlace_eq (w : Widget α) :
    insertInPlace w = transaction fun b => (b.insert w).map fun b' => ((), b') := by
  refine eq_transaction fun b => ?_
  simp only [insertInPlace, insert, perform_bind, perform_get, perform_ite, perform_throw,
    perform_set, perform_transaction]
  split <;> rfl

theorem insert_eq_error {error} : b.insert w = .error error ↔
    (b.widget? w.id).isSome ∧ error = .duplicateWidget w.id := by
  unfold insert
  split
  case isTrue h  => simp [h, eq_comm]
  case isFalse h => simp [h]

theorem forM_inserted (b : Bridge α) (ws : List (Widget α)) :
    Inserted b ws ((forM ws insertInPlace).perform b) := by
  induction ws generalizing b
  case nil => exact .all (.refl b)
  case cons w ws hi =>
    rw [List.forM_cons, perform_bind, insertInPlace_eq, perform_transaction]
    cases hw : b.insert w
    case error error =>
      obtain ⟨ht, rfl⟩ := insert_eq_error.mp hw
      exact .clash (List.nil_append _).symm (.refl b) ht
    case ok b₁ =>
      have e := Extends.of_insert hw
      have hr := hi b₁
      change Inserted b (w :: ws) ((forM ws insertInPlace).perform b₁)
      generalize (forM ws insertInPlace).perform b₁ = result at hr ⊢
      cases hr
      case all e' => exact .all (e.trans e')
      case clash before v after b' hs e' ht => exact .clash (by rw [hs]; rfl) (e.trans e') ht

theorem forM_sliders (b : Bridge α) (url : String) (block : BlockId) (index : Nat)
    (entries : List (Parameter α)) :
    (forM ((entries.zipIdx index).map fun (p, i) => slider url block i p) insertInPlace).perform b =
      b.addEntries url block index entries := by
  induction entries generalizing b index
  case nil => rfl
  case cons p entries hi =>
    rw [List.zipIdx_cons, List.map_cons, List.forM_cons, perform_bind, insertInPlace_eq,
      perform_transaction, addEntries, ← slider]
    cases b.insert (slider url block index p)
    case error => rfl
    case ok b₁ => exact hi b₁ (index + 1)

section Calls

variable [Scalar α]

theorem register_registers (b : Bridge α) (r : Registration α) :
    Registers b r ((register r).perform b) := by
  rw [register, perform_bind, perform_ofExcept]
  cases hr : r.widgets
  case error => exact .unfit hr
  case ok ws => exact .fit hr (forM_inserted b ws)

theorem perform_register_single {r : Registration α} {x : Except (ControlError α) (Widget α)}
    (h : r.widgets = x.map ([·])) (b : Bridge α) :
    (register r).perform b = b.kept (x >>= b.insert) := by
  rw [register, perform_bind, perform_ofExcept, h]
  cases x
  case error => rfl
  case ok w =>
    change (forM [w] insertInPlace).perform b = b.kept (b.insert w)
    rw [List.forM_cons, List.forM_nil, perform_bind, insertInPlace_eq, perform_transaction]
    cases b.insert w <;> rfl

-- In place, a call comes to what the bridge answers.
theorem perform_register (b : Bridge α) (r : Registration α) :
    (register r).perform b = b.called r := by
  cases r
  case table url block entries => exact forM_sliders b url block 0 entries
  case slider id url block index min max step value =>
    rw [perform_register_single rfl, called, addSlider, Registration.widget]
    cases Parameter.ofRange (α := α) id _ _ _ _ <;> rfl
  case freq id url min max =>
    rw [perform_register_single rfl, called, addFreq, addPicker, Registration.widget]
    cases Parameter.ofRange (α := α) id _ _ _ _ <;> rfl
  case time id url min max =>
    rw [perform_register_single rfl, called, addTime, addPicker, Registration.widget]
    cases Parameter.ofRange (α := α) id _ _ _ _ <;> rfl

-- A call that fails changes nothing, unless it was for a table whose first name was free.
theorem Registers.eq_iff {r : Registration α} {error} (h : Registers b r (.error error, b')) :
    b' = b ↔ b.Whole r := by
  cases h
  case unfit hr =>
    refine iff_of_true rfl ?_
    rintro url block p entries rfl
    contradiction
  case fit ws hr hi =>
    cases hi
    case clash before w after hs e ht =>
      rw [e.eq_iff]
      constructor
      case mp =>
        rintro rfl url block p entries rfl
        obtain rfl := e.eq_iff.mpr rfl
        obtain ⟨rfl, -⟩ := List.cons.inj ((Except.ok.inj hr).trans hs)
        exact ht
      case mpr =>
        intro hn
        rcases before with _ | ⟨v, before⟩
        · rfl
        · exfalso
          rcases Registration.single_or_table hr with ⟨x, rfl, -⟩ | ⟨url, block, entries, rfl, rfl⟩
          · simp at hs
          · rcases entries with _ | ⟨p, entries⟩
            · contradiction
            · obtain ⟨rfl, -⟩ := List.cons.inj hs
              have hf := e.names.right _ (List.mem_cons_self ..)
              have ht := hn url block p entries rfl
              rw [show p.id = Widget.id (slider url block 0 p) from rfl] at ht
              simp [hf] at ht

theorem failed_call_unchanged_iff (b : Bridge α) (r : Registration α) :
    (register r).perform b = b.called r ∧ Registers b r (b.called r) ∧
      ∀ error, (b.called r).1 = .error error → ((b.called r).2 = b ↔ b.Whole r) := by
  have hr := perform_register b r ▸ register_registers b r
  refine ⟨perform_register b r, hr, fun error he => ?_⟩
  generalize b.called r = result at hr he
  obtain ⟨_, b'⟩ := result
  subst he
  exact hr.eq_iff

end Calls

section Small

-- A registry with one slider, and a table whose second name it has taken.
def lone : Bridge Rat :=
  (({} : Bridge Rat).called (.slider "b" "" ⟨1⟩ 0 0 10 1 5)).2

def pair : Registration Rat :=
  .table "" ⟨1⟩ [
    { id := "a", value := 0, min := 0, max := 1, step := 1, default := 0 },
    { id := "b", value := 0, min := 0, max := 1, step := 1, default := 0 }]

theorem pair_leaves_first : (lone.called pair).1 = .error (.duplicateWidget "b") ∧
    lone.widgets.map (fun w => (w.id, w.value)) = [("b", 5)] ∧
    (lone.called pair).2.widgets.map (fun w => (w.id, w.value)) = [("a", 0), ("b", 5)] := by
  refine ⟨by with_unfolding_all rfl, by decide +kernel, by decide +kernel⟩

-- The name is taken for a picker as well, which leaves nothing behind.
theorem failed_call_unchanged_iff_pair : (lone.called pair).1 = .error (.duplicateWidget "b") ∧
    ¬lone.Whole pair ∧ (lone.called pair).2 ≠ lone ∧
    (lone.called (.freq "b" "" 0 1)).1 = .error (.duplicateWidget "b") ∧
    (lone.called (.freq "b" "" 0 1)).2 = lone := by
  have hp : (lone.called pair).1 = .error (.duplicateWidget "b") := by with_unfolding_all rfl
  have hf : (lone.called (.freq "b" "" 0 1)).1 = .error (.duplicateWidget "b") := by
    with_unfolding_all rfl
  have part : ¬lone.Whole pair := fun h =>
    absurd (h "" ⟨1⟩ _ _ rfl) (show ¬(lone.widget? "a").isSome by decide +kernel)
  obtain ⟨-, -, hp'⟩ := failed_call_unchanged_iff lone pair
  obtain ⟨-, -, hf'⟩ := failed_call_unchanged_iff lone (.freq "b" "" 0 1)
  exact ⟨hp, part, mt (hp' _ hp).mp part, hf, (hf' _ hf).mpr nofun⟩

end Small

end Bridge

end RadioSpectrum
