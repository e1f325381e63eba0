import RadioSpectrum.Proofs.Control.History

namespace RadioSpectrum

namespace Targets

-- A call that a target gets.
inductive Call (α : Type) where
  | update (block : BlockId) (index : Nat) (value : α)
  | call (url : String) (block : BlockId) (index : Nat) (value : α)
  | fetch (url : String) (kind : FetchKind) (value : α)

-- What a target says that does not take a value.
inductive Refusal (α : Type) where
  | rejected (error : StreamError α)
  | failed (message : String)

variable {α σ ρ : Type}

-- The answer to a call: the value that is in force, and what became of the bridge meanwhile.
def serve (targets : Targets α σ) :
    Call α → Bridge α × σ → Except (Refusal α) α × Bridge α × σ
  | .update block index value, x =>
    ((targets.update block index value x).1.mapError .rejected,
      (targets.update block index value x).2)
  | .call url block index value, x =>
    (((targets.call url block index value x).1.map fun () => value).mapError .failed,
      (targets.call url block index value x).2)
  | .fetch url kind value, x =>
    (((targets.fetch url kind value x).1.map fun () => value).mapError .failed,
      (targets.fetch url kind value x).2)

-- Takes down a call next to what answered it.
def record (call : Call α) (calls : List (Call α)) (x : ρ × Bridge α × σ) :
    ρ × Bridge α × σ × List (Call α) :=
  (x.1, x.2.1, x.2.2, calls ++ [call])

-- The same targets with a record of the calls that they got.
def recorded (targets : Targets α σ) : Targets α (σ × List (Call α)) where
  update block index value := fun (b, s, calls) =>
    record (.update block index value) calls (targets.update block index value (b, s))
  call url block index value := fun (b, s, calls) =>
    record (.call url block index value) calls (targets.call url block index value (b, s))
  fetch url kind value := fun (b, s, calls) =>
    record (.fetch url kind value) calls (targets.fetch url kind value (b, s))

theorem serve_recorded (targets : Targets α σ) (c : Call α) (b : Bridge α) (s : σ)
    (calls : List (Call α)) :
    targets.recorded.serve c (b, s, calls) = record c calls (targets.serve c (b, s)) := by
  cases c <;> rfl

end Targets

namespace Widget

variable {α : Type}

-- The call that carries a value to what the widget drives.
def call (w : Widget α) (value : α) : Targets.Call α :=
  match w.kind with
  | .slider block index =>
    if w.isLocal then .update block index value else .call w.url block index value
  | .picker fetch => .fetch w.url fetch value

def blame (w : Widget α) : Targets.Refusal α → ControlError α
  | .rejected error => .target w.id error
  | .failed message => .endpoint w.url message

-- The values that the widget can be moved to.
def Covers [Scalar α] (w : Widget α) (v : α) : Prop :=
  Scalar.isFinite v ∧ ¬v < w.param.min ∧ ¬w.param.max < v

end Widget

namespace Bridge

section Definitions

variable {α σ : Type} [Scalar α]

-- That a widget, if it is still there, has stored a value, and that nothing else was touched.
structure Stores (b : Bridge α) (id : String) (a : α) (b' : Bridge α) : Prop where
  own    : b'.widget? id = (b.widget? id).map fun w =>
    { w with param.value := if Scalar.isFinite a then w.param.snap a else w.param.value }
  others : ∀ other ≠ id, b'.widget? other = b.widget? other
  names  : b'.widgets.map Widget.id = b.widgets.map Widget.id
  rest   : b' = { b with widgets := b'.widgets }

-- That those who listen after `deeds` are told of an event, each of them once.
structure Informs (deeds : List (Deed α)) (event : ControlEvent α)
    (told : List (ListenerId × ControlEvent α)) : Prop where
  once : (told.map Prod.fst).Nodup
  all  : ∀ l e, (l, e) ∈ told ↔ Listens deeds l ∧ e = event

-- What comes of moving a widget, and the calls that this takes.
inductive Effect (targets : Targets α σ) (past : List (Deed α)) (b : Bridge α) (s : σ) (id : String)
    (v : α) : Except (ControlError α) (α × List (ListenerId × ControlEvent α)) × Bridge α × σ ×
      List (Targets.Call α) → Prop
  | unknown (absent : b.widget? id = none) :
    Effect targets past b s id v (.error (.unknownWidget id), b, s, [])
  | outside {w} (found : b.widget? id = some w) (outside : ¬w.Covers v) :
    Effect targets past b s id v (.error (.outOfRange id v w.param.min w.param.max), b, s, [])
  | failed {w refusal b₁ s₁} (found : b.widget? id = some w) (inside : w.Covers v)
    (reply : targets.serve (w.call (w.param.snap v)) (b, s) = (.error refusal, b₁, s₁)) :
    Effect targets past b s id v
      (.error (w.blame refusal), b₁, s₁, [w.call (w.param.snap v)])
  | applied {w a b₁ s₁ b₂ told} (found : b.widget? id = some w) (inside : w.Covers v)
    (reply : targets.serve (w.call (w.param.snap v)) (b, s) = (.ok a, b₁, s₁))
    (stores : b₁.Stores id a b₂)
    -- the target may have registered and unregistered listeners while it was at work
    (informs : ∀ during, Course b during b₁ → Informs (past ++ during) ⟨id, a⟩ told) :
    Effect targets past b s id v (.ok (a, told), b₂, s₁, [w.call (w.param.snap v)])

end Definitions

variable {α σ : Type} {b b₁ : Bridge α} {past : List (Deed α)} {w : Widget α} {id : String} {v : α}

theorem widget?_modify {f : Parameter α → Parameter α} (hf : ∀ p, (f p).id = p.id) (b : Bridge α)
    (id other : String) :
    (b.modify id f).widget? other =
      (b.widget? other).map fun w => if w.id = id then { w with param := f w.param } else w := by
  refine List.find?_map.trans (congrArg (Option.map _) (congrArg (List.find? · _) (funext fun w => ?_)))
  dsimp only [Function.comp]
  split
  case isTrue  => rw [show Widget.id { w with param := f w.param } = w.id from hf w.param]
  case isFalse => rfl

-- What a widget drives answers in its own terms.
theorem dispatch_eq (targets : Targets α σ) (w : Widget α) (v : α) (b : Bridge α) (s : σ) :
    b.dispatch targets w v s =
      ((targets.serve (w.call v) (b, s)).1.mapError w.blame,
        (targets.serve (w.call v) (b, s)).2) := by
  cases hk : w.kind
  case slider block index =>
    cases hl : w.isLocal
    case true =>
      simp only [dispatch, Widget.call, hk, hl, Targets.serve, if_true]
      cases (targets.update block index v (b, s)).1 <;> rfl
    case false =>
      simp only [dispatch, Widget.call, hk, hl, Targets.serve, Bool.false_eq_true, if_false]
      cases (targets.call w.url block index v (b, s)).1 <;> rfl
  case picker fetch =>
    simp only [dispatch, Widget.call, hk, Targets.serve]
    cases (targets.fetch w.url fetch v (b, s)).1 <;> rfl

theorem Remembers.informs (h : b.Remembers past) (event : ControlEvent α) :
    Informs past event (b.listeners.map fun l => (l, event)) := by
  constructor
  case once =>
    rw [List.map_map]
    exact (List.map_id b.listeners).symm ▸ h.sublist.nodup h.issued_nodup
  case all =>
    intro l e
    simp only [List.mem_map, Prod.mk.injEq, ← h.listeners]
    constructor
    case mp =>
      rintro ⟨_, hl, rfl, rfl⟩
      exact ⟨hl, rfl⟩
    case mpr =>
      rintro ⟨hl, rfl⟩
      exact ⟨l, hl, rfl, rfl⟩

variable [Scalar α]

theorem stores_modify (b : Bridge α) (id : String) (a : α) :
    b.Stores id a (b.modify id (·.setClamped a)) := by
  have hc (p : Parameter α) : (p.setClamped a).id = p.id := by rw [p.setClamped_eq]
  constructor
  case own =>
    rw [widget?_modify hc]
    refine Option.map_congr fun w hw => ?_
    rw [if_pos (widget?_eq_some hw).right, w.param.setClamped_eq]
  case others =>
    intro other hn
    rw [widget?_modify hc]
    refine (Option.map_congr fun w hw => ?_).trans Option.map_id'
    rw [if_neg ((widget?_eq_some hw).right.trans_ne hn)]
  case names => exact map_id_modify hc b id
  case rest => rfl

section Notify

variable (targets : Targets α σ) (s : σ)

theorem notify_of_unknown (hw : b.widget? id = none) :
    b.notify targets s id v = (.error (.unknownWidget id), b, s) := by
  rw [notify, hw]

theorem notify_of_outside (hw : b.widget? id = some w) (hv : ¬w.Covers v) :
    b.notify targets s id v = (.error (.outOfRange id v w.param.min w.param.max), b, s) := by
  have hr : (!Scalar.isFinite v) = true ∨ v < w.param.min ∨ w.param.max < v := by
    by_contra h
    simp only [not_or, Bool.not_eq_true', Bool.not_eq_false] at h
    exact hv h
  rw [notify, hw]
  exact if_pos hr

theorem notify_of_inside (hw : b.widget? id = some w) (hv : w.Covers v) :
    b.notify targets s id v =
      match targets.serve (w.call (w.param.snap v)) (b, s) with
      | (.error refusal, b₁, s₁) => (.error (w.blame refusal), b₁, s₁)
      | (.ok a, b₁, s₁) =>
        (.ok (a, b₁.listeners.map fun l => (l, ⟨id, a⟩)), b₁.modify id (·.setClamped a), s₁) := by
  have hr : ¬((!Scalar.isFinite v) = true ∨ v < w.param.min ∨ w.param.max < v) := by
    simpa [Widget.Covers] using hv
  rw [notify, hw]
  refine (if_neg hr).trans ?_
  rw [dispatch_eq]
  rcases targets.serve (w.call (w.param.snap v)) (b, s) with ⟨_ | _, _, _⟩ <;> rfl

end Notify

theorem notify_effect {hasSnapshots : Bool} (c : Course { hasSnapshots } past b)
    (targets : Targets α σ) (s : σ) (id : String) (v : α) :
    (issued past).Nodup ∧ (b.widgets.map Widget.id).Nodup ∧
      ∃ answer b' s' calls, b.notify targets s id v = (answer, b', s') ∧
        b.notify targets.recorded (s, []) id v = (answer, b', s', calls) ∧
        Effect targets past b s id v (answer, b', s', calls) := by
  have h := (Remembers.fresh hasSnapshots).of_course c
  refine ⟨h.issued_nodup, h.names, ?_⟩
  cases hw : b.widget? id
  case none =>
    exact ⟨_, _, _, _, notify_of_unknown targets s hw, notify_of_unknown _ _ hw, .unknown hw⟩
  case some w =>
    by_cases hv : w.Covers v
    case neg =>
      exact ⟨_, _, _, _, notify_of_outside targets s hw hv, notify_of_outside _ _ hw hv,
        .outside hw hv⟩
    case pos =>
      rw [notify_of_inside targets s hw hv, notify_of_inside targets.recorded _ hw hv,
        Targets.serve_recorded]
      rcases hr : targets.serve (w.call (w.param.snap v)) (b, s) with ⟨refusal | a, b₁, s₁⟩
      · exact ⟨_, _, _, _, rfl, rfl, .failed hw hv hr⟩
      · exact ⟨_, _, _, _, rfl, rfl, .applied hw hv hr (stores_modify b₁ id a) fun during c =>
          (h.of_course c).informs ⟨id, a⟩⟩

section Small

-- Targets that take every value.
def obliging : Targets Rat Unit where
  update _ _ value x := (.ok value, x)
  call _ _ _ _ x := (.ok (), x)
  fetch _ _ _ x := (.ok (), x)

def knob : Parameter Rat where
  id := "b"
  value := 5
  min := 0
  max := 10
  step := 1
  default := 5

-- A slider, and the second of two listeners.
def heard : Bridge Rat :=
  ((({} : Bridge Rat).called (.table "" ⟨1⟩ [knob])).2.listen.2.listen.2.unlisten ⟨0⟩).2

theorem notify_effect_heard : ∃ past b' told, Course {} past heard ∧
    heard.notify obliging.recorded ((), []) "b" (36 / 5) =
      (.ok (7, told), b', (), [.update ⟨1⟩ 0 7]) ∧
    heard.Stores "b" 7 b' ∧ Informs past ⟨"b", 7⟩ told ∧ Listens past ⟨1⟩ := by
  have c : Course {}
      [.register (.table "" ⟨1⟩ [knob]), .listen ⟨0⟩, .listen ⟨1⟩, .unlisten ⟨0⟩] heard :=
    .step (.step (.step (.step .refl (.register _)) .listen) .listen) (.unlisten _)
  have hw : heard.widget? "b" = some (slider "" ⟨1⟩ 0 knob) := rfl
  have hv : (slider "" ⟨1⟩ 0 knob).Covers (36 / 5) := ⟨rfl, by decide +kernel, by decide +kernel⟩
  have hs : (slider "" ⟨1⟩ 0 knob).param.snap (36 / 5) = 7 := by decide +kernel
  obtain ⟨-, -, answer, b', _, calls, -, hn, he⟩ := notify_effect c obliging () "b" (36 / 5)
  cases he
  case unknown h => cases hw.symm.trans h
  case outside h ho =>
    cases hw.symm.trans h
    exact absurd hv ho
  case failed h _ hr =>
    cases hw.symm.trans h
    cases hr
  case applied h _ hi st hr =>
    cases hw.symm.trans h
    rw [hs] at hr hn
    cases hr
    exact ⟨_, b', _, c, hn, st, hi [] .refl, [_, _], [_], rfl, by simp⟩

end Small

end Bridge

end RadioSpectrum
