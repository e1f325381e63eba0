import RadioSpectrum.Frontend

namespace RadioSpectrum

-- A computation that changes a state as it goes, and does not undo that if it fails.
abbrev InPlace (ε σ β : Type) := ExceptT ε (StateM σ) β

namespace InPlace

variable {ε σ τ β γ : Type}

def perform (x : InPlace ε σ β) (s : σ) : Except ε β × σ :=
  StateT.run (ExceptT.run x) s

-- A computation that writes all at once if it succeeds, and nothing if it fails.
def transaction (f : σ → Except ε (β × σ)) : InPlace ε σ β :=
  ExceptT.mk fun s =>
    match f s with
    | .ok (b, t) => (.ok b, t)
    | .error e   => (.error e, s)

-- A computation on one part of a state.
def within (part : σ → τ) (put : τ → σ → σ) (x : InPlace ε τ β) : InPlace ε σ β :=
  ExceptT.mk fun s => ((x.perform (part s)).1, put (x.perform (part s)).2 s)

@[simp]
theorem perform_pure (b : β) (s : σ) : (pure b : InPlace ε σ β).perform s = (.ok b, s) :=
  rfl

@[simp]
theorem perform_throw (e : ε) (s : σ) : (throw e : InPlace ε σ β).perform s = (.error e, s) :=
  rfl

@[simp]
theorem perform_get (s : σ) : (get : InPlace ε σ σ).perform s = (.ok s, s) :=
  rfl

@[simp]
theorem perform_set (t s : σ) : (set t : InPlace ε σ PUnit).perform s = (.ok ⟨⟩, t) :=
  rfl

@[simp]
theorem perform_modify (g : σ → σ) (s : σ) :
    (modify g : InPlace ε σ PUnit).perform s = (.ok ⟨⟩, g s) :=
  rfl

@[simp]
theorem perform_ofExcept (y : Except ε β) (s : σ) :
    (MonadExcept.ofExcept y : InPlace ε σ β).perform s = (y, s) := by
  cases y <;> rfl

@[simp]
theorem perform_bind (x : InPlace ε σ β) (k : β → InPlace ε σ γ) (s : σ) :
    (x >>= k).perform s =
      match x.perform s with
      | (.ok b, t)    => (k b).perform t
      | (.error e, t) => (.error e, t) := by
  unfold perform ExceptT.run StateT.run
  simp only [bind, ExceptT.bind, ExceptT.mk, StateT.bind, ExceptT.bindCont]
  rcases x s with ⟨_ | _, _⟩ <;> rfl

@[simp]
theorem perform_ite {p : Prop} [Decidable p] (x y : InPlace ε σ β) (s : σ) :
    (if p then x else y).perform s = if p then x.perform s else y.perform s :=
  apply_ite (fun x : InPlace ε σ β => x.perform s) p x y

@[simp]
theorem perform_transaction (f : σ → Except ε (β × σ)) (s : σ) :
    (transaction f).perform s =
      match f s with
      | .ok (b, t) => (.ok b, t)
      | .error e   => (.error e, s) :=
  rfl

theorem eq_transaction {x : InPlace ε σ β} {f : σ → Except ε (β × σ)}
    (h : ∀ s, x.perform s = (transaction f).perform s) : x = transaction f :=
  funext h

-- A transaction on a part is one on the whole, if it changes nothing to put a part back as it was.
theorem within_transaction {part : σ → τ} {put : τ → σ → σ} {f : τ → Except ε (β × τ)}
    (hp : ∀ s, put (part s) s = s) :
    within part put (transaction f) =
      transaction fun s => (f (part s)).map fun (b, t) => (b, put t s) := by
  refine eq_transaction fun s => ?_
  change (((transaction f).perform (part s)).1, put ((transaction f).perform (part s)).2 s) = _
  simp only [perform_transaction]
  cases f (part s)
  case error e => exact congrArg (Prod.mk (Except.error e)) (hp s)
  case ok      => rfl

end InPlace

open InPlace

variable {α : Type} [Scalar α]

namespace Parameter

-- As `set`, on a parameter where it stands. The stored value comes back.
def setInPlace (v : α) : InPlace (StreamError α) (Parameter α) α := do
  let p ← get
  if !Scalar.isFinite v then throw (p.refuse v .notFinite)
  if v < p.min ∨ p.max < v then throw (p.refuse v (.outOfRange p.min p.max))
  let snapped ← MonadExcept.ofExcept (p.counted (p.snap v))
  modify fun p => { p with value := snapped }
  return (← get).value

def setExactInPlace (v : α) : InPlace (StreamError α) (Parameter α) α := do
  let p ← get
  if !p.accepts v then throw (p.refuse v (.offGrid p.min p.max p.step))
  setInPlace v

theorem setInPlace_eq (v : α) :
    setInPlace v = transaction fun p => (p.set v).map fun q => (q.value, q) := by
  refine eq_transaction fun p => ?_
  simp only [setInPlace, Parameter.set, counted, perform_bind, perform_get, perform_ite,
    perform_throw, perform_ofExcept, perform_modify, perform_pure, perform_transaction]
  split
  case isTrue  => rfl
  case isFalse =>
    split
    case isTrue  => rfl
    case isFalse => cases p.stepCount <;> rfl

theorem setExactInPlace_eq (v : α) :
    setExactInPlace v = transaction fun p => (p.setExact v).map fun q => (q.value, q) := by
  refine eq_transaction fun p => ?_
  simp only [setExactInPlace, setInPlace_eq, Parameter.setExact, perform_bind, perform_get,
    perform_ite, perform_throw, perform_transaction]
  cases p.accepts v <;> rfl

end Parameter

namespace FrontendSettings

-- As `set`, on the settings where they stand.
def setInPlace (index : Nat) (v : α) : InPlace (StreamError α) (FrontendSettings α) α :=
  match index with
  | 0 => within (·.freq) (fun p f => { f with freq := p }) (Parameter.setExactInPlace v)
  | 1 => within (·.amp) (fun p f => { f with amp := p }) (Parameter.setExactInPlace v)
  | 2 => within (·.lna) (fun p f => { f with lna := p }) (Parameter.setExactInPlace v)
  | 3 => within (·.vga) (fun p f => { f with vga := p }) (Parameter.setExactInPlace v)
  | 4 => within (·.sampleRate) (fun p f => { f with sampleRate := p }) (Parameter.setExactInPlace v)
  | _ => throw (.unknownParameter .frontend index)

theorem setInPlace_eq (index : Nat) (v : α) :
    setInPlace index v = transaction fun f => f.set index v := by
  match index with
  | 0 | 1 | 2 | 3 | 4 =>
    rw [setInPlace, Parameter.setExactInPlace_eq, within_transaction fun _ => rfl]
    refine eq_transaction fun f => ?_
    simp only [perform_transaction, FrontendSettings.set]
    cases Parameter.setExact _ v <;> rfl
  | _ + 5 => rfl

end FrontendSettings

end RadioSpectrum
