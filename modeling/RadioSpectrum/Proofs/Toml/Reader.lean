import RadioSpectrum.Toml.Reader

namespace RadioSpectrum

namespace Toml

namespace Reader

variable {β γ : Type} {r : Reader β} {p : Char → Bool} {b : β} {c d : Char} {n : Nat}
variable {cs ds : List Char}

section Apply

variable (r) (p) (c) (d) (cs)

@[simp]
theorem pure_apply (b : β) : (pure b : Reader β) cs = some (b, cs) :=
  rfl

@[simp]
theorem bind_apply (f : β → Reader γ) : (r >>= f) cs = (r cs).bind fun x => f x.1 x.2 :=
  rfl

@[simp]
theorem map_apply (f : β → γ) : (f <$> r) cs = (r cs).map fun x => (f x.1, x.2) := by
  cases h : r cs <;> simp [Functor.map, StateT.map, h]

@[simp]
theorem discard_apply : (discard r : Reader PUnit) cs = (r cs).map fun x => ((), x.2) := by
  cases h : r cs <;> simp [Functor.discard, Functor.mapConst, StateT.map, h]

@[simp]
theorem rest_apply : rest cs = some (cs, cs) :=
  rfl

@[simp]
theorem refuse_apply : (refuse : Reader β) cs = none :=
  rfl

@[simp]
theorem one_cons : one p (c :: cs) = if p c then some (c, cs) else none :=
  rfl

@[simp]
theorem char_cons : char d (c :: cs) = if c = d then some ((), cs) else none := by
  by_cases h : c = d <;> simp [char, h]

@[simp]
theorem word_nil : word [] cs = some ((), cs) :=
  rfl

@[simp]
theorem word_cons (ds : List Char) :
    word (d :: ds) (c :: cs) = if c = d then word ds cs else none := by
  by_cases h : c = d <;> simp [word, h]

@[simp]
theorem many_apply : many p cs = some (cs.takeWhile p, cs.dropWhile p) :=
  rfl

@[simp]
theorem atEnd_nil : atEnd [] = some ((), []) :=
  rfl

end Apply

theorem either_of_some {s : Reader β} (h : r cs = some (b, ds)) :
    either r s cs = some (b, ds) := by
  simp [either, h]

theorem takeWhile_append_cons (hp : ∀ x ∈ cs, p x) (hd : p d = false) :
    (cs ++ d :: ds).takeWhile p = cs ∧ (cs ++ d :: ds).dropWhile p = d :: ds := by
  constructor
  · rw [List.takeWhile_append_of_pos hp, List.takeWhile_cons_of_neg (by simp [hd]),
      List.append_nil]
  · rw [List.dropWhile_append_of_pos hp, List.dropWhile_cons_of_neg (by simp [hd])]

theorem many1_append (hn : cs ≠ []) (hp : ∀ x ∈ cs, p x) (hd : p d = false) :
    many1 p (cs ++ d :: ds) = some (cs, d :: ds) := by
  obtain ⟨c, cs, rfl⟩ := List.exists_cons_of_ne_nil hn
  simp only [many1, takeWhile_append_cons hp hd]

-- A reader of single characters goes on until it refuses, or until it has read enough.
theorem upTo_append {r : Reader Char} (hr : ∀ x ∈ cs, ∀ t, r (x :: t) = some (x, t))
    (hd : r ds = none) : upTo r n (cs ++ ds) = some (cs.take n, cs.drop n ++ ds) := by
  induction cs generalizing n
  case nil => cases n <;> simp [upTo, attempt, hd]
  case cons x cs hi =>
    obtain ⟨hx, hr⟩ := List.forall_mem_cons.mp hr
    cases n
    case zero   => rfl
    case succ n => simp [upTo, attempt, hx, hi hr]

theorem repeated_append {r : Reader Char} (hr : ∀ x ∈ cs, ∀ t, r (x :: t) = some (x, t))
    (hd : r ds = none) : repeated r (cs ++ ds) = some (cs, ds) := by
  have hl : cs.length ≤ (cs ++ ds).length := by simp
  rw [repeated, upTo_append hr hd, List.take_of_length_le hl, List.drop_of_length_le hl]
  rfl

theorem repeated_of_none (h : r cs = none) : repeated r cs = some ([], cs) := by
  unfold repeated
  cases cs.length <;> simp [upTo, attempt, h]

end Reader

end Toml

end RadioSpectrum
