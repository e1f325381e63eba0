import Mathlib.Data.List.Basic
import RadioSpectrum.Proofs.Toml.Reader
import RadioSpectrum.Toml.Scalar

namespace RadioSpectrum

namespace Toml

open Reader

-- How a count is printed: as a zero, or with another digit in front.
inductive Digits : List Char → Prop
  | zero : Digits ['0']
  | more {c cs} (bounds : '1' ≤ c ∧ c ≤ '9') (hp : ∀ x ∈ cs, x.isDigit) : Digits (c :: cs)

variable {c d : Char} {cs ds : List Char} {n : Nat}

section Digits

theorem isDigit_of_mem (h : c ∈ Nat.toDigits 10 n) : c.isDigit :=
  Nat.isDigit_of_mem_toDigits (by decide) (by decide) h

theorem digitChar_bounds : ∀ n < 10, 0 < n → '1' ≤ n.digitChar ∧ n.digitChar ≤ '9' := by
  decide

-- By induction on the count, which loses its last digit.
theorem digits_of_pos (h : 0 < n) : ∃ c cs, Nat.toDigits 10 n = c :: cs ∧ '1' ≤ c ∧ c ≤ '9' := by
  induction n using Nat.strongRecOn
  case ind n hi =>
    rw [Nat.toDigits_eq_if (by decide)]
    split
    case isTrue hn  => exact ⟨_, [], rfl, digitChar_bounds n hn h⟩
    case isFalse hn =>
      obtain ⟨c, cs, hd, hc⟩ := hi (n / 10) (by omega) (by omega)
      exact ⟨c, cs ++ [(n % 10).digitChar], by rw [hd]; rfl, hc⟩

theorem digits_toDigits (n : Nat) : Digits (Nat.toDigits 10 n) := by
  rcases n.eq_zero_or_pos with rfl | h
  · exact .zero
  · obtain ⟨c, cs, hd, hc⟩ := digits_of_pos h
    rw [hd]
    exact .more hc fun x hx => isDigit_of_mem (n := n) (by simp [hd, hx])

theorem isDigit_of_bounds (h : '1' ≤ c ∧ c ≤ '9') : c.isDigit := by
  have h₁ : '1'.val ≤ c.val := h.left
  have h₉ : c.val ≤ '9'.val := h.right
  simp [Char.isDigit, UInt32.le_iff_toNat_le] at *
  omega

theorem Digits.isDigit (h : Digits cs) : ∀ x ∈ cs, x.isDigit := by
  cases h
  case zero      => simp
  case more h hp => exact List.forall_mem_cons.mpr ⟨isDigit_of_bounds h, hp⟩

theorem Digits.exists_cons (h : Digits cs) : ∃ c cs', cs = c :: cs' ∧ c.isDigit := by
  cases h
  case zero     => exact ⟨_, _, rfl, rfl⟩
  case more h _ => exact ⟨_, _, rfl, isDigit_of_bounds h⟩

theorem ofBase_toDigits (n : Nat) : ofBase 10 (Nat.toDigits 10 n) = n := by
  have h : ofBase 10 (Nat.toDigits 10 n) = Nat.ofDigitChars 10 (Nat.toDigits 10 n) 0 := by
    refine List.foldl_ext _ _ _ fun m c hc => ?_
    simp [hexValue, isDigit_of_mem hc]
  rw [h, Nat.ofDigitChars_toDigits (by decide) (by decide)]

end Digits

section Quoted

theorem string_of_ne (h : c ≠ '"') (h' : c ≠ '\'') (cs : List Char) :
    string (c :: cs) = none := by
  simp [string, multilineBasicString, multilineLiteralString, betweenMarks, basicString,
    literalString, either, h, h']

-- Characters that stand for themselves between quotes.
def isPlain (c : Char) : Bool :=
  isPrintable c ∧ c ≠ '"' ∧ c ≠ '\\'

theorem basicString_plain (hp : ∀ x ∈ cs, isPlain x) (ds : List Char) :
    basicString ('"' :: cs ++ '"' :: ds) = some (String.ofList cs, ds) := by
  let part : Reader Char := either (one isPlain) do
    char '\\'
    escape
  have hr : repeated part (cs ++ '"' :: ds) = some (cs, '"' :: ds) := by
    refine repeated_append (fun x hx t => either_of_some (by simp [hp x hx])) ?_
    simp [part, either, isPlain]
  have hb : basicString = (do
      char '"'
      let cs ← repeated part
      char '"'
      return String.ofList cs) := rfl
  simp [hb, hr]

-- Behind a quote something else follows, so the string is not one over several lines.
theorem string_plain (hn : cs ≠ []) (hp : ∀ x ∈ cs, isPlain x) (ds : List Char) :
    string ('"' :: cs ++ '"' :: ds) = some (String.ofList cs, ds) := by
  have hb := basicString_plain hp ds
  obtain ⟨c, cs, rfl⟩ := List.exists_cons_of_ne_nil hn
  have hc : c ≠ '"' := by
    have := hp c (by simp)
    simp [isPlain] at this
    exact this.right.left
  simp only [List.cons_append] at hb ⊢
  simp [string, multilineBasicString, multilineLiteralString, betweenMarks, either, hc, hb]

theorem scalar_plain (hn : cs ≠ []) (hp : ∀ x ∈ cs, isPlain x) (ds : List Char) :
    scalar ('"' :: cs ++ '"' :: ds) = some (.text (String.ofList cs), ds) := by
  have hs := string_plain hn hp ds
  exact either_of_some (by rw [bind_apply, hs]; rfl)

end Quoted

theorem scalar_truth (b : Bool) (ds : List Char) :
    scalar ((toString b).toList ++ ds) = some (.boolean b, ds) := by
  cases b
  case false =>
    have h : (toString false).toList = ['f', 'a', 'l', 's', 'e'] := by decide
    simp [h, scalar, either, string_of_ne, truth]
  case true =>
    have h : (toString true).toList = ['t', 'r', 'u', 'e'] := by decide
    simp [h, scalar, either, string_of_ne, truth]

section Natural

variable {β : Type} (hp : ∀ x ∈ cs, x.isDigit)

theorem ne_of_isDigit (h : c.isDigit) (hd : d.isDigit = false) : c ≠ d := by
  rintro rfl
  simp [h] at hd

include hp

-- Digits are not followed by any of the marks that dates and times have.
theorem fixedDigits_bind_char (k : Nat) (f : Nat → Reader β) (hd : d.isDigit = false)
    (hn : '\n' ≠ d) :
    (do let v ← fixedDigits k; char d; f v) (cs ++ '\n' :: ds) = none := by
  have hu : upTo (one Char.isDigit) k (cs ++ '\n' :: ds) =
      some (cs.take k, cs.drop k ++ '\n' :: ds) :=
    upTo_append (fun x hx t => by simp [hp x hx]) rfl
  have hc : char d (cs.drop k ++ '\n' :: ds) = none := by
    cases hk : cs.drop k
    case nil => simp [hn]
    case cons x xs =>
      have hx : x.isDigit := hp x (List.mem_of_mem_drop (hk ▸ List.mem_cons_self))
      simp [ne_of_isDigit hx hd]
  simp only [fixedDigits, bind_apply, hu, Option.bind_some]
  split <;> simp [hc]

theorem moment_digits (ds : List Char) : moment (cs ++ '\n' :: ds) = none := by
  have hd : date (cs ++ '\n' :: ds) = none := fixedDigits_bind_char hp 4 _ rfl (by decide)
  have ht : time (cs ++ '\n' :: ds) = none := fixedDigits_bind_char hp 2 _ rfl (by decide)
  simp [moment, either, hd, ht]

theorem moreDigits_digits (ds : List Char) :
    moreDigits Char.isDigit (cs ++ '\n' :: ds) = some (cs, '\n' :: ds) :=
  repeated_append (fun x hx t => either_of_some (by simp [hp x hx])) (by simp [either])

omit hp

theorem wholePart_digits (h : Digits cs) (ds : List Char) :
    wholePart (cs ++ '\n' :: ds) = some (cs, '\n' :: ds) := by
  cases h
  case zero => rfl
  case more c cs h hp =>
    have hm := moreDigits_digits hp ds
    simp [wholePart, either, h, hm]

theorem sign_of_isDigit (h : c.isDigit) : sign (c :: cs) = some (false, c :: cs) := by
  have hp := ne_of_isDigit h (d := '+') rfl
  have hm := ne_of_isDigit h (d := '-') rfl
  simp [sign, attempt, hp, hm]

theorem float_digits (h : Digits cs) (ds : List Char) : float (cs ++ '\n' :: ds) = none := by
  have hw := wholePart_digits h ds
  obtain ⟨c, cs, rfl, hc⟩ := h.exists_cons
  have hi := ne_of_isDigit hc (d := 'i') rfl
  have hn := ne_of_isDigit hc (d := 'n') rfl
  rw [List.cons_append] at hw ⊢
  simp [float, sign_of_isDigit hc, either, hw, attempt, fractionPart, exponentPart, hi, hn]

-- No mark of another base stands in front.
theorem integer_eq (h : Digits cs) : integer (cs ++ '\n' :: ds) = (do
    let negative ← sign
    let n : Int := ofBase 10 (← wholePart)
    bounded (if negative then -n else n)) (cs ++ '\n' :: ds) := by
  simp only [integer, bind_apply, rest_apply, Option.bind_some]
  cases h
  case zero => simp
  case more c cs h hp =>
    have h0 : c ≠ '0' := by rintro rfl; exact absurd h.left (by decide)
    simp [h0]

theorem integer_digits (h : Digits cs) (hb : ofBase 10 cs < integerBound) (ds : List Char) :
    integer (cs ++ '\n' :: ds) = some (.integer (ofBase 10 cs), '\n' :: ds) := by
  have hw := wholePart_digits h ds
  rw [integer_eq h]
  obtain ⟨c, cs, rfl, hc⟩ := h.exists_cons
  rw [List.cons_append] at hw ⊢
  simp [sign_of_isDigit hc, hw, bounded, hb]

theorem scalar_digits (h : Digits cs) (hb : ofBase 10 cs < integerBound) (ds : List Char) :
    scalar (cs ++ '\n' :: ds) = some (.integer (ofBase 10 cs), '\n' :: ds) := by
  have hi := integer_digits h hb ds
  have hm := moment_digits h.isDigit ds
  have hf := float_digits h ds
  obtain ⟨c, cs, rfl, hc⟩ := h.exists_cons
  rw [List.cons_append] at *
  have hs := string_of_ne (ne_of_isDigit hc rfl) (ne_of_isDigit hc rfl) (cs ++ '\n' :: ds)
  have ht := ne_of_isDigit hc (d := 't') rfl
  have ha := ne_of_isDigit hc (d := 'f') rfl
  simp [scalar, either, hs, hm, hf, hi, truth, ht, ha]

theorem scalar_natural (h : n < integerBound) (ds : List Char) :
    scalar (Nat.toDigits 10 n ++ '\n' :: ds) = some (.integer n, '\n' :: ds) := by
  have hs := scalar_digits (digits_toDigits n) (by rwa [ofBase_toDigits]) ds
  rwa [ofBase_toDigits] at hs

end Natural

end Toml

end RadioSpectrum
