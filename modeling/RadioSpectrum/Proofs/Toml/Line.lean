import RadioSpectrum.Proofs.Toml.Scalar
import RadioSpectrum.Toml.Parser

namespace RadioSpectrum

namespace Toml

open Reader

-- The text of a line is read as `l`, whatever comes behind the line.
def Reads (text : String) (l : Line) : Prop :=
  ∀ ds, line (text.toList ++ '\n' :: ds) = some (l, ds)

-- A name that may stand as a key without quotes.
def IsBare (name : String) : Prop :=
  name.toList ≠ [] ∧ ∀ c ∈ name.toList, isBareKey c

instance (name : String) : Decidable (IsBare name) :=
  decidable_of_iff (!name.toList.isEmpty && name.toList.all isBareKey) (by simp [IsBare])

-- A name that may stand between quotes as it is.
def IsPlain (name : String) : Prop :=
  name.toList ≠ [] ∧ ∀ c ∈ name.toList, isPlain c

instance (name : String) : Decidable (IsPlain name) :=
  decidable_of_iff (!name.toList.isEmpty && name.toList.all isPlain) (by simp [IsPlain])

variable {c d : Char} {cs ds : List Char} {n : Nat} {name : String}

theorem lineEnd_newline (ds : List Char) : lineEnd ('\n' :: ds) = some ((), ds) := by
  simp [lineEnd, blanks, isBlank, attempt, comment, either, newline]

theorem value_scalar {depth : Nat} (h : c ≠ '[') (h' : c ≠ '\x7b') :
    value depth (c :: cs) = scalar (c :: cs) := by
  cases depth
  case zero => rfl
  case succ => simp [value, either, array, inlineTable, h, h']

theorem blanks_append {bs : List Char} (hb : ∀ x ∈ bs, isBlank x) (hd : isBlank d = false)
    (ds : List Char) : blanks (bs ++ d :: ds) = some ((), d :: ds) := by
  simp [blanks, takeWhile_append_cons hb hd]

theorem blanks_of_not (hc : isBlank c = false) (cs : List Char) :
    blanks (c :: cs) = some ((), c :: cs) := by
  simp [blanks, hc]

theorem isBlank_of_isBareKey (h : isBareKey c) : isBlank c = false := by
  by_contra hb
  simp only [isBlank, Bool.not_eq_false, decide_eq_true_eq] at hb
  rcases hb with rfl | rfl <;> exact absurd h (by decide)

theorem IsBare.exists_cons (h : IsBare name) :
    ∃ c cs, name.toList = c :: cs ∧ isBareKey c ∧ isBlank c = false := by
  obtain ⟨c, cs, hc⟩ := List.exists_cons_of_ne_nil h.left
  have hb := h.right c (by simp [hc])
  exact ⟨c, cs, hc, hb, isBlank_of_isBareKey hb⟩

-- A key ends where neither a point nor more of the name follows, be it behind blanks.
theorem key_bare (h : IsBare name) {bs : List Char} (hb : ∀ x ∈ bs, isBlank x)
    (hk : isBareKey d = false) (hd : isBlank d = false) (hp : d ≠ '.') (ds : List Char) :
    key (name.toList ++ (bs ++ d :: ds)) = some ([name], d :: ds) := by
  obtain ⟨c, cs, hc, _, hc'⟩ := h.exists_cons
  have hn := blanks_of_not hc' (cs ++ (bs ++ d :: ds))
  have hs : simpleKey (name.toList ++ (bs ++ d :: ds)) = some (name, bs ++ d :: ds) := by
    refine either_of_some ?_
    obtain ⟨x, xs, hx, hx'⟩ : ∃ x xs, bs ++ d :: ds = x :: xs ∧ isBareKey x = false := by
      cases bs
      case nil => exact ⟨d, ds, rfl, hk⟩
      case cons x bs =>
        refine ⟨x, bs ++ d :: ds, rfl, ?_⟩
        by_contra hx
        simp [isBlank_of_isBareKey (by simpa using hx)] at hb
    rw [hx, bind_apply, many1_append h.left h.right hx']
    simp
  have he := blanks_append hb hd ds
  let part : Reader String := do
    blanks
    let k ← simpleKey
    blanks
    return k
  have hr : part (name.toList ++ (bs ++ d :: ds)) = some (name, d :: ds) := by
    rw [hc] at hs ⊢
    simp only [List.cons_append] at hs ⊢
    simp [part, hn, hs, he]
  have hm : repeated (do char '.'; part) (d :: ds) = some ([], d :: ds) :=
    repeated_of_none (by simp [hp])
  have hk : key = (do
      let ks ← separated part (char '.')
      if ks.length < nestingLimit then return ks else refuse) := rfl
  simp [hk, separated, hr, hm, nestingLimit]

-- What may stand behind the sign of equality.
structure Valued (text : List Char) (v : Document) : Prop where
  head : ∃ c cs, text = c :: cs ∧ isBlank c = false ∧ c ≠ '[' ∧ c ≠ '\x7b'
  scalar (ds : List Char) : scalar (text ++ '\n' :: ds) = some (v, '\n' :: ds)

namespace Valued

variable {text : List Char} {v : Document}

theorem value (h : Valued text v) (depth : Nat) (ds : List Char) :
    Toml.value depth (text ++ '\n' :: ds) = some (v, '\n' :: ds) := by
  have hs := h.scalar ds
  obtain ⟨c, cs, rfl, _, hl, ht⟩ := h.head
  exact (value_scalar hl ht).trans hs

theorem blanks (h : Valued text v) (ds : List Char) :
    Toml.blanks (' ' :: (text ++ ds)) = some ((), text ++ ds) := by
  obtain ⟨c, cs, rfl, hb, _⟩ := h.head
  exact blanks_append (List.forall_mem_singleton.mpr (rfl : isBlank ' ')) hb (cs ++ ds)

end Valued

theorem line_blank : line ('\n' :: ds) = some (.blank, ds) := by
  simp [line, blanks, isBlank, lineEnd_newline]

theorem line_table (h : IsBare name) :
    line ('[' :: (name.toList ++ ']' :: '\n' :: ds)) = some (.table [name], ds) := by
  have hk := key_bare h (List.forall_mem_nil _) (d := ']') rfl rfl (by decide) ('\n' :: ds)
  obtain ⟨c, cs, hc, hb, _⟩ := h.exists_cons
  have hn : c ≠ '[' := by rintro rfl; exact absurd hb (by decide)
  rw [hc] at hk ⊢
  simp only [List.nil_append, List.cons_append] at hk
  simp [line, blanks, isBlank, hn, hk, lineEnd_newline]

theorem line_entry {text : List Char} {v : Document} (h : IsBare name) (hv : Valued text v) :
    line (name.toList ++ ' ' :: '=' :: ' ' :: (text ++ '\n' :: ds)) =
      some (.entry [name] v, ds) := by
  have hk := key_bare h (List.forall_mem_singleton.mpr (rfl : isBlank ' ')) (d := '=') rfl rfl
    (by decide) (' ' :: (text ++ '\n' :: ds))
  obtain ⟨c, cs, hc, hb, hb'⟩ := h.exists_cons
  rw [hc] at hk ⊢
  simp only [List.nil_append, List.cons_append] at hk ⊢
  have hn : c ∉ ['[', '#', '\n', '\r'] := by
    intro hm
    simp only [List.mem_cons, List.not_mem_nil, or_false] at hm
    rcases hm with rfl | rfl | rfl | rfl <;> exact absurd hb (by decide)
  simp only [List.mem_cons, List.not_mem_nil, or_false, not_or] at hn
  have hs := blanks_of_not hb' (cs ++ ' ' :: '=' :: ' ' :: (text ++ '\n' :: ds))
  simp [line, hs, hn, hk, hv.blanks, hv.value, lineEnd_newline]

theorem valued_natural (h : n < integerBound) : Valued (toString n).toList (.integer n) := by
  rw [Nat.toString_eq_repr, Nat.toList_repr]
  refine ⟨?_, scalar_natural h⟩
  obtain ⟨c, cs, hc, hd⟩ := (digits_toDigits n).exists_cons
  refine ⟨c, cs, hc, ?_, ne_of_isDigit hd rfl, ne_of_isDigit hd rfl⟩
  simp [isBlank, ne_of_isDigit hd (d := ' ') rfl, ne_of_isDigit hd (d := '\t') rfl]

theorem valued_truth (b : Bool) : Valued (toString b).toList (.boolean b) where
  head := by cases b <;> exact ⟨_, _, rfl, by decide⟩
  scalar ds := scalar_truth b _

theorem valued_plain (h : IsPlain name) :
    Valued ("\"" ++ name ++ "\"").toList (.text name) := by
  have ht : ("\"" ++ name ++ "\"").toList = '"' :: name.toList ++ ['"'] := by
    simp [String.toList_append]
  refine ⟨⟨'"', name.toList ++ ['"'], ht, by decide⟩, fun ds => ?_⟩
  have hs := scalar_plain h.left h.right ('\n' :: ds)
  rw [ht, List.append_assoc, List.singleton_append, hs, String.ofList_toList]

theorem reads_blank : Reads "" .blank :=
  fun _ => line_blank

theorem reads_table (h : IsBare name) : Reads ("[" ++ name ++ "]") (.table [name]) := by
  intro ds
  rw [← line_table h]
  simp [String.toList_append]

theorem reads_entry {text : String} {v : Document} (h : IsBare name) (hv : Valued text.toList v) :
    Reads (name ++ " = " ++ text) (.entry [name] v) := by
  intro ds
  rw [← line_entry h hv]
  simp [String.toList_append]

-- By induction on the lines. Each has a character at least, the one that ends it.
theorem lines_reads {ps : List (String × Line)} (h : ∀ x ∈ ps, Reads x.1 x.2)
    (hn : (ps.flatMap fun x => x.1.toList ++ ['\n']).length ≤ n) :
    lines n (ps.flatMap fun x => x.1.toList ++ ['\n']) = some (ps.map (·.2), []) := by
  induction ps generalizing n
  case nil => cases n <;> simp [lines]
  case cons x ps hi =>
    obtain ⟨hx, h⟩ := List.forall_mem_cons.mp h
    rw [List.flatMap_cons, List.append_assoc, List.singleton_append] at hn ⊢
    obtain ⟨n, rfl⟩ : ∃ m, n = m + 1 := Nat.exists_eq_add_of_le' (by simp at hn; omega)
    have hi := hi (n := n) h (by simp at hn ⊢; omega)
    have hl := hx (ps.flatMap fun x => x.1.toList ++ ['\n'])
    simp [lines, hl, hi]

theorem line_mark : line ('\ufeff' :: ds) = none := by
  simp [line, blanks, isBlank, key, separated, simpleKey, either, many1, basicString,
    literalString, isBareKey]

theorem ne_mark {ps : List (String × Line)} (h : ∀ x ∈ ps, Reads x.1 x.2) :
    (ps.flatMap fun x => x.1.toList ++ ['\n']) ≠ '\ufeff' :: ds := by
  cases ps
  case nil => simp
  case cons x ps =>
    intro he
    have hx := h x (by simp) (ps.flatMap fun x => x.1.toList ++ ['\n'])
    rw [List.flatMap_cons, List.append_assoc, List.singleton_append] at he
    simp [he, line_mark] at hx

-- A document of lines that are read each is read as these lines, and nothing is left out.
theorem parse?_reads {ps : List (String × Line)} (h : ∀ x ∈ ps, Reads x.1 x.2) :
    parse? (String.join (ps.map (·.1 ++ "\n"))) =
      ((ps.map (·.2)).foldlM Progress.add? {}).map (.table .whole ·.root) := by
  have ht : (String.join (ps.map (·.1 ++ "\n"))).toList =
      ps.flatMap fun x => x.1.toList ++ ['\n'] := by
    simp [String.toList_join, List.flatMap_map, String.toList_append]
  unfold parse?
  rw [ht]
  split
  case h_1 he => exact absurd he (ne_mark h)
  case h_2 =>
    simp only [lines_reads h (Nat.le_refl _), Option.map_eq_bind]
    rfl

end Toml

end RadioSpectrum
