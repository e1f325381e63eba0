import Mathlib.Data.Set.Finite.Lattice
import RadioSpectrum.Proofs.Precision.Order
import RadioSpectrum.Spectrum.Peak

namespace RadioSpectrum

section Stability

variable {α : Type} {l : List α} {r : α → α → Prop} {le : α → α → Bool}

-- What the order of sorting does not tell apart stays in the order that it had before.
theorem pairwise_mergeSort_of_pairwise (trans : ∀ a b c, le a b → le b c → le a c)
    (total : ∀ a b, le a b || le b a) (h : l.Pairwise r) :
    (l.mergeSort le).Pairwise fun a b => le a b ∧ (le b a → r a b) := by
  have hl : (l.zipIdx.mergeSort (List.zipIdxLE le)).Pairwise fun a b => List.zipIdxLE le a b :=
    List.pairwise_mergeSort (List.zipIdxLE_trans trans) (List.zipIdxLE_total total) _
  have hd : (l.zipIdx.mergeSort (List.zipIdxLE le)).Pairwise fun a b => a.2 ≠ b.2 := by
    refine List.pairwise_map.mp (((List.mergeSort_perm ..).map Prod.snd).nodup_iff.mpr ?_)
    rw [List.zipIdx_map_snd]
    exact List.nodup_range'
  rw [← List.mergeSort_zipIdx, List.pairwise_map]
  refine (hl.and hd).imp_of_mem fun {a b} ha hb ⟨hab, hne⟩ => ?_
  rw [List.zipIdxLE] at hab
  split at hab
  case isFalse => contradiction
  case isTrue hle =>
    refine ⟨hle, fun hge => ?_⟩
    rw [if_pos hge] at hab
    have hlt : a.2 < b.2 := Nat.lt_of_le_of_ne (of_decide_eq_true hab) hne
    obtain ⟨hi, ha⟩ := List.getElem?_eq_some_iff.mp
      (List.mem_zipIdx_iff_getElem?.mp (List.mem_mergeSort.mp ha))
    obtain ⟨hj, hb⟩ := List.getElem?_eq_some_iff.mp
      (List.mem_zipIdx_iff_getElem?.mp (List.mem_mergeSort.mp hb))
    exact ha ▸ hb ▸ List.pairwise_iff_getElem.mp h a.2 b.2 hi hj hlt

-- Sorting by a key, the greatest first.
theorem pairwise_mergeSort_key {κ : Type} [LinearOrder κ] (key : α → κ) (h : l.Pairwise r) :
    (l.mergeSort fun a b => decide (key b ≤ key a)).Pairwise fun a b =>
      key b ≤ key a ∧ (key a ≤ key b → r a b) := by
  refine (pairwise_mergeSort_of_pairwise (fun a b c hab hbc => ?_) (fun a b => ?_) h).imp ?_
  case refine_1 =>
    exact decide_eq_true ((of_decide_eq_true hbc).trans (of_decide_eq_true hab))
  case refine_2 =>
    rw [Bool.or_eq_true, decide_eq_true_iff, decide_eq_true_iff]
    exact le_total (key b) (key a)
  case refine_3 =>
    exact fun ⟨hl, hr⟩ => ⟨of_decide_eq_true hl, fun hg => hr (decide_eq_true hg)⟩

end Stability

namespace Peak

section Candidates

variable {β : Type} {zero m : β} {left : Option β} {start i : Nat} {spectrum rest : List β}
variable {p : Peak β}

-- The value before one of a list that has `left` before it.
def before (left : Option β) (spectrum : List β) : Nat → Option β
  | 0 => left
  | i + 1 => spectrum[i]?

theorem before_cons : before left (m :: rest) (i + 1) = before (some m) rest i := by
  cases i <;> rfl

variable [LT β] [LE β]

-- A peak of its bin: positive, above its left neighbour and not below its right one.
structure Stands (zero : β) (spectrum : List β) (p : Peak β) : Prop where
  own      : spectrum[p.bin]? = some p.magnitude
  positive : zero < p.magnitude
  left     : ∀ i x, i + 1 = p.bin → spectrum[i]? = some x → x < p.magnitude
  right    : ∀ x, spectrum[p.bin + 1]? = some x → x ≤ p.magnitude

variable [DecidableLT β] [DecidableLE β]

theorem mem_candidates_cons : p ∈ candidates zero left start (m :: rest) ↔
    (p = ⟨start, m⟩ ∧ zero < m ∧ left.all (· < m) ∧ rest.head?.all (· ≤ m)) ∨
      p ∈ candidates zero (some m) (start + 1) rest := by
  rw [candidates]
  split
  case isTrue h  => rw [List.mem_cons, and_iff_left h]
  case isFalse h => rw [iff_false_intro h, and_false, false_or]

-- By induction on what is left of the spectrum, whose first bin is `start`.
theorem mem_candidates_from : p ∈ candidates zero left start spectrum ↔
    ∃ i, p.bin = start + i ∧ spectrum[i]? = some p.magnitude ∧ zero < p.magnitude ∧
      (before left spectrum i).all (· < p.magnitude) ∧ spectrum[i + 1]?.all (· ≤ p.magnitude) := by
  induction spectrum generalizing left start
  case nil =>
    exact ⟨nofun, fun ⟨_, _, h, _⟩ => nomatch h⟩
  case cons m rest hi =>
    rw [mem_candidates_cons, hi]
    refine .trans (or_congr ?_ (exists_congr fun i => ?_)) Nat.or_exists_add_one
    case refine_1 =>
      have hr : rest.head? = (m :: rest)[0 + 1]? := List.head?_eq_getElem?
      rw [hr]
      constructor
      case mp  =>
        rintro ⟨rfl, h⟩
        exact ⟨rfl, rfl, h⟩
      case mpr =>
        rintro ⟨hb, ho, h⟩
        obtain rfl : m = p.magnitude := Option.some.inj ho
        exact ⟨congrArg (Peak.mk · p.magnitude) hb, h⟩
    case refine_2 =>
      rw [before_cons, Nat.add_right_comm start 1 i, Nat.add_assoc start i 1]
      rfl

theorem pairwise_candidates : (candidates zero left start spectrum).Pairwise (·.bin < ·.bin) := by
  induction spectrum generalizing left start
  case nil => exact .nil
  case cons m rest hi =>
    rw [candidates]
    split
    case isFalse => exact hi
    case isTrue  =>
      refine List.pairwise_cons.mpr ⟨fun p hp => ?_, hi⟩
      obtain ⟨i, hb, -⟩ := mem_candidates_from.mp hp
      change start < p.bin
      omega

theorem length_candidates_le :
    (candidates zero left start spectrum).length ≤ spectrum.length := by
  induction spectrum generalizing left start
  case nil => exact Nat.le_refl 0
  case cons m rest hi =>
    rw [candidates]
    split
    case isTrue  => exact Nat.succ_le_succ hi
    case isFalse => exact Nat.le_succ_of_le hi

theorem mem_candidates : p ∈ candidates zero none 0 spectrum ↔ Stands zero spectrum p := by
  rw [mem_candidates_from]
  constructor
  case mp  =>
    rintro ⟨i, hb, ho, hp, hl, hr⟩
    obtain rfl : p.bin = i := hb.trans (Nat.zero_add i)
    refine ⟨ho, hp, fun i x hi hx => ?_, fun x hx => ?_⟩
    case refine_1 =>
      rw [← hi, before, hx] at hl
      exact of_decide_eq_true hl
    case refine_2 =>
      rw [hx] at hr
      exact of_decide_eq_true hr
  case mpr =>
    intro hs
    refine ⟨p.bin, (Nat.zero_add _).symm, hs.own, hs.positive, ?_, ?_⟩
    case refine_1 =>
      cases hb : p.bin
      case zero => rfl
      case succ i =>
        exact (Option.all_eq_true ..).mpr fun x hx => decide_eq_true (hs.left i x hb.symm hx)
    case refine_2 =>
      exact (Option.all_eq_true ..).mpr fun x hx => decide_eq_true (hs.right x hx)

end Candidates

section Ranking

variable {spectrum : List Float32} {p q : Peak Float32} {x : Float32} {count : Nat}

-- Not weaker, and in a lower bin where it is not stronger.
def Outranks (p q : Peak Float32) : Prop :=
  q.magnitude ≤ p.magnitude ∧ (p.magnitude ≤ q.magnitude → p.bin < q.bin)

-- The lowest bin that no other one of the spectrum exceeds.
structure Summit (spectrum : List Float32) (p : Peak Float32) : Prop where
  own      : spectrum[p.bin]? = some p.magnitude
  greatest : ∀ x ∈ spectrum, x ≤ p.magnitude
  first    : ∀ i x, i < p.bin → spectrum[i]? = some x → x < p.magnitude

-- A positive bin above each of its neighbours.
structure Sharp (spectrum : List Float32) (p : Peak Float32) : Prop where
  own      : spectrum[p.bin]? = some p.magnitude
  positive : 0 < p.magnitude
  above    : ∀ i x, i + 1 = p.bin ∨ i = p.bin + 1 → spectrum[i]? = some x → x < p.magnitude

-- All that can be found.
def ranked (spectrum : List Float32) : List (Peak Float32) :=
  (candidates 0 none 0 spectrum).mergeSort fun p q => !(p.magnitude < q.magnitude)

theorem find_eq_take : find 0 spectrum count = (ranked spectrum).take count :=
  rfl

theorem mem_ranked : p ∈ ranked spectrum ↔ Stands 0 spectrum p :=
  List.mem_mergeSort.trans mem_candidates

-- As many as there are bins are all that can be found.
theorem mem_find_iff (h : spectrum.length ≤ count) :
    p ∈ find 0 spectrum count ↔ Stands 0 spectrum p := by
  have hl : (ranked spectrum).length ≤ count := by
    refine le_trans ?_ h
    rw [ranked, List.length_mergeSort]
    exact length_candidates_le
  rw [find_eq_take, List.take_of_length_le hl, mem_ranked]

theorem nodup_ranked : ((ranked spectrum).map (·.bin)).Nodup := by
  have hs : ((candidates 0 none 0 spectrum).map (·.bin)).Nodup :=
    List.pairwise_map.mpr (pairwise_candidates.imp Nat.ne_of_lt)
  exact ((List.mergeSort_perm ..).map _).nodup_iff.mpr hs

theorem Summit.stands (h : Summit spectrum p) (hp : 0 < p.magnitude) : Stands 0 spectrum p where
  own            := h.own
  positive       := hp
  left i x hi hx := h.first i x (by omega) hx
  right x hx     := h.greatest x (List.mem_of_getElem? hx)

section Finite

open Precision (place lt_iff_place_lt le_iff_place_le)

variable (hf : ∀ x ∈ spectrum, x.isFinite)
include hf

theorem isFinite_at {i : Nat} (h : spectrum[i]? = some x) : x.isFinite :=
  hf x (List.mem_of_getElem? h)

-- On numbers, the order of sorting is that of their places, and this one is total everywhere.
theorem ranked_eq : ranked spectrum =
    (candidates 0 none 0 spectrum).mergeSort fun p q => place q.magnitude ≤ place p.magnitude := by
  have hm := List.map_mergeSort (f := id) (l := candidates 0 none 0 spectrum)
    (r := fun p q => !(p.magnitude < q.magnitude))
    (s := fun p q => decide (place q.magnitude ≤ place p.magnitude)) fun p hp q hq => by
      have hp := isFinite_at hf (mem_candidates.mp hp).own
      have hq := isFinite_at hf (mem_candidates.mp hq).own
      rw [← decide_not, decide_eq_decide, lt_iff_place_lt hp hq, not_lt]
      rfl
  rwa [List.map_id, List.map_id] at hm

theorem pairwise_ranked : (ranked spectrum).Pairwise Outranks := by
  have hc : (candidates 0 none 0 spectrum).Pairwise (·.bin < ·.bin) := pairwise_candidates
  have hs := pairwise_mergeSort_key (fun p => place p.magnitude) hc
  rw [← ranked_eq hf] at hs
  refine hs.imp_of_mem fun {p q} hp hq ⟨hl, hb⟩ => ?_
  have hp := isFinite_at hf (mem_ranked.mp hp).own
  have hq := isFinite_at hf (mem_ranked.mp hq).own
  exact ⟨(le_iff_place_le hq hp).mpr hl, fun hg => hb ((le_iff_place_le hp hq).mp hg)⟩

theorem exists_summit (hs : spectrum ≠ []) : ∃ p, Summit spectrum p := by
  obtain ⟨m, hm, hg⟩ := Set.exists_max_image {x | x ∈ spectrum} place spectrum.finite_toSet
    (List.exists_mem_of_ne_nil spectrum hs)
  have he : ∃ (i : Nat) (x : Float32), spectrum[i]? = some x ∧ place m ≤ place x := by
    obtain ⟨i, hi⟩ := List.mem_iff_getElem?.mp hm
    exact ⟨i, m, hi, le_rfl⟩
  obtain ⟨x, hx, hmx⟩ := Nat.find_spec he
  have hxf := isFinite_at hf hx
  refine ⟨⟨Nat.find he, x⟩, hx, fun y hy => ?_, fun i y hi hy => ?_⟩
  case refine_1 =>
    exact (le_iff_place_le (hf y hy) hxf).mpr ((hg y hy).trans hmx)
  case refine_2 =>
    have hl : place y < place m := by
      by_contra hn
      exact Nat.find_min he hi ⟨y, hy, not_lt.mp hn⟩
    exact (lt_iff_place_lt (isFinite_at hf hy) hxf).mpr (hl.trans_le hmx)

-- A bin that is as strong as the summit is not before it.
theorem Summit.bin_le (h : Summit spectrum p) (hq : spectrum[q.bin]? = some q.magnitude)
    (hl : p.magnitude ≤ q.magnitude) : p.bin ≤ q.bin := by
  by_contra hn
  have hpf := isFinite_at hf h.own
  have hqf := isFinite_at hf hq
  have hlt : q.magnitude < p.magnitude := h.first q.bin q.magnitude (Nat.lt_of_not_le hn) hq
  exact ((le_iff_place_le hpf hqf).mp hl).not_gt ((lt_iff_place_lt hqf hpf).mp hlt)

theorem Summit.unique (hp : Summit spectrum p) (hq : Summit spectrum q) : p = q := by
  have hb : p.bin = q.bin :=
    Nat.le_antisymm (hp.bin_le hf hq.own (hq.greatest _ (List.mem_of_getElem? hp.own)))
      (hq.bin_le hf hp.own (hp.greatest _ (List.mem_of_getElem? hq.own)))
  have hm : some p.magnitude = some q.magnitude := by rw [← hp.own, ← hq.own, hb]
  cases p
  cases q
  exact congr (congrArg Peak.mk hb) (Option.some.inj hm)

theorem Summit.not_outranks (h : Summit spectrum p) (hq : spectrum[q.bin]? = some q.magnitude) :
    ¬Outranks q p :=
  fun ⟨hl, hb⟩ =>
    (hb (h.greatest _ (List.mem_of_getElem? hq))).not_ge (h.bin_le hf hq hl)

theorem Summit.positive (h : Summit spectrum p) (hx : x ∈ spectrum) (hp : 0 < x) :
    0 < p.magnitude := by
  have hz : (0 : Float32).isFinite := by decide
  have hm := isFinite_at hf h.own
  have hl : place x ≤ place p.magnitude := (le_iff_place_le (hf x hx) hm).mp (h.greatest x hx)
  exact (lt_iff_place_lt hz hm).mpr (((lt_iff_place_lt hz (hf x hx)).mp hp).trans_le hl)

theorem head?_ranked (h : Summit spectrum p) (hp : 0 < p.magnitude) :
    (ranked spectrum).head? = some p := by
  have hm : p ∈ ranked spectrum := mem_ranked.mpr (h.stands hp)
  have hr := pairwise_ranked hf
  have hs : ∀ q ∈ ranked spectrum, Stands 0 spectrum q := fun q => mem_ranked.mp
  cases he : ranked spectrum <;> rw [he] at hm hr hs
  case nil => contradiction
  case cons q rest =>
    cases hm
    case head => rfl
    case tail hm =>
      have ho : Outranks q p := List.rel_of_pairwise_cons hr hm
      exact absurd ho (h.not_outranks hf (hs q List.mem_cons_self).own)

theorem Sharp.stands (h : Sharp spectrum p) : Stands 0 spectrum p where
  own            := h.own
  positive       := h.positive
  left i x hi hx := h.above i x (.inl hi) hx
  right x hx     := by
    have hm := isFinite_at hf h.own
    have hxf := isFinite_at hf hx
    have hl := (lt_iff_place_lt hxf hm).mp (h.above (p.bin + 1) x (.inr rfl) hx)
    exact (le_iff_place_le hxf hm).mpr hl.le

-- What a search leaves out has as many peaks before it as were asked for.
theorem mem_find_or (h : Stands 0 spectrum p) (count : Nat) : p ∈ find 0 spectrum count ∨
    (find 0 spectrum count).length = count ∧ ∀ q ∈ find 0 spectrum count, Outranks q p := by
  have hm : p ∈ ranked spectrum := mem_ranked.mpr h
  have hr := pairwise_ranked hf
  rw [← List.take_append_drop count (ranked spectrum)] at hm hr
  rcases List.mem_append.mp hm with hm | hm
  case inl => exact .inl hm
  case inr =>
    have hl : count < (ranked spectrum).length := by
      by_contra hn
      rw [List.drop_of_length_le (Nat.le_of_not_lt hn)] at hm
      contradiction
    refine .inr ⟨List.length_take_of_le hl.le, fun q hq => ?_⟩
    exact (List.pairwise_append.mp hr).right.right q hq p hm

end Finite

-- Each bin is found once, with its own value. They stand in the order of their values, and of
-- their bins where the values are equal; asking for more only adds to the end. No sharp peak is
-- left out for one that does not outrank it, and the highest value of a spectrum comes first.
theorem find_strongest (hf : ∀ x ∈ spectrum, x.isFinite) (count : Nat) :
    ((find 0 spectrum count).map (·.bin)).Nodup ∧
    (∀ p ∈ find 0 spectrum count, spectrum[p.bin]? = some p.magnitude) ∧
    (find 0 spectrum count).Pairwise Outranks ∧
    (find 0 spectrum count).length ≤ count ∧
    (∀ more, count ≤ more → find 0 spectrum count <+: find 0 spectrum more) ∧
    (∀ p, Sharp spectrum p → p ∈ find 0 spectrum count ∨
      (find 0 spectrum count).length = count ∧ ∀ q ∈ find 0 spectrum count, Outranks q p) ∧
    (0 < count → (∃ x ∈ spectrum, 0 < x) →
      ∃ p, (find 0 spectrum count).head? = some p ∧ Summit spectrum p) := by
  have hs : (find 0 spectrum count).Sublist (ranked spectrum) := List.take_sublist ..
  refine ⟨(hs.map _).nodup nodup_ranked, fun p hp => (mem_ranked.mp (hs.subset hp)).own,
    (pairwise_ranked hf).sublist hs, List.length_take_le .., fun more => ?_,
    fun p hp => mem_find_or hf (hp.stands hf) count, fun hc ⟨x, hx, hp⟩ => ?_⟩
  case refine_1 => exact List.take_prefix_take_left
  case refine_2 =>
    obtain ⟨p, h⟩ := exists_summit hf (List.ne_nil_of_mem hx)
    refine ⟨p, ?_, h⟩
    rw [find_eq_take, List.head?_take, if_neg hc.ne']
    exact head?_ranked hf h (h.positive hf hx hp)

-- A plateau at the edge, one inside, and a single bin that is as high.
def plateaus : List Float32 :=
  [2, 2, 1, 5, 5, 0, 5]

theorem summit_plateaus : Summit plateaus ⟨3, 5⟩ where
  own            := rfl
  greatest       := by decide
  first i x hi hx := by
    have hl : ∀ i : Fin 3, ∀ x ∈ plateaus[i.val]?, x < 5 := by decide
    exact hl ⟨i, hi⟩ x hx

theorem sharp_plateaus : Sharp plateaus ⟨6, 5⟩ where
  own             := rfl
  positive        := by decide
  above i x hi hx := by
    rcases hi with hi | rfl
    case inl =>
      obtain rfl : i = 5 := Nat.succ.inj hi
      obtain rfl : 0 = x := Option.some.inj hx
      decide
    case inr => contradiction

theorem find_strongest_plateaus :
    (∀ x ∈ plateaus, x.isFinite) ∧ (find 0 plateaus 1).head? = some ⟨3, 5⟩ ∧
    (⟨6, 5⟩ ∈ find 0 plateaus 1 ∨
      (find 0 plateaus 1).length = 1 ∧ ∀ q ∈ find 0 plateaus 1, Outranks q ⟨6, 5⟩) := by
  have hf : ∀ x ∈ plateaus, x.isFinite := by decide
  obtain ⟨-, -, -, -, -, hc, hs⟩ := find_strongest hf 1
  obtain ⟨p, hp, h⟩ := hs (by decide) ⟨5, List.mem_of_getElem? summit_plateaus.own, by decide⟩
  exact ⟨hf, h.unique hf summit_plateaus ▸ hp, hc _ sharp_plateaus⟩

end Ranking

end Peak

end RadioSpectrum
