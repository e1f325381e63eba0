import RadioSpectrum.Proofs.Spectrum.Peaks

namespace RadioSpectrum

namespace Peak

section Walks

variable {β : Type} {spectrum bins : List β} {i : Nat} {m x y : β}

-- The bins to the left of one, the nearest first.
def leftwards (spectrum : List β) (bin : Nat) : List β :=
  (spectrum.take bin).reverse

def rightwards (spectrum : List β) (bin : Nat) : List β :=
  spectrum.drop (bin + 1)

theorem head?_leftwards (h : spectrum[i]? = some x) :
    (leftwards spectrum (i + 1)).head? = some x := by
  rw [leftwards, List.head?_reverse, List.take_add_one, h]
  exact List.getLast?_concat

theorem head?_rightwards : (rightwards spectrum i).head? = spectrum[i + 1]? :=
  List.head?_drop

variable [BEq β]

-- What a walk over bins of one value comes to, if it does not end at the edge.
def walk (m : β) (bins : List β) : Option β :=
  bins.find? (· != m)

theorem walk_of_head? (h : bins.head? = some x) (hx : x != m) : walk m bins = some x := by
  cases bins
  case nil  => contradiction
  case cons =>
    obtain rfl := Option.some.inj h
    exact List.find?_cons_of_pos hx

theorem mem_of_mem_walk (h : x ∈ walk m bins) : x ∈ bins :=
  List.mem_of_find?_eq_some h

theorem bne_of_mem_walk (h : x ∈ walk m bins) : x != m :=
  List.find?_some (p := (· != m)) h

theorem beq_of_not_bne (h : ¬x != y) : x == y := by
  rwa [bne, Bool.not_eq_true', Bool.not_eq_false] at h

theorem exists_head?_of_mem_walk (h : x ∈ walk m bins) : ∃ y, bins.head? = some y := by
  cases bins
  case nil  => contradiction
  case cons => exact ⟨_, rfl⟩

end Walks

variable {spectrum : List Float32} {p q : Peak Float32} {i j : Nat} {x : Float32}

-- That a walk over bins of equal value ends at the edge or at a lower bin, in either direction.
structure Crest (spectrum : List Float32) (p : Peak Float32) : Prop where
  left  : ∀ x ∈ walk p.magnitude (leftwards spectrum p.bin), x < p.magnitude
  right : ∀ x ∈ walk p.magnitude (rightwards spectrum p.bin), x < p.magnitude

-- That all bins from one to the other have equal values.
def SameRun (spectrum : List Float32) (i j : Nat) : Prop :=
  ∃ m ∈ spectrum, ∀ k, min i j ≤ k → k ≤ max i j → ∃ x ∈ spectrum[k]?, x == m

-- The first bin of a run of one positive value.
structure Opens (spectrum : List Float32) (p : Peak Float32) : Prop where
  own      : spectrum[p.bin]? = some p.magnitude
  positive : 0 < p.magnitude
  first    : ∀ i < p.bin, ¬SameRun spectrum i p.bin

-- The first of several bins of one positive value, above what comes before them and below what
-- comes after them.
structure Ledge (spectrum : List Float32) (p : Peak Float32) : Prop where
  own      : spectrum[p.bin]? = some p.magnitude
  positive : 0 < p.magnitude
  before   : ∀ i x, i + 1 = p.bin → spectrum[i]? = some x → x < p.magnitude
  level    : ∃ x ∈ spectrum[p.bin + 1]?, x == p.magnitude
  after    : ∃ x ∈ walk p.magnitude (rightwards spectrum p.bin), p.magnitude < x

theorem SameRun.symm (h : SameRun spectrum i j) : SameRun spectrum j i := by
  rwa [SameRun, min_comm, max_comm]

section Finite

open Precision (place lt_iff_place_lt le_iff_place_le beq_iff_place_eq bne_iff_place_ne
  bne_of_lt)

variable (hf : ∀ x ∈ spectrum, x.isFinite)
include hf

theorem isFinite_rightwards (h : x ∈ walk p.magnitude (rightwards spectrum p.bin)) : x.isFinite :=
  hf x (List.mem_of_mem_drop (mem_of_mem_walk h))

namespace Stands

-- To the left, the very next bin is lower, if there is one.
theorem walk_left (h : Stands 0 spectrum p) :
    ∀ x ∈ walk p.magnitude (leftwards spectrum p.bin), x < p.magnitude := by
  intro x hx
  cases hb : p.bin <;> rw [hb] at hx
  case zero   => contradiction
  case succ i =>
    obtain ⟨hi, -⟩ := List.getElem?_eq_some_iff.mp h.own
    obtain ⟨y, hy⟩ : ∃ y, spectrum[i]? = some y := ⟨_, List.getElem?_eq_getElem (by omega)⟩
    have hl : y < p.magnitude := h.left i y hb.symm hy
    have hn : y != p.magnitude := bne_of_lt (isFinite_at hf hy) (isFinite_at hf h.own) hl
    rw [walk_of_head? (head?_leftwards hy) hn] at hx
    exact Option.some.inj hx ▸ hl

-- To the right, bins of the same value may follow. What comes after them was not compared.
theorem walk_right (h : Stands 0 spectrum p) (hl : ¬Ledge spectrum p) :
    ∀ x ∈ walk p.magnitude (rightwards spectrum p.bin), x < p.magnitude := by
  intro x hx
  have hm := isFinite_at hf h.own
  have hxf := isFinite_rightwards hf hx
  obtain ⟨y, hy⟩ := exists_head?_of_mem_walk hx
  have hy' : spectrum[p.bin + 1]? = some y := head?_rightwards ▸ hy
  have hle : y ≤ p.magnitude := h.right y hy'
  by_cases hn : y != p.magnitude
  case pos =>
    have hyf := isFinite_at hf hy'
    obtain rfl : y = x := by
      rw [walk_of_head? hy hn] at hx
      exact Option.some.inj hx
    exact (lt_iff_place_lt hyf hm).mpr
      (lt_of_le_of_ne ((le_iff_place_le hyf hm).mp hle) ((bne_iff_place_ne hyf hm).mp hn))
  case neg =>
    rcases lt_or_gt_of_ne ((bne_iff_place_ne hxf hm).mp (bne_of_mem_walk hx)) with hlt | hgt
    case inl => exact (lt_iff_place_lt hxf hm).mpr hlt
    case inr =>
      have hgt : p.magnitude < x := (lt_iff_place_lt hm hxf).mpr hgt
      exact absurd ⟨h.own, h.positive, h.left, ⟨y, hy', beq_of_not_bne hn⟩, x, hx, hgt⟩ hl

theorem crest_iff (h : Stands 0 spectrum p) : Crest spectrum p ↔ ¬Ledge spectrum p := by
  constructor
  case mp  =>
    rintro ⟨-, hr⟩ ⟨-, -, -, -, x, hx, hg⟩
    have hm := isFinite_at hf h.own
    have hxf := isFinite_rightwards hf hx
    exact ((lt_iff_place_lt hxf hm).mp (hr x hx)).asymm ((lt_iff_place_lt hm hxf).mp hg)
  case mpr => exact fun hl => ⟨h.walk_left hf, h.walk_right hf hl⟩

-- The bin before it is lower, so that its run begins with it.
theorem not_sameRun (h : Stands 0 spectrum p) (hi : i < p.bin) : ¬SameRun spectrum i p.bin := by
  rintro ⟨m, hm, hr⟩
  obtain ⟨x, hx, hxm⟩ := hr (p.bin - 1) (by omega) (by omega)
  obtain ⟨y, hy, hym⟩ := hr p.bin (by omega) (by omega)
  obtain rfl : p.magnitude = y := Option.some.inj (h.own.symm.trans hy)
  have hxf := isFinite_at hf hx
  have hyf := isFinite_at hf hy
  have hl : place x < place p.magnitude :=
    (lt_iff_place_lt hxf hyf).mp (h.left (p.bin - 1) x (by omega) hx)
  rw [(beq_iff_place_eq hxf (hf m hm)).mp hxm, (beq_iff_place_eq hyf (hf m hm)).mp hym] at hl
  exact lt_irrefl _ hl

theorem not_sameRun_of_ne (hp : Stands 0 spectrum p) (hq : Stands 0 spectrum q)
    (hb : p.bin ≠ q.bin) : ¬SameRun spectrum p.bin q.bin := by
  rcases Nat.lt_or_gt_of_ne hb with hl | hg
  case inl => exact hq.not_sameRun hf hl
  case inr => exact fun h => hp.not_sameRun hf hg h.symm

theorem opens (h : Stands 0 spectrum p) : Opens spectrum p :=
  ⟨h.own, h.positive, fun _ hi => h.not_sameRun hf hi⟩

end Stands

-- The bin before the first one of a run has another value.
theorem Opens.bne (h : Opens spectrum p) (hi : i + 1 = p.bin) (hx : spectrum[i]? = some x) :
    x != p.magnitude := by
  by_contra hn
  have hm := isFinite_at hf h.own
  refine h.first i (by omega) ⟨p.magnitude, List.mem_of_getElem? h.own, fun k hl hg => ?_⟩
  obtain rfl | rfl : k = i ∨ k = p.bin := by omega
  case inl => exact ⟨x, hx, beq_of_not_bne hn⟩
  case inr => exact ⟨p.magnitude, h.own, (beq_iff_place_eq hm hm).mpr rfl⟩

theorem Crest.stands (h : Crest spectrum p) (ho : Opens spectrum p) : Stands 0 spectrum p where
  own            := ho.own
  positive       := ho.positive
  left i x hi hx := by
    have hh : (leftwards spectrum p.bin).head? = some x := hi ▸ head?_leftwards hx
    exact h.left x (walk_of_head? hh (ho.bne hf hi hx))
  right x hx     := by
    have hm := isFinite_at hf ho.own
    have hxf := isFinite_at hf hx
    refine (le_iff_place_le hxf hm).mpr ?_
    by_cases hn : x != p.magnitude
    case pos =>
      have hl : x < p.magnitude := h.right x (walk_of_head? (head?_rightwards.trans hx) hn)
      exact ((lt_iff_place_lt hxf hm).mp hl).le
    case neg => exact ((beq_iff_place_eq hxf hm).mp (beq_of_not_bne hn)).le

theorem Ledge.stands (h : Ledge spectrum p) : Stands 0 spectrum p where
  own        := h.own
  positive   := h.positive
  left       := h.before
  right x hx := by
    obtain ⟨y, hy, he⟩ := h.level
    obtain rfl : x = y := Option.some.inj (hx.symm.trans hy)
    have hm := isFinite_at hf h.own
    have hxf := isFinite_at hf hx
    exact (le_iff_place_le hxf hm).mpr ((beq_iff_place_eq hxf hm).mp he).le

theorem Stands.not_outranks_self (h : Stands 0 spectrum p) : ¬Outranks p p := by
  have hm := isFinite_at hf h.own
  exact fun ⟨_, hb⟩ => lt_irrefl p.bin (hb ((le_iff_place_le hm hm).mpr le_rfl))

-- What is left out is left out for as many as were asked for, all of which outrank it.
theorem not_mem_find_iff (h : Stands 0 spectrum p) (count : Nat) : p ∉ find 0 spectrum count ↔
    (find 0 spectrum count).length = count ∧ ∀ q ∈ find 0 spectrum count, Outranks q p := by
  constructor
  case mp  => exact (mem_find_or hf h count).resolve_left
  case mpr => exact fun ⟨_, ho⟩ hp => h.not_outranks_self hf (ho p hp)

end Finite

-- The bins that are found are in different runs, each the first one of its run. A walk to the left
-- ends at the edge or at a lower bin, and so does one to the right, but from a ledge. No run that
-- is a local maximum is left out but for bins that outrank it. So a search finds local maxima
-- alone if and only if it leaves every ledge out, for as many bins as it was asked for that
-- outrank the ledge.
theorem crests_decided (hf : ∀ x ∈ spectrum, x.isFinite) (count : Nat) :
    (find 0 spectrum count).Pairwise (fun p q => ¬SameRun spectrum p.bin q.bin) ∧
    (∀ p ∈ find 0 spectrum count, Opens spectrum p ∧
      (∀ x ∈ walk p.magnitude (leftwards spectrum p.bin), x < p.magnitude) ∧
      (Crest spectrum p ↔ ¬Ledge spectrum p)) ∧
    (∀ p, Opens spectrum p → Crest spectrum p → p ∈ find 0 spectrum count ∨
      (find 0 spectrum count).length = count ∧ ∀ q ∈ find 0 spectrum count, Outranks q p) ∧
    ((∀ p ∈ find 0 spectrum count, Crest spectrum p) ↔ ∀ p, Ledge spectrum p →
      (find 0 spectrum count).length = count ∧ ∀ q ∈ find 0 spectrum count, Outranks q p) := by
  have hs : ∀ p ∈ find 0 spectrum count, Stands 0 spectrum p :=
    fun p hp => mem_ranked.mp (List.mem_of_mem_take hp)
  have hc : ∀ p ∈ find 0 spectrum count, Crest spectrum p ↔ ¬Ledge spectrum p :=
    fun p hp => (hs p hp).crest_iff hf
  refine ⟨?runs, fun p hp => ⟨(hs p hp).opens hf, (hs p hp).walk_left hf, hc p hp⟩,
    fun p ho h => mem_find_or hf (h.stands hf ho) count, ?all⟩
  case runs =>
    have hn : ((find 0 spectrum count).map (·.bin)).Nodup :=
      ((List.take_sublist ..).map _).nodup nodup_ranked
    exact (List.pairwise_map.mp hn).imp_of_mem
      fun hp hq hb => (hs _ hp).not_sameRun_of_ne hf (hs _ hq) hb
  case all =>
    calc (∀ p ∈ find 0 spectrum count, Crest spectrum p)
      _ ↔ ∀ p ∈ find 0 spectrum count, ¬Ledge spectrum p := forall₂_congr hc
      _ ↔ ∀ p, Ledge spectrum p → p ∉ find 0 spectrum count := forall_congr' fun _ => imp_not_comm
      _ ↔ _ := forall₂_congr fun _ h => not_mem_find_iff hf (h.stands hf) count

-- A slope that rises over two ledges.
def stairs : List Float32 :=
  [1, 1, 2, 2, 3]

theorem ledge_stairs : Ledge stairs ⟨2, 2⟩ where
  own            := rfl
  positive       := by decide
  before i x hi hx := by
    obtain rfl : i = 1 := Nat.succ.inj hi
    obtain rfl : 1 = x := Option.some.inj hx
    decide
  level          := ⟨2, rfl, by decide⟩
  after          := ⟨3, by decide, by decide⟩

theorem crests_decided_stairs :
    (∀ x ∈ stairs, x.isFinite) ∧ ⟨2, 2⟩ ∈ find 0 stairs 5 ∧ ¬Crest stairs ⟨2, 2⟩ ∧
    (find 0 stairs 5).Pairwise (fun p q => ¬SameRun stairs p.bin q.bin) := by
  have hf : ∀ x ∈ stairs, x.isFinite := by decide
  have hm : ⟨2, 2⟩ ∈ find 0 stairs 5 := (mem_find_iff (by decide)).mpr (ledge_stairs.stands hf)
  obtain ⟨hr, hc, -⟩ := crests_decided hf 5
  exact ⟨hf, hm, fun h => (hc _ hm).right.right.mp h ledge_stairs, hr⟩

-- What is found in the slope is not its top alone.
theorem stairs_found_below_top :
    (∀ x ∈ stairs, x.isFinite) ∧ ∃ p ∈ find 0 stairs 5, ¬Crest stairs p := by
  have hf : ∀ x ∈ stairs, x.isFinite := by decide
  have hs := ledge_stairs.stands hf
  refine ⟨hf, ⟨2, 2⟩, (mem_find_iff (by decide)).mpr hs, fun h => ?_⟩
  exact (hs.crest_iff hf).mp h ledge_stairs

end Peak

end RadioSpectrum
