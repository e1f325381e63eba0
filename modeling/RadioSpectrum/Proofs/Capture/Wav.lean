import Mathlib.Tactic.NormNum
import RadioSpectrum.Capture.Wav

namespace RadioSpectrum

namespace Bytes

variable {count n : Nat} {front rest : Bytes}

theorem take?_of_length (h : front.length = count) :
    take? count (front ++ rest) = some (front, rest) :=
  h ▸ take?_append front rest

theorem nat?_ofNat (h : n < 256 ^ count) : nat? count (ofNat count n ++ rest) = some (n, rest) := by
  have hn : toNat (ofNat count n) = n := (toNat_ofNat count n).trans (Nat.mod_eq_of_lt h)
  simp [nat?, take?_of_length (length_ofNat count n), hn]

end Bytes

namespace Wav

variable {rate count n : Nat} {samples : List Int8} {rest : Bytes}

open Bytes

-- How the samples of a file are stored that is written here.
def plain : Layout :=
  { channels := 2, width := 1, bits := 8, isFloat := false }

-- What follows the mark and the length of the format chunk.
def format (rate : Nat) : Bytes :=
  ofNat 2 1 ++ (ofNat 2 2 ++ (ofNat 4 rate ++ (ofNat 4 (2 * rate) ++ (ofNat 2 2 ++ ofNat 2 8))))

-- The two chunks of a file, the second one with the samples.
def chunks (count rate : Nat) (payload : Bytes) : Bytes :=
  ofString "fmt " ++ (ofNat 4 16 ++ (format rate ++ (ofString "data" ++ (ofNat 4 count ++ payload))))

theorem header_append (count rate : Nat) (payload : Bytes) : header count rate ++ payload =
    ofString "RIFF" ++ (ofNat 4 (count + 36) ++ (ofString "WAVE" ++ chunks count rate payload)) := by
  simp only [header, headerLength, chunks, format, List.append_assoc, Nat.reduceSub]

theorem length_mark : (ofString "RIFF").length = 4 ∧ (ofString "WAVE").length = 4 ∧
    (ofString "fmt ").length = 4 ∧ (ofString "data").length = 4 := by
  decide

theorem format?_format (h : rate < 2 ^ 31) :
    format? 16 (format rate ++ rest) = some (plain, rest) := by
  have hr : rate < 256 ^ 4 := h.trans (by norm_num)
  have hb : 2 * rate < 256 ^ 4 := by omega
  have hs : ¬UInt32.size ≤ 2 * rate := by
    change ¬2 ^ 32 ≤ 2 * rate
    omega
  have one : 1 < 256 ^ 2 := by norm_num
  have two : 2 < 256 ^ 2 := by norm_num
  have eight : 8 < 256 ^ 2 := by norm_num
  simp only [format?, format, List.append_assoc, nat?_ofNat one, nat?_ofNat two, nat?_ofNat hr,
    nat?_ofNat hb, nat?_ofNat eight, Option.bind_eq_bind, Option.bind_some]
  simp [hs, UInt16.size, formatTail?, plainKind, plain]

-- The chunk with the samples comes right behind the one with the format.
theorem findData?_chunks (hr : rate < 2 ^ 31) (hc : count < 256 ^ 4) (fuel : Nat) :
    findData? (fuel + 2) none (chunks count rate rest) = some (plain, count, rest) := by
  have ⟨_, _, hf, hd⟩ := length_mark
  have sixteen : 16 < 256 ^ 4 := by norm_num
  have ha : ofString "data" ≠ ofString "fmt " := by decide
  have hb : ofString "data" ≠ ofString "fact" := by decide
  simp only [findData?, chunks, take?_of_length hf, take?_of_length hd, nat?_ofNat sixteen,
    nat?_ofNat hc, format?_format hr, ha, hb, if_true, if_false, Option.bind_eq_bind,
    Option.bind_some, Option.pure_def]

theorem open?_header (hr : rate < 2 ^ 31) (hc : count + 36 < 2 ^ 32) (he : count % 2 = 0) :
    open? (header count rate ++ rest) = some (plain, count, rest) := by
  have ⟨hm, hw, hf, _⟩ := length_mark
  have hn : count < 256 ^ 4 := by omega
  have hl : (ofNat 4 (count + 36)).length = 4 := length_ofNat ..
  have enough : 2 ≤ (chunks count rate rest).length / 8 + 1 := by
    simp only [chunks, List.length_append, hf, length_ofNat]
    omega
  obtain ⟨fuel, hfuel⟩ := Nat.exists_eq_add_of_le' enough
  rw [header_append]
  simp only [open?, take?_of_length hm, take?_of_length hl, take?_of_length hw, hfuel,
    findData?_chunks hr hn, Option.bind_eq_bind, Option.bind_some]
  simp [plain, he, Nat.mod_one]

theorem ofLevel_level (x : Int8) : ofLevel (level x) = x := by
  simp [ofLevel, level]

-- Silence lies in the middle of the unsigned bytes.
theorem toNat_level (x : Int8) : ((level x).toNat : Int) = x.toInt + 128 := by
  have hl : (level x).toNat = (x.toBitVec.toNat + 128) % 256 := by
    simp [level, silence]
    rfl
  have hx : x.toInt = x.toBitVec.toInt := rfl
  have hb := x.toBitVec.isLt
  rw [hl, hx, BitVec.toInt_eq_toNat_cond]
  split <;> omega

-- Samples of one byte are read one after the other.
theorem readAll_map {write : Int8 → UInt8} {read : Bytes → Int8} (before : List Int8)
    (h : ∀ x, read [write x] = x) :
    readAll read 1 before samples.length (samples.map write) = .ok (before.reverse ++ samples) := by
  induction samples generalizing before
  case nil => simp [readAll]
  case cons x samples hi =>
    have ht : take? 1 (write x :: samples.map write) = some ([write x], samples.map write) :=
      take?_append [write x] _
    simp [readAll, ht, hi, h]

-- Only whole pairs of samples are encoded, and only as many as the length in the header can tell.
theorem encode_eq_ok_iff {content : Bytes} : encode samples rate = .ok content ↔
    (samples.length % 2 = 0 ∧ samples.length + 36 < 2 ^ 32) ∧
      header samples.length rate ++ samples.map level = content := by
  have hs : UInt32.size ≤ samples.length + (headerLength - 8) ↔ ¬samples.length + 36 < 2 ^ 32 :=
    Nat.not_lt.symm
  unfold encode
  split
  case isTrue ho => exact ⟨nofun, fun h => by omega⟩
  case isFalse ho =>
    have he : samples.length % 2 = 0 := by omega
    split
    case isTrue hl  => exact ⟨nofun, fun h => absurd h.left.right (hs.mp hl)⟩
    case isFalse hl =>
      have hl := Decidable.not_not.mp (mt hs.mpr hl)
      exact ⟨fun h => ⟨⟨he, hl⟩, Except.ok.inj h⟩, fun h => congrArg _ h.right⟩

theorem open?_encode {content : Bytes} (hr : rate < 2 ^ 31) (h : encode samples rate = .ok content) :
    open? content = some (plain, samples.length, samples.map level) := by
  obtain ⟨⟨he, hl⟩, rfl⟩ := encode_eq_ok_iff.mp h
  exact open?_header hr hl he

-- What was encoded is decoded, down to a file without samples.
theorem decode_encode {content : Bytes} (hr : rate < 2 ^ 31) (h : encode samples rate = .ok content) :
    decode content = .ok samples := by
  have hs : sample? plain = some fun bytes => ofLevel (bytes.headD silence) := rfl
  rw [decode, open?_encode hr h]
  dsimp only
  rw [if_neg (by decide), hs]
  split
  case isTrue hn => rw [List.eq_nil_of_length_eq_zero hn]
  case isFalse   => exact readAll_map [] ofLevel_level

end Wav

end RadioSpectrum
