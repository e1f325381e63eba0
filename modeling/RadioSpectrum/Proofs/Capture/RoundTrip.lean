import RadioSpectrum.Capture
import RadioSpectrum.Proofs.Capture.Wav
import RadioSpectrum.Proofs.CommandLine.Desk

namespace RadioSpectrum

namespace Capture

variable {rate : Nat} {path : String} {samples : List Int8} {content : Bytes} {format : Format}
variable {m : Type → Type} [Monad m] [Files m]

theorem ofPath_eq_wav_iff : Format.ofPath path = .wav ↔
    ∃ e, Path.extension? path = some e ∧ e.toLower = "wav" := by
  simp [Format.ofPath, Path.hasExtension, Option.any_eq_true]

theorem decode_encode (hr : rate < 2 ^ 31) (h : encode format samples rate = .ok content) :
    decode format content = .ok samples := by
  cases format
  case bare =>
    cases h
    simp [decode, Function.comp_def]
  case wav => exact Wav.decode_encode hr h

def Fault.ofWrite (path : String) (e : FileError) : Fault :=
  if Format.ofPath path = .wav then .unopened e else .unwritable path e

theorem write_of_error {fault} (h : encode (.ofPath path) samples rate = .error fault) :
    write (m := m) path samples rate = throw (.wav fault) := by
  simp only [write, h]

-- Writing a capture is writing what it is encoded as.
theorem write_eq [LawfulMonad m] (h : encode (.ofPath path) samples rate = .ok content) :
    write (m := m) path samples rate =
      (ExceptT.mk (Files.write path content)).adapt (.ofWrite path) := by
  rw [← liftM_bind_eq_adapt]
  simp only [write, h]
  congr
  funext r
  cases r <;> rfl

theorem read_write [LawfulMonad m] [LawfulFiles m] (hr : rate < 2 ^ 31) :
    (do write path samples rate; read path : ExceptT Fault m (List Int8)) =
      (do write path samples rate; return samples) := by
  cases he : encode (.ofPath path) samples rate
  case error fault =>
    rw [write_of_error he]
    apply ExceptT.ext
    simp
  case ok content =>
    rw [write_eq he]
    refine (read_adapt_write path _ _ _).trans ?_
    simp only [decode_encode hr he]

theorem exists_encode_iff : (∃ content, encode format samples rate = .ok content) ↔
    (format = .wav → samples.length % 2 = 0 ∧ samples.length + 36 < 2 ^ 32) := by
  cases format
  case bare => simp [encode]
  case wav  => simp [encode, Wav.encode_eq_ok_iff]

-- Any file but a WAV file holds the samples as they are. A WAV file holds two channels of unsigned
-- bytes, each of them 128 above its sample.
inductive Holds (xs : List Int8) : Format → Bytes → Prop
  | bare {content : Bytes} (same : content.map (·.toInt8) = xs) : Holds xs .bare content
  | wav {content levels : Bytes} (opened : Wav.open? content =
      some ({ channels := 2, width := 1, bits := 8, isFloat := false }, xs.length, levels))
    (above : levels.map (fun b => (b.toNat : Int)) = xs.map fun x => x.toInt + 128) :
    Holds xs .wav content

theorem holds_of_encode (hr : rate < 2 ^ 31) (h : encode format samples rate = .ok content) :
    Holds samples format content := by
  cases format
  case bare =>
    cases h
    exact .bare (by simp [Function.comp_def])
  case wav  => exact .wav (Wav.open?_encode hr h) (by simp [Wav.toNat_level])

-- Captures of any length return from files of either layout.
theorem written_capture_returns (m : Type → Type) [Monad m] [LawfulMonad m] [Files m]
    [LawfulFiles m] (hr : rate < 2 ^ 31) (path : String) (samples : List Int8) :
    (do write path samples rate; read path : ExceptT Fault m (List Int8)) =
      (do write path samples rate; return samples) ∧
    (Format.ofPath path = .wav ↔ ∃ e, Path.extension? path = some e ∧ e.toLower = "wav") ∧
    ((∃ content, encode (.ofPath path) samples rate = .ok content) ↔
      (Format.ofPath path = .wav → samples.length % 2 = 0 ∧ samples.length + 36 < 2 ^ 32)) ∧
    ∀ content, encode (.ofPath path) samples rate = .ok content →
      Holds samples (.ofPath path) content ∧ decode (.ofPath path) content = .ok samples ∧
        write (m := m) path samples rate =
          (ExceptT.mk (Files.write path content)).adapt (.ofWrite path) :=
  ⟨read_write hr, ofPath_eq_wav_iff, exists_encode_iff,
    fun _ he => ⟨holds_of_encode hr he, decode_encode hr he, write_eq he⟩⟩

section Loud

def loud : String := "/srv/sdr/a.WAV"

theorem locate_loud : Desk.shelf.disk.locate loud = .ok ["srv", "sdr", "a.WAV"] :=
  toOption_eq_some.mp (by decide +kernel)

theorem extension?_loud : Path.extension? loud = some "WAV" := by
  with_unfolding_all rfl

theorem toLower_loud : "WAV".toLower = "wav" :=
  String.ext (String.toList_map.trans (by decide))

-- Both ends of the scale, in a file whose extension is in capital letters.
theorem written_capture_returns_loud :
    2000000 < 2 ^ 31 ∧ Format.ofPath loud = .wav ∧
    ∃ desk,
      (write (m := StateM Desk) loud [-128, 127, 0, -1] 2000000).run.run .shelf = (.ok (), desk) ∧
      (read (m := StateM Desk) loud).run.run desk = (.ok [-128, 127, 0, -1], desk) := by
  have hr : 2000000 < 2 ^ 31 := by decide
  obtain ⟨returns, hw, he, hc⟩ :=
    written_capture_returns (StateM Desk) hr loud [-128, 127, 0, -1]
  have hf := hw.mpr ⟨_, extension?_loud, toLower_loud⟩
  obtain ⟨content, he⟩ := he.mpr fun _ => ⟨rfl, by simp⟩
  obtain ⟨disk, hd⟩ := Desk.exists_write_shelf locate_loud (by decide +kernel) content
  have h := (hc content he).right.right ▸ Desk.run_adapt_write hd _
  exact ⟨hr, hf, _, h, Desk.run_of_bind_eq returns h⟩

end Loud

end Capture

end RadioSpectrum
