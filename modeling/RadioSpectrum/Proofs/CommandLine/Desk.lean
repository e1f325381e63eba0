import Mathlib.Control.Monad.Basic
import RadioSpectrum.CommandLine.Console
import RadioSpectrum.Proofs.Files

namespace RadioSpectrum

namespace Desk

theorem run_read (desk : Desk) (path : String) :
    (Files.read path : StateM Desk _).run desk = pure (desk.disk.read path, desk) :=
  rfl

theorem run_write (desk : Desk) (path : String) (content : Bytes) :
    (Files.write path content : StateM Desk _).run desk =
      match desk.disk.write path content with
      | .error e => pure (.error e, desk)
      | .ok disk => pure (.ok (), { desk with disk }) := by
  cases h : desk.disk.write path content <;> simp [Files.write, h]

theorem run_adapt_write {ε : Type} {desk : Desk} {disk : Disk} {path : String} {content : Bytes}
    (h : desk.disk.write path content = .ok disk) (f : FileError → ε) :
    ((ExceptT.mk (Files.write path content : StateM Desk _)).adapt f).run.run desk =
      (.ok (), { desk with disk }) := by
  simp [ExceptT.run_adapt, run_write, h]
  rfl

-- What comes after a step that succeeded.
theorem run_of_bind_eq {ε β : Type} {desk desk' : Desk} {x : ExceptT ε (StateM Desk) Unit}
    {y : ExceptT ε (StateM Desk) β} {b : β} (h : (do x; y) = (do x; return b))
    (hx : x.run.run desk = (.ok (), desk')) : y.run.run desk' = (.ok b, desk') := by
  have h := congrArg (fun z : ExceptT ε (StateM Desk) β => z.run.run desk) h
  simp [ExceptT.run_bind, hx] at h
  exact h

instance : LawfulFiles (StateM Desk) where
  read_write path content := by
    apply ExceptT.ext
    apply StateT.ext
    intro desk
    cases h : desk.disk.write path content
    case error => simp [ExceptT.run_bind, run_write, h]
    case ok => simp [ExceptT.run_bind, run_write, run_read, h, Disk.read_of_write h]

-- A directory in another one.
def shelf : Desk where
  disk := { root := .directory [("srv", .directory [("sdr", .directory [])])] }

theorem exists_write_shelf {path name : String}
    (hl : shelf.disk.locate path = .ok ["srv", "sdr", name])
    (hs : path.endsWith '/' = false) (content : Bytes) :
    ∃ disk, shelf.disk.write path content = .ok disk := by
  have hn : shelf.disk.root.find? ["srv", "sdr", name] = none := rfl
  exact ⟨_, Disk.write_eq_ok.mpr ⟨_, hl, by simp [hn], hs, rfl⟩⟩

end Desk

end RadioSpectrum
