import RadioSpectrum.Files

namespace RadioSpectrum

class Console (m : Type → Type) where
  print : String → m Unit
  complain : String → m Unit

structure Desk where
  disk : Disk := {}
  printed : String := ""
  complaints : String := ""

namespace Desk

instance : Files (StateM Desk) where
  read path := do return (← get).disk.read path
  write path content := do
    match (← get).disk.write path content with
    | .error e => return .error e
    | .ok disk =>
      modify ({ · with disk })
      return .ok ()

instance : Console (StateM Desk) where
  print text := modify fun desk => { desk with printed := desk.printed ++ text }
  complain text := modify fun desk => { desk with complaints := desk.complaints ++ text }

end Desk

end RadioSpectrum
