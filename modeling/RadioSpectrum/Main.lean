import RadioSpectrum.CommandLine.Program

namespace RadioSpectrum

def FileError.ofMachine (e : IO.Error) : FileError :=
  match e with
  | .noFileOrDirectory .. => .notFound
  | .inappropriateType .. => .isDirectory
  | e => .other (toString e)

def attempt {β γ : Type} (action : IO β) (f : β → γ) : IO (Except FileError γ) := do
  match ← action.toBaseIO with
  | .ok x => return .ok (f x)
  | .error e => return .error (.ofMachine e)

instance : Files IO where
  read path := attempt (IO.FS.readBinFile path) fun content => content.data.toList
  write path content := attempt (IO.FS.writeBinFile path ⟨content.toArray⟩) id

instance : Console IO where
  print text := IO.print text
  complain text := IO.eprint text

end RadioSpectrum

def main (arguments : List String) : IO UInt32 := do
  return .ofNat (← RadioSpectrum.CommandLine.execute arguments)
