import RadioSpectrum.CommandLine.Run

namespace RadioSpectrum

namespace CommandLine

def usage : String :=
  "Usage: sdrflow run [OPTIONS]\n" ++
  "       sdrflow generate [OPTIONS] --output <OUTPUT>\n" ++
  "       sdrflow params [OPTIONS]\n"

def versionText : String :=
  "sdrflow 0.1.0"

variable {m : Type → Type} [Monad m] [Files m] [Console m]

def Request.perform : Request → Command m Unit
  | help => (Console.print usage : m Unit)
  | version => Command.say versionText
  | run r => r.perform
  | generate r output => r.perform output
  | params r => r.perform

-- The exit code: 0 if all went well, 1 for a failure, 2 for arguments that ask for nothing.
def execute (arguments : List String) : m Nat :=
  match Request.ofArguments? arguments with
  | none => do
    Console.complain usage
    return 2
  | some request => do
    match ← request.perform.run with
    | .ok () => return 0
    | .error failure =>
      Console.complain failure.report
      return 1

end CommandLine

end RadioSpectrum
