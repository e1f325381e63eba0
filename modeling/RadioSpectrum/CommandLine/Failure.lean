import RadioSpectrum.Capture
import RadioSpectrum.CommandLine.Console
import RadioSpectrum.Control.Widget
import RadioSpectrum.Flowgraph.Config
import RadioSpectrum.Flowgraph.Stream

namespace RadioSpectrum

namespace CommandLine

inductive Failure where
  | config (error : ConfigError Float)
  | control (error : ControlError Float)
  | stream (error : StreamError Float)
  | capture (fault : Capture.Fault)
  -- A chunk of this size may never fit beside a part of a window.
  | chunkSize (chunk limit capacity : Nat)
  | noInput
  | unknownFormat (path : String)
  | badValue (raw id : String)
  -- A chunk does not fit beside samples that make up no window.
  | stuck (chunk buffered window : Nat)
  | noSpectrum
  | unwritable (path : String) (error : FileError)
  | noRate
  | noDuration
  | toneOutside (freq limit : Float) (rate : Nat)

namespace Failure

def message : Failure → String
  | config error => error.message
  | control error => error.message
  | stream error => error.message
  | capture fault => fault.message
  | chunkSize chunk limit capacity =>
    s!"chunk size {chunk} must be between 1 and {limit} (buffer capacity {capacity} "
      ++ "less a partial window)"
  | noInput => "No input specified. Use --input or --tone"
  | unknownFormat path => "cannot infer export format from '" ++ path ++ "'; use --format"
  | badValue raw id => "invalid value '" ++ raw ++ "' for '" ++ id ++ "'"
  | stuck chunk buffered window =>
    s!"chunk of {chunk} samples cannot fit beside {buffered} buffered samples (window {window})"
  | noSpectrum => "no spectrum to export: fewer samples than one window"
  | unwritable path error => "failed to write " ++ path ++ ": " ++ error.message
  | noRate => "sample rate must be positive"
  | noDuration => "duration must be a positive number of seconds"
  | toneOutside freq limit rate =>
    "tone offset " ++ Binary.text freq ++ " Hz is outside +/-" ++ Binary.text limit
      ++ s!" Hz at {rate} S/s"

def cause? : Failure → Option String
  | config error => error.cause?
  | control error => error.cause?
  | _ => none

def ofFeed : Flowgraph.FeedFault Float → Failure
  | .stuck chunk buffered window => stuck chunk buffered window
  | .refused error => stream error

def report (f : Failure) : String :=
  "Error: " ++ f.message ++ f.cause?.elim "" ("\n\nCaused by:\n    " ++ ·) ++ "\n"

end Failure

-- A command. It may fail, and what it printed before stays printed.
abbrev Command (m : Type → Type) := ExceptT Failure m

namespace Command

variable {m : Type → Type} [Monad m] {ε β : Type}

def say [Console m] (line : String) : Command m Unit :=
  (Console.print (line ++ "\n") : m Unit)

def expect (f : ε → Failure) (r : Except ε β) : Command m β :=
  .mk (pure (r.mapError f))

def within (f : ε → Failure) (r : ExceptT ε m β) : Command m β :=
  .mk do return (← r.run).mapError f

end Command

end CommandLine

end RadioSpectrum
