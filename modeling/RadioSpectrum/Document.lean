namespace RadioSpectrum

inductive Origin where
  | whole
  | heading
  -- Headings for other tables lead through it.
  | passage
  -- Joined keys lead through it.
  | joined
deriving Repr, DecidableEq

-- A document, or a part of one. An open list grows by headings.
inductive Document where
  | boolean (b : Bool)
  | integer (n : Int)
  | text (s : String)
  | list (isOpen : Bool) (items : List Document)
  | table (origin : Origin) (entries : List (String × Document))
  | null
  -- Values that no setting is made of: fractions, dates and times.
  | other

namespace Document

instance : Inhabited Document := ⟨null⟩

structure Dialect where
  -- A list may hold more values than the record has fields.
  allowsSurplus : Bool
  -- What may stand behind the name of a choice that carries nothing.
  isBlank : Document → Bool

def Dialect.sections : Dialect where
  allowsSurplus := true
  isBlank
    | .list _ [] | .table _ [] => true
    | _ => false

def Dialect.nested : Dialect where
  allowsSurplus := false
  isBlank
    | .null => true
    | _ => false

def boolean? : Document → Option Bool
  | boolean b => some b
  | _ => none

def natural? (bound : Nat) : Document → Option Nat
  | integer n => if 0 ≤ n ∧ n < bound then some n.toNat else none
  | _ => none

def choice? {β : Type} (d : Dialect) (ofName? : String → Option β) : Document → Option β
  | text name => ofName? name
  | table _ [(name, content)] => if d.isBlank content then ofName? name else none
  | _ => none

def fields? (d : Dialect) (names : List String) : Document → Option (String → Option Document)
  | table _ entries => some fun name => entries.lookup name
  | list _ items =>
    if d.allowsSurplus ∨ items.length ≤ names.length then
      some fun name => (names.zip items).lookup name
    else none
  | _ => none

def fieldD {β : Type} (field : Option Document) (read : Document → Option β) (default : β) :
    Option β :=
  match field with
  | none => some default
  | some d => read d

end Document

end RadioSpectrum
