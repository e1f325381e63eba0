namespace RadioSpectrum

abbrev Bytes := List UInt8

namespace Bytes

def ofString (text : String) : Bytes :=
  text.toUTF8.data.toList

def toString? (bytes : Bytes) : Option String :=
  String.fromUTF8? ⟨bytes.toArray⟩

end Bytes

inductive FileError where
  | notFound
  | isDirectory
  | notDirectory
  | nameTooLong
  | notText
  | other (reason : String)
deriving Repr, DecidableEq

namespace FileError

def message : FileError → String
  | notFound => "No such file or directory (os error 2)"
  | isDirectory => "Is a directory (os error 21)"
  | notDirectory => "Not a directory (os error 20)"
  | nameTooLong => "File name too long (os error 36)"
  | notText => "stream did not contain valid UTF-8"
  | other reason => reason

end FileError

class Files (m : Type → Type) where
  read : String → m (Except FileError Bytes)
  write : String → Bytes → m (Except FileError Unit)

namespace Path

def parts (path : String) : List String :=
  (path.toList.splitOn '/').map .ofList

-- The last part of a path. Empty parts and single points at its end do not count.
def name? (path : String) : Option (List Char) :=
  match (parts path).reverse.dropWhile fun part => part = "" ∨ part = "." with
  | [] => none
  | part :: _ => if part = ".." then none else some part.toList

-- What follows the last point of the name. A point in front of the whole name is a part of it.
def extension? (path : String) : Option String := do
  let name ← name? path
  let after := name.reverse.takeWhile (· ≠ '.')
  if after.length + 1 < name.length then some (String.ofList after.reverse) else none

def hasExtension (path extension : String) : Bool :=
  (extension? path).any fun e => e.toLower = extension

end Path

inductive Node where
  | file (content : Bytes)
  | directory (entries : List (String × Node))

namespace Node

def entries : Node → List (String × Node)
  | file _ => []
  | directory entries => entries

-- What stands in a place. A place is given by the names that lead there from the root.
def find? : List String → Node → Option Node
  | [], node => some node
  | name :: place, node => (node.entries.lookup name).bind (find? place)

-- Puts a file in a place, and directories where they are missing on the way there.
def put (content : Bytes) : List String → Node → Node
  | [], _ => .file content
  | name :: place, node =>
    let child := put content place ((node.entries.lookup name).getD (.directory []))
    .directory ((name, child) :: node.entries.filter (·.1 ≠ name))

end Node

-- Files and directories, and the directory from which paths start that do not start from the root.
structure Disk where
  root : Node := .directory []
  working : List String := []

namespace Disk

-- In bytes, as is the length of paths.
def maxNameLength : Nat := 255

def maxPathLength : Nat := 4095

-- The place that the parts of a path lead to from a directory. Only the last part may be missing.
def follow (root : Node) (here : List String) : List String → Except FileError (List String)
  | [] => .ok here
  | part :: rest =>
    if part = "" ∨ part = "." then follow root here rest
    else if part = ".." then follow root here.dropLast rest
    else if maxNameLength < part.utf8ByteSize then .error .nameTooLong
    else if rest = [] then .ok (here ++ [part])
    else
      match root.find? (here ++ [part]) with
      | none => .error .notFound
      | some (.file _) => .error .notDirectory
      | some (.directory _) => follow root (here ++ [part]) rest

-- A stroke at the end plays no part in where a path leads to.
def locate (d : Disk) (path : String) : Except FileError (List String) :=
  if path.toList.contains (Char.ofNat 0) then
    .error (.other "file name contained an unexpected NUL byte")
  else if path = "" then .error .notFound
  else if maxPathLength < path.utf8ByteSize then .error .nameTooLong
  else
    let start := if path.startsWith '/' then [] else d.working
    follow d.root start ((Path.parts path).reverse.dropWhile (· = "")).reverse

def read (d : Disk) (path : String) : Except FileError Bytes := do
  match d.root.find? (← d.locate path) with
  | none => .error .notFound
  | some (.directory _) => .error .isDirectory
  | some (.file content) => if path.endsWith '/' then .error .notDirectory else .ok content

def write (d : Disk) (path : String) (content : Bytes) : Except FileError Disk := do
  let place ← d.locate path
  match d.root.find? place with
  | some (.directory _) => .error .isDirectory
  | some (.file _) | none =>
    if path.endsWith '/' then .error .isDirectory
    else .ok { d with root := d.root.put content place }

end Disk

end RadioSpectrum
