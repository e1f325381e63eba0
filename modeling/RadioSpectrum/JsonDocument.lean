namespace RadioSpectrum

-- A JSON value. Numbers and constants are given by their text.
inductive JsonDocument where
  | verbatim (text : String)
  | string (s : String)
  | list (items : List JsonDocument)
  | object (fields : List (String × JsonDocument))

namespace JsonDocument

def escaped (c : Char) : String :=
  match c with
  | '"' => "\\\""
  | '\\' => "\\\\"
  | '\n' => "\\n"
  | '\r' => "\\r"
  | '\t' => "\\t"
  | '\x08' => "\\b"
  | '\x0c' => "\\f"
  | c =>
    if c.toNat < 0x20 then
      "\\u00" ++ String.ofList [Nat.digitChar (c.toNat / 16), Nat.digitChar (c.toNat % 16)]
    else c.toString

def quoted (s : String) : String :=
  "\"" ++ String.join (s.toList.map escaped) ++ "\""

def newline (depth : Nat) : String :=
  "\n" ++ "".pushn ' ' (2 * depth)

-- Parts on lines of their own between brackets; an empty pair of brackets has no lines.
def block (opening closing : String) (depth : Nat) (parts : List String) : String :=
  if parts.isEmpty then opening ++ closing
  else
    opening ++ newline (depth + 1) ++ String.intercalate ("," ++ newline (depth + 1)) parts
      ++ newline depth ++ closing

mutual

def render (depth : Nat) : JsonDocument → String
  | verbatim text => text
  | string s => quoted s
  | list items => block "[" "]" depth (renderItems (depth + 1) items)
  | object fields => block "\x7b" "\x7d" depth (renderFields (depth + 1) fields)

def renderItems (depth : Nat) : List JsonDocument → List String
  | [] => []
  | item :: rest => item.render depth :: renderItems depth rest

def renderFields (depth : Nat) : List (String × JsonDocument) → List String
  | [] => []
  | (name, value) :: rest =>
    (quoted name ++ ": " ++ value.render depth) :: renderFields depth rest

end

end JsonDocument

end RadioSpectrum
