import Keyfile.Text.Basic

namespace Keyfile

/-- The JSON values that are written: texts, lists and objects. -/
inductive Json where
  | text (t : Text)
  | list (items : List Json)
  | object (fields : List (Text × Json))

namespace Json

def escapeChar (c : Char) : Text :=
  if c = '"' then ['\\', '"']
  else if c = '\\' then ['\\', '\\']
  else if c = '\x08' then ['\\', 'b']
  else if c = '\x0c' then ['\\', 'f']
  else if c = '\n' then ['\\', 'n']
  else if c = '\r' then ['\\', 'r']
  else if c = '\t' then ['\\', 't']
  else if c.toNat < 0x20 then
    ['\\', 'u', '0', '0', Nat.digitChar (c.toNat / 16), Nat.digitChar (c.toNat % 16)]
  else [c]

def escape (t : Text) : Text := ['"'] ++ t.flatMap escapeChar ++ ['"']

def lineBreak (level : Nat) : Text := '\n' :: List.replicate (2 * level) ' '

def bracket (opening closing : Char) (level : Nat) : List Text → Text
  | [] => [opening, closing]
  | items =>
    [opening] ++ lineBreak (level + 1) ++ List.intercalate ([','] ++ lineBreak (level + 1)) items ++
      lineBreak level ++ [closing]

mutual

def render (level : Nat) : Json → Text
  | text t => escape t
  | list items => bracket '[' ']' level (renderItems (level + 1) items)
  | object fields => bracket '{' '}' level (renderFields (level + 1) fields)

def renderItems (level : Nat) : List Json → List Text
  | [] => []
  | j :: rest => render level j :: renderItems level rest

def renderFields (level : Nat) : List (Text × Json) → List Text
  | [] => []
  | (name, j) :: rest => (escape name ++ [':', ' '] ++ render level j) :: renderFields level rest

end

end Json

end Keyfile
