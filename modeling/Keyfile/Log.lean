import Keyfile.Text.Basic

namespace Keyfile

inductive Level where
  | trace
  | debug
  | info
  | warn
  | error
deriving DecidableEq, Repr

namespace Level

def word : Level → Text
  | trace => chars "TRACE"
  | debug => chars "DEBUG"
  | info => chars "INFO"
  | warn => chars "WARN"
  | error => chars "ERROR"

def rank : Level → Nat
  | trace => 0
  | debug => 1
  | info => 2
  | warn => 3
  | error => 4

end Level

/-- Something told: how much it matters, what tells it, and what is told. -/
structure Record where
  level : Level
  target : Text
  message : Text
deriving DecidableEq, Repr

namespace Record

/-- A character of a shown message. Those that steer a terminal appear as their code points. -/
def shownChar (c : Char) : Text :=
  if c = '\x1b' || c = '\x07' || c = '\x08' || c = '\x0c' || c = '\x7f' then
    ['\\', 'x', Nat.digitChar (c.toNat / 16), Nat.digitChar (c.toNat % 16)]
  else if 0x80 ≤ c.toNat && c.toNat ≤ 0x9F then
    ['\\', 'u', '{'] ++ Nat.toDigits 16 c.toNat ++ ['}']
  else [c]

def shown (r : Record) : Text :=
  r.level.word ++ [' '] ++ r.target ++ [':', ' '] ++ r.message.flatMap shownChar

end Record

end Keyfile
