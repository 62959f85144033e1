import Keyfile.Text.Basic
import Keyfile.Text.PrintTable

namespace Keyfile

/-- A character inside quotes of a given kind. -/
def quotedChar (quote c : Char) : Text :=
  if c = '\x00' then ['\\', '0']
  else if c = '\t' then ['\\', 't']
  else if c = '\r' then ['\\', 'r']
  else if c = '\n' then ['\\', 'n']
  else if c = quote || c = '\\' then ['\\', c]
  else if inRanges extendingRanges c.toNat || inRanges unprintableRanges c.toNat then
    ['\\', 'u', '{'] ++ Nat.toDigits 16 c.toNat ++ ['}']
  else [c]

def quoteChar (c : Char) : Text := ['\''] ++ quotedChar '\'' c ++ ['\'']

def quoteText (t : Text) : Text := ['"'] ++ t.flatMap (quotedChar '"') ++ ['"']

def quoteList (ts : List Text) : Text :=
  ['['] ++ List.intercalate [',', ' '] (ts.map quoteText) ++ [']']

end Keyfile
