import Keyfile.Log.Pattern.Escape
import Keyfile.Text.LetterTable

namespace Keyfile

namespace Pattern

/-- What a parenthesis opens: a group with its flags and perhaps a name, or flags for what
follows. -/
inductive Opening where
  | group (flags : Flags) (name? : Option Text)
  | flags (flags : Flags)
deriving DecidableEq, Repr

def isGroupName : Text → Bool
  | [] => false
  | c :: rest =>
    (c = '_' || isAlphabetic c) &&
      rest.all fun c => c = '_' || c = '.' || c = '[' || c = ']' || isAlphanumeric c

def isFlagText (t : Text) : Bool :=
  t.all (chars "imsUuRx-").contains && t.eraseDups.length = t.length && t.getLast? ≠ some '-'

def Flags.change (f : Flags) (t : Text) : Flags :=
  let on := t.takeWhile (· ≠ '-')
  let off := t.dropWhile (· ≠ '-')
  let flag (old : Bool) (c : Char) := (old || on.contains c) && !off.contains c
  ⟨flag f.ignoresCase 'i', flag f.isUnicode 'u', flag f.skipsBlanks 'x'⟩

def named? (f : Flags) (t : Text) : Option (Opening × Text) :=
  let name := t.takeWhile (· ≠ '>')
  match t.drop name.length with
  | '>' :: rest => if isGroupName name then some (.group f (some name), rest) else none
  | _ => none

/-- What is opened, and what follows. To look around is not possible. -/
def opening? (f : Flags) (t : Text) : Option (Opening × Text) :=
  match f.skip t with
  | '?' :: 'P' :: '<' :: rest => named? f rest
  | '?' :: '<' :: rest => named? f rest
  | '?' :: rest =>
    let text := rest.takeWhile fun c => c ≠ ':' && c ≠ ')'
    if !isFlagText text then none
    else match rest.drop text.length with
      | ':' :: rest => some (.group (f.change text) none, rest)
      | ')' :: rest => if text = [] then none else some (.flags (f.change text), rest)
      | _ => none
  | rest => some (.group f none, rest)

end Pattern

end Keyfile
