import Keyfile.Log.Pattern.Escape

namespace Keyfile

namespace Pattern

/-- What is read of a class in brackets: the number of items after the last operator, the depth of
the deepest of them, the depth of what stands before that operator, and whether only hyphens have
been read. -/
structure Bracket where
  items : Nat
  depth : Nat
  left? : Option Nat
  isOpening : Bool
deriving DecidableEq, Repr

namespace Bracket

def total (b : Bracket) : Nat :=
  let right := if b.items ≤ 1 then b.depth else b.depth + 1
  match b.left? with
  | some left => max left right + 1
  | none => right

def add (b : Bracket) (depth : Nat) : Bracket :=
  { b with items := b.items + 1, depth := max b.depth depth, isOpening := false }

def operator (b : Bracket) : Bracket := ⟨0, 0, some b.total, false⟩

end Bracket

def classNames : List Text :=
  [chars "alnum", chars "alpha", chars "ascii", chars "blank", chars "cntrl", chars "digit",
    chars "graph", chars "lower", chars "print", chars "punct", chars "space", chars "upper",
    chars "word", chars "xdigit"]

/-- A class named between colons, after its opening bracket: whether all others are meant, and
what follows. -/
def namedClass? : Text → Option (Bool × Text)
  | ':' :: t =>
    let isNegated : Bool := t.head? = some '^'
    let t := if isNegated then t.tail else t
    let name := t.takeWhile (· ≠ ':')
    match t.drop name.length with
    | ':' :: ']' :: rest => if classNames.contains name then some (isNegated, rest) else none
    | _ => none
  | _ => none

/-- A character or a class without brackets, which gives `none`, and what follows. -/
def member? (f : Flags) : Text → Option (Option Char × Text)
  | [] => none
  | '\\' :: rest =>
    match escape? f rest with
    | some (.character c _, rest) => if f.allowsInBrackets c then some (some c, rest) else none
    | some (.characterClass isNegated, rest) =>
      if f.allowsClass isNegated then some (none, rest) else none
    | _ => none
  | c :: rest => if f.allowsInBrackets c then some (some c, rest) else none

def afterRange? (f : Flags) (t : Text) : Option Text :=
  match member? f t with
  | none => none
  | some (first?, rest) =>
    match f.skip rest with
    | '-' :: next =>
      if f.peek next = some ']' || f.peek next = some '-' then some ('-' :: next)
      else match first?, member? f (f.skip next) with
        | some first, some (some last, rest) =>
          if first.toNat ≤ last.toNat then some rest else none
        | _, _ => none
    | rest => some rest

def opened? (f : Flags) (t : Text) : Option (Bracket × Text) :=
  match f.skip t with
  | '^' :: rest => if f.allowsOthers then some (⟨0, 0, none, true⟩, rest) else none
  | rest => some (⟨0, 0, none, true⟩, rest)

/-- The depth of a class with those around it, and what follows it. The number bounds the steps
that reading it takes. -/
def bracketFrom? (f : Flags) : Nat → Bracket → List Bracket → Text → Option (Nat × Text)
  | 0, _, _, _ => none
  | steps + 1, b, outer, t =>
    match f.skip t with
    | [] => none
    | '[' :: rest =>
      match namedClass? rest with
      | some (isNegated, rest) =>
        if f.allowsNamedClass isNegated then bracketFrom? f steps (b.add 0) outer rest else none
      | none =>
        match opened? f rest with
        | some (inner, rest) => bracketFrom? f steps inner (b :: outer) rest
        | none => none
    | ']' :: rest =>
      if b.isOpening && b.items = 0 then
        if f.allowsInBrackets ']' then bracketFrom? f steps (b.add 0) outer rest else none
      else match outer with
        | [] => some (b.total + 1, rest)
        | o :: outer => bracketFrom? f steps (o.add (b.total + 1)) outer rest
    | '&' :: '&' :: rest => bracketFrom? f steps b.operator outer rest
    | '~' :: '~' :: rest => bracketFrom? f steps b.operator outer rest
    | '-' :: rest =>
      if b.isOpening then
        if f.allowsInBrackets '-' then
          bracketFrom? f steps { b.add 0 with isOpening := true } outer rest
        else none
      else match rest with
        | '-' :: rest => bracketFrom? f steps b.operator outer rest
        | _ =>
          match afterRange? f ('-' :: rest) with
          | some rest => bracketFrom? f steps (b.add 0) outer rest
          | none => none
    | t =>
      match afterRange? f t with
      | some rest => bracketFrom? f steps (b.add 0) outer rest
      | none => none

def bracket? (f : Flags) (t : Text) : Option (Nat × Text) :=
  (opened? f t).bind fun (b, rest) => bracketFrom? f (rest.length + 1) b [] rest

end Pattern

end Keyfile
