import Keyfile.Log.Pattern.Brackets
import Keyfile.Log.Pattern.Opening

namespace Keyfile

namespace Pattern

def depthLimit : Nat := 250

/-- What is read of a group: the flags around it, the depth of its deepest branch before the last,
the number of items of the last branch, the depth of the deepest of them, and the depth of the
last of them if it can be repeated. -/
structure Group where
  around : Flags
  earlier? : Option Nat
  items : Nat
  depth : Nat
  last? : Option Nat
deriving DecidableEq, Repr

namespace Group

def start (around : Flags) : Group := ⟨around, none, 0, 0, none⟩

def branch (g : Group) : Nat := if g.items ≤ 1 then g.depth else g.depth + 1

def total (g : Group) : Nat :=
  match g.earlier? with
  | some earlier => max earlier g.branch + 1
  | none => g.branch

def add (g : Group) (depth : Nat) : Group :=
  { g with items := g.items + 1, depth := max g.depth depth, last? := some depth }

/-- Flags more, which are an item that cannot be repeated. -/
def addFlags (g : Group) : Group := { g with items := g.items + 1, last? := none }

def repeated? (g : Group) : Option Group :=
  g.last?.map fun last =>
    { g with depth := max g.depth (last + 1), last? := some (last + 1) }

def nextBranch (g : Group) : Group :=
  ⟨g.around, some (max (g.earlier?.getD 0) g.branch), 0, 0, none⟩

end Group

def Escape.isAllowed (f : Flags) : Escape → Bool
  | character c isByte => f.allows c isByte
  | characterClass isNegated => f.allowsClass isNegated
  | boundary => f.allowsBoundary
  | anchor => true

/-- A text ends a pattern, of which a group and those around it are open and names are given. The
number bounds the steps that reading it takes. -/
def endsPattern : Nat → Flags → List Text → Group → List Group → Text → Bool
  | 0, _, _, _, _, _ => false
  | steps + 1, f, names, g, outer, t =>
    match f.skip t with
    | [] => outer.isEmpty && g.total ≤ depthLimit
    | '(' :: rest =>
      match opening? f rest with
      | some (.flags f, rest) => endsPattern steps f names g.addFlags outer rest
      | some (.group inner none, rest) =>
        endsPattern steps inner names (.start f) (g :: outer) rest
      | some (.group inner (some name), rest) =>
        !names.contains name && endsPattern steps inner (name :: names) (.start f) (g :: outer) rest
      | none => false
    | ')' :: rest =>
      match outer with
      | o :: outer => endsPattern steps g.around names (o.add (g.total + 1)) outer rest
      | [] => false
    | '|' :: rest => endsPattern steps f names g.nextBranch outer rest
    | '[' :: rest =>
      match bracket? f rest with
      | some (depth, rest) => endsPattern steps f names (g.add depth) outer rest
      | none => false
    | '\\' :: rest =>
      match escape? f rest with
      | some (e, rest) => e.isAllowed f && endsPattern steps f names (g.add 0) outer rest
      | none => false
    | '.' :: rest => f.allowsOthers && endsPattern steps f names (g.add 0) outer rest
    | '^' :: rest => endsPattern steps f names (g.add 0) outer rest
    | '$' :: rest => endsPattern steps f names (g.add 0) outer rest
    | c :: rest =>
      if c = '*' || c = '+' || c = '?' then
        match g.repeated? with
        | some g =>
          endsPattern steps f names g outer (if rest.head? = some '?' then rest.tail else rest)
        | none => false
      else c ≠ '{' && f.allows c false && endsPattern steps f names (g.add 0) outer rest

def isPattern (t : Text) : Bool :=
  endsPattern (t.length + 1) .usual [] (.start .usual) [] t

end Pattern

end Keyfile
