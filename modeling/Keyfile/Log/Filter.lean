import Keyfile.Log
import Keyfile.Log.Value
import Keyfile.Text.Utf8

namespace Keyfile

/-- A directive shows the records of a target, or those of them that have a field, from a level
on, or it shows none of them. -/
structure Directive where
  target : Text
  field? : Option Text
  threshold? : Option Level
deriving DecidableEq, Repr

namespace Directive

def concerns (d : Directive) (r : Record) : Bool :=
  d.target.isPrefixOf r.target && d.field?.all (· = chars "message")

def weight (d : Directive) : Nat := 2 * d.target.length + if d.field?.isSome then 1 else 0

end Directive

abbrev Filter := List Directive

namespace Filter

def thresholds : List (Text × Option Level) :=
  [(chars "off", none), (chars "error", some .error), (chars "warn", some .warn),
    (chars "info", some .info), (chars "debug", some .debug), (chars "trace", some .trace)]

def number? (t : Text) : Option Nat :=
  if t = [] || !t.all Char.isDigit then none
  else some (t.foldl (fun n c => 10 * n + (c.toNat - '0'.toNat)) 0)

/-- The threshold that a word or a number stands for. Letters of both cases do, and a plus sign
can stand before a number. -/
def threshold? (word : Text) : Option (Option Level) :=
  match number? (if word.head? = some '+' then word.tail else word) with
  | some n => thresholds[n]?.map (·.2)
  | none => thresholds.lookup (word.map Char.toLower)

def opensDirective : Text → Bool
  | [] => false
  | c :: _ => c = '[' || c = '-' || c = ':' || c = '_' || isAlphanumeric c

/-- What stands in the brackets of a directive: whether it names a span, what it says in braces,
and what follows. -/
structure Brackets where
  namesSpan : Bool
  inBraces : Text
  rest : Text

/-- Reads on after an opening bracket. Brackets without braces name a span even if they are
empty, and braces are not empty. -/
def brackets? (t : Text) : Option Brackets :=
  let span := t.takeWhile fun c => c ≠ ']' && c ≠ '{'
  match t.drop span.length with
  | ']' :: rest => some ⟨true, [], rest⟩
  | '{' :: inner =>
    let inBraces := inner.takeWhile (· ≠ '}')
    match inner.drop inBraces.length with
    | '}' :: ']' :: rest => if inBraces = [] then none else some ⟨!span.isEmpty, inBraces, rest⟩
    | _ => none
  | _ => none

def slice (t : Text) (start stop : Nat) : Text := decode (((encode t).take stop).drop start)

def before (read rest : Text) : Nat := (encode read).length - (encode rest).length

/-- The threshold in what is left of a piece: an equals sign and a level. Everything is shown if
one of them is missing. The level is cut from the piece as it was given, at the place where it
was read. -/
def tail? (piece read : Text) : Text → Option (Option Level)
  | [] => some (some .trace)
  | '=' :: rest =>
    match slice piece (before read rest) (encode piece).length with
    | [] => some (some .trace)
    | word => threshold? word
  | _ => none

/-- The directive of a piece with brackets, if any record can have what it asks for. There are no
spans, and no value of a field is told. -/
def ofBrackets? (piece read target : Text) (b : Brackets) : Option Filter :=
  match tail? piece read b.rest with
  | none => none
  | some threshold? =>
    let stop := before read b.rest - 2
    match cut '=' (slice piece (stop - (encode b.inBraces).length) stop) with
    | _ :: value :: _ => if FieldValue.isValid value then some [] else none
    | fields => some (if b.namesSpan then [] else [⟨target, fields.head?, threshold?⟩])

/-- The directives of one piece: at most one, and none if it asks for what no record has. It is
read without the blanks at its ends, but what it names is cut from the piece as it was given, as
many bytes from the start. A piece that is no directive gives `none`. -/
def ofPiece? (piece : Text) : Option Filter :=
  let read := piece.trim
  let name := read.takeWhile fun c => c ≠ '=' && c ≠ '['
  let target := slice piece 0 (encode name).length
  if !opensDirective read then none
  else match read.drop name.length with
    | [] =>
      match threshold? piece with
      | some t => some [⟨[], none, t⟩]
      | none => some [⟨piece, none, some .trace⟩]
    | '[' :: inside => (brackets? inside).bind (ofBrackets? piece read target)
    | rest => (tail? piece read rest).map fun t => [⟨target, none, t⟩]

def ofText? (t : Text) : Option Filter :=
  (((cut ',' t).filter (!·.isEmpty)).mapM ofPiece?).map List.flatten

def usual : Filter := [⟨[], none, some .warn⟩, ⟨chars "cfgstore", none, some .info⟩]

/-- The filter that the environment asks for. What is not a filter counts as nothing. -/
def ofEnvironment (t? : Option Text) : Filter := (t?.bind ofText?).getD usual

/-- The directive that decides on a record: the one with the longest target, of equal targets one
that asks for a field, and of equal directives the last. -/
def decider (r : Record) (best? : Option Directive) : Filter → Option Directive
  | [] => best?
  | d :: rest =>
    let better := d.concerns r && best?.all fun b => b.weight ≤ d.weight
    decider r (if better then some d else best?) rest

def shows (f : Filter) (r : Record) : Bool :=
  match (decider r none f).bind (·.threshold?) with
  | some l => l.rank ≤ r.level.rank
  | none => false

end Filter

end Keyfile
