import Keyfile.Proofs.Blanks
import Keyfile.Proofs.Escapes
import Keyfile.Sections

namespace Keyfile

/-- The two blanks that are passed over before a key or value. -/
def isGap (c : Char) : Bool := c = ' ' || c = '\t'

/-- A key whose values are not at an end, with those that are there. -/
structure Pending where
  key : Text
  values : List Text
deriving DecidableEq, Repr

namespace Text

def Comment (t : Text) : Prop := t.trimStart.head? = some '#'

instance (t : Text) : Decidable t.Comment := inferInstanceAs (Decidable (_ = _))

/-- The first character but for gaps is an opening bracket. -/
def StartsBracket (t : Text) : Prop := (t.dropWhile isGap).head? = some '['

instance (t : Text) : Decidable t.StartsBracket := inferInstanceAs (Decidable (_ = _))

/-- All of the text but for blanks at its ends stands between one pair of brackets, and the name
is what they enclose. -/
def Names (t name : Text) : Prop :=
  ∃ inner, t.trim = '[' :: (inner ++ [']']) ∧ '[' ∉ inner ∧ ']' ∉ inner ∧ name = normalName inner

/-- The text is a key, a bare equals sign and values, and has no other bare equals sign. -/
structure Assigns (t left right : Text) : Prop where
  split : t = left ++ '=' :: right
  even : ¬ left.Escapes
  once : ¬ left.HasBare '='
  rest : ¬ right.HasBare '='
  no_comma : ¬ left.HasBare ','

/-- The text cut at its bare commas: the pieces that a comma ends, and what is left. -/
inductive Cuts : Text → List Text → Text → Prop
  | none {t : Text} : ¬ t.HasBare ',' → Cuts t [] t
  | next {t rest last : Text} {pieces : List Text} : ¬ t.HasBare ',' → ¬ t.Escapes →
      Cuts rest pieces last → Cuts (t ++ ',' :: rest) (t :: pieces) last

end Text

/-- What a line of values leaves: the key stays open after a comma with nothing but gaps behind
it, else the entry is complete. -/
def Pending.after (p : Pending) (pieces : List Text) (last : Text) : Option Pending × Option Item :=
  if pieces ≠ [] ∧ last.all isGap then
    (some ⟨p.key, p.values ++ pieces.map Text.trim⟩, none)
  else (none, some (.entry p.key (p.values ++ pieces.map Text.trim ++ [last.trim])))

/-- What a line may be, the key that is open before and after it, and what it completes.
`inSection` tells that a section is named before it. -/
inductive Reads (inSection : Bool) :
    Option Pending → Text → Option Pending → Option Item → Prop
  | skip {open? : Option Pending} {t : Text} : t = [] ∨ t.Comment → Reads inSection open? t open? none
  | blank {t : Text} : t.Blank → Reads inSection none t none none
  | lastBlank {p : Pending} {t : Text} : t ≠ [] → t.Blank →
      Reads inSection (some p) t none (some (.entry p.key (p.values ++ [[]])))
  | heading {t name : Text} : t.StartsBracket → t.Names name →
      Reads inSection none t none (some (.heading name))
  | entry {t left right last : Text} {pieces : List Text} {open? : Option Pending}
      {item? : Option Item} :
      ¬ t.Blank → ¬ t.Comment → ¬ t.StartsBracket → inSection → ¬ t.Escapes → ¬ t.HasBare '[' →
      t.Assigns left right → right.Cuts pieces last →
      Pending.after ⟨normalName left, []⟩ pieces last = (open?, item?) →
      Reads inSection none t open? item?
  | values {p : Pending} {t last : Text} {pieces : List Text} {open? : Option Pending}
      {item? : Option Item} :
      ¬ t.Blank → ¬ t.Comment → ¬ t.Escapes → ¬ t.HasBare '[' → ¬ t.HasBare '=' →
      t.Cuts pieces last → p.after pieces last = (open?, item?) →
      Reads inSection (some p) t open? item?

/-- Lines that are accepted, and the sections that they make of given ones. `name?` is the section
that entries go to, and `open?` the key that is open. -/
inductive Accepted :
    Option Text → Option Pending → Sections → List Line → Sections → Prop
  | done {name? : Option Text} {s : Sections} : Accepted name? none s [] s
  | quiet {name? : Option Text} {open? open'? : Option Pending} {s s' : Sections} {line : Line}
      {rest : List Line} :
      Reads name?.isSome open? line.text open'? none → Accepted name? open'? s rest s' →
      Accepted name? open? s (line :: rest) s'
  | heading {name? : Option Text} {open? open'? : Option Pending} {s s' : Sections} {line : Line}
      {name : Text} {rest : List Line} :
      Reads name?.isSome open? line.text open'? (some (.heading name)) →
      Accepted (some name) open'? (s.insert name ∅) rest s' →
      Accepted name? open? s (line :: rest) s'
  | entry {name key : Text} {values : List Text} {open? open'? : Option Pending} {s s' : Sections}
      {line : Line} {rest : List Line} :
      Reads true open? line.text open'? (some (.entry key values)) →
      Accepted (some name) open'? (s.put name key values) rest s' →
      Accepted (some name) open? s (line :: rest) s'

end Keyfile
