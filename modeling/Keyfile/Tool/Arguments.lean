import Keyfile.Disk

namespace Keyfile

inductive Command where
  | create (comments : List Text)
  | get (sectionName key : Text)
  | set (sectionName key : Text) (values : List Text)
  | sections
  | keys (sectionName : Text)
  | check (sectionName : Text) (key? : Option Text)
  | read (sectionName : Text)
  | dump
deriving DecidableEq, Repr

structure Invocation where
  file : Path
  stagingDir? : Option Path
  command : Command
deriving DecidableEq, Repr

inductive Demand where
  | help
  | version
  | misuse
  | run (invocation : Invocation)
deriving DecidableEq, Repr

inductive Word where
  | separator
  | long (name : Text) (value? : Option Text)
  | short (letter : Char) (rest : Text)
  | plain (t : Text)
deriving DecidableEq, Repr

namespace Word

/-- A long option cut at its first equals sign. -/
def ofLong (t : Text) : Word :=
  match t.dropWhile (· ≠ '=') with
  | [] => long t none
  | _ :: value => long (t.takeWhile (· ≠ '=')) (some value)

/-- The shape of an argument. A hyphen alone is plain. -/
def ofText : Text → Word
  | ['-', '-'] => separator
  | '-' :: '-' :: t => ofLong t
  | '-' :: c :: rest => short c rest
  | t => plain t

def attached? : Text → Option Text
  | [] => none
  | '=' :: value => some value
  | value => some value

end Word

structure Leading where
  file? : Option Path
  stagingDir? : Option Path
deriving DecidableEq, Repr

inductive LeadingOption where
  | file
  | stagingDir
deriving DecidableEq, Repr

namespace Leading

/-- An option given a value. It may be given once, and the value may not be empty. -/
def give (g : Leading) (o : LeadingOption) (value : Text) : Option Leading :=
  if value.isEmpty then none
  else match o with
    | .file => if g.file?.isSome then none else some { g with file? := some (encode value) }
    | .stagingDir =>
      if g.stagingDir?.isSome then none else some { g with stagingDir? := some (encode value) }

end Leading

structure Operands where
  texts : List Text
  comments : List Text
deriving DecidableEq, Repr

inductive CommandName where
  | create
  | get
  | set
  | sections
  | keys
  | check
  | read
  | dump
deriving DecidableEq, Repr

namespace CommandName

def ofWord? (word : Text) : Option CommandName :=
  if word = chars "create" then some create
  else if word = chars "get" then some get
  else if word = chars "set" then some set
  else if word = chars "sections" then some sections
  else if word = chars "keys" then some keys
  else if word = chars "exists" then some check
  else if word = chars "read" then some read
  else if word = chars "dump" then some dump
  else none

/-- A command takes so many texts and no more, or any number of them. -/
def most? : CommandName → Option Nat
  | create | sections | dump => some 0
  | keys | read => some 1
  | get | check => some 2
  | set => none

def takesComments (name : CommandName) : Bool := name = create

def command? (name : CommandName) (o : Operands) : Option Command :=
  match name, o.texts with
  | create, _ => some (.create o.comments)
  | get, [s, k] => some (.get s k)
  | set, s :: k :: values => some (.set s k values)
  | sections, _ => some .sections
  | keys, [s] => some (.keys s)
  | check, s :: rest => some (.check s rest.head?)
  | read, [s] => some (.read s)
  | dump, _ => some .dump
  | _, _ => none

end CommandName

namespace Operands

def addText (o : Operands) (name : CommandName) (t : Text) : Option Operands :=
  if name.most?.all (o.texts.length < ·) then some { o with texts := o.texts ++ [t] } else none

def addComment (o : Operands) (t : Text) : Operands := { o with comments := o.comments ++ [t] }

def addAll (o : Operands) (name : CommandName) : List Text → Except Demand Operands
  | [] => .ok o
  | t :: rest =>
    match o.addText name t with
    | none => .error .misuse
    | some o => addAll o name rest

/-- The arguments after a command's name. `awaiting` tells that the last one asks for a comment
that stands in an argument of its own. -/
def read (name : CommandName) (awaiting : Bool) (o : Operands) :
    List Text → Except Demand Operands
  | [] => if awaiting then .error .misuse else .ok o
  | t :: rest =>
    match Word.ofText t with
    | .plain t =>
      if awaiting then read name false (o.addComment t) rest
      else match o.addText name t with
        | none => .error .misuse
        | some o => read name false o rest
    | .separator => if awaiting then .error .misuse else o.addAll name rest
    | .long option value? =>
      if awaiting then .error .misuse
      else if option = chars "help" then .error (if value?.isNone then .help else .misuse)
      else if name.takesComments && option = chars "comment" then
        match value? with
        | some value => read name false (o.addComment value) rest
        | none => read name true o rest
      else .error .misuse
    | .short letter value =>
      if awaiting then .error .misuse
      else if letter = 'h' then .error .help
      else if name.takesComments && letter = 'c' then
        match Word.attached? value with
        | some value => read name false (o.addComment value) rest
        | none => read name true o rest
      else .error .misuse

end Operands

def demandHelp : List Text → Demand
  | [] => .help
  | [word] =>
    if (CommandName.ofWord? word).isSome || word = chars "help" then .help else .misuse
  | _ => .misuse

def demandCommand (g : Leading) (word : Text) (rest : List Text) : Demand :=
  match CommandName.ofWord? word with
  | none => if word = chars "help" then demandHelp rest else .misuse
  | some name =>
    match Operands.read name false ⟨[], []⟩ rest with
    | .error demand => demand
    | .ok operands =>
      match name.command? operands, g.file? with
      | some command, some file => .run ⟨file, g.stagingDir?, command⟩
      | _, _ => .misuse

/-- What arguments ask for. `awaiting?` is the option that the last one leaves without a value. -/
def demandAfter (awaiting? : Option LeadingOption) (g : Leading) : List Text → Demand
  | [] => .misuse
  | t :: rest =>
    match Word.ofText t, awaiting? with
    | .plain value, some o =>
      match g.give o value with
      | none => .misuse
      | some g => demandAfter none g rest
    | _, some _ => .misuse
    | .plain word, none => demandCommand g word rest
    | .separator, none => .misuse
    | .long name value?, none =>
      if name = chars "help" then if value?.isNone then .help else .misuse
      else if name = chars "version" then if value?.isNone then .version else .misuse
      else
        let option? : Option LeadingOption :=
          if name = chars "file" then some .file
          else if name = chars "temp-dir" then some .stagingDir
          else none
        match option?, value? with
        | none, _ => .misuse
        | some o, none => demandAfter (some o) g rest
        | some o, some value =>
          match g.give o value with
          | none => .misuse
          | some g => demandAfter none g rest
    | .short letter value, none =>
      if letter = 'h' then .help
      else if letter = 'V' then .version
      else if letter = 'f' then
        match Word.attached? value with
        | none => demandAfter (some .file) g rest
        | some value =>
          match g.give .file value with
          | none => .misuse
          | some g => demandAfter none g rest
      else .misuse

def Demand.ofArguments (arguments : List Text) : Demand :=
  demandAfter none ⟨none, none⟩ arguments

end Keyfile
