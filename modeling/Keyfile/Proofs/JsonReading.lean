import Keyfile.Json

namespace Keyfile

namespace Json

def isSpace (c : Char) : Bool := c = ' ' || c = '\t' || c = '\n' || c = '\r'

def skip (t : Text) : Text := t.dropWhile isSpace

def hexDigit? (c : Char) : Option Nat :=
  let n := c.toNat
  if 48 ≤ n ∧ n ≤ 57 then some (n - 48)
  else if 97 ≤ n ∧ n ≤ 102 then some (n - 87)
  else if 65 ≤ n ∧ n ≤ 70 then some (n - 55)
  else none

def readUnit : Text → Option (Nat × Text)
  | a :: b :: c :: d :: rest => do
    let a ← hexDigit? a
    let b ← hexDigit? b
    let c ← hexDigit? c
    let d ← hexDigit? d
    return (((a * 16 + b) * 16 + c) * 16 + d, rest)
  | _ => none

/-- A character by its code point. One beyond the first 65536 is written as a pair of units from
the ranges of the surrogates. -/
def readCodePoint (t : Text) : Option (Char × Text) := do
  let (high, rest) ← readUnit t
  if high < 0xD800 ∨ 0xDFFF < high then return (Char.ofNat high, rest)
  else match rest with
    | '\\' :: 'u' :: rest =>
      let (low, rest) ← readUnit rest
      if high ≤ 0xDBFF ∧ 0xDC00 ≤ low ∧ low ≤ 0xDFFF then
        return (Char.ofNat (0x10000 + (high - 0xD800) * 0x400 + (low - 0xDC00)), rest)
      else none
    | _ => none

def shortEscapes : List (Char × Char) :=
  [('"', '"'), ('\\', '\\'), ('/', '/'), ('b', '\x08'), ('f', '\x0c'), ('n', '\n'), ('r', '\r'),
    ('t', '\t')]

def readEscape : Text → Option (Char × Text)
  | [] => none
  | c :: rest =>
    if c = 'u' then readCodePoint rest else (shortEscapes.lookup c).map fun d => (d, rest)

def readChar : Text → Option (Char × Text)
  | [] => none
  | c :: rest =>
    if c = '\\' then readEscape rest
    else if c = '"' ∨ c.toNat < 0x20 then none
    else some (c, rest)

/-- A text up to the quote that ends it. The number bounds the characters that are read. -/
def readText : Nat → Text → Option (Text × Text)
  | 0, _ => none
  | n + 1, t =>
    if t.head? = some '"' then some ([], t.tail)
    else do
      let (c, rest) ← readChar t
      let (cs, rest) ← readText n rest
      return (c :: cs, rest)

/-- Things with commas between them, up to a closing sign. -/
def readMany {α : Type} (one : Text → Option (α × Text)) (closing : Char) :
    Nat → Text → Option (List α × Text)
  | 0, _ => none
  | n + 1, t => do
    let (a, rest) ← one t
    match skip rest with
    | [] => none
    | c :: rest =>
      if c = closing then return ([a], rest)
      else if c = ',' then
        let (as, rest) ← readMany one closing n rest
        return (a :: as, rest)
      else none

def readBracket {α : Type} (one : Text → Option (α × Text)) (closing : Char) (n : Nat) (t : Text) :
    Option (List α × Text) :=
  if (skip t).head? = some closing then some ([], (skip t).tail) else readMany one closing n t

def readField (value : Text → Option (Json × Text)) (n : Nat) (t : Text) :
    Option ((Text × Json) × Text) :=
  match skip t with
  | '"' :: rest => do
    let (name, rest) ← readText n rest
    match skip rest with
    | ':' :: rest =>
      let (j, rest) ← value rest
      return ((name, j), rest)
    | _ => none
  | _ => none

def readValue : Nat → Text → Option (Json × Text)
  | 0, _ => none
  | n + 1, t =>
    match skip t with
    | '"' :: rest => (readText n rest).map fun (s, rest) => (.text s, rest)
    | '[' :: rest => (readBracket (readValue n) ']' n rest).map fun (js, rest) => (.list js, rest)
    | '{' :: rest =>
      (readBracket (readField (readValue n) n) '}' n rest).map fun (fs, rest) => (.object fs, rest)
    | _ => none

/-- The value that a whole text says, in any layout and with any escapes that JSON has. Nothing is
nested deeper or has more parts than the text has characters. -/
def read (t : Text) : Option Json :=
  match readValue t.length t with
  | some (j, rest) => if (skip rest).isEmpty then some j else none
  | none => none

theorem skip_append {w : Text} (h : w.all isSpace) (t : Text) : skip (w ++ t) = skip t := by
  rw [skip, List.dropWhile_append_of_pos]
  · rfl
  · simpa using h

theorem skip_cons {c : Char} (h : isSpace c = false) (t : Text) : skip (c :: t) = c :: t := by
  simp [skip, h]

theorem all_isSpace_lineBreak (level : Nat) : (lineBreak level).all isSpace := by
  simp [lineBreak, isSpace]

theorem hexDigit?_digitChar {n : Nat} (h : n < 16) : hexDigit? (Nat.digitChar n) = some n := by
  have all : ∀ n : Fin 16, hexDigit? (Nat.digitChar n) = some n.val := by decide
  exact all ⟨n, h⟩

theorem readCodePoint_control {n : Nat} (h : n < 0x20) (rest : Text) :
    readCodePoint ('0' :: '0' :: Nat.digitChar (n / 16) :: Nat.digitChar (n % 16) :: rest) =
      some (Char.ofNat n, rest) := by
  have zero : hexDigit? '0' = some 0 := rfl
  have value : ((0 * 16 + 0) * 16 + n / 16) * 16 + n % 16 = n := by omega
  have unit : readUnit ('0' :: '0' :: Nat.digitChar (n / 16) :: Nat.digitChar (n % 16) :: rest) =
      some (n, rest) := by
    simp only [readUnit, zero, hexDigit?_digitChar (show n / 16 < 16 by omega),
      hexDigit?_digitChar (show n % 16 < 16 by omega), Option.bind_eq_bind, Option.bind_some, value]
    rfl
  simp only [readCodePoint, unit, Option.bind_eq_bind, Option.bind_some]
  exact if_pos (Or.inl (by omega))

theorem readChar_escapeChar (c : Char) (rest : Text) :
    readChar (escapeChar c ++ rest) = some (c, rest) := by
  unfold escapeChar
  iterate 7
    split
    next same => subst same; rfl
  split
  next control =>
    have read := readCodePoint_control control rest
    rw [Char.ofNat_toNat] at read
    exact read
  next quote backslash _ _ _ _ _ plain =>
    simp [readChar, quote, backslash, plain]

theorem escapeChar_ne_nil (c : Char) : escapeChar c ≠ [] := by
  intro empty
  have read := readChar_escapeChar c []
  rw [empty] at read
  cases read

theorem head?_escapeChar_append (c : Char) (rest : Text) :
    (escapeChar c ++ rest).head? ≠ some '"' := by
  intro quote
  obtain ⟨tail, split⟩ := List.head?_eq_some_iff.mp quote
  have read := readChar_escapeChar c rest
  rw [split] at read
  cases read

theorem readText_escape {n : Nat} {t : Text} (enough : t.length < n) (rest : Text) :
    readText n (t.flatMap escapeChar ++ '"' :: rest) = some (t, rest) := by
  induction t generalizing n with
  | nil =>
    obtain ⟨n, rfl⟩ := Nat.exists_eq_add_one.mpr (Nat.zero_lt_of_lt enough)
    rfl
  | cons c t ih =>
    obtain ⟨n, rfl⟩ := Nat.exists_eq_add_one.mpr (Nat.zero_lt_of_lt enough)
    have later := ih (n := n) (by simpa using enough)
    rw [List.flatMap_cons, List.append_assoc, readText,
      if_neg (head?_escapeChar_append c _)]
    simp only [readChar_escapeChar, later, Option.bind_eq_bind, Option.bind_some]
    rfl

theorem length_lt_escape (t : Text) : t.length + 1 < (escape t).length := by
  have longer : t.length ≤ (t.flatMap escapeChar).length := by
    induction t with
    | nil => simp
    | cons c t ih =>
      have own := List.length_pos_iff.mpr (escapeChar_ne_nil c)
      simp only [List.flatMap_cons, List.length_append, List.length_cons]
      omega
  simp only [escape, List.length_append, List.length_singleton]
  omega

section Intercalate

variable (separator : Text)

theorem exists_intercalate_cons (a : Text) (rest : List Text) :
    ∃ t, separator.intercalate (a :: rest) = a ++ t := by
  cases rest with
  | nil => exact ⟨[], by simp⟩
  | cons b rest => exact ⟨_, by rw [List.intercalate_cons_cons, List.append_assoc]⟩

theorem length_le_intercalate {pieces : List Text} {a : Text} (mem : a ∈ pieces) :
    a.length ≤ (separator.intercalate pieces).length := by
  induction pieces with
  | nil => cases mem
  | cons b rest ih =>
    cases rest with
    | nil =>
      obtain rfl := List.mem_singleton.mp mem
      simp
    | cons c rest =>
      simp only [List.intercalate_cons_cons, List.length_append]
      rcases List.mem_cons.mp mem with rfl | mem
      · omega
      · have later := ih mem
        omega

/-- There are not more pieces than characters if none is empty. -/
theorem length_pieces_le_intercalate {pieces : List Text} (filled : ∀ a ∈ pieces, a ≠ []) :
    pieces.length ≤ (separator.intercalate pieces).length := by
  induction pieces with
  | nil => simp
  | cons a rest ih =>
    have own := List.length_pos_iff.mpr (filled a List.mem_cons_self)
    have later := ih fun b mem => filled b (List.mem_cons_of_mem _ mem)
    cases rest with
    | nil => simpa [Nat.one_le_iff_ne_zero] using filled a List.mem_cons_self
    | cons b rest =>
      simp only [List.intercalate_cons_cons, List.length_append, List.length_cons] at later ⊢
      omega

end Intercalate

section Bracket

variable {α : Type} {one : Text → Option (α × Text)} {written : α → Text} {closing : Char}

/-- What is written one by one is read as many, on lines of their own. -/
theorem readMany_intercalate {a : α} {as : List α} {n : Nat} {gap behind : Text} (level : Nat)
    (reads : ∀ a' ∈ a :: as, ∀ (w rest : Text), w.all isSpace →
      one (w ++ (written a' ++ rest)) = some (a', rest))
    (sign : isSpace closing = false) (other : closing ≠ ',') (enough : as.length < n)
    (before : gap.all isSpace) (after : behind.all isSpace) (rest : Text) :
    readMany one closing n (gap ++ (List.intercalate ([','] ++ lineBreak level)
      ((a :: as).map written) ++ (behind ++ closing :: rest))) = some (a :: as, rest) := by
  induction as generalizing a n gap with
  | nil =>
    obtain ⟨n, rfl⟩ := Nat.exists_eq_add_one.mpr (Nat.zero_lt_of_lt enough)
    have own := reads a List.mem_cons_self gap (behind ++ closing :: rest) before
    have ends := (skip_append after (closing :: rest)).trans (skip_cons sign rest)
    have single : List.intercalate ([','] ++ lineBreak level) ([a].map written) = written a := by
      simp
    rw [single, readMany]
    simp only [own, ends, Option.bind_eq_bind, Option.bind_some, if_true]
    rfl
  | cons b as ih =>
    obtain ⟨n, rfl⟩ := Nat.exists_eq_add_one.mpr (Nat.zero_lt_of_lt enough)
    have later := ih (a := b) (n := n) (fun a' mem => reads a' (List.mem_cons_of_mem _ mem))
      (by simpa using enough) (all_isSpace_lineBreak level)
    have own := reads a List.mem_cons_self gap
      (',' :: (lineBreak level ++ (List.intercalate ([','] ++ lineBreak level)
        ((b :: as).map written) ++ (behind ++ closing :: rest)))) before
    have split : List.intercalate ([','] ++ lineBreak level) ((a :: b :: as).map written) ++
          (behind ++ closing :: rest) =
        written a ++ ',' :: (lineBreak level ++
          (List.intercalate ([','] ++ lineBreak level) ((b :: as).map written) ++
            (behind ++ closing :: rest))) := by
      simp only [List.map_cons, List.intercalate_cons_cons, List.append_assoc, List.cons_append,
        List.nil_append]
    rw [split, readMany]
    simp only [own, skip_cons (show isSpace ',' = false from rfl), other.symm, later,
      Option.bind_eq_bind, Option.bind_some, if_true, if_false]
    rfl

theorem length_lt_bracket (opening closing : Char) (level : Nat) {pieces : List Text}
    (filled : ∀ a ∈ pieces, a ≠ []) :
    pieces.length < (bracket opening closing level pieces).length ∧
      ∀ a ∈ pieces, a.length < (bracket opening closing level pieces).length := by
  cases pieces with
  | nil => simp [bracket]
  | cons p ps =>
    have count := length_pieces_le_intercalate ([','] ++ lineBreak (level + 1)) filled
    simp only [bracket, List.length_append, List.length_singleton]
    refine ⟨by omega, fun a mem => ?_⟩
    have own := length_le_intercalate ([','] ++ lineBreak (level + 1)) mem
    omega

theorem length_bracket_pos {opening closing : Char} {level : Nat} {pieces : List Text} :
    0 < (bracket opening closing level pieces).length := by
  cases pieces <;> simp [bracket]

/-- Between brackets there are as many things as were written, or none. -/
theorem readBracket_bracket {as : List α} {level n : Nat} (opening : Char)
    (starts : ∀ a ∈ as, ∃ c t, written a = c :: t ∧ isSpace c = false ∧ c ≠ closing)
    (reads : ∀ a ∈ as, (written a).length ≤ n → ∀ (w rest : Text), w.all isSpace →
      one (w ++ (written a ++ rest)) = some (a, rest))
    (sign : isSpace closing = false) (other : closing ≠ ',')
    (enough : (bracket opening closing level (as.map written)).length ≤ n + 1) (rest : Text) :
    ∃ body, bracket opening closing level (as.map written) = opening :: body ∧
      readBracket one closing n (body ++ rest) = some (as, rest) := by
  have filled : ∀ p ∈ as.map written, p ≠ [] := by
    intro p mem
    obtain ⟨a, member, rfl⟩ := List.mem_map.mp mem
    obtain ⟨c, t, first, _⟩ := starts a member
    simp [first]
  obtain ⟨count, shorter⟩ := length_lt_bracket opening closing level filled
  rw [List.length_map] at count
  have reads_each : ∀ a ∈ as, ∀ (w rest : Text), w.all isSpace →
      one (w ++ (written a ++ rest)) = some (a, rest) := by
    intro a mem
    have own := shorter _ (List.mem_map_of_mem mem)
    exact reads a mem (by omega)
  cases as with
  | nil =>
    refine ⟨[closing], rfl, ?_⟩
    rw [readBracket, List.singleton_append, skip_cons sign]
    exact if_pos rfl
  | cons a as =>
    obtain ⟨c, t, first, visible, differs⟩ := starts a List.mem_cons_self
    obtain ⟨others, joined⟩ := exists_intercalate_cons ([','] ++ lineBreak (level + 1)) (written a)
      (as.map written)
    have many := readMany_intercalate (n := n) (level + 1) reads_each sign other
      (by rw [List.length_cons] at count; omega) (all_isSpace_lineBreak (level + 1))
      (all_isSpace_lineBreak level) rest
    refine ⟨lineBreak (level + 1) ++ (List.intercalate ([','] ++ lineBreak (level + 1))
      ((a :: as).map written) ++ (lineBreak level ++ [closing])), by simp [bracket], ?_⟩
    have opened : skip (lineBreak (level + 1) ++ (List.intercalate ([','] ++ lineBreak (level + 1))
        ((a :: as).map written) ++ (lineBreak level ++ [closing])) ++ rest) =
          c :: (t ++ (others ++ (lineBreak level ++ closing :: rest))) := by
      rw [List.append_assoc, skip_append (all_isSpace_lineBreak _), List.map_cons, joined, first]
      simp [skip_cons visible]
    rw [readBracket, opened, if_neg (by simpa using differs)]
    simpa using many

end Bracket

/-- A value is a text, a list or an object, with what holds of its parts. -/
@[elab_as_elim]
theorem inductionOn {motive : Json → Prop} (j : Json) (text : ∀ t, motive (.text t))
    (list : ∀ items, (∀ i ∈ items, motive i) → motive (.list items))
    (object : ∀ fields, (∀ f ∈ fields, motive f.2) → motive (.object fields)) : motive j := by
  match j with
  | .text t => exact text t
  | .list items => exact list items fun i mem => inductionOn i text list object
  | .object fields => exact object fields fun f mem => inductionOn f.2 text list object
termination_by sizeOf j
decreasing_by
  · have smaller := List.sizeOf_lt_of_mem mem
    simp only [Json.list.sizeOf_spec]
    omega
  · have smaller := List.sizeOf_lt_of_mem mem
    have parts : sizeOf f = 1 + sizeOf f.1 + sizeOf f.2 := rfl
    simp only [Json.object.sizeOf_spec]
    omega

theorem renderItems_eq (level : Nat) (items : List Json) :
    renderItems level items = items.map (render level) := by
  induction items with
  | nil => rfl
  | cons j rest ih => rw [renderItems, ih, List.map_cons]

def renderField (level : Nat) (f : Text × Json) : Text :=
  escape f.1 ++ [':', ' '] ++ render level f.2

theorem renderFields_eq (level : Nat) (fields : List (Text × Json)) :
    renderFields level fields = fields.map (renderField level) := by
  induction fields with
  | nil => rfl
  | cons f rest ih => rw [renderFields, ih, List.map_cons, renderField]

theorem escape_cons (t rest : Text) :
    escape t ++ rest = '"' :: (t.flatMap escapeChar ++ '"' :: rest) := by
  simp [escape]

/-- A value starts with a quote or a bracket that opens, so that no closing sign is taken for it. -/
theorem exists_render_cons (level : Nat) (j : Json) :
    ∃ c t, render level j = c :: t ∧ isSpace c = false ∧ c ≠ ']' := by
  cases j with
  | text t => exact ⟨'"', _, by rw [render, escape, List.append_assoc]; rfl, rfl, by decide⟩
  | list items =>
    refine ⟨'[', (render level (.list items)).tail, ?_, rfl, by decide⟩
    rw [render]
    cases renderItems (level + 1) items <;> simp [bracket]
  | object fields =>
    refine ⟨'{', (render level (.object fields)).tail, ?_, rfl, by decide⟩
    rw [render]
    cases renderFields (level + 1) fields <;> simp [bracket]

theorem readField_renderField {value : Text → Option (Json × Text)} {level n : Nat}
    {f : Text × Json} {gap rest : Text} (before : gap.all isSpace) (enough : f.1.length < n)
    (reads : ∀ w : Text, w.all isSpace →
      value (w ++ (render level f.2 ++ rest)) = some (f.2, rest)) :
    readField value n (gap ++ (renderField level f ++ rest)) = some (f, rest) := by
  obtain ⟨name, j⟩ := f
  have colon : skip (':' :: ' ' :: (render level j ++ rest)) =
      ':' :: ' ' :: (render level j ++ rest) := skip_cons rfl _
  have own : value (' ' :: (render level j ++ rest)) = some (j, rest) := reads [' '] rfl
  have split : renderField level (name, j) ++ rest =
      '"' :: (name.flatMap escapeChar ++ '"' :: ':' :: ' ' :: (render level j ++ rest)) := by
    rw [renderField, List.append_assoc, List.append_assoc, escape_cons]
    rfl
  rw [readField, skip_append before, split, skip_cons rfl]
  simp only [readText_escape enough, colon, own, Option.bind_eq_bind, Option.bind_some]
  rfl

/-- A value is read as it was written, at any depth and whatever follows it. -/
theorem readValue_render {level n : Nat} (j : Json) {gap : Text} (rest : Text)
    (before : gap.all isSpace) (enough : (render level j).length ≤ n) :
    readValue n (gap ++ (render level j ++ rest)) = some (j, rest) := by
  induction j using inductionOn generalizing level n gap rest with
  | text t =>
    have long := length_lt_escape t
    rw [render] at enough ⊢
    obtain ⟨n, rfl⟩ := Nat.exists_eq_add_one.mpr (show 0 < n by omega)
    rw [escape_cons, readValue, skip_append before, skip_cons rfl]
    simp only [readText_escape (show t.length < n by omega), Option.map_some]
  | list items ih =>
    rw [render, renderItems_eq] at enough ⊢
    obtain ⟨n, rfl⟩ := Nat.exists_eq_add_one.mpr (Nat.lt_of_lt_of_le length_bracket_pos enough)
    have starts : ∀ i ∈ items, ∃ c t, render (level + 1) i = c :: t ∧ isSpace c = false ∧ c ≠ ']' :=
      fun i _ => exists_render_cons (level + 1) i
    obtain ⟨body, written, bracketed⟩ := readBracket_bracket '[' starts
      (fun i mem short w rest space => ih i mem rest space short) rfl (by decide) enough rest
    rw [written, List.cons_append, readValue, skip_append before, skip_cons rfl]
    simp only [bracketed, Option.map_some]
  | object fields ih =>
    rw [render, renderFields_eq] at enough ⊢
    obtain ⟨n, rfl⟩ := Nat.exists_eq_add_one.mpr (Nat.lt_of_lt_of_le length_bracket_pos enough)
    have starts : ∀ f ∈ fields,
        ∃ c t, renderField (level + 1) f = c :: t ∧ isSpace c = false ∧ c ≠ '}' :=
      fun f _ => ⟨'"', _, by rw [renderField, List.append_assoc, escape_cons], rfl, by decide⟩
    have reads : ∀ f ∈ fields, (renderField (level + 1) f).length ≤ n → ∀ (w rest : Text),
        w.all isSpace → readField (readValue n) n (w ++ (renderField (level + 1) f ++ rest)) =
          some (f, rest) := by
      intro f mem short w rest space
      have name := length_lt_escape f.1
      simp only [renderField, List.length_append] at short
      exact readField_renderField space (by omega) fun w space => ih f mem rest space (by omega)
    obtain ⟨body, written, bracketed⟩ :=
      readBracket_bracket '{' starts reads rfl (by decide) enough rest
    rw [written, List.cons_append, readValue, skip_append before, skip_cons rfl]
    simp only [bracketed, Option.map_some]

/-- What is rendered is read as the value that it was rendered from. -/
theorem read_render (j : Json) : read (render 0 j) = some j := by
  have value : readValue (render 0 j).length ([] ++ (render 0 j ++ [])) = some (j, []) :=
    readValue_render j [] rfl (Nat.le_refl _)
  rw [List.nil_append, List.append_nil] at value
  rw [read, value]
  rfl

/-- So are layouts and escapes that are never rendered. -/
example : read (chars " [ \"\\/\\u0041\\uD83D\\ude00\" ,[] ]\r\n") =
    some (.list [.text ['/', 'A', Char.ofNat 0x1F600], .list []]) := rfl

end Json

end Keyfile
