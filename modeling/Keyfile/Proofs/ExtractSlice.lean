import Keyfile.Proofs.ExtractSection
import Keyfile.Proofs.Pieces

namespace Keyfile

namespace Reader

variable {k : Nat} {r r' : Reader}

/-- The second reader is the first one on lines that are numbered `k` higher. Where it got on last
counts only while a key is open. -/
def Shifted (k : Nat) (r r' : Reader) : Prop :=
  ∃ last, r' = { r with last := last } ∧ (r.key?.isSome → last = r.last + k)

/-- The second result is the first one on lines that are numbered `k` higher. -/
inductive Parallel (k : Nat) :
    Except Nat (Reader × Option Item) → Except Nat (Reader × Option Item) → Prop
  | fault {n : Nat} : Parallel k (.error n) (.error (n + k))
  | goes {r r' : Reader} {item? : Option Item} : r.Shifted k r' →
      Parallel k (.ok (r, item?)) (.ok (r', item?))

theorem shifted_start (k : Nat) : start.Shifted k start := ⟨0, rfl, by simp [start]⟩

theorem Shifted.fault? (h : r.Shifted k r') : r'.fault? = r.fault?.map (· + k) := by
  obtain ⟨last, rfl, same⟩ := h
  cases opened : r.key? <;> simp_all [Reader.fault?]

theorem Shifted.push (h : r.Shifted k r') (number : Nat) (c : Char) :
    (r.push number c = .error number ∧ r'.push (number + k) c = .error (number + k)) ∨
      ∃ s s', r.push number c = .ok s ∧ r'.push (number + k) c = .ok s' ∧ s.Shifted k s' := by
  obtain ⟨last, rfl, same⟩ := h
  simp only [Reader.push, Reader.piece]
  split
  · exact .inr ⟨_, _, rfl, rfl, last, rfl, same⟩
  · split
    · split
      · exact .inl ⟨rfl, rfl⟩
      · exact .inr ⟨_, _, rfl, rfl, number + k, rfl, fun _ => rfl⟩
    · split
      · split
        · exact .inl ⟨rfl, rfl⟩
        · exact .inr ⟨_, _, rfl, rfl, number + k, rfl, fun _ => rfl⟩
      · split
        · exact .inr ⟨_, _, rfl, rfl, last, rfl, same⟩
        · exact .inr ⟨_, _, rfl, rfl, last, rfl, same⟩

theorem Shifted.openSection (h : r.Shifted k r') (number : Nat) (raw : Bytes) :
    Parallel k (r.openSection ⟨number, raw⟩) (r'.openSection ⟨number + k, raw⟩) := by
  obtain ⟨last, rfl, same⟩ := h
  have named : (Line.mk (number + k) raw).sectionName? = (Line.mk number raw).sectionName? := rfl
  simp only [Reader.openSection, named]
  split
  next opened => exact same opened ▸ .fault
  next =>
    split
    · exact .fault
    · split
      · exact .fault
      · exact .goes ⟨number + k, rfl, fun _ => rfl⟩

theorem Shifted.closeLine (h : r.Shifted k r') (number : Nat) :
    Parallel k (r.closeLine number) (r'.closeLine (number + k)) := by
  obtain ⟨last, rfl, same⟩ := h
  simp only [Reader.closeLine, Reader.piece]
  split
  · exact .fault
  · split
    · exact .fault
    · split
      · exact .goes ⟨last, rfl, same⟩
      · exact .goes ⟨number + k, rfl, fun _ => rfl⟩

theorem Shifted.readChars (h : r.Shifted k r') (number : Nat) (raw : Bytes) (t : Text) :
    Parallel k (readChars ⟨number, raw⟩ r t) (readChars ⟨number + k, raw⟩ r' t) := by
  induction t generalizing r r' with
  | nil => exact h.closeLine number
  | cons c t ih =>
    have escaping : r'.escaping = r.escaping := by
      obtain ⟨last, rfl, _⟩ := h
      rfl
    simp only [Reader.readChars, escaping]
    split
    · exact h.openSection number raw
    · rcases h.push number c with ⟨fault, fault'⟩ | ⟨s, s', pushed, pushed', shifted⟩
      · rw [fault, fault']
        exact .fault
      · rw [pushed, pushed']
        exact ih shifted

theorem Shifted.read (h : r.Shifted k r') (number : Nat) (raw : Bytes) :
    Parallel k (r.read ⟨number, raw⟩) (r'.read ⟨number + k, raw⟩) := by
  obtain ⟨last, rfl, same⟩ := h
  have h : r.Shifted k { r with last := last } := ⟨last, rfl, same⟩
  have closed : ({ r with afterComma := false } : Reader).Shifted k
      { r with last := last, afterComma := false } := ⟨last, rfl, same⟩
  have empty : (Line.mk (number + k) raw).isEmpty = (Line.mk number raw).isEmpty := rfl
  have comment : (Line.mk (number + k) raw).isComment = (Line.mk number raw).isComment := rfl
  have blank : (Line.mk (number + k) raw).isBlank = (Line.mk number raw).isBlank := rfl
  simp only [Reader.read, empty, comment, blank]
  split
  · exact .goes h
  · split
    · split
      · exact .goes h
      · exact closed.closeLine number
    · exact h.readChars number raw (Line.mk number raw).text

theorem closeLine_ne_heading {number : Nat} {name : Text} :
    r.closeLine number ≠ .ok (r', some (.heading name)) := by
  unfold closeLine
  split
  · simp
  · split
    · simp
    · split <;> simp

theorem sectionName?_of_readChars {line : Line} {t name : Text}
    (h : readChars line r t = .ok (r', some (.heading name))) : line.sectionName? = some name := by
  induction t generalizing r with
  | nil => exact absurd h closeLine_ne_heading
  | cons c t ih =>
    rw [readChars] at h
    split at h
    · rw [openSection] at h
      split at h
      · simp at h
      · split at h
        · simp at h
        · split at h
          · simp at h
          next named => simpa [named] using congrArg Prod.snd (Except.ok.inj h)
    · split at h
      · simp at h
      · exact ih h

/-- Only a line that names a section is read as a heading. -/
theorem sectionName?_of_read {line : Line} {name : Text}
    (h : r.read line = .ok (r', some (.heading name))) : line.sectionName? = some name := by
  rw [read] at h
  split at h
  · simp at h
  · split at h
    · split at h
      · simp at h
      · exact absurd h closeLine_ne_heading
    · exact sectionName?_of_readChars h

end Reader

theorem Line.opensBracket_of_sectionName? {line : Line} {name : Text}
    (named : line.sectionName? = some name) : line.opensBracket = true := by
  obtain ⟨w, inner, v, split, first, _⟩ := (Line.sectionName?_eq_some.mp named).exists_split
  rw [opensBracket, split, Text.trimStart_append_of_blank first, Text.trimStart_of_head (by decide)]
  simp

theorem Reader.read_ne_heading {line : Line} {name : Text} {r r' : Reader}
    (no_bracket : line.opensBracket = false) : r.read line ≠ .ok (r', some (.heading name)) := by
  intro read
  have opens := Line.opensBracket_of_sectionName? (sectionName?_of_read read)
  rw [no_bracket] at opens
  simp at opens

/-- The first line of a section, read before any other, is its heading or at fault. -/
theorem Reader.item?_of_read_start {line : Line} {name : Text} {r : Reader} {item? : Option Item}
    (named : line.sectionName? = some name) (read : start.read line = .ok (r, item?)) :
    item? = some (.heading name) := by
  have names := Line.sectionName?_eq_some.mp named
  obtain ⟨bracket, filled, no_comment⟩ := names.opens
  obtain ⟨open?, reads, _⟩ := (read_eq_ok_iff resting_start).mp read
  rcases (Reads.closed_iff filled no_comment).mp reads with
    ⟨_, name', names', _, rfl⟩ | ⟨_, _, _, no_bracket, _⟩
  · have := (Line.sectionName?_eq_some.mpr names').symm.trans named
    rw [Option.some.inj this]
  · exact absurd bracket no_bracket

theorem Line.no_bracket_renumbered {m : Nat} {raws : List Bytes}
    (h : ∀ line ∈ numberFrom m raws, line.opensBracket = false) (n : Nat) :
    ∀ line ∈ numberFrom n raws, line.opensBracket = false := by
  intro line mem
  have same : line.raw ∈ (numberFrom m raws).map raw := by
    rw [map_raw_numberFrom, ← map_raw_numberFrom n raws]
    exact List.mem_map_of_mem mem
  obtain ⟨twin, mem', hraw⟩ := List.mem_map.mp same
  have opens := h twin mem'
  rw [opensBracket, text, body, hraw] at opens
  exact opens

def Reading.keysFrom (keys : Section) (reading : Reading) : Except Nat Section :=
  match reading.fault? with
  | some n => .error n
  | none => .ok (keysAfter keys reading.items)

theorem Sections.foldl_insert {items : List Item} (entries : headingsOf items = []) (s : Sections)
    (name : Text) (keys : Section) :
    (items.foldl Draft.add ⟨s.insert name keys, some name⟩).sections =
      s.insert name (keysAfter keys items) := by
  induction items generalizing keys with
  | nil => rfl
  | cons item items ih =>
    cases item with
    | heading other => simp at entries
    | entry key values =>
      have put : Sections.put (s.insert name keys) name key values =
          s.insert name (keys.insert key values) := by
        rw [Sections.put, Sections.keysOf_insert, if_pos rfl, Table.insert_insert]
      have added : Draft.add ⟨s.insert name keys, some name⟩ (.entry key values) =
          ⟨s.insert name (keys.insert key values), some name⟩ := congrArg (Draft.mk · _) put
      rw [List.foldl_cons, added, ih entries]
      rfl

theorem Reading.sections_heading {name : Text} {reading : Reading}
    (entries : headingsOf reading.items = []) :
    (Reading.mk (.heading name :: reading.items) reading.fault?).sections =
      (reading.keysFrom ∅).map ((∅ : Sections).insert name) := by
  rw [Reading.sections, Reading.keysFrom]
  cases reading.fault? with
  | some n => rfl
  | none => exact congrArg Except.ok (Sections.foldl_insert entries ..)

theorem Reader.headingsOf_readAll {lines : List Line}
    (no_bracket : ∀ line ∈ lines, line.opensBracket = false) (r : Reader) :
    headingsOf (r.readAll lines).items = [] := by
  induction lines generalizing r with
  | nil => rfl
  | cons line rest ih =>
    rw [readAll]
    cases read : r.read line with
    | error n => rfl
    | ok out =>
      obtain ⟨r', item?⟩ := out
      have later := ih (fun l hl => no_bracket l (List.mem_cons_of_mem _ hl)) r'
      cases item? with
      | none => exact later
      | some item =>
        cases item with
        | entry key values => exact later
        | heading name => exact absurd read (read_ne_heading (no_bracket line (by simp)))

namespace Extract

def linesBefore (name : Text) (lines : List Line) : List Line :=
  lines.takeWhile fun line => line.sectionName? ≠ some name

/-- The first line that names the section and the lines behind it, up to the next one that opens
with a bracket. -/
def linesOf (name : Text) (lines : List Line) : List Line :=
  match lines.dropWhile fun line => line.sectionName? ≠ some name with
  | [] => []
  | heading :: rest => heading :: rest.takeWhile fun line => !line.opensBracket

theorem exists_split {name : Text} {lines : List Line}
    (named : ∃ line ∈ lines, line.sectionName? = some name) :
    ∃ heading inner behind, lines = linesBefore name lines ++ heading :: (inner ++ behind) ∧
      linesOf name lines = heading :: inner ∧ heading.sectionName? = some name ∧
      (∀ line ∈ linesBefore name lines, line.sectionName? ≠ some name) ∧
      (∀ line ∈ inner, line.opensBracket = false) ∧ ∀ line ∈ behind.head?, line.opensBracket := by
  have before : ∀ line ∈ linesBefore name lines, line.sectionName? ≠ some name :=
    fun line mem => by simpa using List.mem_takeWhile_imp mem
  have split : linesBefore name lines ++ _ = lines :=
    List.takeWhile_append_dropWhile (p := fun line : Line => decide (line.sectionName? ≠ some name))
  cases rest : lines.dropWhile fun line : Line => line.sectionName? ≠ some name with
  | nil =>
    rw [rest, List.append_nil] at split
    obtain ⟨line, mem, names⟩ := named
    rw [← split] at mem
    exact absurd names (before line mem)
  | cons heading rest' =>
    have names := List.head?_dropWhile_not
      (fun line : Line => decide (line.sectionName? ≠ some name)) lines
    rw [rest] at names split
    refine ⟨heading, rest'.takeWhile fun line => !line.opensBracket,
      rest'.dropWhile fun line => !line.opensBracket, ?_, ?_, by simpa using names, before, ?_, ?_⟩
    · rw [List.takeWhile_append_dropWhile]
      exact split.symm
    · rw [linesOf, rest]
    · exact fun line mem => by simpa using List.mem_takeWhile_imp mem
    · intro line mem
      have bracket := List.head?_dropWhile_not (fun line : Line => !line.opensBracket) rest'
      rw [Option.mem_def.mp mem] at bracket
      simpa using bracket

/-- The keys that are collected are those of the entries on the same lines, wherever they stand. -/
theorem map_collect {k : Nat} {r r' : Reader} (shifted : r.Shifted k r') {raws : List Bytes}
    {n : Nat}
    (no_bracket : ∀ line ∈ Line.numberFrom n raws, line.opensBracket = false) {behind : List Line}
    (bounded : ∀ line ∈ behind.head?, line.opensBracket) (keys : Section) :
    (collect r' keys (Line.numberFrom (n + k) raws ++ behind)).map Extract.keys =
      ((r.readAll (Line.numberFrom n raws)).keysFrom keys).mapError (· + k) := by
  -- Both readers take the lines in step, and end together at a fault, the bracket or the end.
  induction raws generalizing n r r' keys with
  | nil =>
    have ends : (collect r' keys behind).map Extract.keys =
        match r'.fault? with
        | some n => .error n
        | none => .ok keys := by
      cases behind with
      | nil => rw [collect]; cases r'.fault? <;> rfl
      | cons line rest =>
        rw [collect, if_pos (bounded line rfl)]
        cases r'.fault? <;> rfl
    rw [Line.numberFrom, List.nil_append, ends, shifted.fault?, Line.numberFrom, Reader.readAll,
      Reading.keysFrom]
    cases r.fault? <;> rfl
  | cons raw raws ih =>
    have own : (Line.mk n raw).opensBracket = false := no_bracket _ (by simp [Line.numberFrom])
    have own' : (Line.mk (n + k) raw).opensBracket = false := own
    have others : ∀ line ∈ Line.numberFrom (n + 1) raws, line.opensBracket = false :=
      fun line mem => no_bracket line (List.mem_cons_of_mem _ mem)
    rw [Line.numberFrom, Line.numberFrom, List.cons_append, collect, own', Reader.readAll,
      Nat.add_right_comm]
    have parallel := shifted.read n raw
    generalize first : r.read ⟨n, raw⟩ = out at parallel
    generalize r'.read ⟨n + k, raw⟩ = out' at parallel
    cases parallel with
    | fault => rfl
    | @goes s s' item? shifted =>
      cases item? with
      | none => exact ih shifted others keys
      | some item =>
        cases item with
        | entry key values => exact ih shifted others (keys.insert key values)
        | heading name => exact absurd first (Reader.read_ne_heading own)

end Extract

/-- The bytes of the first section of a name, from the line that names it to the next bracket. -/
def sliceOf (name : Text) (content : Bytes) : Bytes :=
  Line.contentOf (Extract.linesOf (normalName name) (Line.scan content))

def sliceOffset (name : Text) (content : Bytes) : Nat :=
  (Extract.linesBefore (normalName name) (Line.scan content)).length

/-- A section that is read on its own and its lines that are parsed on their own give one result. -/
theorem exists_slice_result {name : Text} {content : Bytes}
    (named : ∃ line ∈ Line.scan content, line.sectionName? = some (normalName name)) :
    ∃ result : Except Nat Section,
      (extract name content).map Extract.keys = result.mapError (· + sliceOffset name content) ∧
      parse (sliceOf name content) = result.map ((∅ : Sections).insert (normalName name)) := by
  obtain ⟨⟨number, raw⟩, inner, behind, split, lines, names, before, no_bracket, bounded⟩ :=
    Extract.exists_split named
  rw [sliceOf, lines, extract, sliceOffset]
  generalize Extract.linesBefore (normalName name) (Line.scan content) = above at split before
  have numbered := (Line.numberFrom_eq_append split).2
  obtain ⟨heading, rest⟩ := List.cons.inj numbered
  obtain rfl := (Line.mk.inj heading).1
  obtain ⟨own, -⟩ := Line.numberFrom_eq_append rest.symm
  have lined : Line.Lined (raw :: inner.map Line.raw) := by
    have all := congrArg (List.map Line.raw) split
    rw [map_raw_scan, List.map_append, List.map_cons, List.map_append, ← List.cons_append] at all
    have lined := Line.lined_pieces content
    rw [all] at lined
    exact lined.append_right.append_left
  have scan : Line.scan (Line.contentOf (⟨1 + above.length, raw⟩ :: inner)) =
      ⟨1, raw⟩ :: Line.numberFrom 2 (inner.map Line.raw) := by
    rw [Line.scan, Line.contentOf, List.map_cons, Line.pieces_flatten lined]
    rfl
  generalize inner.map Line.raw = raws at own scan
  subst own
  rw [split, Extract.find_append before, Extract.find, if_pos names, parse, readContent, scan,
    Reader.readAll]
  have parallel := (Reader.shifted_start above.length).read 1 raw
  generalize first : Reader.start.read ⟨1, raw⟩ = out at parallel
  generalize Reader.start.read ⟨1 + above.length, raw⟩ = out' at parallel
  cases parallel with
  | fault => exact ⟨.error _, rfl, rfl⟩
  | @goes r r' item? shifted =>
    have names' : (Line.mk 1 raw).sectionName? = some (normalName name) := names
    obtain rfl := Reader.item?_of_read_start names' first
    have no_bracket' : ∀ line ∈ Line.numberFrom 2 raws, line.opensBracket = false :=
      Line.no_bracket_renumbered no_bracket 2
    refine ⟨(r.readAll (Line.numberFrom 2 raws)).keysFrom ∅, ?_, ?_⟩
    · have collected := Extract.map_collect shifted no_bracket' bounded ∅
      rw [Nat.add_right_comm]
      exact collected
    · exact Reading.sections_heading (Reader.headingsOf_readAll no_bracket' r)

theorem extract_eq_of_not_named {name : Text} {content : Bytes}
    (away : ∀ line ∈ Line.scan content, line.sectionName? ≠ some (normalName name)) :
    extract name content = .ok ⟨∅, .absent⟩ := by
  have nothing := Extract.find_append away []
  rwa [List.append_nil] at nothing

theorem sliceOf_eq_nil {name : Text} {content : Bytes}
    (away : ∀ line ∈ Line.scan content, line.sectionName? ≠ some (normalName name)) :
    sliceOf name content = [] := by
  have none :
      (Line.scan content).dropWhile (fun line => line.sectionName? ≠ some (normalName name)) = [] :=
    List.dropWhile_eq_nil_iff.mpr fun line mem => by simpa using away line mem
  rw [sliceOf, Extract.linesOf, none]
  rfl

theorem Sections.insert_ne_empty (name : Text) (keys : Section) :
    (∅ : Sections).insert name keys ≠ ∅ := by
  intro same
  have found := congrArg (Table.get? · name) same
  simp [Table.get?_insert] at found

theorem Sections.insert_inj {name : Text} {keys keys' : Section}
    (same : (∅ : Sections).insert name keys = (∅ : Sections).insert name keys') : keys = keys' := by
  have found := congrArg (Table.get? · name) same
  simpa [Table.get?_insert] using found

theorem slice_result_inj {name : Text} {result result' : Except Nat Section}
    (same : result.map ((∅ : Sections).insert name) = result'.map ((∅ : Sections).insert name)) :
    result = result' := by
  cases result with
  | error n =>
    cases result' with
    | error n' => exact congrArg Except.error (Except.error.inj same)
    | ok keys => exact absurd same (by simp [Except.map])
  | ok keys =>
    cases result' with
    | error n' => exact absurd same (by simp [Except.map])
    | ok keys' => exact congrArg Except.ok (Sections.insert_inj (Except.ok.inj same))

section

variable {name : Text} {content : Bytes}
  (named : ∃ line ∈ Line.scan content, line.sectionName? = some (normalName name))

include named

/-- The lines of a section that is named have a section when they are parsed on their own. -/
theorem sliceOf_ne_nil : sliceOf name content ≠ [] := by
  intro empty
  have nothing : parse [] = .ok ∅ := rfl
  obtain ⟨result, -, parsed⟩ := exists_slice_result named
  rw [empty, nothing] at parsed
  cases result with
  | error n => simp [Except.map] at parsed
  | ok keys => exact Sections.insert_ne_empty _ _ (Except.ok.inj parsed).symm

theorem map_keys_extract_eq_ok_iff (keys : Section) :
    (extract name content).map Extract.keys = .ok keys ↔
      parse (sliceOf name content) = .ok ((∅ : Sections).insert (normalName name) keys) := by
  obtain ⟨result, extracted, parsed⟩ := exists_slice_result named
  rw [parsed, extracted]
  constructor
  · intro h
    cases result with
    | error n => simp [Except.mapError] at h
    | ok m =>
      rw [Except.ok.inj h]
      rfl
  · intro h
    obtain rfl : result = .ok keys := slice_result_inj h
    rfl

theorem extract_eq_error_iff (number : Nat) :
    extract name content = .error number ↔
      ∃ n, parse (sliceOf name content) = .error n ∧ number = n + sliceOffset name content := by
  obtain ⟨result, extracted, parsed⟩ := exists_slice_result named
  have fault : extract name content = .error number ↔
      (extract name content).map Extract.keys = .error number := by
    cases extract name content <;> simp [Except.map]
  rw [fault, extracted, parsed]
  cases result with
  | error n => simp [Except.map, Except.mapError, eq_comm]
  | ok keys => simp [Except.map, Except.mapError]

end

/-- A content whose lines of the section are the same gives the same result, but for how many lines
stand before them. -/
theorem exists_common_result {name : Text} {content other : Bytes}
    (same : sliceOf name other = sliceOf name content) :
    ∃ result : Except Nat Section,
      (extract name content).map Extract.keys = result.mapError (· + sliceOffset name content) ∧
      (extract name other).map Extract.keys = result.mapError (· + sliceOffset name other) := by
  by_cases named : ∃ line ∈ Line.scan content, line.sectionName? = some (normalName name)
  · have named' : ∃ line ∈ Line.scan other, line.sectionName? = some (normalName name) := by
      by_contra away
      have none := sliceOf_eq_nil fun line mem names => away ⟨line, mem, names⟩
      exact sliceOf_ne_nil named (same.symm.trans none)
    obtain ⟨result, extracted, parsed⟩ := exists_slice_result named
    obtain ⟨result', extracted', parsed'⟩ := exists_slice_result named'
    rw [same, parsed] at parsed'
    rw [← slice_result_inj parsed'] at extracted'
    exact ⟨result, extracted, extracted'⟩
  · have away : ∀ line ∈ Line.scan content, line.sectionName? ≠ some (normalName name) :=
      fun line mem names => named ⟨line, mem, names⟩
    have away' : ∀ line ∈ Line.scan other, line.sectionName? ≠ some (normalName name) :=
      fun line mem names => sliceOf_ne_nil ⟨line, mem, names⟩ (same.trans (sliceOf_eq_nil away))
    refine ⟨.ok ∅, ?_, ?_⟩
    · rw [extract_eq_of_not_named away]
      rfl
    · rw [extract_eq_of_not_named away']
      rfl

/-- Reading one section is parsing its lines. Without a line that names the section there are no
keys. Else the keys are those of the one section that the lines from that line to the next bracket
have as a content of their own, and the faults are the faults of that content, each as many lines
further down as there are lines before. No other byte counts: a content with the same such lines
gives the same result but for that distance. -/
theorem extract_eq_parse_slice (name : Text) (content : Bytes) :
    ((∀ line ∈ Line.scan content, line.sectionName? ≠ some (normalName name)) →
      (extract name content).map Extract.keys = .ok ∅) ∧
    ((∃ line ∈ Line.scan content, line.sectionName? = some (normalName name)) →
      (∀ keys, (extract name content).map Extract.keys = .ok keys ↔
        parse (sliceOf name content) = .ok ((∅ : Sections).insert (normalName name) keys)) ∧
      ∀ number, extract name content = .error number ↔
        ∃ n, parse (sliceOf name content) = .error n ∧ number = n + sliceOffset name content) ∧
    ∀ other, sliceOf name other = sliceOf name content →
      ∃ result : Except Nat Section,
        (extract name content).map Extract.keys =
          result.mapError (· + sliceOffset name content) ∧
        (extract name other).map Extract.keys = result.mapError (· + sliceOffset name other) := by
  refine ⟨fun away => ?_, fun named => ?_, fun other same => exists_common_result same⟩
  · rw [extract_eq_of_not_named away]
    rfl
  · exact ⟨map_keys_extract_eq_ok_iff named, extract_eq_error_iff named⟩

/-- A key that the next bracket cuts off is a fault, two lines further down than in the lines of the
section alone. -/
theorem extract_eq_parse_slice_cut :
    sliceOf (chars "S") (encode (chars "?\n[\n[s]\na = x,\n[t]\n")) =
        encode (chars "[s]\na = x,\n") ∧
      parse (encode (chars "[s]\na = x,\n")) = .error 2 ∧
      extract (chars "S") (encode (chars "?\n[\n[s]\na = x,\n[t]\n")) = .error 4 ∧
      (extract (chars "u") (encode (chars "?\n[\n[s]\na = x,\n[t]\n"))).map Extract.keys = .ok ∅ ∧
      ∃ result : Except Nat Section,
        (extract (chars "S") (encode (chars "[s]\na = x,\n"))).map Extract.keys =
          result.mapError (· + 0) ∧
        (extract (chars "S") (encode (chars "?\n[\n[s]\na = x,\n[t]\n"))).map Extract.keys =
          result.mapError (· + 2) := by
  have cut := extract_eq_parse_slice (chars "S") (encode (chars "?\n[\n[s]\na = x,\n[t]\n"))
  have absent := extract_eq_parse_slice (chars "u") (encode (chars "?\n[\n[s]\na = x,\n[t]\n"))
  have alone := extract_eq_parse_slice (chars "S") (encode (chars "[s]\na = x,\n"))
  have named := cut.2.1 ⟨⟨3, encode (chars "[s]\n")⟩, by decide, by decide⟩
  exact ⟨rfl, rfl, (named.2 4).mpr ⟨2, rfl, rfl⟩,
    absent.1 (by decide), alone.2.2 _ rfl⟩

end Keyfile
