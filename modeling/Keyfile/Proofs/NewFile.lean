import Keyfile.Proofs.InStep

namespace Keyfile

/-- A text that is ended by a newline is written as the lines between its newlines. -/
theorem encode_lines (t : Text) :
    encode (t ++ ['\n']) = ((t.splitOn '\n').map lineOf).flatten := by
  induction t with
  | nil => rfl
  | cons c t ih =>
    have first : encode (c :: (t ++ ['\n'])) = encode [c] ++ encode (t ++ ['\n']) :=
      encode_append [c] _
    rw [List.cons_append, first, ih, List.splitOn_cons_eq_if_modifyHead]
    split
    next newline =>
      rw [eq_of_beq newline]
      rfl
    next =>
      obtain ⟨p, ps, found⟩ := List.exists_cons_of_ne_nil (List.splitOn_ne_nil '\n' t)
      simp [found, lineOf, encode]

theorem newline_not_mem_of_mem_splitOn {t p : Text} (h : p ∈ t.splitOn '\n') : '\n' ∉ p := by
  induction t generalizing p with
  | nil =>
    obtain rfl : p = [] := by simpa using h
    simp
  | cons c t ih =>
    rw [List.splitOn_cons_eq_if_modifyHead] at h
    split at h
    next =>
      rcases List.mem_cons.mp h with rfl | h
      · simp
      · exact ih h
    next other =>
      obtain ⟨q, qs, found⟩ := List.exists_cons_of_ne_nil (List.splitOn_ne_nil '\n' t)
      rw [found, List.modifyHead_cons] at h
      rw [found] at ih
      rcases List.mem_cons.mp h with rfl | h
      · have first : '\n' ≠ c := fun same => other (beq_iff_eq.mpr same.symm)
        simpa [first] using ih List.mem_cons_self
      · exact ih (List.mem_cons_of_mem _ h)

namespace Text

/-- A line with this text completes nothing while no key is open. -/
def Quiet (t : Text) : Prop := t.Blank ∨ t.Comment

instance (t : Text) : Decidable t.Quiet := inferInstanceAs (Decidable (_ ∨ _))

theorem quiet_append_blank {w : Text} (h : w.Blank) (t : Text) : Quiet (t ++ w) ↔ t.Quiet := by
  by_cases blank : t.Blank
  · exact iff_of_true (Or.inl (blank_append.mpr ⟨blank, h⟩)) (Or.inl blank)
  · have longer : ¬ Blank (t ++ w) := fun all => blank (blank_append.mp all).1
    constructor
    · rintro (all | comment)
      · exact absurd all longer
      · exact Or.inr (comment.of_append blank)
    · rintro (all | comment)
      · exact absurd all blank
      · right
        rw [Comment, trimStart_append_of_not_blank blank, List.head?_append]
        simp [show t.trimStart.head? = some '#' from comment]

/-- The comment stays one when it is written: each of its lines but the first, which stands behind
the sign, is blank or a comment itself. -/
def StaysComment (c : Text) : Prop := ∀ t ∈ (c.splitOn '\n').tail, Quiet t

instance (c : Text) : Decidable c.StaysComment := List.decidableBAll _ _

theorem staysComment_iff {c : Text} :
    (∀ t ∈ List.splitOn '\n' (['#', ' '] ++ c), Quiet t) ↔ c.StaysComment := by
  obtain ⟨p, ps, found⟩ := List.exists_cons_of_ne_nil (List.splitOn_ne_nil '\n' c)
  have lines : List.splitOn '\n' ('#' :: ' ' :: c) = ('#' :: ' ' :: p) :: ps := by
    simp [List.splitOn_cons_eq_if_modifyHead, found]
  have comment : Quiet ('#' :: ' ' :: p) := by
    right
    rw [Comment, trimStart_of_head (by decide)]
    rfl
  simp only [List.cons_append, List.nil_append, lines, StaysComment, found, List.tail_cons,
    List.forall_mem_cons, comment, true_and]

end Text

theorem quiet_textOf_lineOf {t : Text} : (textOf (lineOf t)).Quiet ↔ t.Quiet := by
  rw [textOf_lineOf_eq]
  split
  next last =>
    obtain ⟨init, rfl⟩ := List.getLast?_eq_some_iff.mp last
    have blank : Text.Blank ['\r'] := by decide
    rw [List.dropLast_concat, Text.quiet_append_blank blank]
  next => rfl

theorem pieces_commentLines (comments : List Text) :
    Line.pieces (encode (Store.commentLines comments)) =
      comments.flatMap fun c => (List.splitOn '\n' (['#', ' '] ++ c)).map lineOf := by
  have written : encode (Store.commentLines comments) =
      (comments.flatMap fun c => (List.splitOn '\n' (['#', ' '] ++ c)).map lineOf).flatten := by
    induction comments with
    | nil => rfl
    | cons c rest ih =>
      rw [Store.commentLines, List.flatMap_cons, encode_append, encode_lines, List.flatMap_cons,
        List.flatten_append, ← ih]
      rfl
  rw [written, Line.pieces_flatten]
  refine Line.lined_of_closed fun raw mem => ?_
  obtain ⟨c, _, mem⟩ := List.mem_flatMap.mp mem
  obtain ⟨t, ht, rfl⟩ := List.mem_map.mp mem
  exact isClosed_lineOf (newline_not_mem_of_mem_splitOn ht)

theorem quiet_commentLines_iff {comments : List Text} :
    (∀ raw ∈ Line.pieces (encode (Store.commentLines comments)), (textOf raw).Quiet) ↔
      ∀ c ∈ comments, c.StaysComment := by
  simp only [pieces_commentLines, List.mem_flatMap, List.mem_map, ← Text.staysComment_iff]
  constructor
  · exact fun quiet c hc t ht => quiet_textOf_lineOf.mp (quiet _ ⟨c, hc, t, ht, rfl⟩)
  · rintro quiet _ ⟨c, hc, t, ht, rfl⟩
    exact quiet_textOf_lineOf.mpr (quiet c hc t ht)

theorem rawsOf_map_quiet (raws : List Bytes) : rawsOf (raws.map .quiet) = raws := by
  induction raws with
  | nil => rfl
  | cons raw raws ih => rw [List.map_cons, rawsOf_cons, ih]; rfl

theorem itemsOf_map_quiet (raws : List Bytes) : itemsOf (raws.map .quiet) = [] := by
  induction raws with
  | nil => rfl
  | cons raw raws ih => exact ih

theorem laid_map_quiet {raws : List Bytes} (quiet : ∀ raw ∈ raws, (textOf raw).Quiet)
    (inSection : Bool) : Laid inSection (raws.map .quiet) := by
  induction raws with
  | nil => trivial
  | cons raw raws ih =>
    rw [List.forall_mem_cons] at quiet
    exact ⟨quiet.1, trivial, ih quiet.2⟩

theorem Laid.quiet_of_silent {inSection : Bool} {blocks : List Block} (laid : Laid inSection blocks)
    (silent : itemsOf blocks = []) : ∀ raw ∈ rawsOf blocks, (textOf raw).Quiet := by
  intro raw mem
  obtain ⟨b, hb, mem⟩ := List.mem_flatMap.mp mem
  have nothing : b.item? = none := List.filterMap_eq_nil_iff.mp silent b hb
  cases b with
  | quiet own =>
    obtain rfl := List.mem_singleton.mp mem
    exact laid.sound hb
  | heading => cases nothing
  | entry => cases nothing

theorem laidOut_map_quiet {content : Bytes}
    (quiet : ∀ raw ∈ Line.pieces content, (textOf raw).Quiet) :
    LaidOut content ((Line.pieces content).map .quiet) :=
  ⟨rawsOf_map_quiet _, laid_map_quiet quiet false⟩

/-- A content has no sections exactly if no line of it says anything. -/
theorem parse_eq_empty_iff {content : Bytes} :
    parse content = .ok ∅ ↔ ∀ raw ∈ Line.pieces content, (textOf raw).Quiet := by
  constructor
  · intro parsed
    obtain ⟨blocks, laidOut, none⟩ := exists_laidOut parsed
    rw [← laidOut.raws]
    rcases laidOut.laid.exists_heading with silent | ⟨name, items, first⟩
    · exact laidOut.laid.quiet_of_silent silent
    · have there := (Sections.contains_ofItems (itemsOf blocks) name).mpr (by simp [first])
      rw [none] at there
      cases there
  · intro quiet
    rw [(laidOut_map_quiet quiet).parse_eq, itemsOf_map_quiet]
    rfl

inductive Store.Refused : Session → Session → Prop
  | none {s : Session} : Refused s s
  | next {s s' s'' : Session} {sectionName key : Text} {values : List Text} {e : Failure} :
      Refused s s' → (Store.set sectionName key values).run s' = (.error e, s'') → Refused s s''

namespace Session

theorem InStep.of_refused {s s' : Session} {blocks : List Block} (h : s.InStep blocks)
    (refused : Store.Refused s s') : s'.InStep blocks ∧ s'.store = s.store := by
  induction refused with
  | none => exact ⟨h, rfl⟩
  | next _ failed ih =>
    obtain ⟨inStep, store⟩ := ih
    obtain ⟨inStep', store'⟩ := inStep.of_failed_set failed
    exact ⟨inStep', store'.trans store⟩

theorem inStep_of_staysComment {path : Path} {comments : List Text} {options : Options}
    {host : Host} (stay : ∀ c ∈ comments, c.StaysComment)
    (read : host.disk.read path = .ok (encode (Store.commentLines comments))) :
    InStep ⟨⟨path, options, ∅⟩, host⟩
      ((Line.pieces (encode (Store.commentLines comments))).map .quiet) := by
  have quiet := quiet_commentLines_iff.mpr stay
  refine ⟨⟨_, read, laidOut_map_quiet quiet⟩, ?_, ?_⟩
  · rw [rawsOf_map_quiet]
    exact fun raw mem => Text.not_trap_of_quiet (quiet raw mem)
  · rw [itemsOf_map_quiet]
    rfl

end Session

theorem sections_of_created_iff {path : Path} {comments : List Text} {options : Options}
    {host host' : Host} {store : Store}
    (created : (Store.create path comments options).run host = (.ok store, host')) :
    ((sectionsOfFile path).run host').1 = .ok ∅ ↔ ∀ c ∈ comments, c.StaysComment := by
  obtain ⟨_, read⟩ := Store.read_of_create created
  obtain ⟨log, ran⟩ := run_sectionsOfFile path host'
  rw [ran, ← quiet_commentLines_iff, ← parse_eq_empty_iff, readSections_eq_ok, read]
  simp

/-- A new file says what its store holds, which is nothing, exactly if all comments stay comments
when they are written. Then the first request that succeeds leaves its values in file and memory,
and nothing else. -/
theorem new_file_matches_iff {path : Path} {comments : List Text} {options : Options}
    {host host' : Host} {store : Store}
    (created : (Store.create path comments options).run host = (.ok store, host')) :
    store.sections = ∅ ∧
    (((sectionsOfFile path).run host').1 = .ok ∅ ↔ ∀ c ∈ comments, c.StaysComment) ∧
    ((∀ c ∈ comments, c.StaysComment) → ∀ s s' sectionName key values,
      Store.Refused ⟨store, host'⟩ s → (Store.set sectionName key values).run s = (.ok (), s') →
        ((sectionsOfFile path).run s'.host).1 = .ok s'.store.sections ∧
        s'.store.sections =
          Sections.put ∅ (normalName sectionName) (normalName key) (Setting.kept values)) := by
  obtain ⟨rfl, read⟩ := Store.read_of_create created
  refine ⟨rfl, sections_of_created_iff created,
    fun stay s s' sectionName key values refused done => ?_⟩
  obtain ⟨inStep, same⟩ := (Session.inStep_of_staysComment stay read).of_refused refused
  obtain ⟨setting, blocks, accepted, inStep', kept, _⟩ := inStep.exists_set done
  obtain ⟨rfl, _⟩ := Setting.ofRequest_eq_ok accepted
  obtain ⟨log, ran⟩ := run_sectionsOfFile path s'.host
  have here : s'.store.path = path := by rw [kept, same]; rfl
  refine ⟨?_, ?_⟩
  · rw [ran, ← here, inStep'.readSections_eq]
  · rw [kept, same]
    rfl

def commentedDisk (more : Text) : Disk where
  nodes := [([[0x66]], .file (encode (chars "# a\n\t# b\n \u00a0\n# c\r\n" ++ more)))]
  staged := []

/-- Behind a request that is refused stands one that succeeds. -/
theorem new_file_matches_iff_lines :
    ∃ log log' log'',
      (Store.create [0x66] [chars "a\n\t# b\n \u00a0", chars "c\r"] (.usual [dot])).run
          ⟨⟨[], []⟩, []⟩ =
        (.ok ⟨[0x66], .usual [dot], ∅⟩, ⟨commentedDisk [], log⟩) ∧
      (Store.set (chars "S") (chars "k=") []).run
          ⟨⟨[0x66], .usual [dot], ∅⟩, ⟨commentedDisk [], log⟩⟩ =
        (.error (.badName '=' (chars "k=")),
          ⟨⟨[0x66], .usual [dot], ∅⟩, ⟨commentedDisk [], log'⟩⟩) ∧
      (Store.set (chars "S") (chars "k") [chars " v"]).run
          ⟨⟨[0x66], .usual [dot], ∅⟩, ⟨commentedDisk [], log'⟩⟩ =
        (.ok (), ⟨⟨[0x66], .usual [dot], Sections.put ∅ (chars "s") (chars "k") [chars "v"]⟩,
          ⟨commentedDisk (chars "\n[s]\nk = v\n"), log''⟩⟩) ∧
      ((sectionsOfFile [0x66]).run ⟨commentedDisk [], log⟩).1 = .ok ∅ ∧
      ((sectionsOfFile [0x66]).run ⟨commentedDisk (chars "\n[s]\nk = v\n"), log''⟩).1 =
        .ok (Sections.put ∅ (chars "s") (chars "k") [chars "v"]) := by
  have stay : ∀ c ∈ [chars "a\n\t# b\n \u00a0", chars "c\r"], c.StaysComment := by decide
  obtain ⟨log, created⟩ : ∃ log,
      (Store.create [0x66] [chars "a\n\t# b\n \u00a0", chars "c\r"] (.usual [dot])).run
          ⟨⟨[], []⟩, []⟩ =
        (.ok ⟨[0x66], .usual [dot], ∅⟩, ⟨commentedDisk [], log⟩) := ⟨_, rfl⟩
  obtain ⟨log', refused⟩ : ∃ log', (Store.set (chars "S") (chars "k=") []).run
        ⟨⟨[0x66], .usual [dot], ∅⟩, ⟨commentedDisk [], log⟩⟩ =
      (.error (.badName '=' (chars "k=")),
        ⟨⟨[0x66], .usual [dot], ∅⟩, ⟨commentedDisk [], log'⟩⟩) := ⟨_, rfl⟩
  obtain ⟨log'', done⟩ : ∃ log'', (Store.set (chars "S") (chars "k") [chars " v"]).run
        ⟨⟨[0x66], .usual [dot], ∅⟩, ⟨commentedDisk [], log'⟩⟩ =
      (.ok (), ⟨⟨[0x66], .usual [dot], Sections.put ∅ (chars "s") (chars "k") [chars "v"]⟩,
        ⟨commentedDisk (chars "\n[s]\nk = v\n"), log''⟩⟩) := ⟨_, rfl⟩
  obtain ⟨_, empty, first⟩ := new_file_matches_iff created
  exact ⟨log, log', log'', created, refused, done, empty.mpr stay,
    (first stay _ _ _ _ _ (.next .none refused) done).1⟩

/-- A comment whose second and third line read as a section with a key. -/
theorem not_new_file_matches :
    ¬ ∀ path comments options host store host',
      (Store.create path comments options).run host = (.ok store, host') →
        ((sectionsOfFile path).run host').1 = .ok store.sections := by
  intro same
  obtain ⟨log, created⟩ : ∃ log,
      (Store.create [0x66] [chars "x\n[s]\nk = v"] (.usual [dot])).run ⟨⟨[], []⟩, []⟩ =
        (.ok ⟨[0x66], .usual [dot], ∅⟩,
          ⟨⟨[([[0x66]], .file (encode (chars "# x\n[s]\nk = v\n")))], []⟩, log⟩) := ⟨_, rfl⟩
  have empty := same _ _ _ _ _ _ created
  exact absurd ((sections_of_created_iff created).mp empty) (by decide)

end Keyfile
