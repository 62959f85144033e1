import Keyfile.Proofs.AnyHistory
import Keyfile.Proofs.AsciiBytes
import Keyfile.Proofs.CleanNames
import Keyfile.Proofs.ExtractSlice
import Keyfile.Proofs.ValidSetting

namespace Keyfile

/-- The name of a section: in normal form, and without a character that a heading ends at. -/
structure KeptName (name : Text) : Prop where
  normal : normalName name = name
  opening : '[' ∉ name
  closing : ']' ∉ name
  newline : '\n' ∉ name

structure KeptKey (key : Text) : Prop where
  normal : normalName key = key
  no_comment : key.head? ≠ some '#'
  newline : '\n' ∉ key
  clean : key.Clean

structure KeptValue (v : Text) : Prop where
  trimmed : v.trim = v
  newline : '\n' ∉ v
  clean : v.Clean

structure KeptValues (values : List Text) : Prop where
  filled : values ≠ []
  each : ∀ v ∈ values, KeptValue v

def Section.Kept (keys : Section) : Prop :=
  ∀ key values, keys.get? key = some values → KeptKey key ∧ KeptValues values

def Sections.Kept (s : Sections) : Prop :=
  ∀ name keys, s.get? name = some keys → KeptName name ∧ Section.Kept keys

def Item.Kept : Item → Prop
  | .heading name => KeptName name
  | .entry key values => KeptKey key ∧ KeptValues values

structure Pending.Kept (p : Pending) : Prop where
  key : KeptKey p.key
  values : ∀ v ∈ p.values, KeptValue v

theorem keptValue_nil : KeptValue [] := ⟨rfl, by simp, Text.clean_nil⟩

theorem KeptValue.of_trim {t : Text} (newline : '\n' ∉ t) (clean : t.Clean) : KeptValue t.trim :=
  ⟨t.trim_trim, fun mem => newline (Text.mem_of_mem_trim mem), clean.trim⟩

theorem KeptKey.of_normalName {t : Text} (newline : '\n' ∉ t) (clean : t.Clean)
    (no_comment : ¬ t.Comment) : KeptKey (normalName t) where
  normal := normalName_normalName t
  no_comment head := no_comment (Text.Comment.of_normalName head)
  newline mem := newline (mem_of_mem_normalName (by decide) mem)
  clean := clean.normalName

theorem KeptName.of_normalName {t : Text} (opening : '[' ∉ t) (closing : ']' ∉ t)
    (newline : '\n' ∉ t) : KeptName (normalName t) where
  normal := normalName_normalName t
  opening mem := opening (mem_of_mem_normalName (by decide) mem)
  closing mem := closing (mem_of_mem_normalName (by decide) mem)
  newline mem := newline (mem_of_mem_normalName (by decide) mem)

section lines

variable {inSection : Bool} {before? after? : Option Pending} {t left right last : Text}
  {pieces : List Text} {item? : Option Item}

/-- The pieces of a text between its bare commas are clean if it has no other character that ends a
key or value. -/
theorem Text.Cuts.clean (cuts : t.Cuts pieces last) (bracket : ¬ t.HasBare '[')
    (equals : ¬ t.HasBare '=') {piece : Text} (h : piece ∈ pieces ++ [last]) :
    piece.Clean ∧ ∀ c ∈ piece, c ∈ t := by
  induction cuts with
  | none comma =>
    obtain rfl := List.mem_singleton.mp h
    exact ⟨⟨bracket, equals, comma⟩, fun _ => id⟩
  | @next p rest last pieces comma _ _ ih =>
    rw [Text.hasBare_append_cons (by decide) (by decide), not_or] at bracket equals
    rcases List.mem_cons.mp h with rfl | h
    · exact ⟨⟨bracket.1, equals.1, comma⟩, fun c hc => by simp [hc]⟩
    · obtain ⟨clean, inner⟩ := ih bracket.2 equals.2 h
      exact ⟨clean, fun c hc => by simp [inner c hc]⟩

theorem Text.Cuts.keptValue (cuts : t.Cuts pieces last) (bracket : ¬ t.HasBare '[')
    (equals : ¬ t.HasBare '=') (newline : '\n' ∉ t) {piece : Text} (h : piece ∈ pieces ++ [last]) :
    KeptValue piece.trim := by
  obtain ⟨clean, inner⟩ := cuts.clean bracket equals h
  exact .of_trim (fun mem => newline (inner _ mem)) clean

/-- What a line of values leaves open or completes is kept if the values are. -/
theorem Pending.Kept.after {p : Pending} (kept : p.Kept)
    (values : ∀ piece ∈ pieces ++ [last], KeptValue piece.trim)
    (h : p.after pieces last = (after?, item?)) :
    (∀ q, after? = some q → q.Kept) ∧ ∀ item, item? = some item → item.Kept := by
  have all : ∀ v ∈ p.values ++ (pieces ++ [last]).map Text.trim, KeptValue v := by
    intro v hv
    rcases List.mem_append.mp hv with hv | hv
    · exact kept.values v hv
    · obtain ⟨piece, hp, rfl⟩ := List.mem_map.mp hv
      exact values piece hp
  rw [List.map_append, ← List.append_assoc] at all
  unfold Pending.after at h
  split at h
  · obtain ⟨rfl, rfl⟩ := Prod.mk.inj h
    refine ⟨?_, by simp⟩
    rintro _ ⟨⟩
    exact ⟨kept.key, fun v hv => all v (List.mem_append_left _ hv)⟩
  · obtain ⟨rfl, rfl⟩ := Prod.mk.inj h
    refine ⟨by simp, ?_⟩
    rintro _ ⟨⟩
    exact ⟨kept.key, by simp, all⟩

theorem Text.Names.keptName {name : Text} (names : t.Names name) (newline : '\n' ∉ t) :
    KeptName name := by
  obtain ⟨inner, split, opening, closing, rfl⟩ := names
  refine .of_normalName opening closing fun mem => newline (Text.mem_of_mem_trim ?_)
  rw [split]
  simp [mem]

theorem Text.Assigns.keptKey (assigns : t.Assigns left right) (bracket : ¬ t.HasBare '[')
    (no_comment : ¬ t.Comment) (newline : '\n' ∉ t) : KeptKey (normalName left) := by
  have inner (c : Char) (h : c ∈ left) : c ∈ t := by
    rw [assigns.split]
    simp [h]
  refine .of_normalName (fun mem => newline (inner _ mem)) (assigns.clean bracket) ?_
  intro comment
  apply no_comment
  rw [Text.Comment, assigns.split, Text.trimStart_append_of_not_blank comment.not_blank]
  rw [Text.Comment] at comment
  rw [List.head?_append, comment]
  rfl

/-- A line leaves open and completes what is kept. -/
theorem Reads.kept (h : Reads inSection before? t after? item?) (newline : '\n' ∉ t)
    (kept : ∀ p, before? = some p → p.Kept) :
    (∀ p, after? = some p → p.Kept) ∧ ∀ item, item? = some item → item.Kept := by
  cases h with
  | skip => exact ⟨kept, by simp⟩
  | blank => exact ⟨by simp, by simp⟩
  | @lastBlank p =>
    obtain ⟨key, values⟩ := kept p rfl
    refine ⟨by simp, ?_⟩
    rintro _ ⟨⟩
    refine ⟨key, by simp, fun v hv => ?_⟩
    rcases List.mem_append.mp hv with hv | hv
    · exact values v hv
    · rw [List.mem_singleton.mp hv]
      exact keptValue_nil
  | heading _ names =>
    refine ⟨by simp, ?_⟩
    rintro _ ⟨⟩
    exact names.keptName newline
  | entry _ no_comment _ _ _ bracket assigns cuts after =>
    have key := assigns.keptKey bracket no_comment newline
    have inner := assigns.split
    rw [inner, Text.hasBare_append_cons (by decide) (by decide), not_or] at bracket
    rw [inner] at newline
    refine Pending.Kept.after ⟨key, by simp⟩ (fun piece => ?_) after
    exact cuts.keptValue bracket.2 assigns.rest fun mem => newline (by simp [mem])
  | values _ _ _ bracket equals cuts after =>
    exact (kept _ rfl).after (fun piece => cuts.keptValue bracket equals newline) after

end lines

theorem Fills.kept {before? : Option Pending} {raws : List Bytes} {key : Text}
    {values : List Text} (fills : Fills before? raws key values)
    (newline : ∀ raw ∈ raws, '\n' ∉ textOf raw) (kept : ∀ p, before? = some p → p.Kept) :
    Item.Kept (.entry key values) := by
  induction fills with
  | last reads => exact (reads.kept (newline _ (by simp)) kept).2 _ rfl
  | more reads _ ih =>
    exact ih (fun raw hr => newline raw (by simp [hr])) (reads.kept (newline _ (by simp)) kept).1

theorem LaidOut.kept {content : Bytes} {blocks : List Block} (h : LaidOut content blocks)
    {item : Item} (mem : item ∈ itemsOf blocks) : item.Kept := by
  obtain ⟨b, hb, complete⟩ := List.mem_filterMap.mp mem
  have newline (raw : Bytes) (hr : raw ∈ b.raws) : '\n' ∉ textOf raw := by
    have own : raw ∈ rawsOf blocks := List.mem_flatMap.mpr ⟨b, hb, hr⟩
    rw [h.raws] at own
    exact newline_not_mem_of_mem_pieces own
  have sound := h.laid.sound hb
  cases b with
  | quiet => cases complete
  | heading raw name =>
    cases complete
    exact sound.2.keptName (newline raw (by simp [Block.raws]))
  | entry raws key values =>
    cases complete
    exact Fills.kept sound newline (by simp)

namespace Sections

variable {s : Sections}

theorem kept_empty : Kept ∅ := by
  rintro name keys ⟨⟩

theorem Kept.keysOf (h : s.Kept) (name : Text) : Section.Kept (s.keysOf name) := by
  rw [Sections.keysOf]
  cases found : s.get? name with
  | none =>
    rintro key values ⟨⟩
  | some keys => exact (h name keys found).2

theorem Kept.insert (h : s.Kept) {name : Text} {keys : Section} (named : KeptName name)
    (kept : keys.Kept) : Kept (Table.insert s name keys) := by
  intro n ks found
  rw [Table.get?_insert] at found
  split at found
  next same =>
    obtain rfl := Option.some.inj found
    exact same ▸ ⟨named, kept⟩
  next => exact h n ks found

theorem Kept.put (h : s.Kept) {name key : Text} {values : List Text} (named : KeptName name)
    (kept : KeptKey key) (filled : KeptValues values) : Kept (s.put name key values) := by
  refine h.insert named fun k vs found => ?_
  rw [Table.get?_insert] at found
  split at found
  next same =>
    obtain rfl := Option.some.inj found
    exact same ▸ ⟨kept, filled⟩
  next => exact h.keysOf name k vs found

theorem kept_ofItems {items : List Item} (kept : ∀ item ∈ items, item.Kept) :
    Kept (ofItems items) := by
  suffices all : ∀ d : Draft, d.sections.Kept → (∀ name, d.open? = some name → KeptName name) →
      Kept (items.foldl Draft.add d).sections from all .start kept_empty (by simp [Draft.start])
  induction items with
  | nil => exact fun d h _ => h
  | cons item items ih =>
    intro d h named
    have own := kept item (by simp)
    refine ih (fun item hi => kept item (by simp [hi])) _ ?_ ?_
    · cases item with
      | heading name =>
        refine h.insert own ?_
        rintro key values ⟨⟩
      | entry key values =>
        cases opened : d.open? with
        | none => simpa [Draft.add, opened] using h
        | some name => simpa [Draft.add, opened] using h.put (named name opened) own.1 own.2
    · cases item with
      | heading name =>
        rintro _ ⟨⟩
        exact own
      | entry key values =>
        cases opened : d.open? with
        | none => simp [Draft.add, opened]
        | some name => simpa [Draft.add, opened] using named

end Sections

/-- What a content says is kept, whatever its bytes. -/
theorem kept_of_parse {content : Bytes} {sections : Sections}
    (parsed : parse content = .ok sections) : sections.Kept := by
  obtain ⟨blocks, laidOut, rfl⟩ := exists_laidOut parsed
  exact Sections.kept_ofItems fun item => laidOut.kept

/-- So is what it says of one section, read on its own. The lines after that need not be
readable. -/
theorem kept_of_extract {name : Text} {content : Bytes} {found : Extract}
    (extracted : extract name content = .ok found) : Section.Kept found.keys := by
  by_cases named : ∃ line ∈ Line.scan content, line.sectionName? = some (normalName name)
  · have keys : (extract name content).map Extract.keys = .ok found.keys := by
      rw [extracted]
      rfl
    have kept := kept_of_parse ((map_keys_extract_eq_ok_iff named found.keys).mp keys)
    refine (kept (normalName name) found.keys ?_).2
    rw [Table.get?_insert, if_pos rfl]
  · have away : ∀ line ∈ Line.scan content, line.sectionName? ≠ some (normalName name) :=
      fun line hl here => named ⟨line, hl, here⟩
    rw [extract_eq_of_not_named away] at extracted
    cases extracted
    rintro key values ⟨⟩

namespace Setting

variable {setting : Setting} {v : Text}

theorem clean_of_plain {t : Text} (plain : ∀ c ∈ t, c ∉ reserved) : t.Clean :=
  Text.clean_iff.mpr fun c ends bare => plain c bare.mem (by
    rcases ends with rfl | rfl | rfl <;> decide)

theorem ValidValue.kept (valid : ValidValue v) : KeptValue v :=
  ⟨valid.trimmed, fun mem => valid.plain _ mem (by decide), clean_of_plain valid.plain⟩

theorem Valid.keptName (valid : setting.Valid) : KeptName setting.sectionName where
  normal := valid.normalName_sectionName
  opening mem := valid.plain_sectionName _ mem (by decide)
  closing mem := valid.plain_sectionName _ mem (by decide)
  newline mem := valid.plain_sectionName _ mem (by decide)

theorem Valid.keptKey (valid : setting.Valid) : KeptKey setting.key := by
  obtain ⟨plain, no_comment⟩ := checkKey_eq_ok.mp valid.checkKey_key
  rw [← valid.normalName_key]
  refine .of_normalName (fun mem => plain _ mem (by decide)) (clean_of_plain plain) no_comment

theorem Valid.keptValues (valid : setting.Valid) : KeptValues setting.values :=
  ⟨valid.values_ne_nil, fun v hv => (valid.validValue v hv).kept⟩

end Setting

open Session

/-- Memory is in kept form after any history, whatever has happened to the file. -/
theorem Session.Reachable.kept {start : Host} {s : Session} (reached : s.Reachable start) :
    s.store.sections.Kept := by
  induction reached with
  | created made =>
    rw [(Store.of_create made).1]
    exact Sections.kept_empty
  | loaded made =>
    obtain ⟨_, sections, read, rfl⟩ := Store.of_ofFile made
    obtain ⟨_, _, parsed⟩ := readSections_eq_ok.mp read
    exact kept_of_parse parsed
  | @set _ _ _ _ _ result _ ran ih =>
    cases result with
    | error e => rwa [(same_of_failed_set ran).1]
    | ok _ =>
      obtain ⟨setting, accepted, kept⟩ := store_of_set ran
      obtain ⟨_, valid⟩ := Setting.ofRequest_eq_ok accepted
      rw [kept]
      exact ih.put valid.keptName valid.keptKey valid.keptValues
  | written _ ran ih => rwa [store_of_onHost ran]
  | refreshed _ ran ih =>
    obtain ⟨_, _, same⟩ | ⟨_, _, read, same⟩ := (of_refresh ran).2
    · rwa [same]
    · obtain ⟨_, _, parsed⟩ := readSections_eq_ok.mp read
      rw [same]
      exact kept_of_parse parsed
  | changed _ _ ih => exact ih

theorem Sections.Kept.of_values? {s : Session} (kept : s.store.sections.Kept) {n k : Text}
    {values : List Text} (found : s.values? n k = some values) :
    KeptName n ∧ KeptKey k ∧ KeptValues values := by
  obtain ⟨keys, section_n, key_k⟩ := Option.bind_eq_some_iff.mp found
  obtain ⟨name, keys_kept⟩ := kept n keys section_n
  exact ⟨name, keys_kept k values key_k⟩

/-- The store answers with what is in memory under the normal forms of the names. -/
theorem Store.get_of_values? {s : Session} {name key : Text} {values : List Text}
    (found : s.values? (normalName name) (normalName key) = some values) (filled : values ≠ []) :
    s.store.get name key = values.map (·.filter (· ≠ '\\')) ∧
      s.store.has [name, key] = true := by
  obtain ⟨v, rest, rfl⟩ := List.exists_cons_of_ne_nil filled
  obtain ⟨keys, section_n, key_k⟩ := Option.bind_eq_some_iff.mp found
  constructor
  · rw [get, show (s.store.sections.get? (normalName name)).bind _ = _ from found]
  · simp [has, section_n, Table.contains, key_k]

/-- What is in memory after any history is in kept form, and so is whatever a content is read as,
whole or one section of it. So a key that is there has a value, and it is found under all the names
that have the same normal forms. -/
theorem everything_kept {start : Host} {s : Session} (reached : s.Reachable start) :
    s.store.sections.Kept ∧
    (∀ content sections, parse content = .ok sections → sections.Kept) ∧
    (∀ name content found, extract name content = .ok found → Section.Kept found.keys) ∧
    (∀ n k, s.values? n k ≠ some []) ∧
    ∀ n k values, s.values? n k = some values →
      ∀ name key, normalName name = normalName n → normalName key = normalName k →
        s.store.get name key = values.map (·.filter (· ≠ '\\')) ∧
          s.store.has [name, key] = true := by
  have kept := reached.kept
  refine ⟨kept, fun _ _ => kept_of_parse, fun _ _ _ => kept_of_extract, fun n k found => ?_,
    fun n k values found name key same_name same_key => ?_⟩
  · exact (kept.of_values? found).2.2.filled rfl
  · obtain ⟨name_kept, key_kept, values_kept⟩ := kept.of_values? found
    rw [name_kept.normal] at same_name
    rw [key_kept.normal] at same_key
    exact Store.get_of_values? (by rw [same_name, same_key, found]) values_kept.filled

def escapingDisk : Disk where
  nodes := [([[0x66]], .file (encode (chars "[ Ab ]\nK\\=1 = x\\, , \\[y\n")))]
  staged := []

theorem everything_kept_escaped :
    ∃ s : Session, s.Reachable ⟨escapingDisk, []⟩ ∧
      KeptKey (chars "k\\=1") ∧ KeptValue (chars "x\\,") ∧ KeptValue (chars "\\[y") ∧
      s.store.get (chars "AB ") (chars " K\\=1") = [chars "x,", chars "[y"] := by
  obtain ⟨log, ran⟩ := Store.run_ofFile [0x66] (.usual [dot]) ⟨escapingDisk, []⟩
  have read : readSections escapingDisk [0x66] = .ok (Sections.put ∅ (chars "ab") (chars "k\\=1")
    [chars "x\\,", chars "\\[y"]) := rfl
  rw [read] at ran
  have reached := Reachable.loaded ran
  obtain ⟨kept, _, _, _, found⟩ := everything_kept reached
  obtain ⟨_, key, values⟩ := kept.of_values? (n := chars "ab") (k := chars "k\\=1") rfl
  have same_name : normalName (chars "AB ") = normalName (chars "ab") := by decide +kernel
  have same_key : normalName (chars " K\\=1") = normalName (chars "k\\=1") := by decide +kernel
  obtain ⟨got, _⟩ := found (chars "ab") (chars "k\\=1") _ rfl _ _ same_name same_key
  exact ⟨_, reached, key, values.each _ (by simp), values.each _ (by simp), got⟩

end Keyfile
