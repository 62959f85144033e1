import Keyfile.Proofs.DraftItems
import Keyfile.Proofs.JsonReading
import Keyfile.Store
import Keyfile.Text.Utf8.Inverse

namespace Keyfile

structure Sections.Alike (s s' : Sections) : Prop where
  sections : ∀ n, s.contains n = s'.contains n
  values : ∀ n k, (s.keysOf n).get? k = (s'.keysOf n).get? k

theorem Sections.alike_iff {s s' : Sections} : s.Alike s' ↔ s = s' := by
  constructor
  · intro alike
    apply Table.ext_get?
    intro n
    have there := alike.sections n
    have keys : s.keysOf n = s'.keysOf n := Table.ext_get? (alike.values n)
    rw [Table.contains, Table.contains] at there
    rw [keysOf, keysOf] at keys
    cases found : s.get? n <;> cases found' : s'.get? n <;> simp_all
  · rintro rfl
    exact ⟨fun _ => rfl, fun _ _ => rfl⟩

namespace Json

/-- An object that has the names of a table in their order, each with what stands for its value. -/
def ShowsTable {β : Type} (Shows : Json → β → Prop) (j : Json) (t : Table β) : Prop :=
  ∃ fields, j = .object fields ∧ Ordered fields ∧
    ∀ n, Option.Rel Shows (fields.lookup n) (t.get? n)

def ShowsValues (j : Json) (values : List Text) : Prop := j = .list (values.map .text)

def ShowsSection : Json → Section → Prop := ShowsTable ShowsValues

def ShowsSections : Json → Sections → Prop := ShowsTable ShowsSection

variable {β : Type} {Shows : Json → β → Prop}

theorem ShowsTable.unique {j : Json} {t t' : Table β}
    (one : ∀ j b b', Shows j b → Shows j b' → b = b') (shown : ShowsTable Shows j t)
    (shown' : ShowsTable Shows j t') : t = t' := by
  obtain ⟨fields, rfl, _, values⟩ := shown
  obtain ⟨_, same, _, values'⟩ := shown'
  cases same
  apply Table.ext_get?
  intro n
  have value := values n
  have value' := values' n
  generalize fields.lookup n = j?, t.get? n = b?, t'.get? n = b'? at value value'
  cases value with
  | none =>
    cases value'
    rfl
  | some shown =>
    cases value' with
    | some shown' => rw [one _ _ _ shown shown']

/-- The values of a table, each with what stands for it in its place. -/
theorem showsTable_map {write : β → Json} (each : ∀ b, Shows (write b) b) (t : Table β) :
    ShowsTable Shows (.object (t.entries.map fun (name, b) => (name, write b))) t := by
  refine ⟨_, rfl, List.pairwise_map.mpr t.ordered, fun n => ?_⟩
  rw [Table.get?]
  induction t.entries with
  | nil => exact .none
  | cons e entries ih =>
    rw [List.map_cons, lookup_entry, lookup_entry]
    by_cases own : n = e.1
    · rw [if_pos own, if_pos own]
      exact .some (each e.2)
    · rw [if_neg own, if_neg own]
      exact ih

theorem ShowsValues.unique (j : Json) (values values' : List Text) (shown : ShowsValues j values)
    (shown' : ShowsValues j values') : values = values' := by
  have same := Json.list.inj (shown.symm.trans shown')
  exact List.map_inj_right (fun _ _ => Json.text.inj) |>.mp same

theorem ShowsSection.unique (j : Json) (keys keys' : Section) (shown : ShowsSection j keys)
    (shown' : ShowsSection j keys') : keys = keys' :=
  ShowsTable.unique ShowsValues.unique shown shown'

theorem ShowsSections.unique {j : Json} {s s' : Sections} (shown : ShowsSections j s)
    (shown' : ShowsSections j s') : s = s' :=
  ShowsTable.unique ShowsSection.unique shown shown'

end Json

namespace Store

theorem showsSection_sectionJson (keys : Section) : (sectionJson keys).ShowsSection keys :=
  have each (values : List Text) : Json.ShowsValues (.list (values.map .text)) values := rfl
  Json.showsTable_map each keys

theorem showsSections_sectionsJson (s : Sections) : (sectionsJson s).ShowsSections s :=
  Json.showsTable_map showsSection_sectionJson s

variable {s s' : Store} {p t t' : Text}

theorem dump_of_encode (path : s.path = encode p) : s.dump = .ok (s.json.render 0) := by
  rw [dump, if_pos ((isUtf8_iff s.path).mpr ⟨p, path⟩)]

theorem exists_dump_iff : (∃ t, s.dump = .ok t) ↔ ∃ p, s.path = encode p := by
  rw [← isUtf8_iff, dump]
  cases isUtf8 s.path <;> simp

theorem eq_of_dump_error {e : Failure} (failed : s.dump = .error e) : e = .pathNotText := by
  unfold dump at failed
  split at failed <;> cases failed
  rfl

/-- What is dumped is read as the path and the sections. -/
theorem read_of_dump (dumped : s.dump = .ok t) : Json.read t = some s.json := by
  obtain ⟨p, path⟩ := exists_dump_iff.mp ⟨t, dumped⟩
  rw [dump_of_encode path] at dumped
  cases dumped
  exact Json.read_render s.json

theorem sections_of_json (same : s.json = s'.json) : s.sections = s'.sections := by
  have fields : sectionsJson s.sections = sectionsJson s'.sections := by
    simp only [json, Json.object.injEq, List.cons.injEq, Prod.mk.injEq, Json.text.injEq] at same
    exact same.2.1.2
  have shown := showsSections_sectionsJson s'.sections
  rw [← fields] at shown
  exact (showsSections_sectionsJson s.sections).unique shown

end Store

/-- A store, whatever history led to it, has a dump exactly if its path is UTF-8. The dump is a JSON
text that says the path and, with the names of sections and of keys in their order, the sections as
they are kept, backslashes included. Dumps of stores of one path are the same bytes exactly if the
stores have the same contents. -/
theorem dump_canonical (s : Store) :
    ((∃ t, s.dump = .ok t) ↔ ∃ p, s.path = encode p) ∧
    (∀ e, s.dump = .error e → e = .pathNotText) ∧
    (∀ p t, s.path = encode p → s.dump = .ok t →
      ∃ j, Json.read t = some (.object [(chars "file", .text p), (chars "sections", j)]) ∧
        j.ShowsSections s.sections) ∧
    ∀ (s' : Store) (t t' : Text), s'.path = s.path → s.dump = .ok t → s'.dump = .ok t' →
      (encode t = encode t' ↔ s.sections.Alike s'.sections) := by
  refine ⟨Store.exists_dump_iff, fun e => Store.eq_of_dump_error, fun p t path dumped => ?_,
    fun s' t t' path dumped dumped' => ?_⟩
  · have read := Store.read_of_dump dumped
    rw [Store.json, path, decode_encode] at read
    exact ⟨_, read, Store.showsSections_sectionsJson s.sections⟩
  · rw [Sections.alike_iff]
    constructor
    · intro same
      obtain rfl := encode_injective same
      apply Store.sections_of_json
      exact Option.some.inj ((Store.read_of_dump dumped).symm.trans (Store.read_of_dump dumped'))
    · intro same
      have json : s'.json = s.json := by rw [Store.json, path, ← same, Store.json]
      rw [Store.dump, path, json] at dumped'
      cases dumped.symm.trans dumped'
      rfl

/-- What a file says: quotes, a backslash and a control character among the values. -/
def readStore : Store :=
  ⟨[0x66], .usual [0x74], (Sections.put ∅ (chars "t") (chars "q") [chars "\"x\"", chars "\\a"]).put
    (chars "s") (chars "k") [chars "\x01"]⟩

def earlyStore : Store :=
  (Store.mk [0x66] (.usual [0x75]) ∅).keep ⟨chars "s", chars "k", [chars "y"]⟩

def builtStore : Store :=
  (earlyStore.keep ⟨chars "s", chars "k", [chars "\x01"]⟩).keep
    ⟨chars "t", chars "q", [chars "\"x\"", chars "\\a"]⟩

/-- The store that was read and the one that was built have one dump, and it says both sections.
Before it had all its values the second had another one. -/
theorem dump_canonical_rebuilt :
    ∃ (t t' t'' : Text) (j : Json),
      parse (encode (chars "[t]\nq = \"x\", \\a\n[s]\nk = \x01\n")) = .ok readStore.sections ∧
      readStore.dump = .ok t ∧ builtStore.dump = .ok t' ∧ earlyStore.dump = .ok t'' ∧
      encode t = encode t' ∧ encode t ≠ encode t'' ∧
      Json.read t = some (.object [(chars "file", .text (chars "f")), (chars "sections", j)]) ∧
      j.ShowsSections readStore.sections := by
  have path : ∃ p, readStore.path = encode p := ⟨chars "f", rfl⟩
  obtain ⟨dumps, _, readable, canonical⟩ := dump_canonical readStore
  obtain ⟨t, dumped⟩ := dumps.mpr path
  obtain ⟨t', dumped'⟩ := (dump_canonical builtStore).1.mpr path
  obtain ⟨t'', dumped''⟩ := (dump_canonical earlyStore).1.mpr path
  obtain ⟨j, read, shown⟩ := readable (chars "f") t rfl dumped
  have contents : readStore.sections = builtStore.sections := rfl
  have same := (canonical builtStore t t' rfl dumped dumped').mpr (Sections.alike_iff.mpr contents)
  have different : encode t ≠ encode t'' := by
    intro bytes
    have alike := (canonical earlyStore t t'' rfl dumped dumped'').mp bytes
    exact absurd (alike.sections (chars "t")) (by decide)
  exact ⟨t, t', t'', j, rfl, dumped, dumped', dumped'', same, different, read, shown⟩

end Keyfile
