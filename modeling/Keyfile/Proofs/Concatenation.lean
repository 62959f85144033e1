import Keyfile.Proofs.ReadBack

namespace Keyfile

namespace Table

variable {β : Type}

def overlay (lower upper : Table β) : Table β :=
  upper.entries.foldr (fun e t => t.insert e.1 e.2) lower

theorem get?_foldr_insert (lower : Table β) (entries : List (Text × β)) (n : Text) :
    (entries.foldr (fun e t => t.insert e.1 e.2) lower).get? n =
      (entries.lookup n).or (lower.get? n) := by
  induction entries with
  | nil => rfl
  | cons e entries ih =>
    rw [List.foldr_cons, get?_insert, ih, lookup_entry]
    by_cases own : n = e.1 <;> simp [own]

theorem get?_overlay (lower upper : Table β) (n : Text) :
    (lower.overlay upper).get? n = (upper.get? n).or (lower.get? n) :=
  get?_foldr_insert lower upper.entries n

theorem overlay_empty (lower : Table β) : lower.overlay ∅ = lower := rfl

theorem overlay_insert (lower upper : Table β) (n : Text) (b : β) :
    lower.overlay (upper.insert n b) = (lower.overlay upper).insert n b := by
  apply ext_get?
  intro m
  simp only [get?_overlay, get?_insert]
  by_cases same : m = n <;> simp [same]

end Table

/-- Values are put into a section of the upper table as if nothing lay below. -/
theorem Sections.overlay_put (lower : Sections) {upper : Sections} {name : Text}
    (there : upper.contains name) (key : Text) (values : List Text) :
    lower.overlay (upper.put name key values) = put (lower.overlay upper) name key values := by
  obtain ⟨keys, found⟩ := Option.isSome_iff_exists.mp there
  have same : Sections.keysOf (lower.overlay upper) name = upper.keysOf name := by
    rw [keysOf, keysOf, Table.get?_overlay, found]
    rfl
  rw [put, put, Table.overlay_insert, same]

namespace Draft

/-- The section that entries go to is there. -/
def Founded (d : Draft) : Prop := ∀ name, d.open? = some name → d.sections.contains name

def onto (d : Draft) (lower : Sections) : Draft := ⟨lower.overlay d.sections, d.open?⟩

theorem founded_start : start.Founded := by simp [Founded, start]

variable {d : Draft}

theorem Founded.add (h : d.Founded) (item : Item) : (d.add item).Founded := by
  obtain ⟨sections, open?⟩ := d
  cases item with
  | heading name => simp [Founded, Draft.add, Table.contains_insert]
  | entry key values =>
    cases open? with
    | none => exact h
    | some name => simp [Founded, Draft.add, Sections.put, Table.contains_insert]

theorem Founded.add_onto (h : d.Founded) (lower : Sections) (item : Item) :
    (d.onto lower).add item = (d.add item).onto lower := by
  obtain ⟨sections, open?⟩ := d
  cases item with
  | heading name => simp only [onto, Draft.add, Table.overlay_insert]
  | entry key values =>
    cases open? with
    | none => rfl
    | some name =>
      have there : sections.contains name := h name rfl
      simp only [onto, Draft.add, Sections.overlay_put lower there]

theorem Founded.foldl_onto (h : d.Founded) (lower : Sections) (items : List Item) :
    items.foldl Draft.add (d.onto lower) = (items.foldl Draft.add d).onto lower := by
  induction items generalizing d with
  | nil => rfl
  | cons item items ih => rw [List.foldl_cons, h.add_onto, ih (h.add item), List.foldl_cons]

end Draft

/-- Items that start with a heading make the same sections whatever was read before them, and these
lie over what was there. -/
theorem Sections.ofItems_append (items : List Item) {later : List Item}
    (headed : later = [] ∨ ∃ name rest, later = .heading name :: rest) :
    ofItems (items ++ later) = (ofItems items).overlay (ofItems later) := by
  rcases headed with rfl | ⟨name, rest, rfl⟩
  · rw [List.append_nil]
    exact (Table.overlay_empty _).symm
  · have heading : (items.foldl Draft.add .start).add (.heading name) =
        (Draft.start.add (.heading name)).onto (ofItems items) := by
      rw [← Draft.founded_start.add_onto]
      rfl
    rw [ofItems, List.foldl_append, List.foldl_cons, heading,
      (Draft.founded_start.add _).foldl_onto]
    rfl

/-- Of two contents that can be read, the one behind the other, with a newline between them if the
first lacks one, can be read. The sections are those of the second and, where the second has none
of a name, those of the first. -/
theorem parse_append {a b : Bytes} {lower upper : Sections} (first : parse a = .ok lower)
    (second : parse b = .ok upper) :
    parse (closeContent a ++ b) = .ok (lower.overlay upper) := by
  obtain ⟨blocks, laidOut, rfl⟩ := exists_laidOut first
  obtain ⟨blocks', laidOut', rfl⟩ := exists_laidOut second
  rw [(laidOut.append laidOut').parse_eq, itemsOf_append, itemsOf_map_mapRaws,
    Sections.ofItems_append _ laidOut'.laid.exists_heading]

/-- A section that comes up again loses the keys that it had, behind a last line without a
newline. -/
theorem parse_append_repeated :
    parse (encode (chars "[s]\ni = 1\nj = 2\n[t]\nk = 3,\n\n 4")) = .ok ((∅ : Sections)
      |>.put (chars "s") (chars "i") [chars "1"]
      |>.put (chars "s") (chars "j") [chars "2"]
      |>.put (chars "t") (chars "k") [chars "3", chars "4"]) ∧
    parse (encode (chars "# c\n[ S ]\nj = 5\n[u]")) = .ok ((∅ : Sections)
      |>.put (chars "s") (chars "j") [chars "5"] |>.insert (chars "u") ∅) ∧
    parse (encode (chars "[s]\ni = 1\nj = 2\n[t]\nk = 3,\n\n 4\n# c\n[ S ]\nj = 5\n[u]")) =
      .ok ((∅ : Sections)
        |>.put (chars "s") (chars "j") [chars "5"]
        |>.put (chars "t") (chars "k") [chars "3", chars "4"] |>.insert (chars "u") ∅) := by
  have first : parse (encode (chars "[s]\ni = 1\nj = 2\n[t]\nk = 3,\n\n 4")) = .ok ((∅ : Sections)
      |>.put (chars "s") (chars "i") [chars "1"]
      |>.put (chars "s") (chars "j") [chars "2"]
      |>.put (chars "t") (chars "k") [chars "3", chars "4"]) := rfl
  have second : parse (encode (chars "# c\n[ S ]\nj = 5\n[u]")) = .ok ((∅ : Sections)
      |>.put (chars "s") (chars "j") [chars "5"] |>.insert (chars "u") ∅) := rfl
  exact ⟨first, second, parse_append first second⟩

end Keyfile
