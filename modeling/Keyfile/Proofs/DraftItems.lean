import Keyfile.Sections

namespace Keyfile

def Item.heading? : Item → Option Text
  | heading name => some name
  | entry _ _ => none

def Item.key? : Item → Option Text
  | heading _ => none
  | entry key _ => some key

def headingsOf (items : List Item) : List Text := items.filterMap Item.heading?

def keysOf (items : List Item) : List Text := items.filterMap Item.key?

@[simp]
theorem headingsOf_nil : headingsOf [] = [] := rfl

@[simp]
theorem headingsOf_heading (name : Text) (items : List Item) :
    headingsOf (.heading name :: items) = name :: headingsOf items := rfl

@[simp]
theorem headingsOf_entry (key : Text) (values : List Text) (items : List Item) :
    headingsOf (.entry key values :: items) = headingsOf items := rfl

@[simp]
theorem headingsOf_append (xs ys : List Item) :
    headingsOf (xs ++ ys) = headingsOf xs ++ headingsOf ys := List.filterMap_append

@[simp]
theorem keysOf_nil : keysOf [] = [] := rfl

@[simp]
theorem keysOf_heading (name : Text) (items : List Item) :
    keysOf (.heading name :: items) = keysOf items := rfl

@[simp]
theorem keysOf_entry (key : Text) (values : List Text) (items : List Item) :
    keysOf (.entry key values :: items) = key :: keysOf items := rfl

@[simp]
theorem keysOf_append (xs ys : List Item) : keysOf (xs ++ ys) = keysOf xs ++ keysOf ys :=
  List.filterMap_append

namespace Table

variable {β : Type}

@[simp]
theorem get?_emptyCollection (n : Text) : (∅ : Table β).get? n = none := rfl

theorem insert_insert (t : Table β) (n : Text) (a b : β) :
    (t.insert n a).insert n b = t.insert n b := by
  apply ext_get?
  intro m
  simp only [get?_insert]
  by_cases same : m = n <;> simp [same]

theorem insert_comm (t : Table β) {m n : Text} (other : m ≠ n) (a b : β) :
    (t.insert m a).insert n b = (t.insert n b).insert m a := by
  apply ext_get?
  intro k
  simp only [get?_insert]
  by_cases first : k = m
  · simp [first, other]
  · simp [first]

theorem contains_insert (t : Table β) (m : Text) (b : β) (n : Text) :
    (t.insert m b).contains n ↔ n = m ∨ t.contains n := by
  by_cases same : n = m <;> simp [contains, get?_insert, same]

end Table

namespace Sections

variable {s : Sections} {name key : Text} {values : List Text}

theorem get?_put (s : Sections) (name key : Text) (values : List Text) (n : Text) :
    (s.put name key values).get? n =
      if n = name then some ((s.keysOf name).insert key values) else s.get? n :=
  Table.get?_insert ..

theorem keysOf_insert (s : Sections) (m : Text) (keys : Section) (n : Text) :
    Sections.keysOf (s.insert m keys) n = if n = m then keys else s.keysOf n := by
  rw [keysOf, Table.get?_insert]
  by_cases same : n = m <;> simp [same, keysOf]

theorem keysOf_put (s : Sections) (name key : Text) (values : List Text) (n : Text) :
    (s.put name key values).keysOf n =
      if n = name then (s.keysOf name).insert key values else s.keysOf n :=
  keysOf_insert ..

theorem put_put (s : Sections) (name key : Text) (values values' : List Text) :
    (s.put name key values).put name key values' = s.put name key values' := by
  rw [put, keysOf_put, if_pos rfl, Table.insert_insert]
  exact Table.insert_insert ..

/-- Values of different keys can be put in any order. -/
theorem put_comm (s : Sections) {name name' key key' : Text} (other : name ≠ name' ∨ key ≠ key')
    (values values' : List Text) :
    (s.put name key values).put name' key' values' =
      (s.put name' key' values').put name key values := by
  by_cases same : name = name'
  · subst same
    have keys : key ≠ key' := other.resolve_left (absurd rfl)
    rw [put, put, put, put, keysOf_insert, keysOf_insert, if_pos rfl, if_pos rfl,
      Table.insert_insert, Table.insert_insert, Table.insert_comm _ keys]
  · rw [put, put, put, put, keysOf_insert, keysOf_insert, if_neg (Ne.symm same), if_neg same]
    exact Table.insert_comm _ same ..

theorem insert_put_comm (s : Sections) {m name : Text} (other : m ≠ name) (key : Text)
    (values : List Text) :
    (s.put name key values).insert m ∅ = put (s.insert m ∅) name key values := by
  rw [put, put, keysOf_insert, if_neg (Ne.symm other)]
  exact Table.insert_comm _ (Ne.symm other) ..

end Sections

namespace Draft

theorem open?_foldl {items : List Item} (entries : headingsOf items = []) (d : Draft) :
    (items.foldl add d).open? = d.open? := by
  induction items generalizing d with
  | nil => rfl
  | cons item items ih =>
    cases item with
    | heading name => simp at entries
    | entry key values =>
      rw [List.foldl_cons, ih entries]
      obtain ⟨sections, open?⟩ := d
      cases open? <;> rfl

theorem get?_foldl_of_away {items : List Item} {name : Text} (away : name ∉ headingsOf items)
    {d : Draft} (elsewhere : d.open? ≠ some name) :
    (items.foldl add d).sections.get? name = d.sections.get? name := by
  induction items generalizing d with
  | nil => rfl
  | cons item items ih =>
    obtain ⟨sections, open?⟩ := d
    cases item with
    | heading other =>
      simp only [headingsOf_heading, List.mem_cons, not_or] at away
      rw [List.foldl_cons, ih away.2 (by simpa [add] using Ne.symm away.1), add,
        Table.get?_insert, if_neg away.1]
    | entry key values =>
      cases open? with
      | none => exact ih away elsewhere
      | some open' =>
        have other : name ≠ open' := by
          rintro rfl
          exact elsewhere rfl
        rw [List.foldl_cons, ih away (by exact elsewhere)]
        simp [add, Sections.get?_put, other]

/-- Values can be put into a section after items of other sections. -/
theorem sections_foldl_put_of_away {items : List Item} {name : Text}
    (away : name ∉ headingsOf items) (s : Sections) {open? : Option Text}
    (elsewhere : open? ≠ some name) (key : Text) (values : List Text) :
    (items.foldl add ⟨s.put name key values, open?⟩).sections =
      (items.foldl add ⟨s, open?⟩).sections.put name key values := by
  induction items generalizing s open? with
  | nil => rfl
  | cons item items ih =>
    cases item with
    | heading other =>
      simp only [headingsOf_heading, List.mem_cons, not_or] at away
      have left : some other ≠ some name := by simpa using Ne.symm away.1
      have moved := ih away.2 (s.insert other ∅) left
      simp only [List.foldl_cons, add, Sections.insert_put_comm s (Ne.symm away.1), moved]
    | entry key' values' =>
      cases open? with
      | none => exact ih away s elsewhere
      | some open' =>
        have other : name ≠ open' := by
          rintro rfl
          exact elsewhere rfl
        simp only [List.foldl_cons, add, Sections.put_comm s (Or.inl other), ih away _ elsewhere]

/-- Values can be put into a section after entries of other keys. -/
theorem foldl_put_of_entries {items : List Item} {key : Text} (entries : headingsOf items = [])
    (absent : key ∉ keysOf items) (s : Sections) (name : Text) (values : List Text) :
    items.foldl add ⟨s.put name key values, some name⟩ =
      ⟨(items.foldl add ⟨s, some name⟩).sections.put name key values, some name⟩ := by
  induction items generalizing s with
  | nil => rfl
  | cons item items ih =>
    cases item with
    | heading other => simp at entries
    | entry key' values' =>
      simp only [keysOf_entry, List.mem_cons, not_or] at absent
      simp only [List.foldl_cons, add, Sections.put_comm s (Or.inr absent.1),
        ih entries absent.2]

theorem contains_keysOf_foldl {items : List Item} (entries : headingsOf items = []) (s : Sections)
    (name key : Text) :
    ((items.foldl add ⟨s, some name⟩).sections.keysOf name).contains key ↔
      (s.keysOf name).contains key ∨ key ∈ Keyfile.keysOf items := by
  induction items generalizing s with
  | nil => simp
  | cons item items ih =>
    cases item with
    | heading other => simp at entries
    | entry key' values' =>
      rw [List.foldl_cons, add, ih entries, Sections.keysOf_put, if_pos rfl, Table.contains_insert,
        keysOf_entry, List.mem_cons]
      exact or_assoc.trans or_left_comm

theorem contains_foldl {items : List Item} (d : Draft) (name : Text)
    (open_there : ∀ n, d.open? = some n → d.sections.contains n) :
    (items.foldl add d).sections.contains name ↔
      d.sections.contains name ∨ name ∈ headingsOf items := by
  induction items generalizing d with
  | nil => simp
  | cons item items ih =>
    obtain ⟨sections, open?⟩ := d
    cases item with
    | heading other =>
      rw [List.foldl_cons, ih _ (by simp [add, Table.contains_insert]), add,
        Table.contains_insert, headingsOf_heading, List.mem_cons]
      exact or_assoc.trans or_left_comm
    | entry key values =>
      cases open? with
      | none => exact ih _ open_there
      | some open' =>
        have there : sections.contains open' := open_there open' rfl
        rw [List.foldl_cons, ih _ (by simp [add, Sections.put, Table.contains_insert])]
        simp only [add, Sections.put, Table.contains_insert, headingsOf_entry]
        refine or_congr_left ⟨?_, Or.inr⟩
        rintro (rfl | before)
        · exact there
        · exact before

end Draft

theorem Sections.contains_ofItems (items : List Item) (name : Text) :
    (ofItems items).contains name ↔ name ∈ headingsOf items := by
  rw [ofItems, Draft.contains_foldl]
  · simp [Draft.start, Table.contains]
  · simp [Draft.start]

theorem Sections.keysOf_ofItems_of_not_mem {items : List Item} {name : Text}
    (absent : name ∉ headingsOf items) : (ofItems items).keysOf name = ∅ := by
  have missing := mt (contains_ofItems items name).mp absent
  rw [Table.contains, Bool.not_eq_true, Option.isSome_eq_false_iff, Option.isNone_iff_eq_none]
    at missing
  rw [keysOf, missing]
  rfl

end Keyfile
