import Keyfile.Text.Basic

namespace Keyfile

def Ordered {β : Type} (entries : List (Text × β)) : Prop :=
  entries.Pairwise fun a b => a.1.before b.1

instance {β : Type} (entries : List (Text × β)) : Decidable (Ordered entries) :=
  inferInstanceAs (Decidable (entries.Pairwise fun a b => a.1.before b.1))

/-- Places an entry in order, over the entry of the same name if there is one. -/
def placeEntry {β : Type} (name : Text) (value : β) : List (Text × β) → List (Text × β)
  | [] => [(name, value)]
  | (n, v) :: rest =>
    if name.before n then (name, value) :: (n, v) :: rest
    else if name = n then (name, value) :: rest
    else (n, v) :: placeEntry name value rest

theorem mem_placeEntry {β : Type} {name : Text} {value : β} {e : Text × β}
    {entries : List (Text × β)} (h : e ∈ placeEntry name value entries) :
    e = (name, value) ∨ e ∈ entries := by
  induction entries with
  | nil => simpa [placeEntry] using h
  | cons d rest ih =>
    simp only [placeEntry] at h
    split at h
    · simpa using h
    · split at h
      · rcases List.mem_cons.mp h with h | h
        · exact Or.inl h
        · exact Or.inr (List.mem_cons_of_mem _ h)
      · rcases List.mem_cons.mp h with h | h
        · exact Or.inr (h ▸ List.mem_cons_self)
        · exact (ih h).imp id (List.mem_cons_of_mem _)

theorem ordered_placeEntry {β : Type} {name : Text} {value : β} {entries : List (Text × β)}
    (h : Ordered entries) : Ordered (placeEntry name value entries) := by
  induction entries with
  | nil => exact List.pairwise_singleton _ _
  | cons d rest ih =>
    obtain ⟨hd, hr⟩ := List.pairwise_cons.mp h
    simp only [placeEntry]
    split
    next low =>
      refine List.pairwise_cons.mpr ⟨fun e he => ?_, h⟩
      rcases List.mem_cons.mp he with rfl | he
      · exact low
      · exact Text.before_trans low (hd e he)
    next high =>
      split
      next same => exact List.pairwise_cons.mpr ⟨fun e he => same ▸ hd e he, hr⟩
      next other =>
        refine List.pairwise_cons.mpr ⟨fun e he => ?_, ih hr⟩
        rcases mem_placeEntry he with rfl | he
        · exact Decidable.byContradiction fun low => other (Text.eq_of_not_before high low)
        · exact hd e he

theorem lookup_entry {β : Type} (e : Text × β) (rest : List (Text × β)) (n : Text) :
    (e :: rest).lookup n = if n = e.1 then some e.2 else rest.lookup n := by
  obtain ⟨m, v⟩ := e
  rw [List.lookup_cons]
  by_cases h : n = m
  · simp [h]
  · simp [h, beq_eq_false_iff_ne.mpr h]

theorem lookup_placeEntry {β : Type} {name : Text} {value : β} {entries : List (Text × β)}
    (n : Text) :
    (placeEntry name value entries).lookup n =
      if n = name then some value else entries.lookup n := by
  induction entries with
  | nil => simp only [placeEntry, lookup_entry]
  | cons d rest ih =>
    simp only [placeEntry]
    split
    · simp only [lookup_entry]
    · split
      next same => subst same; simp only [lookup_entry]; split <;> rfl
      next other =>
        rw [lookup_entry, lookup_entry, ih]
        by_cases h : n = d.1
        · subst h
          simp [Ne.symm other]
        · simp [h]

theorem lookup_eq_none_of_lt {β : Type} {n : Text} {entries : List (Text × β)}
    (h : ∀ e ∈ entries, n.before e.1) : entries.lookup n = none := by
  induction entries with
  | nil => rfl
  | cons e rest ih =>
    have ne : n ≠ e.1 := fun same => Text.before_irrefl _ (same ▸ h e List.mem_cons_self)
    rw [lookup_entry, if_neg ne]
    exact ih fun d hd => h d (List.mem_cons_of_mem _ hd)

theorem Ordered.not_before_of_lookup {β : Type} {e : Text × β} {rest : List (Text × β)} {n : Text}
    (h : Ordered (e :: rest)) (found : (e :: rest).lookup n ≠ none) :
    ¬ n.before e.1 := by
  intro low
  apply found
  apply lookup_eq_none_of_lt
  intro d hd
  rcases List.mem_cons.mp hd with rfl | hd
  · exact low
  · exact Text.before_trans low ((List.pairwise_cons.mp h).1 d hd)

theorem Ordered.ext {β : Type} {as bs : List (Text × β)} (ha : Ordered as) (hb : Ordered bs)
    (h : ∀ n, as.lookup n = bs.lookup n) : as = bs := by
  induction as generalizing bs with
  | nil =>
    cases bs with
    | nil => rfl
    | cons b bs =>
      have := h b.1
      rw [lookup_entry, if_pos rfl] at this
      exact absurd this (by simp)
  | cons a as ih =>
    cases bs with
    | nil =>
      have := h a.1
      rw [lookup_entry, if_pos rfl] at this
      exact absurd this (by simp)
    | cons b bs =>
      have same : a.1 = b.1 := by
        apply Text.eq_of_not_before
        · apply hb.not_before_of_lookup
          rw [← h, lookup_entry, if_pos rfl]
          simp
        · apply ha.not_before_of_lookup
          rw [h, lookup_entry, if_pos rfl]
          simp
      have value : a.2 = b.2 := by
        have := h a.1
        rw [lookup_entry, lookup_entry, if_pos rfl, if_pos same] at this
        exact Option.some.inj this
      have rest : as = bs := by
        obtain ⟨haa, has⟩ := List.pairwise_cons.mp ha
        obtain ⟨hbb, hbs⟩ := List.pairwise_cons.mp hb
        apply ih has hbs
        intro n
        by_cases hn : n = a.1
        · subst hn
          rw [lookup_eq_none_of_lt haa, lookup_eq_none_of_lt fun e he => same ▸ hbb e he]
        · have := h n
          rwa [lookup_entry, lookup_entry, if_neg hn, if_neg (same ▸ hn)] at this
      rw [rest, Prod.ext same value]

/-- A finite map from names to values, of one form whatever its history. -/
structure Table (β : Type) where
  entries : List (Text × β)
  ordered : Ordered entries

namespace Table

variable {β : Type}

instance [DecidableEq β] : DecidableEq (Table β) := fun s t =>
  decidable_of_iff (s.entries = t.entries)
    ⟨fun h => by cases s; cases t; cases h; rfl, fun h => h ▸ rfl⟩

def empty : Table β := ⟨[], List.Pairwise.nil⟩

instance : EmptyCollection (Table β) := ⟨empty⟩

def get? (t : Table β) (name : Text) : Option β := t.entries.lookup name

def contains (t : Table β) (name : Text) : Bool := (t.get? name).isSome

def insert (t : Table β) (name : Text) (value : β) : Table β :=
  ⟨placeEntry name value t.entries, ordered_placeEntry t.ordered⟩

@[simp]
theorem get?_empty (n : Text) : (empty : Table β).get? n = none := rfl

theorem get?_insert (t : Table β) (name : Text) (value : β) (n : Text) :
    (t.insert name value).get? n = if n = name then some value else t.get? n :=
  lookup_placeEntry n

/-- Tables that answer alike are equal. -/
theorem ext_get? {s t : Table β} (h : ∀ n, s.get? n = t.get? n) : s = t := by
  cases s with
  | mk es hs => cases t with
    | mk fs ht =>
      have : es = fs := hs.ext ht h
      subst this
      rfl

def names (t : Table β) : List Text := t.entries.map (·.1)

def size (t : Table β) : Nat := t.entries.length

end Table

end Keyfile
