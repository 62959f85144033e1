import Keyfile.Proofs.DraftItems
import Keyfile.Proofs.SearchBlocks

namespace Keyfile

/-- The last occurrence of a section among blocks: those before its heading, its own, and those
after, which start with another heading. -/
structure LastOccurrence (name : Text) (blocks before : List Block) (raw : Bytes)
    (own after : List Block) : Prop where
  split : blocks = before ++ .heading raw name :: (own ++ after)
  entries : headingsOf (itemsOf own) = []
  bounded : after = [] ∨ ∃ raw' name' rest, after = .heading raw' name' :: rest
  last : name ∉ headingsOf (itemsOf after)

theorem exists_own (blocks : List Block) :
    ∃ own after, blocks = own ++ after ∧ headingsOf (itemsOf own) = [] ∧
      (after = [] ∨ ∃ raw name rest, after = .heading raw name :: rest) := by
  induction blocks with
  | nil => exact ⟨[], [], rfl, rfl, Or.inl rfl⟩
  | cons b rest ih =>
    obtain ⟨own, after, rfl, entries, bounded⟩ := ih
    cases b with
    | quiet raw => exact ⟨.quiet raw :: own, after, rfl, entries, bounded⟩
    | heading raw name => exact ⟨[], _, rfl, rfl, Or.inr ⟨raw, name, _, rfl⟩⟩
    | entry raws key values => exact ⟨.entry raws key values :: own, after, rfl, entries, bounded⟩

theorem exists_lastOccurrence {name : Text} {blocks : List Block}
    (h : name ∈ headingsOf (itemsOf blocks)) :
    ∃ before raw own after, LastOccurrence name blocks before raw own after := by
  induction blocks with
  | nil => simp at h
  | cons b rest ih =>
    by_cases later : name ∈ headingsOf (itemsOf rest)
    · obtain ⟨before, raw, own, after, split, entries, bounded, last⟩ := ih later
      exact ⟨b :: before, raw, own, after, by rw [split]; rfl, entries, bounded, last⟩
    · rw [itemsOf_cons, headingsOf_append, List.mem_append] at h
      have here := h.resolve_right later
      cases b with
      | quiet => simp [Block.item?] at here
      | entry => simp [Block.item?] at here
      | heading raw name' =>
        obtain rfl : name = name' := by simpa [Block.item?] using here
        obtain ⟨own, after, rfl, entries, bounded⟩ := exists_own rest
        rw [itemsOf_append, headingsOf_append, List.mem_append, not_or] at later
        exact ⟨[], raw, own, after, rfl, entries, bounded, later.2⟩

theorem exists_lastEntry {key : Text} {blocks : List Block} (h : key ∈ keysOf (itemsOf blocks)) :
    ∃ before raws values after, blocks = before ++ .entry raws key values :: after ∧
      key ∉ keysOf (itemsOf after) := by
  induction blocks with
  | nil => simp at h
  | cons b rest ih =>
    by_cases later : key ∈ keysOf (itemsOf rest)
    · obtain ⟨before, raws, values, after, rfl, last⟩ := ih later
      exact ⟨b :: before, raws, values, after, rfl, last⟩
    · rw [itemsOf_cons, keysOf_append, List.mem_append] at h
      have here := h.resolve_right later
      cases b with
      | quiet => simp [Block.item?] at here
      | heading => simp [Block.item?] at here
      | entry raws key' values =>
        obtain rfl : key = key' := by simpa [Block.item?] using here
        exact ⟨[], raws, values, rest, rfl, later⟩

/-- Behind the last entry of a section there are only lines that say nothing. -/
theorem exists_silent {own : List Block} (entries : headingsOf (itemsOf own) = []) :
    ∃ spoken silent, own = spoken ++ silent ∧ itemsOf silent = [] ∧
      (spoken = [] ∨ ∃ init raws key values, spoken = init ++ [.entry raws key values]) := by
  induction own using List.reverseRecOn with
  | nil => exact ⟨[], [], rfl, rfl, Or.inl rfl⟩
  | append_singleton own b ih =>
    rw [itemsOf_append, headingsOf_append, List.append_eq_nil_iff] at entries
    cases b with
    | quiet raw =>
      obtain ⟨spoken, silent, rfl, nothing, ends⟩ := ih entries.1
      refine ⟨spoken, silent ++ [.quiet raw], by simp, ?_, ends⟩
      rw [itemsOf_append, nothing]
      rfl
    | heading raw name => simp [itemsOf, Block.item?] at entries
    | entry raws key values =>
      exact ⟨own ++ [.entry raws key values], [], by simp, rfl, Or.inr ⟨own, raws, key, values, rfl⟩⟩

namespace Search

variable (sectionName key : Text) {s : Search} {o : Sighting}

theorem foldl_pass_silent {blocks : List Block} (silent : itemsOf blocks = []) (s : Search) :
    blocks.foldl (pass sectionName key) s =
      { s with count := s.count + (rawsOf blocks).length } := by
  induction blocks generalizing s with
  | nil => rfl
  | cons b rest ih =>
    rw [itemsOf_cons, List.append_eq_nil_iff] at silent
    cases b with
    | quiet raw =>
      rw [List.foldl_cons, ih silent.2, rawsOf_cons, List.length_append]
      simp only [pass, Block.raws, List.length_singleton]
      congr 1
      omega
    | heading => simp [Block.item?] at silent
    | entry => simp [Block.item?] at silent

theorem foldl_pass_away {blocks : List Block} (away : sectionName ∉ headingsOf (itemsOf blocks))
    (here : s.here? = none) :
    blocks.foldl (pass sectionName key) s =
      { s with count := s.count + (rawsOf blocks).length } := by
  induction blocks generalizing s with
  | nil => rfl
  | cons b rest ih =>
    rw [itemsOf_cons, headingsOf_append, List.mem_append, not_or] at away
    have own : s.pass sectionName key b = { s with count := s.count + b.raws.length } := by
      cases b with
      | quiet => rfl
      | entry => simp [pass, here, Block.raws]
      | heading raw name =>
        have other : name ≠ sectionName := by
          rintro rfl
          simp [Block.item?] at away
        simp [pass, here, other, Block.raws]
    have others := ih (s := { s with count := s.count + b.raws.length }) away.2 here
    rw [List.foldl_cons, own, others, rawsOf_cons, List.length_append, Nat.add_assoc]

theorem exists_foldl_pass_entries {blocks : List Block}
    (entries : headingsOf (itemsOf blocks) = []) (here : s.here? = some o) :
    ∃ o' : Sighting, blocks.foldl (pass sectionName key) s =
        { s with count := s.count + (rawsOf blocks).length, here? := some o' } ∧
      (key ∉ keysOf (itemsOf blocks) → o'.span? = o.span?) := by
  induction blocks generalizing s o with
  | nil =>
    refine ⟨o, ?_, fun _ => rfl⟩
    obtain ⟨count, here?, earlier?, within?⟩ := s
    obtain rfl := here
    rfl
  | cons b rest ih =>
    rw [itemsOf_cons, headingsOf_append, List.append_eq_nil_iff] at entries
    cases b with
    | heading => simp [Block.item?] at entries
    | quiet raw =>
      obtain ⟨o', passed, kept⟩ := ih (s := s.pass sectionName key (.quiet raw)) entries.2 here
      refine ⟨o', ?_, kept⟩
      rw [List.foldl_cons, passed, rawsOf_cons, List.length_append]
      simp only [pass, Block.raws, List.length_singleton, Nat.add_assoc]
    | entry raws k values =>
      have own : (s.pass sectionName key (.entry raws k values)).here? =
          some ⟨s.count + raws.length,
            if k = key then some (s.count + 1, s.count + raws.length) else o.span?⟩ := by
        simp [pass, here]
      obtain ⟨o', passed, kept⟩ := ih entries.2 own
      refine ⟨o', ?_, ?_⟩
      · rw [List.foldl_cons, passed, rawsOf_cons, List.length_append]
        simp only [pass, Block.raws, Nat.add_assoc]
      · intro absent
        rw [itemsOf_cons, keysOf_append, List.mem_append, not_or] at absent
        have other : k ≠ key := by
          rintro rfl
          simp [Block.item?] at absent
        rw [kept absent.2, if_neg other]

theorem count_foldl_pass (blocks : List Block) (s : Search) :
    (blocks.foldl (pass sectionName key) s).count = s.count + (rawsOf blocks).length := by
  induction blocks generalizing s with
  | nil => rfl
  | cons b rest ih =>
    rw [List.foldl_cons, ih, count_pass, rawsOf_cons, List.length_append, Nat.add_assoc]

theorem seen_foldl_pass_after {after : List Block}
    (bounded : after = [] ∨ ∃ raw name rest, after = .heading raw name :: rest)
    (last : sectionName ∉ headingsOf (itemsOf after)) (here : s.here? = some o) :
    (after.foldl (pass sectionName key) s).here?.or (after.foldl (pass sectionName key) s).earlier? =
      some o := by
  rcases bounded with rfl | ⟨raw, name, rest, rfl⟩
  · simp [here]
  · rw [itemsOf_cons, headingsOf_append, List.mem_append, not_or] at last
    have other : name ≠ sectionName := by
      rintro rfl
      simp [Block.item?] at last
    rw [List.foldl_cons, foldl_pass_away sectionName key last.2 (by simp [pass, other])]
    simp [pass, other, here]

end Search

namespace LastOccurrence

variable {name : Text} {blocks before own after : List Block} {raw : Bytes}

/-- The search behind the heading of the section. -/
theorem exists_reached (name key : Text) (before : List Block) (raw : Bytes) :
    ∃ s : Search, s.count = (rawsOf before).length + 1 ∧
      s.here? = some ⟨(rawsOf before).length + 1, none⟩ ∧
      ∀ rest, (before ++ Block.heading raw name :: rest).foldl (Search.pass name key) .start =
        rest.foldl (Search.pass name key) s := by
  refine ⟨(before.foldl (Search.pass name key) .start).pass name key
    (Block.heading raw name), ?_, ?_,
    fun rest => by rw [List.foldl_append, List.foldl_cons]⟩
  · rw [Search.count_pass, Search.count_foldl_pass]
    simp [Search.start, Block.raws]
  · simp [Search.pass, Search.count_foldl_pass, Search.start]

/-- Without an entry of the key, the place is behind what the section says last. -/
theorem slot_of_absent (h : LastOccurrence name blocks before raw own after) {key : Text}
    (absent : key ∉ keysOf (itemsOf own)) {spoken silent : List Block}
    (split : own = spoken ++ silent) (nothing : itemsOf silent = [])
    (ends : spoken = [] ∨ ∃ init raws k values, spoken = init ++ [.entry raws k values]) :
    (blocks.foldl (Search.pass name key) .start).slot =
      ⟨(rawsOf before).length + 1 + (rawsOf spoken).length,
        (rawsOf before).length + 1 + (rawsOf spoken).length + 1, true, false⟩ := by
  obtain ⟨s, count, here, reached⟩ := exists_reached name key before raw
  have entries := h.entries
  rw [split, itemsOf_append, headingsOf_append, List.append_eq_nil_iff] at entries
  rw [split, itemsOf_append, keysOf_append, List.mem_append, not_or] at absent
  have seen : (spoken.foldl (Search.pass name key) s).here? =
      some ⟨(rawsOf before).length + 1 + (rawsOf spoken).length, none⟩ := by
    rcases ends with rfl | ⟨init, raws, k, values, rfl⟩
    · simpa using here
    · rw [itemsOf_append, headingsOf_append, List.append_eq_nil_iff] at entries
      rw [itemsOf_append, keysOf_append, List.mem_append, not_or] at absent
      have other : k ≠ key := by
        rintro rfl
        simp [itemsOf, Block.item?] at absent
      obtain ⟨o, passed, kept⟩ := Search.exists_foldl_pass_entries name key entries.1.1 here
      rw [List.foldl_append, passed, List.foldl_cons, List.foldl_nil, Search.pass]
      simp [other, kept absent.1.1, count, Block.raws, Nat.add_assoc]
  have found : (blocks.foldl (Search.pass name key) .start).here?.or
      (blocks.foldl (Search.pass name key) .start).earlier? =
        some ⟨(rawsOf before).length + 1 + (rawsOf spoken).length, none⟩ := by
    rw [h.split, reached, split, List.append_assoc, List.foldl_append, List.foldl_append,
      Search.foldl_pass_silent name key nothing]
    exact Search.seen_foldl_pass_after name key h.bounded h.last seen
  rw [Search.slot, found]

/-- The place of a key is that of its last entry in the last occurrence of the section. -/
theorem slot_of_entry {key : Text} {own' own'' : List Block} {raws : List Bytes}
    {values : List Text}
    (h : LastOccurrence name blocks before raw (own' ++ .entry raws key values :: own'') after)
    (last : key ∉ keysOf (itemsOf own'')) :
    (blocks.foldl (Search.pass name key) .start).slot =
      ⟨(rawsOf before).length + 1 + (rawsOf own').length,
        (rawsOf before).length + 1 + (rawsOf own').length + raws.length + 1, true, true⟩ := by
  obtain ⟨s, count, here, reached⟩ := exists_reached name key before raw
  have entries := h.entries
  rw [itemsOf_append, itemsOf_cons, headingsOf_append, headingsOf_append,
    List.append_eq_nil_iff, List.append_eq_nil_iff] at entries
  obtain ⟨o, passed, _⟩ := Search.exists_foldl_pass_entries name key entries.1 here
  have own : ((own' ++ [Block.entry raws key values]).foldl (Search.pass name key) s).here? =
      some ⟨s.count + (rawsOf own').length + raws.length,
        some (s.count + (rawsOf own').length + 1, s.count + (rawsOf own').length + raws.length)⟩ := by
    rw [List.foldl_append, passed, List.foldl_cons, List.foldl_nil, Search.pass]
    simp
  obtain ⟨o', passed', kept⟩ := Search.exists_foldl_pass_entries name key entries.2.2 own
  have found : (blocks.foldl (Search.pass name key) .start).here?.or
      (blocks.foldl (Search.pass name key) .start).earlier? = some o' := by
    rw [h.split, reached, List.foldl_append]
    refine Search.seen_foldl_pass_after name key h.bounded h.last ?_
    rw [List.append_cons, List.foldl_append, passed']
  obtain ⟨tail, span?⟩ := o'
  obtain rfl : span? = _ := kept last
  rw [Search.slot, found, count]
  simp only [Nat.add_sub_cancel]

/-- The draft of all blocks is made from the one at the end of the section. -/
theorem exists_draft (h : LastOccurrence name blocks before raw own after) :
    ∃ s : Sections, (itemsOf blocks).foldl Draft.add .start =
      (itemsOf after).foldl Draft.add
        ((itemsOf own).foldl Draft.add ⟨s.insert name ∅, some name⟩) := by
  refine ⟨((itemsOf before).foldl Draft.add .start).sections, ?_⟩
  rw [h.split, itemsOf_append, itemsOf_cons, itemsOf_append, List.foldl_append, List.foldl_append,
    List.foldl_append]
  rfl

theorem get?_foldl_after (h : LastOccurrence name blocks before raw own after) (d : Draft) :
    ((itemsOf after).foldl Draft.add d).sections.get? name = d.sections.get? name := by
  have last := h.last
  rcases h.bounded with rfl | ⟨raw', name', rest, rfl⟩
  · rfl
  · simp only [itemsOf_cons, Block.item?, Option.toList_some, List.singleton_append,
      headingsOf_heading, List.mem_cons, not_or] at last ⊢
    rw [List.foldl_cons, Draft.get?_foldl_of_away last.2 (by simpa [Draft.add] using Ne.symm last.1),
      Draft.add, Table.get?_insert, if_neg last.1]

theorem contains_keysOf (h : LastOccurrence name blocks before raw own after) (key : Text) :
    ((Sections.ofItems (itemsOf blocks)).keysOf name).contains key ↔
      key ∈ keysOf (itemsOf own) := by
  obtain ⟨s, draft⟩ := h.exists_draft
  rw [Sections.ofItems, draft, Sections.keysOf, h.get?_foldl_after, ← Sections.keysOf,
    Draft.contains_keysOf_foldl h.entries, Sections.keysOf_insert, if_pos rfl]
  simp [Table.contains]

end LastOccurrence

theorem slot_of_not_named {name : Text} {blocks : List Block} (key : Text)
    (away : name ∉ headingsOf (itemsOf blocks)) :
    (blocks.foldl (Search.pass name key) .start).slot =
      ⟨(rawsOf blocks).length, (rawsOf blocks).length + 1, false, false⟩ := by
  rw [Search.foldl_pass_away name key away rfl]
  simp [Search.slot, Search.start]

end Keyfile
