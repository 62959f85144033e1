import Keyfile.Edit
import Keyfile.Proofs.Occurrence
import Keyfile.Proofs.Rendering

namespace Keyfile

/-- What is written so far ends in a newline, if it does so before given lines. -/
def terminatedAfter (terminated : Bool) (raws : List Bytes) : Bool :=
  raws.foldl (fun _ raw => raw.getLast? = some newline) terminated

section withBlock

variable {slot : Slot} (block : Bytes)

theorem withBlock_behind (terminated : Bool) (ys : List Bytes) {n : Nat} (behind : slot.below ≤ n) :
    withBlock slot block true terminated (Line.numberFrom n ys) = ys.flatten := by
  induction ys generalizing n terminated with
  | nil => rfl
  | cons raw ys ih =>
    have kept : (n ≤ slot.above || slot.below ≤ n) = true := by simp [behind]
    rw [Line.numberFrom, withBlock]
    simp [kept, ih _ (Nat.le_succ_of_le behind)]

theorem withBlock_inside (terminated : Bool) (raws ys : List Bytes) {n : Nat}
    (above : slot.above < n) (below : slot.below = n + raws.length) :
    withBlock slot block true terminated (Line.numberFrom n (raws ++ ys)) = ys.flatten := by
  induction raws generalizing n terminated with
  | nil => exact withBlock_behind block terminated ys (Nat.le_of_eq below)
  | cons raw raws ih =>
    rw [List.length_cons] at below
    have dropped : (n ≤ slot.above || slot.below ≤ n) = false := by
      simp only [Bool.or_eq_false_iff, decide_eq_false_iff_not]
      omega
    rw [List.cons_append, Line.numberFrom, withBlock]
    simp [dropped, ih terminated (show slot.above < n + 1 by omega) (by omega)]

theorem withBlock_here (terminated : Bool) (raws ys : List Bytes) {n : Nat}
    (above : slot.above < n) (below : slot.below = n + raws.length) :
    withBlock slot block false terminated (Line.numberFrom n (raws ++ ys)) =
      onNewLine terminated block ++ ys.flatten := by
  cases raws with
  | nil =>
    cases ys with
    | nil => simp [Line.numberFrom, withBlock]
    | cons raw ys =>
      have kept : (n ≤ slot.above || slot.below ≤ n) = true := by simp [below]
      have rest := withBlock_behind block (raw.getLast? = some newline) ys
        (show slot.below ≤ n + 1 by simp [below])
      rw [List.nil_append, Line.numberFrom, withBlock]
      simp [kept, above, Line.isTerminated, rest]
  | cons raw raws =>
    rw [List.length_cons] at below
    have dropped : (n ≤ slot.above || slot.below ≤ n) = false := by
      simp only [Bool.or_eq_false_iff, decide_eq_false_iff_not]
      omega
    have rest := withBlock_inside block terminated raws ys (show slot.above < n + 1 by omega)
      (by omega)
    rw [List.cons_append, Line.numberFrom, withBlock]
    simp [dropped, above, rest]

/-- The lines of the slot give way to the block, and the others stay. -/
theorem withBlock_eq (terminated : Bool) (xs raws ys : List Bytes) {n : Nat}
    (above : slot.above + 1 = n + xs.length) (below : slot.below = n + xs.length + raws.length) :
    withBlock slot block false terminated (Line.numberFrom n (xs ++ (raws ++ ys))) =
      xs.flatten ++ (onNewLine (terminatedAfter terminated xs) block ++ ys.flatten) := by
  induction xs generalizing n terminated with
  | nil => exact withBlock_here block terminated raws ys (by simp at above; omega) below
  | cons raw xs ih =>
    rw [List.length_cons] at above below
    have kept : (n ≤ slot.above || slot.below ≤ n) = true := by
      simp only [Bool.or_eq_true, decide_eq_true_eq]
      omega
    have early : ¬ slot.above < n := by omega
    have rest := ih (raw.getLast? = some newline) (show slot.above + 1 = n + 1 + xs.length by omega)
      (by omega)
    rw [List.cons_append, Line.numberFrom, withBlock]
    simp [kept, early, Line.isTerminated, rest, terminatedAfter]

end withBlock

theorem flatten_onNewLine {xs : List Bytes} (lined : Line.Lined xs) (block : Bytes) :
    xs.flatten ++ onNewLine (terminatedAfter true xs) block =
      (xs.map Line.closeRaw).flatten ++ block := by
  induction lined with
  | nil => rfl
  | @last raw _ open_end =>
    have last : raw.getLast? ≠ some newline := fun last => open_end (List.mem_of_getLast? last)
    simp [terminatedAfter, last, onNewLine, Line.closeRaw]
  | @cons raw rest closed _ ih =>
    have same : terminatedAfter true (raw :: rest) = terminatedAfter true rest := by
      simp [terminatedAfter, closed.getLast?]
    rw [same, List.flatten_cons, List.append_assoc, ih, List.map_cons, List.flatten_cons,
      Line.closeRaw_of_isClosed closed, List.append_assoc]

namespace Block

def mapRaws (f : Bytes → Bytes) : Block → Block
  | quiet raw => quiet (f raw)
  | heading raw name => heading (f raw) name
  | entry raws key values => entry (raws.map f) key values

end Block

section mapRaws

variable {f : Bytes → Bytes}

theorem rawsOf_map_mapRaws (f : Bytes → Bytes) (blocks : List Block) :
    rawsOf (blocks.map (Block.mapRaws f)) = (rawsOf blocks).map f := by
  induction blocks with
  | nil => rfl
  | cons b rest ih =>
    rw [List.map_cons, rawsOf_cons, ih, rawsOf_cons, List.map_append]
    cases b <;> rfl

theorem itemsOf_map_mapRaws (f : Bytes → Bytes) (blocks : List Block) :
    itemsOf (blocks.map (Block.mapRaws f)) = itemsOf blocks := by
  induction blocks with
  | nil => rfl
  | cons b rest ih =>
    rw [List.map_cons, itemsOf_cons, ih, itemsOf_cons]
    cases b <;> rfl

theorem fills_map (same : ∀ raw, textOf (f raw) = textOf raw) {before? : Option Pending}
    {raws : List Bytes} {key : Text} {values : List Text} (h : Fills before? raws key values) :
    Fills before? (raws.map f) key values := by
  induction h with
  | last reads =>
    refine .last ?_
    rw [same]
    exact reads
  | more reads _ ih =>
    refine .more ?_ ih
    rw [same]
    exact reads

/-- Only what the lines say decides which blocks they are. -/
theorem laid_map_mapRaws (same : ∀ raw, textOf (f raw) = textOf raw) {inSection : Bool}
    {blocks : List Block} (h : Laid inSection blocks) :
    Laid inSection (blocks.map (Block.mapRaws f)) := by
  induction blocks generalizing inSection with
  | nil => trivial
  | cons b rest ih =>
    obtain ⟨sound, fits, laid⟩ := h
    refine ⟨?_, ?_, ?_⟩
    · cases b with
      | quiet raw => simpa [Block.mapRaws, Block.Sound, same] using sound
      | heading raw name => simpa [Block.mapRaws, Block.Sound, same] using sound
      | entry raws key values => exact fills_map same sound
    · cases b <;> exact fits
    · cases b <;> exact ih laid

theorem namedAfterAll_map_mapRaws (f : Bytes → Bytes) (inSection : Bool) (blocks : List Block) :
    namedAfterAll inSection (blocks.map (Block.mapRaws f)) = namedAfterAll inSection blocks := by
  induction blocks generalizing inSection with
  | nil => rfl
  | cons b rest ih => cases b <;> exact ih _

end mapRaws

theorem Laid.of_named {inSection : Bool} {blocks : List Block} (h : Laid inSection blocks) :
    Laid true blocks := by
  induction blocks generalizing inSection with
  | nil => trivial
  | cons b rest ih =>
    obtain ⟨sound, _, laid⟩ := h
    refine ⟨sound, ?_, ?_⟩
    · cases b <;> trivial
    · cases b <;> exact ih laid

/-- The lines of a content with a setting written into its place. -/
theorem Setting.pieces_applyTo {content : Bytes} {xs old ys : List Bytes} {s : Setting}
    {hasSection hasKey : Bool} (valid : s.Valid) (split : Line.pieces content = xs ++ (old ++ ys))
    (slot : s.slotIn content = ⟨xs.length, xs.length + old.length + 1, hasSection, hasKey⟩) :
    Line.pieces (s.applyTo content) =
      xs.map Line.closeRaw ++ (rawsOf (s.blocks hasSection) ++ ys) := by
  have lined := Line.lined_pieces content
  rw [split] at lined
  have edited : s.applyTo content =
      (xs.map Line.closeRaw ++ (rawsOf (s.blocks hasSection) ++ ys)).flatten := by
    rw [applyTo, slot, Line.scan, split,
      withBlock_eq _ _ _ _ _ (by simp only; omega) (by simp only; omega), ← List.append_assoc,
      flatten_onNewLine lined.append_left, encode_render, List.flatten_append,
      List.flatten_append, List.append_assoc]
  have closed : ∀ raw ∈ xs.map Line.closeRaw ++ rawsOf (s.blocks hasSection),
      Line.IsClosed raw := by
    intro raw hr
    rcases List.mem_append.mp hr with hr | hr
    · exact lined.append_left.isClosed_closeRaw raw hr
    · exact (plain_of_mem_blocks valid hr).1
  have lined' := Line.lined_append closed lined.append_right.append_right
  rw [edited, ← List.append_assoc, Line.pieces_flatten lined']

theorem LaidOut.applyTo {content : Bytes} {xs old ys : List Block} {s : Setting}
    {hasSection hasKey : Bool} (h : LaidOut content (xs ++ (old ++ ys))) (valid : s.Valid)
    (slot : s.slotIn content = ⟨(rawsOf xs).length, (rawsOf xs).length + (rawsOf old).length + 1,
      hasSection, hasKey⟩) (named : hasSection → namedAfterAll false xs) :
    LaidOut (s.applyTo content)
      (xs.map (Block.mapRaws Line.closeRaw) ++ (s.blocks hasSection ++ ys)) := by
  have split : Line.pieces content = rawsOf xs ++ (rawsOf old ++ rawsOf ys) := by
    rw [← h.raws, rawsOf_append, rawsOf_append]
  obtain ⟨laid_xs, laid_old⟩ := laid_append.mp h.laid
  have laid_ys := (laid_append.mp laid_old).2.of_named
  refine ⟨?_, ?_⟩
  · rw [Setting.pieces_applyTo valid split slot, rawsOf_append, rawsOf_append,
      rawsOf_map_mapRaws]
  · refine laid_append.mpr ⟨laid_map_mapRaws textOf_closeRaw laid_xs, laid_append.mpr ⟨?_, ?_⟩⟩
    · rw [namedAfterAll_map_mapRaws]
      exact Setting.laid_blocks valid named
    · rw [namedAfterAll_map_mapRaws, Setting.namedAfterAll_blocks s named]
      exact laid_ys

namespace LastOccurrence

variable {name : Text} {blocks before own after : List Block} {raw : Bytes}

/-- Values that are put into the section before what follows it are put into the whole. -/
theorem sections_put_after (h : LastOccurrence name blocks before raw own after) (s : Sections)
    (key : Text) (values : List Text) :
    ((itemsOf after).foldl Draft.add ⟨s.put name key values, some name⟩).sections =
      ((itemsOf after).foldl Draft.add ⟨s, some name⟩).sections.put name key values := by
  have last := h.last
  rcases h.bounded with rfl | ⟨raw', name', rest, rfl⟩
  · rfl
  · simp only [itemsOf_cons, Block.item?, Option.toList_some, List.singleton_append,
      headingsOf_heading, List.mem_cons, not_or] at last ⊢
    have left : some name' ≠ some name := by simpa using Ne.symm last.1
    simp only [List.foldl_cons, Draft.add, Sections.insert_put_comm s (Ne.symm last.1),
      Draft.sections_foldl_put_of_away last.2 _ left]

theorem foldl_eq_mk {own : List Block} (entries : headingsOf (itemsOf own) = []) (s : Sections)
    (name : Text) :
    (itemsOf own).foldl Draft.add ⟨s, some name⟩ =
      ⟨((itemsOf own).foldl Draft.add ⟨s, some name⟩).sections, some name⟩ := by
  have same := Draft.open?_foldl entries ⟨s, some name⟩
  cases draft : (itemsOf own).foldl Draft.add ⟨s, some name⟩ with
  | mk sections open? =>
    rw [draft] at same
    exact congrArg _ same

theorem sections_insert {spoken silent : List Block}
    (h : LastOccurrence name blocks before raw (spoken ++ silent) after)
    (nothing : itemsOf silent = []) (key : Text) (values : List Text) :
    Sections.ofItems (itemsOf (before ++ .heading raw name :: spoken) ++
        (.entry key values :: itemsOf (silent ++ after))) =
      (Sections.ofItems (itemsOf blocks)).put name key values := by
  have entries := h.entries
  rw [itemsOf_append, headingsOf_append, List.append_eq_nil_iff] at entries
  rw [Sections.ofItems, Sections.ofItems, h.split]
  simp only [itemsOf_append, itemsOf_cons, nothing, List.append_nil, List.nil_append,
    List.foldl_append, List.foldl_cons, Block.item?, Option.toList_some, List.foldl_nil]
  generalize (itemsOf before).foldl Draft.add .start = d
  rw [show d.add (.heading name) = ⟨d.sections.insert name ∅, some name⟩ from rfl,
    foldl_eq_mk entries.1]
  exact h.sections_put_after _ key values

/-- An entry in the place of the last one of its key replaces its values. -/
theorem sections_replace {key : Text} {own' own'' : List Block} {raws : List Bytes}
    {values : List Text}
    (h : LastOccurrence name blocks before raw (own' ++ .entry raws key values :: own'') after)
    (last : key ∉ keysOf (itemsOf own'')) (values' : List Text) :
    Sections.ofItems (itemsOf (before ++ .heading raw name :: own') ++
        (.entry key values' :: itemsOf (own'' ++ after))) =
      (Sections.ofItems (itemsOf blocks)).put name key values' := by
  have entries := h.entries
  rw [itemsOf_append, itemsOf_cons, headingsOf_append, headingsOf_append, List.append_eq_nil_iff,
    List.append_eq_nil_iff] at entries
  rw [Sections.ofItems, Sections.ofItems, h.split]
  simp only [itemsOf_append, itemsOf_cons, List.foldl_append, List.foldl_cons, Block.item?,
    Option.toList_some, List.foldl_nil]
  generalize (itemsOf before).foldl Draft.add .start = d
  rw [show d.add (.heading name) = ⟨d.sections.insert name ∅, some name⟩ from rfl,
    foldl_eq_mk entries.1]
  generalize ((itemsOf own').foldl Draft.add ⟨d.sections.insert name ∅, some name⟩).sections = s
  have add (vs : List Text) : Draft.add ⟨s, some name⟩ (.entry key vs) =
      ⟨s.put name key vs, some name⟩ := rfl
  rw [add, add, Draft.foldl_put_of_entries entries.2.2 last, h.sections_put_after,
    Draft.foldl_put_of_entries entries.2.2 last, h.sections_put_after, Sections.put_put]

end LastOccurrence

/-- A heading drops what its section had, so that the entry behind it stays alone. -/
theorem Sections.ofItems_started_over (items : List Item) (name key : Text) (values : List Text) :
    ofItems (items ++ [.heading name, .entry key values]) =
      (ofItems items).insert name ((∅ : Section).insert key values) := by
  rw [ofItems, List.foldl_append]
  change put ((ofItems items).insert name ∅) name key values = _
  rw [put, keysOf_insert, if_pos rfl, Table.insert_insert]

/-- An entry in a new section puts its values into that. -/
theorem Sections.ofItems_new {items : List Item} {name : Text} (absent : name ∉ headingsOf items)
    (key : Text) (values : List Text) :
    ofItems (items ++ [.heading name, .entry key values]) =
      (ofItems items).put name key values := by
  rw [ofItems_started_over, put, keysOf_ofItems_of_not_mem absent]

/-- An edit between blocks leaves no traps and completes the setting between their items. -/
theorem LaidOut.exists_edited {content : Bytes} {xs old ys : List Block} {s : Setting}
    (h : LaidOut content (xs ++ (old ++ ys))) (hasSection hasKey : Bool)
    (plain : ∀ raw ∈ rawsOf (xs ++ (old ++ ys)), ¬ (textOf raw).Trap) (valid : s.Valid)
    (slot : s.slotIn content = ⟨(rawsOf xs).length, (rawsOf xs).length + (rawsOf old).length + 1,
      hasSection, hasKey⟩) (named : hasSection → namedAfterAll false xs) :
    ∃ blocks', LaidOut (s.applyTo content) blocks' ∧
      (∀ raw ∈ rawsOf blocks', ¬ (textOf raw).Trap) ∧
      itemsOf blocks' = itemsOf xs ++ ((if hasSection then [] else [.heading s.sectionName]) ++
        .entry s.key s.values :: itemsOf ys) := by
  refine ⟨_, h.applyTo valid slot named, ?_, ?_⟩
  · simp only [rawsOf_append, List.mem_append, rawsOf_map_mapRaws, List.mem_map] at plain ⊢
    rintro raw (⟨raw, hr, rfl⟩ | hr | hr)
    · rw [textOf_closeRaw]
      exact plain raw (Or.inl hr)
    · exact (Setting.plain_of_mem_blocks valid hr).2
    · exact plain raw (Or.inr (Or.inr hr))
  · rw [itemsOf_append, itemsOf_append, itemsOf_map_mapRaws, Setting.itemsOf_blocks,
      List.append_assoc, List.singleton_append]

theorem namedAfterAll_heading (before own : List Block) (raw : Bytes) (name : Text) :
    namedAfterAll false (before ++ .heading raw name :: own) = true := by
  rw [namedAfterAll_append]
  exact namedAfterAll_true own

namespace LaidOut

variable {content : Bytes} {blocks before after : List Block} {raw : Bytes} {s : Setting}

theorem slotIn_of_not_named (h : LaidOut content blocks)
    (plain : ∀ raw ∈ rawsOf blocks, ¬ (textOf raw).Trap) (valid : s.Valid)
    (away : s.sectionName ∉ headingsOf (itemsOf blocks)) :
    s.slotIn content =
      ⟨(rawsOf blocks).length, (rawsOf blocks).length + (rawsOf []).length + 1, false, false⟩ := by
  have found : s.slotIn content = _ := h.find_eq plain s.sectionName valid.checkKey_key
  rw [slot_of_not_named s.key away] at found
  exact found

/-- The place of a new key is behind what its section says last. -/
theorem slotIn_of_absent {spoken silent : List Block} (h : LaidOut content blocks)
    (plain : ∀ raw ∈ rawsOf blocks, ¬ (textOf raw).Trap) (valid : s.Valid)
    (occurs : LastOccurrence s.sectionName blocks before raw (spoken ++ silent) after)
    (absent : s.key ∉ keysOf (itemsOf (spoken ++ silent))) (nothing : itemsOf silent = [])
    (ends : spoken = [] ∨ ∃ init raws k values, spoken = init ++ [.entry raws k values]) :
    s.slotIn content = ⟨(rawsOf (before ++ .heading raw s.sectionName :: spoken)).length,
      (rawsOf (before ++ .heading raw s.sectionName :: spoken)).length + (rawsOf []).length + 1,
      true, false⟩ := by
  have found : s.slotIn content = _ := h.find_eq plain s.sectionName valid.checkKey_key
  rw [occurs.slot_of_absent absent rfl nothing ends] at found
  exact found.trans (by simp [Block.raws, Nat.add_assoc, Nat.add_comm 1])

theorem slotIn_of_entry {own' own'' : List Block} {raws : List Bytes} {values : List Text}
    (h : LaidOut content blocks) (plain : ∀ raw ∈ rawsOf blocks, ¬ (textOf raw).Trap)
    (valid : s.Valid)
    (occurs : LastOccurrence s.sectionName blocks before raw
      (own' ++ .entry raws s.key values :: own'') after)
    (last : s.key ∉ keysOf (itemsOf own'')) :
    s.slotIn content = ⟨(rawsOf (before ++ .heading raw s.sectionName :: own')).length,
      (rawsOf (before ++ .heading raw s.sectionName :: own')).length +
        (rawsOf [.entry raws s.key values]).length + 1, true, true⟩ := by
  have found : s.slotIn content = _ := h.find_eq plain s.sectionName valid.checkKey_key
  rw [occurs.slot_of_entry last] at found
  exact found.trans (by simp [Block.raws, Nat.add_assoc, Nat.add_comm 1])

end LaidOut

/-- A setting is written into a content without traps as into the sections, and leaves no traps and
no section named twice. -/
theorem LaidOut.exists_applyTo {content : Bytes} {blocks : List Block} {s : Setting}
    (h : LaidOut content blocks) (plain : ∀ raw ∈ rawsOf blocks, ¬ (textOf raw).Trap)
    (valid : s.Valid) :
    ∃ blocks', LaidOut (s.applyTo content) blocks' ∧
      (∀ raw ∈ rawsOf blocks', ¬ (textOf raw).Trap) ∧
      Sections.ofItems (itemsOf blocks') =
        (Sections.ofItems (itemsOf blocks)).put s.sectionName s.key s.values ∧
      ((headingsOf (itemsOf blocks)).Nodup → (headingsOf (itemsOf blocks')).Nodup) := by
  by_cases named : s.sectionName ∈ headingsOf (itemsOf blocks)
  · obtain ⟨before, raw, own, after, occurs⟩ := exists_lastOccurrence named
    by_cases assigned : s.key ∈ keysOf (itemsOf own)
    · obtain ⟨own', raws, values, own'', rfl, last⟩ := exists_lastEntry assigned
      have split : blocks = (before ++ .heading raw s.sectionName :: own') ++
          ([.entry raws s.key values] ++ (own'' ++ after)) := by
        rw [occurs.split]
        simp
      have sections := occurs.sections_replace last s.values
      have slot := h.slotIn_of_entry plain valid occurs last
      subst split
      obtain ⟨blocks', laidOut, plain', items⟩ := h.exists_edited true true plain valid slot
        (fun _ => namedAfterAll_heading ..)
      refine ⟨blocks', laidOut, plain', items ▸ sections, fun distinct => ?_⟩
      rw [items]
      simpa [itemsOf_cons, Block.item?] using distinct
    · obtain ⟨spoken, silent, rfl, nothing, ends⟩ := exists_silent occurs.entries
      have split : blocks = (before ++ .heading raw s.sectionName :: spoken) ++
          ([] ++ (silent ++ after)) := by
        rw [occurs.split]
        simp
      have sections := occurs.sections_insert nothing s.key s.values
      have slot := h.slotIn_of_absent plain valid occurs assigned nothing ends
      subst split
      obtain ⟨blocks', laidOut, plain', items⟩ := h.exists_edited true false plain valid slot
        (fun _ => namedAfterAll_heading ..)
      refine ⟨blocks', laidOut, plain', items ▸ sections, fun distinct => ?_⟩
      rw [items]
      simpa [itemsOf_cons, Block.item?] using distinct
  · have split : blocks = blocks ++ ([] ++ []) := by simp
    have slot := h.slotIn_of_not_named plain valid named
    rw [split] at h plain
    obtain ⟨blocks', laidOut, plain', items⟩ :=
      h.exists_edited false false plain valid slot (by simp)
    refine ⟨blocks', laidOut, plain', ?_, fun distinct => ?_⟩
    · rw [items]
      exact Sections.ofItems_new named s.key s.values
    · rw [items, headingsOf_append]
      refine List.nodup_append.mpr ⟨distinct, by simp, ?_⟩
      rintro name mem _ other rfl
      obtain rfl : name = s.sectionName := by simpa using other
      exact named mem

end Keyfile
