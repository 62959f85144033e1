import Keyfile.Proofs.InStep
import Keyfile.Proofs.Outline

namespace Keyfile

theorem map_mapRaws_closeRaw {blocks : List Block}
    (closed : ∀ raw ∈ rawsOf blocks, Line.IsClosed raw) :
    blocks.map (Block.mapRaws Line.closeRaw) = blocks := by
  induction blocks with
  | nil => rfl
  | cons b rest ih =>
    rw [rawsOf_cons] at closed
    have own : ∀ raw ∈ b.raws, Line.closeRaw raw = raw :=
      fun raw mem => Line.closeRaw_of_isClosed (closed raw (List.mem_append_left _ mem))
    rw [List.map_cons, ih fun raw mem => closed raw (List.mem_append_right _ mem)]
    congr 1
    cases b with
    | quiet raw => exact congrArg _ (own raw (by simp [Block.raws]))
    | heading raw name => exact congrArg (Block.heading · name) (own raw (by simp [Block.raws]))
    | entry raws key values =>
      have same : raws.map Line.closeRaw = raws :=
        (List.map_congr_left own).trans (List.map_id raws)
      rw [Block.mapRaws, same]

/-- All lines end in a newline, and none of them is a trap. -/
def Tidy (blocks : List Block) : Prop :=
  ∀ raw ∈ rawsOf blocks, Line.IsClosed raw ∧ ¬ (textOf raw).Trap

namespace LaidOut

variable {content : Bytes} {s : Setting} {blocks before after : List Block} {raw : Bytes}

/-- Between lines that all end in a newline nothing changes but the place of the setting. -/
theorem applyTo_tidy {xs old ys : List Block} (h : LaidOut content (xs ++ (old ++ ys)))
    (tidy : Tidy (xs ++ (old ++ ys))) (valid : s.Valid) (hasSection hasKey : Bool)
    (slot : s.slotIn content = ⟨(rawsOf xs).length, (rawsOf xs).length + (rawsOf old).length + 1,
      hasSection, hasKey⟩) (named : hasSection → namedAfterAll false xs) :
    LaidOut (s.applyTo content) (xs ++ (s.blocks hasSection ++ ys)) := by
  have edited := h.applyTo valid slot named
  rwa [map_mapRaws_closeRaw fun raw mem => (tidy raw (by simp [mem])).1] at edited

theorem applyTo_of_not_named (h : LaidOut content blocks) (tidy : Tidy blocks)
    (valid : s.Valid) (away : s.sectionName ∉ headingsOf (itemsOf blocks)) :
    LaidOut (s.applyTo content) (blocks ++ s.blocks false) := by
  have slot := h.slotIn_of_not_named (fun raw mem => (tidy raw mem).2) valid away
  have split : blocks = blocks ++ ([] ++ []) := by simp
  rw [split] at h tidy
  have edited := h.applyTo_tidy tidy valid false false slot (by simp)
  rwa [List.append_nil] at edited

theorem applyTo_of_absent {spoken silent : List Block}
    (h : LaidOut content blocks) (tidy : Tidy blocks) (valid : s.Valid)
    (occurs : LastOccurrence s.sectionName blocks before raw (spoken ++ silent) after)
    (absent : s.key ∉ keysOf (itemsOf spoken)) (nothing : itemsOf silent = [])
    (ends : spoken = [] ∨ ∃ init raws k values, spoken = init ++ [.entry raws k values]) :
    LaidOut (s.applyTo content)
      (before ++ .heading raw s.sectionName ::
        (spoken ++ (s.blocks true ++ (silent ++ after)))) := by
  have absent' : s.key ∉ keysOf (itemsOf (spoken ++ silent)) := by
    simpa [itemsOf_append, nothing] using absent
  have slot :=
    h.slotIn_of_absent (fun raw mem => (tidy raw mem).2) valid occurs absent' nothing ends
  have split : blocks = (before ++ .heading raw s.sectionName :: spoken) ++
      ([] ++ (silent ++ after)) := by
    rw [occurs.split]
    simp
  rw [split] at h tidy
  have edited := h.applyTo_tidy tidy valid true false slot (fun _ => namedAfterAll_heading ..)
  simpa using edited

theorem applyTo_of_entry {own' own'' : List Block} {raws : List Bytes} {values : List Text}
    (h : LaidOut content blocks) (tidy : Tidy blocks) (valid : s.Valid)
    (occurs : LastOccurrence s.sectionName blocks before raw
      (own' ++ .entry raws s.key values :: own'') after)
    (last : s.key ∉ keysOf (itemsOf own'')) :
    LaidOut (s.applyTo content)
      (before ++ .heading raw s.sectionName :: (own' ++ (s.blocks true ++ (own'' ++ after)))) := by
  have slot := h.slotIn_of_entry (fun raw mem => (tidy raw mem).2) valid occurs last
  have split : blocks = (before ++ .heading raw s.sectionName :: own') ++
      ([.entry raws s.key values] ++ (own'' ++ after)) := by
    rw [occurs.split]
    simp
  rw [split] at h tidy
  have edited := h.applyTo_tidy tidy valid true true slot (fun _ => namedAfterAll_heading ..)
  simpa using edited

end LaidOut

namespace Outline

/-- The lines of a key with the values that it was set to last. -/
def keyBlock (settings : List Setting) (name key : Text) : Block :=
  .entry (Setting.mk name key (values settings name key)).rawLines key (values settings name key)

/-- The lines of a section, after an empty one. -/
def sectionBlocks (settings : List Setting) (name : Text) : List Block :=
  .quiet (lineOf []) :: .heading (Setting.headingLine name) name ::
    (keys settings name).map (keyBlock settings name)

def blocks (comments : List Text) (settings : List Setting) : List Block :=
  commentBlocks comments ++ (sectionNames settings).flatMap (sectionBlocks settings)

variable {comments : List Text} {settings : List Setting} {name key : Text} {s : Setting}

theorem keyBlock_concat_of_ne (other : s.sectionName ≠ name ∨ s.key ≠ key) :
    keyBlock (settings ++ [s]) name key = keyBlock settings name key := by
  rw [keyBlock, values_concat_of_ne other, keyBlock]

theorem keyBlock_concat (settings : List Setting) (s : Setting) :
    keyBlock (settings ++ [s]) s.sectionName s.key = .entry s.rawLines s.key s.values := by
  rw [keyBlock, values_concat]

theorem sectionBlocks_concat_of_ne (other : s.sectionName ≠ name) :
    sectionBlocks (settings ++ [s]) name = sectionBlocks settings name := by
  have same : keyBlock (settings ++ [s]) name = keyBlock settings name :=
    funext fun _ => keyBlock_concat_of_ne (Or.inl other)
  rw [sectionBlocks, keys_concat_of_ne other, same, sectionBlocks]

theorem flatMap_sectionBlocks_concat {names : List Text} (other : s.sectionName ∉ names) :
    names.flatMap (sectionBlocks (settings ++ [s])) = names.flatMap (sectionBlocks settings) := by
  induction names with
  | nil => rfl
  | cons name names ih =>
    rw [List.mem_cons, not_or] at other
    rw [List.flatMap_cons, List.flatMap_cons, sectionBlocks_concat_of_ne other.1, ih other.2]

theorem map_keyBlock_concat {ks : List Text} (other : s.key ∉ ks) :
    ks.map (keyBlock (settings ++ [s]) s.sectionName) =
      ks.map (keyBlock settings s.sectionName) := by
  apply List.map_congr_left
  intro key mem
  apply keyBlock_concat_of_ne
  right
  rintro rfl
  exact other mem

theorem itemsOf_map_keyBlock (settings : List Setting) (name : Text) (ks : List Text) :
    itemsOf (ks.map (keyBlock settings name)) =
      ks.map fun key => .entry key (values settings name key) := by
  induction ks with
  | nil => rfl
  | cons key ks ih =>
    rw [List.map_cons, itemsOf_cons, ih]
    rfl

theorem headingsOf_map_keyBlock (settings : List Setting) (name : Text) (ks : List Text) :
    headingsOf (itemsOf (ks.map (keyBlock settings name))) = [] := by
  rw [itemsOf_map_keyBlock, headingsOf, List.filterMap_eq_nil_iff]
  intro item mem
  obtain ⟨key, _, rfl⟩ := List.mem_map.mp mem
  rfl

theorem keysOf_map_keyBlock (settings : List Setting) (name : Text) (ks : List Text) :
    keysOf (itemsOf (ks.map (keyBlock settings name))) = ks := by
  rw [itemsOf_map_keyBlock, keysOf, List.filterMap_map]
  exact List.filterMap_some

theorem headingsOf_flatMap_sectionBlocks (settings : List Setting) (names : List Text) :
    headingsOf (itemsOf (names.flatMap (sectionBlocks settings))) = names := by
  induction names with
  | nil => rfl
  | cons name names ih =>
    have own : headingsOf (itemsOf (sectionBlocks settings name)) = [name] :=
      congrArg (name :: ·) (headingsOf_map_keyBlock settings name (keys settings name))
    rw [List.flatMap_cons, itemsOf_append, headingsOf_append, own, ih]
    rfl

theorem headingsOf_blocks (comments : List Text) (settings : List Setting) :
    headingsOf (itemsOf (blocks comments settings)) = sectionNames settings := by
  rw [blocks, itemsOf_append, itemsOf_commentBlocks, List.nil_append,
    headingsOf_flatMap_sectionBlocks]

/-- What follows a section: the empty line before the next one, and that with all others. -/
theorem exists_flatMap_sectionBlocks (settings : List Setting) (names : List Text) :
    ∃ silent after, names.flatMap (sectionBlocks settings) = silent ++ after ∧
      itemsOf silent = [] ∧ headingsOf (itemsOf after) = names ∧
      (after = [] ∨ ∃ raw name rest, after = .heading raw name :: rest) := by
  have headings := headingsOf_flatMap_sectionBlocks settings names
  cases names with
  | nil => exact ⟨[], [], rfl, rfl, rfl, Or.inl rfl⟩
  | cons name names =>
    exact ⟨[.quiet (lineOf [])], _, rfl, rfl, headings, Or.inr ⟨_, _, _, rfl⟩⟩

theorem map_keyBlock_ends (settings : List Setting) (name : Text) (ks : List Text) :
    ks.map (keyBlock settings name) = [] ∨ ∃ init raws key values,
      ks.map (keyBlock settings name) = init ++ [.entry raws key values] := by
  cases ks using List.reverseRecOn with
  | nil => exact Or.inl rfl
  | append_singleton ks key =>
    rw [List.map_append]
    exact Or.inr ⟨_, _, _, _, rfl⟩

theorem blocks_eq (comments : List Text) {earlier later : List Text}
    (split : sectionNames settings = earlier ++ name :: later) :
    blocks comments settings =
      (commentBlocks comments ++ earlier.flatMap (sectionBlocks settings) ++
          [.quiet (lineOf [])]) ++
        .heading (Setting.headingLine name) name ::
          ((keys settings name).map (keyBlock settings name) ++
            later.flatMap (sectionBlocks settings)) := by
  simp [blocks, split, sectionBlocks]

theorem tidy_blocks (single : ∀ c ∈ comments, '\n' ∉ c) (valid : ∀ s ∈ settings, s.Valid) :
    Tidy (blocks comments settings) := by
  intro raw mem
  rw [blocks, rawsOf_append, List.mem_append] at mem
  rcases mem with mem | mem
  · obtain ⟨c, hc, rfl⟩ := exists_of_mem_commentBlocks mem
    exact ⟨isClosed_lineOf (by simp [single c hc]), fun trap => trap.1 (comment_textOf_lineOf c)⟩
  · obtain ⟨b, hb, mem⟩ := List.mem_flatMap.mp mem
    obtain ⟨name, hname, hb⟩ := List.mem_flatMap.mp hb
    rw [sectionBlocks, List.mem_cons, List.mem_cons, List.mem_map] at hb
    obtain ⟨s, hs, rfl⟩ := mem_sectionNames.mp hname
    have of_heading (own : raw ∈ rawsOf (s.blocks false)) :=
      Setting.plain_of_mem_blocks (valid s hs) own
    rcases hb with rfl | rfl | ⟨key, hkey, rfl⟩
    · exact of_heading (by
        simpa [Setting.blocks, Block.raws] using Or.inl (List.mem_singleton.mp mem))
    · exact of_heading (by
        simpa [Setting.blocks, Block.raws] using Or.inr (Or.inl (List.mem_singleton.mp mem)))
    · obtain ⟨t, ht, same, rfl, current⟩ := exists_values hkey
      rw [keyBlock, ← current] at mem
      exact Setting.plain_of_mem_rawLines (valid t ht) mem

theorem laidOut_applyTo_section {content : Bytes} {above silent after : List Block}
    (h : LaidOut content (above ++ .heading (Setting.headingLine s.sectionName) s.sectionName ::
      ((keys settings s.sectionName).map (keyBlock settings s.sectionName) ++ (silent ++ after))))
    (tidy : Tidy (above ++ .heading (Setting.headingLine s.sectionName) s.sectionName ::
      ((keys settings s.sectionName).map (keyBlock settings s.sectionName) ++ (silent ++ after))))
    (valid : s.Valid) (nothing : itemsOf silent = [])
    (bounded : after = [] ∨ ∃ raw name rest, after = .heading raw name :: rest)
    (away : s.sectionName ∉ headingsOf (itemsOf after)) :
    LaidOut (s.applyTo content)
      (above ++ .heading (Setting.headingLine s.sectionName) s.sectionName ::
        ((keys (settings ++ [s]) s.sectionName).map (keyBlock (settings ++ [s]) s.sectionName) ++
          (silent ++ after))) := by
  have occurs : LastOccurrence s.sectionName
      (above ++ .heading (Setting.headingLine s.sectionName) s.sectionName ::
        ((keys settings s.sectionName).map (keyBlock settings s.sectionName) ++ (silent ++ after)))
      above (Setting.headingLine s.sectionName)
      ((keys settings s.sectionName).map (keyBlock settings s.sectionName) ++ silent) after :=
    ⟨by rw [List.append_assoc], by
      rw [itemsOf_append, nothing, List.append_nil, headingsOf_map_keyBlock], bounded, away⟩
  rw [keys_concat]
  by_cases assigned : s.key ∈ keys settings s.sectionName
  · obtain ⟨before, behind, split, first, last⟩ := exists_eraseDups_split assigned
    rw [← keys] at split
    have own : (keys settings s.sectionName).map (keyBlock settings s.sectionName) ++ silent =
        before.map (keyBlock settings s.sectionName) ++
          .entry (Setting.mk s.sectionName s.key (values settings s.sectionName s.key)).rawLines
            s.key (values settings s.sectionName s.key) ::
          (behind.map (keyBlock settings s.sectionName) ++ silent) := by
      rw [split]
      simp [keyBlock]
    rw [own] at occurs
    have replaced := h.applyTo_of_entry tidy valid occurs
      (by rw [itemsOf_append, nothing, List.append_nil, keysOf_map_keyBlock]; exact last)
    rw [if_pos assigned, split, List.map_append, List.map_cons, map_keyBlock_concat first,
      map_keyBlock_concat last, keyBlock_concat]
    simpa [Setting.blocks] using replaced
  · have inserted := h.applyTo_of_absent tidy valid occurs
      (by rw [keysOf_map_keyBlock]; exact assigned) nothing (map_keyBlock_ends ..)
    rw [if_neg assigned, List.map_append, map_keyBlock_concat assigned, List.map_singleton,
      keyBlock_concat]
    simpa [Setting.blocks] using inserted

/-- A setting that is saved finds its place among those that were saved before. -/
theorem laidOut_applyTo {content : Bytes} (h : LaidOut content (blocks comments settings))
    (tidy : Tidy (blocks comments settings)) (valid : s.Valid) :
    LaidOut (s.applyTo content) (blocks comments (settings ++ [s])) := by
  by_cases named : s.sectionName ∈ sectionNames settings
  · obtain ⟨earlier, later, split, first, last⟩ := exists_eraseDups_split named
    rw [← sectionNames] at split
    have split' : sectionNames (settings ++ [s]) = earlier ++ s.sectionName :: later := by
      rw [sectionNames_concat, if_pos named, split]
    obtain ⟨silent, after, rest, nothing, headings, bounded⟩ :=
      exists_flatMap_sectionBlocks settings later
    rw [blocks_eq comments split, rest] at h tidy
    rw [blocks_eq comments split', flatMap_sectionBlocks_concat first,
      flatMap_sectionBlocks_concat last, rest]
    exact laidOut_applyTo_section h tidy valid nothing bounded (headings ▸ last)
  · have added := h.applyTo_of_not_named tidy valid (by rw [headingsOf_blocks]; exact named)
    have own : sectionBlocks (settings ++ [s]) s.sectionName = s.blocks false := by
      rw [sectionBlocks, keys_concat_of_not_mem named, List.map_singleton, keyBlock_concat]
      rfl
    rw [blocks, sectionNames_concat, if_neg named, List.flatMap_append, List.flatMap_singleton,
      flatMap_sectionBlocks_concat named, own, ← List.append_assoc]
    exact added

theorem renderValues_eq (lead indent : Text) {values : List Text} (filled : values ≠ []) :
    Setting.renderValues lead indent values =
      lead ++ List.intercalate ([',', '\n'] ++ indent) values ++ ['\n'] := by
  induction values generalizing lead with
  | nil => exact absurd rfl filled
  | cons v rest ih =>
    cases rest with
    | nil => simp [Setting.renderValues]
    | cons w rest =>
      have rest := ih indent (by simp)
      rw [Setting.renderValues, rest]
      · simp
      · simp

theorem encode_keyText (name key : Text) {values : List Text} (filled : values ≠ []) :
    encode (keyText key values) = (Setting.mk name key values).rawLines.flatten := by
  have rendered := renderValues_eq (Setting.mk name key values).lead
    (Setting.mk name key values).indent filled
  rw [Setting.rawLines, ← Setting.encode_renderValues, rendered]
  simp [keyText, Setting.lead, Setting.indent, chars]

theorem encode_keyTexts {ks : List Text} (filled : ∀ key ∈ ks, values settings name key ≠ []) :
    encode (ks.flatMap fun key => keyText key (values settings name key)) =
      (rawsOf (ks.map (keyBlock settings name))).flatten := by
  induction ks with
  | nil => rfl
  | cons key ks ih =>
    rw [List.flatMap_cons, encode_append, encode_keyText name key (filled key (by simp)),
      ih fun key mem => filled key (List.mem_cons_of_mem _ mem), List.map_cons, rawsOf_cons,
      List.flatten_append]
    rfl

theorem encode_sectionText (filled : ∀ s ∈ settings, s.values ≠ []) (name : Text) :
    encode (sectionText settings name) = (rawsOf (sectionBlocks settings name)).flatten := by
  have heading : chars "\n[" ++ name ++ chars "]\n" = Setting.renderHeading name := rfl
  have keyed : ∀ key ∈ keys settings name, values settings name key ≠ [] := by
    intro key mem
    obtain ⟨s, hs, _, _, current⟩ := exists_values mem
    exact current ▸ filled s hs
  rw [sectionText, heading, encode_append, Setting.encode_renderHeading, encode_keyTexts keyed]
  simp [sectionBlocks, Block.raws]

theorem encode_fileText (comments : List Text) (filled : ∀ s ∈ settings, s.values ≠ []) :
    encode (fileText comments settings) = (rawsOf (blocks comments settings)).flatten := by
  have commented : comments.flatMap (fun c => chars "# " ++ c ++ chars "\n") =
      Store.commentLines comments := rfl
  have sections (names : List Text) : encode (names.flatMap (sectionText settings)) =
      (rawsOf (names.flatMap (sectionBlocks settings))).flatten := by
    induction names with
    | nil => rfl
    | cons name names ih =>
      rw [List.flatMap_cons, encode_append, encode_sectionText filled, ih, List.flatMap_cons,
        rawsOf_append, List.flatten_append]
  rw [fileText, commented, encode_append, encode_commentLines, sections, blocks, rawsOf_append,
    List.flatten_append]

end Outline

/-- What requests on a new file of comments have led to, and those that were granted. -/
inductive Written (path : Path) (comments : List Text) : Session → List Setting → Prop
  | created {options : Options} {host host' : Host} {store : Store} :
      (Store.create path comments options).run host = (.ok store, host') →
      Written path comments ⟨store, host'⟩ []
  | set {s s' : Session} {granted : List Setting} {sectionName key : Text} {values : List Text} :
      Written path comments s granted →
      (Store.set sectionName key values).run s = (.ok (), s') →
      Written path comments s'
        (granted ++ [⟨normalName sectionName, normalName key, Setting.kept values⟩])
  | refused {s s' : Session} {granted : List Setting} {sectionName key : Text}
      {values : List Text} {e : Failure} :
      Written path comments s granted →
      (Store.set sectionName key values).run s = (.error e, s') →
      Written path comments s' granted

theorem Written.exists_laidOut {path : Path} {comments : List Text} {s : Session}
    {granted : List Setting} (single : ∀ c ∈ comments, '\n' ∉ c)
    (h : Written path comments s granted) :
    s.store.path = path ∧ (∀ t ∈ granted, t.Valid) ∧
      ∃ content, s.host.disk.read path = .ok content ∧
        LaidOut content (Outline.blocks comments granted) := by
  -- Every state before a request has the blocks of the settings that were granted until then.
  induction h with
  | created made =>
    obtain ⟨rfl, read⟩ := Store.read_of_create made
    have blocks : Outline.blocks comments [] = commentBlocks comments := List.append_nil _
    exact ⟨rfl, by simp, _, read, blocks ▸ laidOut_commentLines single⟩
  | @set s s' granted sectionName key values _ done ih =>
    obtain ⟨rfl, valid, content, read, laidOut⟩ := ih
    rcases Store.run_set_cases read sectionName key values with
      ⟨e, log, failed⟩ | ⟨setting, log, accepted, ran⟩
    · rw [failed] at done
      cases done
    · obtain ⟨rfl, valid'⟩ := Setting.ofRequest_eq_ok accepted
      rw [ran] at done
      obtain rfl : (_ : Session) = s' := congrArg Prod.snd done
      refine ⟨rfl, ?_, _, Disk.read_put_of_read read _,
        Outline.laidOut_applyTo laidOut (Outline.tidy_blocks single valid) valid'⟩
      intro t mem
      rcases List.mem_append.mp mem with mem | mem
      · exact valid t mem
      · rwa [List.mem_singleton.mp mem]
  | @refused s s' granted sectionName key values _ _ failed ih =>
    obtain ⟨rfl, valid, content, read, laidOut⟩ := ih
    rcases Store.run_set_cases read sectionName key values with ⟨_, log, ran⟩ | ⟨_, _, _, ran⟩
    · rw [ran] at failed
      obtain rfl : (_ : Session) = s' := congrArg Prod.snd failed
      exact ⟨rfl, valid, content, read, laidOut⟩
    · rw [ran] at failed
      cases failed

/-- A file that nothing but requests wrote has the comments, and for each section and key that was
set, in the order in which these were set first, the values that were set last. -/
theorem read_written {path : Path} {comments : List Text} {s : Session} {granted : List Setting}
    (single : ∀ c ∈ comments, '\n' ∉ c) (h : Written path comments s granted) :
    s.host.disk.read path = .ok (encode (Outline.fileText comments granted)) := by
  obtain ⟨_, valid, content, read, laidOut⟩ := h.exists_laidOut single
  rw [Outline.encode_fileText comments fun t mem => (valid t mem).values_ne_nil, laidOut.raws,
    Line.flatten_pieces]
  exact read

/-- A key of an earlier section is added and one gets other values while a later section is there,
and one request is refused. -/
theorem read_written_two_sections :
    ∃ s granted, Written [0x66] [chars "c"] s granted ∧
      s.host.disk.read [0x66] =
        .ok (encode (chars "# c\n\n[a]\nk = 5,\n    \nj = 4\n\n[b]\nk = 2,\n    3\n")) := by
  have created : Written [0x66] [chars "c"] _ [] :=
    @Written.created _ _ (.usual [dot]) ⟨⟨[], []⟩, []⟩ _ _ rfl
  have first := @Written.set _ _ _ _ _ (chars "A") (chars "k") [chars "1"] created rfl
  have second := @Written.set _ _ _ _ _ (chars "b") (chars "k") [chars "2", chars " 3"] first rfl
  have refused := @Written.refused _ _ _ _ _ (chars "b") (chars "#") [] _ second rfl
  have added := @Written.set _ _ _ _ _ (chars "a") (chars "j") [chars "4"] refused rfl
  have replaced := @Written.set _ _ _ _ _ (chars "a") (chars "K") [chars "5", []] added rfl
  exact ⟨_, _, replaced, read_written (by decide) replaced⟩

end Keyfile
