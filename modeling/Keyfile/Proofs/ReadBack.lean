import Keyfile.Proofs.EditBlocks

namespace Keyfile

/-- The content with a newline behind it if its last line lacks one. -/
def closeContent (content : Bytes) : Bytes :=
  if content = [] ∨ content.getLast? = some newline then content else content ++ [newline]

theorem closeContent_flatten {raws : List Bytes} (lined : Line.Lined raws) :
    closeContent raws.flatten = (raws.map Line.closeRaw).flatten := by
  induction lined with
  | nil => rfl
  | @last raw filled open_end =>
    have last : raw.getLast? ≠ some newline := fun last => open_end (List.mem_of_getLast? last)
    simp [closeContent, filled, last, Line.closeRaw]
  | @cons raw rest closed _ ih =>
    rw [List.map_cons, List.flatten_cons, List.flatten_cons, ← ih,
      Line.closeRaw_of_isClosed closed]
    have last : (raw ++ rest.flatten).getLast? = rest.flatten.getLast?.or (some newline) := by
      rw [List.getLast?_append, closed.getLast?]
    by_cases empty : rest.flatten = []
    · simp [closeContent, empty, closed.getLast?]
    · have filled := List.getLast?_eq_some_getLast empty
      have nonempty : raw ++ rest.flatten ≠ [] := by simp [empty]
      simp only [closeContent, last, filled, Option.some_or, empty, nonempty, false_or]
      split <;> simp

theorem Line.pieces_closeContent (content : Bytes) :
    pieces (closeContent content) = (pieces content).map closeRaw := by
  have lined := lined_pieces content
  have whole := closeContent_flatten lined
  rw [flatten_pieces] at whole
  rw [whole, pieces_flatten (lined_of_closed lined.isClosed_closeRaw)]

theorem Line.pieces_closeContent_append (content more : Bytes) :
    pieces (closeContent content ++ more) = (pieces content).map closeRaw ++ pieces more := by
  have written : closeContent content ++ more =
      ((pieces content).map closeRaw ++ pieces more).flatten := by
    rw [List.flatten_append, ← pieces_closeContent, flatten_pieces, flatten_pieces]
  have closed := (lined_pieces content).isClosed_closeRaw
  rw [written, pieces_flatten (lined_append closed (lined_pieces more))]

namespace LaidOut

variable {content more : Bytes} {blocks blocks' : List Block}

theorem append (h : LaidOut content blocks) (h' : LaidOut more blocks') :
    LaidOut (closeContent content ++ more) (blocks.map (Block.mapRaws Line.closeRaw) ++ blocks') := by
  refine ⟨?_, laid_append.mpr ⟨laid_map_mapRaws textOf_closeRaw h.laid, ?_⟩⟩
  · rw [Line.pieces_closeContent_append, rawsOf_append, rawsOf_map_mapRaws, h.raws, h'.raws]
  · cases named : namedAfterAll false (blocks.map (Block.mapRaws Line.closeRaw)) with
    | false => exact h'.laid
    | true => exact h'.laid.of_named

theorem of_render {s : Setting} (valid : s.Valid) :
    LaidOut (encode (s.render false)) (s.blocks false) := by
  have closed : ∀ raw ∈ rawsOf (s.blocks false), Line.IsClosed raw :=
    fun raw mem => (Setting.plain_of_mem_blocks valid mem).1
  refine ⟨?_, Setting.laid_blocks valid (by simp)⟩
  rw [Setting.encode_render, Line.pieces_flatten (Line.lined_of_closed closed)]

/-- The blocks of a setting follow those of the content that it is written behind. -/
theorem append_render (h : LaidOut content blocks) {s : Setting} (valid : s.Valid) :
    LaidOut (closeContent content ++ encode (s.render false))
      (blocks.map (Block.mapRaws Line.closeRaw) ++ s.blocks false) :=
  h.append (.of_render valid)

end LaidOut

/-- Reading undoes writing: a setting that is written behind a content that can be read is read as
its section with its key alone, and all other sections are those of the content. The parts of the
setting request that same setting. -/
theorem parse_append_render {sectionName key : Text} {values : List Text} {s : Setting}
    (accepted : Setting.ofRequest sectionName key values = .ok s) :
    (∀ content sections, parse content = .ok sections →
      parse (closeContent content ++ encode (s.render false)) =
        .ok (sections.insert s.sectionName ((∅ : Section).insert s.key s.values))) ∧
      Setting.ofRequest s.sectionName s.key s.values = .ok s := by
  obtain ⟨_, valid⟩ := Setting.ofRequest_eq_ok accepted
  refine ⟨fun content sections parsed => ?_, valid.ofRequest_eq⟩
  obtain ⟨blocks, laidOut, rfl⟩ := exists_laidOut parsed
  have items : itemsOf (blocks.map (Block.mapRaws Line.closeRaw) ++ s.blocks false) =
      itemsOf blocks ++ [.heading s.sectionName, .entry s.key s.values] := by
    rw [itemsOf_append, itemsOf_map_mapRaws, Setting.itemsOf_blocks]
    rfl
  rw [(laidOut.append_render valid).parse_eq, items, Sections.ofItems_started_over]

/-- A key with a backslash at its end, a number sign before its first value and empty values, behind
a section of the same name whose last line lacks a newline. -/
theorem parse_append_render_unterminated :
    ∃ s, Setting.ofRequest (chars "S ") (chars "K\\") [chars " #v", [], chars "w\\\\", []] =
        .ok s ∧
      parse (encode (chars "[t]\ni = 1\n[s]\nj = 2")) = .ok ((∅ : Sections)
        |>.put (chars "t") (chars "i") [chars "1"]
        |>.put (chars "s") (chars "j") [chars "2"]) ∧
      parse (encode (chars "[t]\ni = 1\n[s]\nj = 2\n") ++ encode (s.render false)) =
        .ok ((∅ : Sections)
          |>.put (chars "t") (chars "i") [chars "1"]
          |>.put (chars "s") (chars "k\\") [chars "#v", [], chars "w\\\\", []]) := by
  have accepted : Setting.ofRequest (chars "S ") (chars "K\\")
      [chars " #v", [], chars "w\\\\", []] =
        .ok ⟨chars "s", chars "k\\", [chars "#v", [], chars "w\\\\", []]⟩ := rfl
  have parsed : parse (encode (chars "[t]\ni = 1\n[s]\nj = 2")) = .ok ((∅ : Sections)
      |>.put (chars "t") (chars "i") [chars "1"]
      |>.put (chars "s") (chars "j") [chars "2"]) := rfl
  have read := (parse_append_render accepted).1 _ _ parsed
  exact ⟨_, accepted, parsed, read⟩

end Keyfile
