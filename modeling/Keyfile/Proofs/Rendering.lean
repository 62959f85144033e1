import Keyfile.Proofs.Pieces
import Keyfile.Proofs.Trap

namespace Keyfile

namespace Text

theorem not_hasBare_of_not_mem {c : Char} {t : Text} (h : c ∉ t) : ¬ t.HasBare c :=
  fun bare => h bare.mem

theorem not_loose_of_no_comma {t : Text} (h : ',' ∉ t) : ¬ Loose (t ++ [',']) := by
  rintro ⟨p, w, split, _, blank, other⟩
  rcases append_cons_cases split with ⟨_, _, rfl⟩ | ⟨x, _, right⟩ | ⟨x, rfl, _⟩
  · exact other rfl
  · simp at right
  · exact h (by simp)

theorem not_loose_of_not_mem {t : Text} (h : ',' ∉ t) : ¬ t.Loose := by
  rintro ⟨p, w, rfl, _⟩
  exact h (by simp)

theorem Misnamed.two_le_count {t : Text} (h : t.Misnamed) : 2 ≤ t.count '=' := by
  obtain ⟨left, right, _, assigns, equals, _⟩ := h
  have before := List.count_pos_iff.mpr equals
  rw [assigns.split, List.count_append, List.count_cons_self]
  omega

end Text

namespace Setting

/-- The texts of the lines of values, as they are written. -/
def valueLines (lead indent : Text) : List Text → List Text
  | [] => []
  | [v] => [lead ++ v]
  | v :: w :: rest => (lead ++ v ++ [',']) :: valueLines indent indent (w :: rest)

def indent (s : Setting) : Text := List.replicate s.lead.length ' '

def rawLines (s : Setting) : List Bytes := (valueLines s.lead s.indent s.values).map lineOf

def headingLine (sectionName : Text) : Bytes := lineOf ('[' :: (sectionName ++ [']']))

def blocks (s : Setting) (hasSection : Bool) : List Block :=
  (if hasSection then []
    else [.quiet (lineOf []), .heading (headingLine s.sectionName) s.sectionName]) ++
      [.entry s.rawLines s.key s.values]

theorem encode_renderValues (lead indent : Text) (values : List Text) :
    encode (renderValues lead indent values) =
      ((valueLines lead indent values).map lineOf).flatten := by
  induction values generalizing lead with
  | nil => rfl
  | cons v rest ih =>
    cases rest with
    | nil => simpa [renderValues, valueLines] using encode_newline (lead ++ v)
    | cons w rest =>
      rw [renderValues, valueLines, List.map_cons, List.flatten_cons, ← ih indent, ← encode_newline,
        ← encode_append]
      · simp
      · simp

theorem encode_renderHeading (name : Text) :
    encode (renderHeading name) = lineOf [] ++ headingLine name := by
  rw [headingLine, ← encode_newline, ← encode_newline, ← encode_append]
  simp [renderHeading]

theorem encode_render (s : Setting) (hasSection : Bool) :
    encode (s.render hasSection) = (rawsOf (s.blocks hasSection)).flatten := by
  have values := encode_renderValues s.lead s.indent s.values
  cases hasSection with
  | true =>
    rw [render, if_pos rfl, List.nil_append, ← indent]
    simpa [blocks, Block.raws, rawLines] using values
  | false =>
    have head := encode_renderHeading s.sectionName
    rw [render, if_neg (by simp), encode_append, head, ← indent, values]
    simp [blocks, Block.raws, rawLines]

section ValidValue

variable {v pad : Text}

/-- A character that a value may not have stands nowhere behind an indentation. -/
theorem not_mem_indented (valid : ValidValue v) (blank : Text.Blank pad) {c : Char}
    (h : c ∈ reserved) (filled : isBlank c = false) : c ∉ pad ++ ' ' :: v := by
  simp only [List.mem_append, List.mem_cons, not_or]
  refine ⟨fun mem => ?_, ?_, fun mem => valid.plain c mem h⟩
  · rw [blank c mem] at filled
    cases filled
  · rintro rfl
    exact absurd filled (by decide)

theorem not_escapes_indented (valid : ValidValue v) (pad : Text) :
    ¬ Text.Escapes (pad ++ ' ' :: v) := by
  rw [Text.escapes_append_cons (by decide)]
  exact valid.even

theorem trim_indented (valid : ValidValue v) (blank : Text.Blank pad) :
    Text.trim (pad ++ ' ' :: v) = v := by
  have blank' : Text.Blank (pad ++ [' ']) :=
    Text.blank_append.mpr ⟨blank, by simp [Text.Blank, isBlank]⟩
  rw [List.append_cons, Text.trim_append_of_blank blank', valid.trimmed]

/-- A further line of values that ends in a comma. -/
theorem reads_goes_on (valid : ValidValue v) (no_comment : ¬ v.Comment) (gaps : pad.all isGap)
    (p : Pending) :
    Reads true (some p) (pad ++ ' ' :: v ++ [',']) (some ⟨p.key, p.values ++ [v]⟩) none := by
  have blank := Text.blank_of_all_gap gaps
  have absent : ∀ c ∈ reserved, isBlank c = false → c ≠ ',' → c ∉ pad ++ ' ' :: v ++ [','] := by
    intro c hc filled other
    rw [List.mem_append, List.mem_singleton, not_or]
    exact ⟨not_mem_indented valid blank hc filled, other⟩
  have no_comma : ¬ Text.HasBare ',' (pad ++ ' ' :: v) :=
    Text.not_hasBare_of_not_mem (not_mem_indented valid blank (by decide) (by decide))
  refine .values ?_ ?_ ?_ ?_ ?_
    (.next no_comma (not_escapes_indented valid pad) (.none (Text.not_hasBare_nil ','))) ?_
  · exact fun all => absurd (all ',' (by simp)) (by decide)
  · intro comment
    have indented : Text.Blank (pad ++ [' ']) :=
      Text.blank_append.mpr ⟨blank, by simp [Text.Blank, isBlank]⟩
    rw [show pad ++ ' ' :: v ++ [','] = (pad ++ [' ']) ++ (v ++ [',']) by simp,
      Text.comment_append_of_blank indented] at comment
    by_cases filled : v.Blank
    · rw [Text.comment_append_of_blank filled] at comment
      exact absurd comment (by decide)
    · exact no_comment (comment.of_append filled)
  · rw [Text.escapes_concat]
    simp
  · exact Text.not_hasBare_of_not_mem (absent '[' (by decide) (by decide) (by decide))
  · exact Text.not_hasBare_of_not_mem (absent '=' (by decide) (by decide) (by decide))
  · simp [Pending.after, trim_indented valid blank]

/-- The last line of values. If the value is empty the line is blank. -/
theorem reads_ends (valid : ValidValue v) (no_comment : ¬ v.Comment) (gaps : pad.all isGap)
    (p : Pending) :
    Reads true (some p) (pad ++ ' ' :: v) none (some (.entry p.key (p.values ++ [v]))) := by
  have blank := Text.blank_of_all_gap gaps
  have indented : Text.Blank (pad ++ [' ']) :=
    Text.blank_append.mpr ⟨blank, by simp [Text.Blank, isBlank]⟩
  by_cases empty : v = []
  · subst empty
    exact .lastBlank (by simp) indented
  · have absent : ∀ c ∈ reserved, isBlank c = false → ¬ Text.HasBare c (pad ++ ' ' :: v) :=
      fun c hc filled => Text.not_hasBare_of_not_mem (not_mem_indented valid blank hc filled)
    refine .values ?_ ?_ (not_escapes_indented valid pad) (absent '[' (by decide) (by decide))
      (absent '=' (by decide) (by decide)) (.none (absent ',' (by decide) (by decide))) ?_
    · intro all
      have nothing := Text.trim_eq_nil.mpr all
      rw [trim_indented valid blank] at nothing
      exact empty nothing
    · rw [List.append_cons, Text.comment_append_of_blank indented]
      exact no_comment
    · simp [Pending.after, trim_indented valid blank]

end ValidValue

section Valid

variable {s : Setting} {v : Text}

theorem assigns_lead (valid : s.Valid) {right : Text} (rest : '=' ∉ right) :
    Text.Assigns (s.lead ++ right) (s.key ++ [' ']) (' ' :: right) := by
  obtain ⟨plain, _⟩ := checkKey_eq_ok.mp valid.checkKey_key
  have absent : ∀ c ∈ reserved, c ≠ ' ' → ¬ Text.HasBare c (s.key ++ [' ']) := by
    intro c hc other
    apply Text.not_hasBare_of_not_mem
    rw [List.mem_append, List.mem_singleton, not_or]
    exact ⟨fun mem => plain c mem hc, other⟩
  refine ⟨by simp [lead], ?_, absent '=' (by decide) (by decide), ?_,
    absent ',' (by decide) (by decide)⟩
  · rw [Text.escapes_concat]
    simp
  · exact Text.not_hasBare_of_not_mem (by simp [rest])

theorem not_comment_lead (valid : s.Valid) (right : Text) : ¬ Text.Comment (s.lead ++ right) := by
  obtain ⟨_, no_comment⟩ := checkKey_eq_ok.mp valid.checkKey_key
  intro comment
  have split : s.lead ++ right = s.key ++ ([' ', '=', ' '] ++ right) := by simp [lead]
  rw [split] at comment
  by_cases blank : s.key.Blank
  · rw [Text.comment_append_of_blank blank] at comment
    simp [Text.Comment, Text.trimStart, isBlank] at comment
  · exact no_comment (comment.of_append blank)

theorem reads_lead (valid : s.Valid) {right last : Text} {pieces : List Text}
    {open? : Option Pending} {item? : Option Item} (bracket : '[' ∉ right) (equals : '=' ∉ right)
    (even : ¬ Text.Escapes (' ' :: right)) (cuts : Text.Cuts (' ' :: right) pieces last)
    (after : Pending.after ⟨s.key, []⟩ pieces last = (open?, item?)) :
    Reads true none (s.lead ++ right) open? item? := by
  obtain ⟨plain, _⟩ := checkKey_eq_ok.mp valid.checkKey_key
  have no_bracket : '[' ∉ s.lead ++ right := by
    have : '[' ∉ s.key := fun mem => plain '[' mem (by decide)
    simp [lead, this, bracket]
  have assigns := assigns_lead valid equals
  refine .entry ?_ (not_comment_lead valid right) ?_ rfl ?_
    (Text.not_hasBare_of_not_mem no_bracket) assigns cuts ?_
  · exact fun all => absurd (all '=' (by simp [lead])) (by decide)
  · exact fun starts => no_bracket starts.hasBare.mem
  · rw [assigns.split, Text.escapes_append_cons (by decide)]
    exact even
  · have blank : Text.Blank [' '] := by simp [Text.Blank, isBlank]
    rw [normalName_append_blank blank, valid.normalName_key]
    exact after

theorem fills_valueLines {values : List Text} (filled : values ≠ [])
    (valid : ∀ v ∈ values, ValidValue v) (no_comment : ∀ v ∈ values, ¬ v.Comment) {pad : Text}
    (gaps : pad.all isGap) (p : Pending) :
    Fills (some p) ((valueLines (pad ++ [' ']) (pad ++ [' ']) values).map lineOf) p.key
      (p.values ++ values) := by
  induction values generalizing p with
  | nil => exact absurd rfl filled
  | cons v rest ih =>
    have own := valid v (by simp)
    have own_comment := no_comment v (by simp)
    have blank := Text.blank_of_all_gap gaps
    have no_return : '\r' ∉ pad := fun mem => absurd (List.all_eq_true.mp gaps _ mem) (by decide)
    have value_return : '\r' ∉ v := fun mem => own.plain _ mem (by decide)
    cases rest with
    | nil =>
      refine .last ?_
      rw [textOf_lineOf (by simp [no_return, value_return]), List.append_assoc]
      exact reads_ends own own_comment gaps p
    | cons w rest =>
      have more := ih (by simp) (fun u hu => valid u (List.mem_cons_of_mem _ hu))
        (fun u hu => no_comment u (List.mem_cons_of_mem _ hu)) ⟨p.key, p.values ++ [v]⟩
      rw [List.append_assoc, List.singleton_append] at more
      refine .more ?_ more
      rw [textOf_lineOf (by simp [no_return, value_return]), List.append_assoc pad]
      exact reads_goes_on own own_comment gaps p

/-- The lines of a setting are read as this setting. -/
theorem fills_rawLines (valid : s.Valid) : Fills none s.rawLines s.key s.values := by
  obtain ⟨plain, _⟩ := checkKey_eq_ok.mp valid.checkKey_key
  have key_return : '\r' ∉ s.key := fun mem => plain _ mem (by decide)
  obtain ⟨v, rest, values⟩ := List.exists_cons_of_ne_nil valid.values_ne_nil
  have own : ValidValue v := valid.validValue v (by simp [values])
  have value_return : '\r' ∉ v := fun mem => own.plain _ mem (by decide)
  have no_bracket : '[' ∉ v := fun mem => own.plain _ mem (by decide)
  have no_equals : '=' ∉ v := fun mem => own.plain _ mem (by decide)
  have no_comma : ¬ Text.HasBare ',' (' ' :: v) :=
    Text.not_hasBare_of_not_mem (not_mem_indented own Text.blank_nil (by decide) (by decide))
  have even := not_escapes_indented own []
  have trimmed : Text.trim (' ' :: v) = v := trim_indented own Text.blank_nil
  rw [rawLines, values]
  cases rest with
  | nil =>
    refine .last ?_
    rw [textOf_lineOf (by simp [lead, key_return, value_return])]
    refine reads_lead valid no_bracket no_equals even (.none no_comma) ?_
    simp [Pending.after, trimmed]
  | cons w rest =>
    have spaces : s.indent = List.replicate (s.key.length + 2) ' ' ++ [' '] := by
      rw [indent, lead, ← List.replicate_succ']
      simp
    have gaps : (List.replicate (s.key.length + 2) ' ').all isGap := by
      rw [List.all_replicate]
      simp [isGap]
    have valid_rest : ∀ u ∈ w :: rest, ValidValue u :=
      fun u hu => valid.validValue u (by rw [values]; exact List.mem_cons_of_mem _ hu)
    have no_comments : ∀ u ∈ w :: rest, ¬ u.Comment :=
      fun u hu => valid.no_comment u (by rw [values]; exact hu)
    have more := fills_valueLines (by simp) valid_rest no_comments gaps ⟨s.key, [v]⟩
    rw [← spaces, List.singleton_append] at more
    refine .more ?_ more
    rw [textOf_lineOf (by simp [lead, key_return, value_return]), List.append_assoc]
    have cuts : Text.Cuts (' ' :: (v ++ [','])) [' ' :: v] [] :=
      .next no_comma even (.none (Text.not_hasBare_nil ','))
    refine reads_lead valid (by simp [no_bracket]) (by simp [no_equals]) ?_ cuts ?_
    · rw [← List.cons_append, Text.escapes_concat]
      simp
    · simp [Pending.after, trimmed]

/-- A line of values is an indentation or what stands before the first value, then a value, and a
comma unless it is the last line. -/
theorem mem_valueLines {lead indent t : Text} {values : List Text}
    (h : t ∈ valueLines lead indent values) :
    ∃ l v : Text, (l = lead ∨ l = indent) ∧ v ∈ values ∧ (t = l ++ v ∨ t = l ++ v ++ [',']) := by
  induction values generalizing lead with
  | nil => simp [valueLines] at h
  | cons v rest ih =>
    cases rest with
    | nil =>
      obtain rfl := List.mem_singleton.mp h
      exact ⟨lead, v, Or.inl rfl, by simp, Or.inl rfl⟩
    | cons w rest =>
      rw [valueLines, List.mem_cons] at h
      rcases h with rfl | h
      · exact ⟨lead, v, Or.inl rfl, by simp, Or.inr rfl⟩
      · obtain ⟨l, u, origin, hu, shape⟩ := ih h
        exact ⟨l, u, Or.inr (origin.elim id id), List.mem_cons_of_mem _ hu, shape⟩

/-- What stands before a value has no reserved character but one equals sign at most. -/
theorem plain_of_lead_or_indent (valid : s.Valid) {l : Text} (origin : l = s.lead ∨ l = s.indent) :
    (∀ c ∈ reserved, c ≠ '=' → c ∉ l) ∧ l.count '=' ≤ 1 := by
  rcases origin with rfl | rfl
  · obtain ⟨plain, _⟩ := checkKey_eq_ok.mp valid.checkKey_key
    have key : ∀ c ∈ reserved, c ∉ s.key := fun c hc mem => plain c mem hc
    have no_equals : s.key.count '=' = 0 := List.count_eq_zero.mpr (key '=' (by decide))
    refine ⟨fun c hc other mem => ?_, ?_⟩
    · rw [lead, List.mem_append] at mem
      rcases mem with mem | mem
      · exact key c hc mem
      · simp only [List.mem_cons, List.not_mem_nil, or_false] at mem
        rcases mem with rfl | rfl | rfl
        · exact absurd hc (by decide)
        · exact other rfl
        · exact absurd hc (by decide)
    · rw [lead, List.count_append, no_equals]
      decide
  · refine ⟨fun c hc _ mem => ?_, ?_⟩
    · rw [List.eq_of_mem_replicate mem] at hc
      exact absurd hc (by decide)
    · rw [indent, List.count_replicate]
      simp

theorem plain_of_mem_rawLines (valid : s.Valid) {raw : Bytes} (h : raw ∈ s.rawLines) :
    Line.IsClosed raw ∧ ¬ (textOf raw).Trap := by
  obtain ⟨t, ht, rfl⟩ := List.mem_map.mp h
  obtain ⟨l, v, origin, hv, shape⟩ := mem_valueLines ht
  have value : ∀ c ∈ reserved, c ∉ v := fun c hc mem => (valid.validValue v hv).plain c mem hc
  have before := plain_of_lead_or_indent valid origin
  have inside : ∀ c ∈ reserved, c ≠ '=' → c ∉ l ++ v := by
    intro c hc other
    rw [List.mem_append, not_or]
    exact ⟨before.1 c hc other, value c hc⟩
  have once : (l ++ v).count '=' ≤ 1 := by
    rw [List.count_append, List.count_eq_zero.mpr (value '=' (by decide))]
    exact before.2
  have no_newline : '\n' ∉ t := by
    have := inside '\n' (by decide) (by decide)
    rcases shape with rfl | rfl
    · exact this
    · simpa using this
  have no_return : '\r' ∉ t := by
    have := inside '\r' (by decide) (by decide)
    rcases shape with rfl | rfl
    · exact this
    · simpa using this
  refine ⟨isClosed_lineOf no_newline, ?_⟩
  rw [textOf_lineOf no_return]
  have no_comma := inside ',' (by decide) (by decide)
  rintro ⟨_, loose | misnamed⟩
  · rcases shape with rfl | rfl
    · exact Text.not_loose_of_not_mem no_comma loose
    · exact Text.not_loose_of_no_comma no_comma loose
  · have twice := misnamed.two_le_count
    rcases shape with rfl | rfl
    · omega
    · rw [List.count_append] at twice
      have : List.count '=' [','] = 0 := by decide
      omega

theorem names_headingLine (valid : s.Valid) :
    (Block.heading (headingLine s.sectionName) s.sectionName).Sound ∧
      Line.IsClosed (headingLine s.sectionName) := by
  have absent : ∀ c ∈ sectionReserved, c ∉ s.sectionName :=
    fun c hc mem => valid.plain_sectionName c mem hc
  have text : textOf (headingLine s.sectionName) = '[' :: (s.sectionName ++ [']']) := by
    apply textOf_lineOf
    simp [absent '\r' (by decide)]
  refine ⟨⟨?_, ?_⟩, isClosed_lineOf (by simp [absent '\n' (by decide)])⟩
  · rw [text]
    rfl
  · refine ⟨s.sectionName, ?_, absent '[' (by decide), absent ']' (by decide),
      valid.normalName_sectionName.symm⟩
    rw [text]
    apply Text.trim_eq_self
    · intro c first
      obtain rfl := Option.some.inj first
      decide
    · intro c last
      rw [← List.cons_append, List.getLast?_append] at last
      obtain rfl := Option.some.inj last
      decide

theorem textOf_lineOf_nil : textOf (lineOf []) = [] := textOf_lineOf (by simp)

theorem laid_blocks (valid : s.Valid) {inSection hasSection : Bool}
    (named : hasSection → inSection) : Laid inSection (s.blocks hasSection) := by
  cases hasSection with
  | true => exact ⟨fills_rawLines valid, named rfl, trivial⟩
  | false =>
    refine ⟨Or.inl ?_, trivial, (names_headingLine valid).1, trivial, fills_rawLines valid, rfl,
      trivial⟩
    rw [textOf_lineOf_nil]
    exact Text.blank_nil

/-- The lines of a setting are single lines and no traps. -/
theorem plain_of_mem_blocks (valid : s.Valid) {hasSection : Bool} {raw : Bytes}
    (h : raw ∈ rawsOf (s.blocks hasSection)) : Line.IsClosed raw ∧ ¬ (textOf raw).Trap := by
  have cases : (hasSection = false ∧ (raw = lineOf [] ∨ raw = headingLine s.sectionName)) ∨
      raw ∈ s.rawLines := by
    cases hasSection <;> simpa [blocks, Block.raws, or_assoc] using h
  rcases cases with ⟨_, rfl | rfl⟩ | mem
  · refine ⟨isClosed_lineOf (by simp), ?_⟩
    rw [textOf_lineOf_nil]
    exact Text.not_trap_of_plain (by simp) (by simp)
  · obtain ⟨⟨_, names⟩, closed⟩ := names_headingLine valid
    exact ⟨closed, names.not_trap⟩
  · exact plain_of_mem_rawLines valid mem

theorem namedAfterAll_blocks (s : Setting) {inSection hasSection : Bool}
    (named : hasSection → inSection) : namedAfterAll inSection (s.blocks hasSection) = true := by
  cases hasSection with
  | true => exact named rfl
  | false => rfl

theorem itemsOf_blocks (s : Setting) (hasSection : Bool) :
    itemsOf (s.blocks hasSection) =
      (if hasSection then [] else [.heading s.sectionName]) ++ [.entry s.key s.values] := by
  cases hasSection <;> rfl

end Valid

end Setting

end Keyfile
