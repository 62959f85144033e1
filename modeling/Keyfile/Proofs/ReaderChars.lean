import Keyfile.Proofs.CleanText
import Keyfile.Reader

namespace Keyfile

namespace Reader

open Text

structure Resting (r : Reader) : Prop where
  escaping : r.escaping = false
  afterComma : r.afterComma = false
  buffer : r.buffer = []
  values : r.key? = none → r.values = []

def open? (r : Reader) : Option Pending := r.key?.map fun key => ⟨key, r.values⟩

/-- The reader with a part of a key or value in its buffer. -/
def hold (r : Reader) (p : Text) : Reader :=
  { r with
    buffer := (p.dropWhile isGap).reverse
    escaping := p.Escapes
    afterComma := r.afterComma && p.all isGap }

theorem hold_nil {r : Reader} (buffer : r.buffer = []) (escaping : r.escaping = false) :
    r.hold [] = r := by
  cases r
  simp_all [hold]

theorem push_hold {r : Reader} {number : Nat} {p : Text} {c : Char}
    (h : EndsPiece c → p.Escapes) : (r.hold p).push number c = .ok (r.hold (p ++ [c])) := by
  by_cases escapes : p.Escapes
  · have some_text := escapes.not_all_gap
    have longer : ¬ (p ++ [c]).all isGap := by
      simp only [List.all_append, Bool.and_eq_true, not_and]
      exact fun all => absurd all some_text
    simp [push, hold, escapes, some_text, longer, dropWhile_gap_concat longer, escapes_concat]
  · have no_bracket : ¬ EndsPiece c := fun ends => escapes (h ends)
    have not_equals : c ≠ '=' := fun same => no_bracket (Or.inr (Or.inl same))
    have not_comma : c ≠ ',' := fun same => no_bracket (Or.inr (Or.inr same))
    by_cases gaps : (p ++ [c]).all isGap
    · obtain ⟨all, gap⟩ : p.all isGap ∧ isGap c := by simpa using gaps
      have empty : p.dropWhile isGap = [] := all_gap_of_dropWhile_eq_nil.mpr all
      have empty' : (p ++ [c]).dropWhile isGap = [] := all_gap_of_dropWhile_eq_nil.mpr gaps
      have c_gap : c = ' ' ∨ c = '\t' := by simpa [isGap] using gap
      have not_backslash : c ≠ '\\' := by rcases c_gap with rfl | rfl <;> decide
      simp [push, hold, escapes, not_equals, not_comma, empty, empty', all, gap, c_gap,
        escapes_concat, not_backslash]
    · have kept : ¬ ((c = ' ' ∨ c = '\t') ∧ p.dropWhile isGap = []) := by
        rintro ⟨gap, all⟩
        apply gaps
        simp [isGap, gap, all_gap_of_dropWhile_eq_nil.mp all]
      have not_all : (p.all isGap && isGap c) = false := by simpa using gaps
      have not_skipped :
          ((decide (c = ' ') || decide (c = '\t')) && (r.hold p).buffer.isEmpty) = false := by
        rw [Bool.eq_false_iff]
        simpa [hold] using kept
      have longer : (p ++ [c]).all isGap = false := by simpa using gaps
      simp only [push, not_skipped, not_equals, not_comma, if_false]
      simp [hold, escapes, longer, dropWhile_gap_concat gaps, escapes_concat]

theorem readChars_append {r : Reader} {line : Line} {p : Text} (rest : Text)
    (buffer : r.buffer = []) (escaping : r.escaping = false) (clean : p.Clean) :
    readChars line r (p ++ rest) = readChars line (r.hold p) rest := by
  induction p using List.reverseRecOn generalizing rest with
  | nil => rw [hold_nil buffer escaping, List.nil_append]
  | append_singleton p c ih =>
    obtain ⟨clean, escapes⟩ := clean_concat.mp clean
    rw [List.append_assoc, ih _ clean, List.singleton_append, readChars, push_hold escapes]
    have not_opening : (c = '[' && !(r.hold p).escaping) = false := by
      by_cases bracket : c = '['
      · simp [hold, escapes (Or.inl bracket)]
      · simp [bracket]
    simp [not_opening]

/-- The reader at the end of a line of values that leaves no key open or the same one. -/
def finish (r : Reader) (number : Nat) (key : Text) (pieces : List Text) (last : Text) :
    Reader × Option Item :=
  if (r.afterComma ∨ pieces ≠ []) ∧ last.all isGap then
    (⟨r.inSection, some key, false, false, [], r.values ++ pieces.map trim,
      if pieces = [] then r.last else number⟩, none)
  else
    (⟨r.inSection, none, false, false, [], [], number⟩,
      some (.entry key (r.values ++ pieces.map trim ++ [last.trim])))

theorem closeLine_hold {r : Reader} {number : Nat} {key p : Text} (opened : r.key? = some key) :
    (r.hold p).closeLine number =
      if p.Escapes then .error number else .ok (r.finish number key [] p) := by
  by_cases escapes : p.Escapes
  · simp [closeLine, hold, opened, escapes]
  · by_cases goes_on : r.afterComma ∧ p.all isGap
    · have empty : p.dropWhile isGap = [] := all_gap_of_dropWhile_eq_nil.mpr goes_on.2
      simp [closeLine, hold, finish, opened, escapes, goes_on.1, goes_on.2, empty]
    · have ends : (r.afterComma && p.all isGap) = false := by simpa using goes_on
      simp only [closeLine, hold, opened, escapes, ends, finish, piece, List.reverse_reverse,
        trim_dropWhile_gap]
      simp only [ne_eq, not_true_eq_false, or_false, goes_on]
      simp

theorem readChars_comma {r : Reader} {line : Line} {key p q : Text} (opened : r.key? = some key)
    (even : ¬ p.Escapes) :
    readChars line (r.hold p) (',' :: q) =
      readChars line ⟨r.inSection, some key, true, false, [], r.values ++ [p.trim], line.number⟩ q := by
  simp [readChars, push, hold, even, opened, piece, trim_dropWhile_gap]

/-- A line of values, from a place where a value starts. -/
theorem readChars_values {r r' : Reader} {line : Line} {key t : Text} {item? : Option Item}
    (opened : r.key? = some key) (buffer : r.buffer = []) (escaping : r.escaping = false) :
    readChars line r t = .ok (r', item?) ↔
      ¬ t.Escapes ∧ ¬ t.HasBare '[' ∧ ¬ t.HasBare '=' ∧
        ∃ pieces last, t.Cuts pieces last ∧
          r.finish line.number key pieces last = (r', item?) := by
  induction t using inductionOnPieces generalizing r with
  | last p clean =>
    rw [← List.append_nil p, readChars_append [] buffer escaping clean, readChars,
      closeLine_hold opened, List.append_nil]
    by_cases escapes : p.Escapes
    · simp [escapes]
    · simp [escapes, clean.bracket, clean.equals, cuts_iff_of_not_hasBare clean.comma]
  | next p c q clean even ends ih =>
    rw [readChars_append _ buffer escaping clean]
    rcases ends with rfl | rfl | rfl
    · have bare : HasBare '[' (p ++ '[' :: q) := hasBare_append_cons_self even q
      simp [readChars, openSection, hold, even, opened, bare]
    · have bare : HasBare '=' (p ++ '=' :: q) := hasBare_append_cons_self even q
      simp [readChars, push, hold, even, opened, bare]
    · rw [readChars_comma opened even, ih rfl rfl rfl, escapes_append_cons (by decide),
        hasBare_append_cons (by decide) (by decide), hasBare_append_cons (by decide) (by decide)]
      simp only [clean.bracket, clean.equals, false_or]
      refine and_congr_right fun _ => and_congr_right fun _ => and_congr_right fun _ => ?_
      constructor
      · rintro ⟨pieces, last, cuts, finished⟩
        refine ⟨p :: pieces, last, .next clean.comma even cuts, ?_⟩
        rw [← finished]
        simp [finish]
      · rintro ⟨pieces, last, cuts, finished⟩
        obtain ⟨rest, rfl, later⟩ := (cuts_append_iff clean.comma even).mp cuts
        refine ⟨rest, last, later, ?_⟩
        rw [← finished]
        simp [finish]

def openKey (r : Reader) (number : Nat) (left : Text) : Reader :=
  ⟨r.inSection, some (normalName left), false, false, [], r.values, number⟩

theorem readChars_equals {r : Reader} {line : Line} {p q : Text} (closed : r.key? = none)
    (afterComma : r.afterComma = false) (even : ¬ p.Escapes) :
    readChars line (r.hold p) ('=' :: q) =
      if r.inSection then readChars line (r.openKey line.number p) q else .error line.number := by
  by_cases h : r.inSection
  · have name : normalName (p.dropWhile isGap) = normalName p := by
      rw [normalName, trim_dropWhile_gap, normalName]
    simp [readChars, push, hold, openKey, even, closed, afterComma, h, name]
  · simp [readChars, push, hold, even, closed, h]

theorem openSection_hold {r : Reader} {line : Line} {p : Text} (closed : r.key? = none) :
    (r.hold p).openSection line =
      if p.all isGap then
        match line.sectionName? with
        | none => .error line.number
        | some name =>
          .ok ({ r.hold p with inSection := true, last := line.number }, some (.heading name))
      else .error line.number := by
  by_cases all : p.all isGap
  · have empty : p.dropWhile isGap = [] := all_gap_of_dropWhile_eq_nil.mpr all
    simp only [openSection, hold, closed, all, empty]
    rfl
  · have full : (p.dropWhile isGap).reverse.isEmpty = false := by simpa using all
    simp only [openSection, hold, closed, all, full]
    rfl

theorem readChars_closed {r r' : Reader} {line : Line} {t : Text} {item? : Option Item}
    (closed : r.key? = none) (afterComma : r.afterComma = false) (buffer : r.buffer = [])
    (escaping : r.escaping = false) :
    readChars line r t = .ok (r', item?) ↔
      (t.StartsBracket ∧ ∃ name, line.sectionName? = some name ∧
        ({ r with inSection := true, last := line.number }, some (Item.heading name)) =
          (r', item?)) ∨
      (¬ t.StartsBracket ∧ r.inSection ∧ ¬ t.Escapes ∧ ¬ t.HasBare '[' ∧
        ∃ left right, t.Assigns left right ∧
          ∃ pieces last, right.Cuts pieces last ∧
            (r.openKey line.number left).finish line.number (normalName left) pieces last =
              (r', item?)) := by
  rcases clean_or_split t with clean | ⟨p, c, q, rfl, clean, even, ends⟩
  · rw [← List.append_nil t, readChars_append [] buffer escaping clean, List.append_nil]
    have no_heading : ¬ t.StartsBracket := fun starts => clean.bracket starts.hasBare
    have no_entry : ∀ left right, ¬ t.Assigns left right := fun left right h => clean.equals h.hasBare
    simp [readChars, closeLine, hold, closed, no_heading, no_entry]
  · rw [readChars_append _ buffer escaping clean, startsBracket_iff_of_clean clean even ends]
    rcases ends with rfl | rfl | rfl
    · have bare : HasBare '[' (p ++ '[' :: q) := hasBare_append_cons_self even q
      have opening : readChars line (r.hold p) ('[' :: q) = (r.hold p).openSection line := by
        simp [readChars, hold, even]
      rw [opening, openSection_hold closed]
      by_cases all : p.all isGap
      · have same : { r.hold p with inSection := true, last := line.number } =
            { r with inSection := true, last := line.number } := by
          have empty : p.dropWhile isGap = [] := all_gap_of_dropWhile_eq_nil.mpr all
          simp [hold, empty, buffer, even, escaping, afterComma]
        rw [same]
        cases line.sectionName? <;> simp [all, bare]
      · simp [all, bare]
    · rw [readChars_equals closed afterComma even]
      by_cases named : r.inSection
      · rw [if_pos named, readChars_values rfl rfl rfl, escapes_append_cons (by decide),
          hasBare_append_cons (by decide) (by decide)]
        constructor
        · rintro ⟨even', bracket, equals, cuts⟩
          have assigns : Assigns (p ++ '=' :: q) p q :=
            ⟨rfl, even, clean.equals, equals, clean.comma⟩
          refine Or.inr ⟨fun h => absurd h.2 (by decide), named, even', ?_, p, q, assigns, cuts⟩
          simp [clean.bracket, bracket]
        · rintro (⟨⟨_, wrong⟩, _⟩ | ⟨_, _, even', bracket, left, right, assigns, cuts⟩)
          · simp at wrong
          · obtain ⟨rfl, rfl⟩ := append_cons_inj_of_not_hasBare assigns.split clean.equals even
              assigns.once assigns.even
            exact ⟨even', fun h => bracket (Or.inr h), assigns.rest, cuts⟩
      · simp [named]
    · have stuck : readChars line (r.hold p) (',' :: q) = .error line.number := by
        simp [readChars, push, hold, even, closed]
      rw [stuck]
      constructor
      · simp
      · rintro (⟨⟨_, wrong⟩, _⟩ | ⟨_, _, _, bracket, left, right, assigns, _⟩)
        · simp at wrong
        · obtain ⟨_, wrong, _⟩ := clean.split_unique assigns.split even (Or.inr (Or.inr rfl))
            (assigns.clean bracket) assigns.even (Or.inr (Or.inl rfl))
          simp at wrong

end Reader

end Keyfile
