import Keyfile.Proofs.UntouchedLines

namespace Keyfile

/-- The line says nothing, be it inside values or not. -/
def Skipped (raw : Bytes) : Prop := textOf raw = [] ∨ (textOf raw).Comment

namespace Line

/-- The lines say the same, at the same number. -/
structure Alike (l l' : Line) : Prop where
  number : l.number = l'.number
  text : l.text = l'.text

theorem alike_numberFrom_map {f : Bytes → Bytes} (same : ∀ raw, textOf (f raw) = textOf raw)
    (n : Nat) (raws : List Bytes) :
    List.Forall₂ Alike (numberFrom n (raws.map f)) (numberFrom n raws) := by
  induction raws generalizing n with
  | nil => exact .nil
  | cons raw raws ih => exact .cons ⟨rfl, same raw⟩ (ih (n + 1))

end Line

namespace Search

def seen? (s : Search) : Option Sighting := s.here?.or s.earlier?

theorem slot_of_not_seen {s : Search} (seen : s.seen? = none) :
    s.slot = ⟨s.count, s.count + 1, false, false⟩ := by
  rw [slot, show s.here?.or s.earlier? = none from seen]

theorem slot_of_span {s : Search} {o : Sighting} {first last : Nat} (seen : s.seen? = some o)
    (span : o.span? = some (first, last)) : s.slot = ⟨first - 1, last + 1, true, true⟩ := by
  obtain ⟨tail, span?⟩ := o
  obtain rfl : span? = some (first, last) := span
  rw [slot, show s.here?.or s.earlier? = some ⟨tail, some (first, last)⟩ from seen]

theorem slot_of_no_span {s : Search} {o : Sighting} (seen : s.seen? = some o)
    (span : o.span? = none) : s.slot = ⟨o.tail, o.tail + 1, true, false⟩ := by
  obtain ⟨tail, span?⟩ := o
  obtain rfl : span? = none := span
  rw [slot, show s.here?.or s.earlier? = some ⟨tail, none⟩ from seen]

def after (sectionName key : Text) (raws : List Bytes) : Search :=
  (Line.numberFrom 1 raws).foldl (step sectionName key) start

/-- What a line can be to a search: passed over, a further line of values, a heading, or the first
line of an entry. -/
inductive Takes (s : Search) (line : Line) : Search → Prop
  | passed : s.within? = none ∨ Skipped line.raw → Takes s line { s with count := line.number }
  | values {ofKey : Bool} : s.within? = some ofKey →
      Takes s line { s with
        count := line.number
        here? := s.here?.map (·.extend line.number ofKey)
        within? := withinAfter line ofKey }
  | heading {here? : Option Sighting} : s.within? = none →
      (here? = none ∨ here? = some ⟨line.number, none⟩) →
      Takes s line { s with count := line.number, here? := here?, earlier? := s.seen? }
  | entry {o : Sighting} {ofKey : Bool} : s.within? = none → s.here? = some o →
      Takes s line { s with
        count := line.number
        here? := some (o.follow line.number ofKey)
        within? := withinAfter line ofKey }

section

variable (sectionName key : Text)

theorem takes_step (s : Search) (line : Line) : s.Takes line (s.step sectionName key line) := by
  obtain ⟨count, here?, earlier?, within?⟩ := s
  cases within? with
  | some ofKey =>
    simp only [step, continueValues]
    split
    next quiet =>
      have skipped : Skipped line.raw := by
        simpa [Line.isEmpty_eq, Line.isComment_eq, ← text_eq_textOf, Skipped] using quiet
      exact .passed (Or.inr skipped)
    next => exact .values rfl
  | none =>
    simp only [step, takeLine]
    split
    next => exact .passed (Or.inl rfl)
    next =>
      split
      next =>
        refine .heading rfl ?_
        split
        · exact Or.inr rfl
        · exact Or.inl rfl
      next =>
        split
        next => exact .passed (Or.inl rfl)
        next => exact .entry rfl rfl

theorem after_append (xs ys : List Bytes) :
    after sectionName key (xs ++ ys) =
      (Line.numberFrom (xs.length + 1) ys).foldl (step sectionName key)
        (after sectionName key xs) := by
  rw [after, Line.numberFrom_append, List.foldl_append, Nat.add_comm 1]
  rfl

theorem after_concat (xs : List Bytes) (raw : Bytes) :
    after sectionName key (xs ++ [raw]) =
      (after sectionName key xs).step sectionName key ⟨xs.length + 1, raw⟩ :=
  after_append ..

theorem count_after (raws : List Bytes) : (after sectionName key raws).count = raws.length :=
  (among_start.foldl_step sectionName key raws).2.trans (Nat.zero_add _)

theorem step_congr (s : Search) {line line' : Line} (alike : line.Alike line') :
    s.step sectionName key line = s.step sectionName key line' := by
  simp only [step, continueValues, takeLine, withinAfter, Line.isEmpty, Line.isComment,
    Line.isContent, Line.isBlank, Line.opensBracket, Line.sectionName?, alike.number, alike.text]
  rfl

/-- Only what the lines say decides how a search goes. -/
theorem foldl_step_congr (s : Search) {lines lines' : List Line}
    (alike : List.Forall₂ Line.Alike lines lines') :
    lines.foldl (step sectionName key) s = lines'.foldl (step sectionName key) s := by
  induction alike generalizing s with
  | nil => rfl
  | cons same _ ih => rw [List.foldl_cons, step_congr _ _ s same, ih, List.foldl_cons]

theorem after_map {f : Bytes → Bytes} (same : ∀ raw, textOf (f raw) = textOf raw)
    (raws : List Bytes) : after sectionName key (raws.map f) = after sectionName key raws :=
  foldl_step_congr _ _ _ (Line.alike_numberFrom_map same 1 raws)

theorem after_append_skipped (xs : List Bytes) {ys : List Bytes}
    (skipped : ∀ raw ∈ ys, Skipped raw) :
    after sectionName key (xs ++ ys) =
      { after sectionName key xs with count := (xs ++ ys).length } := by
  induction ys using List.reverseRecOn with
  | nil => rw [List.append_nil, ← count_after sectionName key xs]
  | append_singleton ys raw ih =>
    have last := step_skip sectionName key (s := after sectionName key (xs ++ ys))
      ⟨(xs ++ ys).length + 1, raw⟩ (skipped raw (by simp))
    rw [← List.append_assoc, after_concat, last, ih fun r hr => skipped r (by simp [hr])]
    simp [Nat.add_assoc]

theorem isSome_here?_of_within? (raws : List Bytes)
    (within : (after sectionName key raws).within?.isSome) :
    (after sectionName key raws).here?.isSome := by
  induction raws using List.reverseRecOn with
  | nil => cases within
  | append_singleton raws raw ih =>
    rw [after_concat] at within ⊢
    have takes := takes_step sectionName key (after sectionName key raws) ⟨raws.length + 1, raw⟩
    generalize (after sectionName key raws).step sectionName key ⟨raws.length + 1, raw⟩ = s' at *
    cases takes with
    | passed => exact ih within
    | values inside => simpa using ih (by rw [inside]; rfl)
    | heading outside => rw [outside] at within; cases within
    | entry => rfl

end

/-- Lines that a search takes for those of a setting, or a place without lines: they stand where a
line of the section is expected, and so do the lines behind them, unless these say nothing. -/
structure Stand (sectionName key : Text) (xs run ys : List Bytes) : Prop where
  before : (after sectionName key xs).within? = none
  opened : (after sectionName key xs).here?.isSome
  inside : (after sectionName key (xs ++ run)).here?.isSome
  ends : (after sectionName key (xs ++ run)).within? = none ∨
    (after sectionName key (xs ++ run)).within? = some true ∧ ∀ raw ∈ ys, Skipped raw

section

variable {sectionName key : Text} {xs run ys : List Bytes}

/-- Unless the values of the key go on, a further line changes nothing. -/
theorem Stand.concat (h : Stand sectionName key xs run ys) {raw : Bytes}
    (apart : (after sectionName key (xs ++ (run ++ ys))).within? ≠ some true ∨ Skipped raw) :
    Stand sectionName key xs run (ys ++ [raw]) := by
  refine ⟨h.before, h.opened, h.inside, ?_⟩
  rcases h.ends with outside | ⟨within, skipped⟩
  · exact Or.inl outside
  · rcases apart with other | quiet
    · rw [← List.append_assoc, after_append_skipped _ _ _ skipped] at other
      exact absurd within other
    · refine Or.inr ⟨within, fun r mem => ?_⟩
      rcases List.mem_append.mp mem with mem | mem
      · exact skipped r mem
      · exact List.mem_singleton.mp mem ▸ quiet

/-- Lines of the key stand at the end of all lines. -/
theorem Stand.of_end (before : (after sectionName key xs).within? = none)
    (opened : (after sectionName key xs).here?.isSome)
    (inside : (after sectionName key (xs ++ run)).here?.isSome) {line : Line}
    (ends : (after sectionName key (xs ++ run)).within? = withinAfter line true) :
    Stand sectionName key xs run [] := by
  refine ⟨before, opened, inside, ?_⟩
  rw [ends, withinAfter]
  split
  · exact Or.inr ⟨rfl, by simp⟩
  · exact Or.inl rfl

/-- The lines of a key that was seen. -/
theorem exists_stand_of_span {raws : List Bytes} {o : Sighting} {first last : Nat}
    (seen : (after sectionName key raws).seen? = some o) (span : o.span? = some (first, last)) :
    ∃ xs run ys, raws = xs ++ (run ++ ys) ∧ first = xs.length + 1 ∧
      last = xs.length + run.length ∧ Stand sectionName key xs run ys := by
  induction raws using List.reverseRecOn generalizing o last with
  | nil => cases seen
  | append_singleton raws raw ih =>
    rw [after_concat] at seen
    have takes := takes_step sectionName key (after sectionName key raws) ⟨raws.length + 1, raw⟩
    generalize next : (after sectionName key raws).step sectionName key ⟨raws.length + 1, raw⟩ = s'
      at seen takes
    have kept {o : Sighting} (seen : (after sectionName key raws).seen? = some o)
        (span : o.span? = some (first, last))
        (apart : (after sectionName key raws).within? ≠ some true ∨ Skipped raw) :
        ∃ xs run ys, raws ++ [raw] = xs ++ (run ++ ys) ∧ first = xs.length + 1 ∧
          last = xs.length + run.length ∧ Stand sectionName key xs run ys := by
      obtain ⟨xs, run, ys, rfl, at_first, at_last, stand⟩ := ih seen span
      exact ⟨xs, run, ys ++ [raw], by simp, at_first, at_last, stand.concat apart⟩
    cases takes with
    | passed quiet => exact kept seen span (quiet.imp_left fun outside => by simp [outside])
    | @values ofKey within =>
      have opened := isSome_here?_of_within? sectionName key raws (by simp [within])
      obtain ⟨o', here⟩ := Option.isSome_iff_exists.mp opened
      have seen' : (after sectionName key raws).seen? = some o' := by rw [seen?, here]; rfl
      rw [seen?, here] at seen
      obtain rfl := Option.some.inj seen
      cases ofKey with
      | false => exact kept seen' span (Or.inl (by simp [within]))
      | true =>
        obtain ⟨⟨a, b⟩, span', same⟩ := Option.map_eq_some_iff.mp span
        obtain ⟨rfl, rfl⟩ := Prod.mk.inj same
        obtain ⟨xs, run, ys, rfl, rfl, _, stand⟩ := ih seen' span'
        have whole := (after_concat ..).trans next
        rw [List.append_assoc] at whole
        refine ⟨xs, run ++ ys ++ [raw], [], by simp, rfl, by simp [Nat.add_assoc], ?_⟩
        exact .of_end stand.before stand.opened (by rw [whole, here]; rfl) (by rw [whole])
    | @heading here? outside headed =>
      rcases headed with rfl | rfl
      · exact kept seen span (Or.inl (by simp [outside]))
      · obtain rfl := Option.some.inj seen
        cases span
    | @entry o' ofKey outside here =>
      have seen' : (after sectionName key raws).seen? = some o' := by rw [seen?, here]; rfl
      obtain rfl := Option.some.inj seen
      cases ofKey with
      | false => exact kept seen' span (Or.inl (by simp [outside]))
      | true =>
        obtain ⟨rfl, rfl⟩ := Prod.mk.inj (Option.some.inj span)
        have whole := (after_concat ..).trans next
        refine ⟨raws, [raw], [], by simp, rfl, rfl, ?_⟩
        exact .of_end outside (by simp [here]) (by simp [whole]) (by rw [whole])

theorem exists_tail {raws : List Bytes} {o : Sighting}
    (seen : (after sectionName key raws).seen? = some o) :
    ∃ xs ys, raws = xs ++ ys ∧ o.tail = xs.length ∧ (after sectionName key xs).here?.isSome ∧
      ((after sectionName key xs).within? = none ∨
        ∃ init raw, xs = init ++ [raw] ∧ endsInComma (textOf raw)) := by
  induction raws using List.reverseRecOn generalizing o with
  | nil => cases seen
  | append_singleton raws raw ih =>
    rw [after_concat] at seen
    have takes := takes_step sectionName key (after sectionName key raws) ⟨raws.length + 1, raw⟩
    generalize next : (after sectionName key raws).step sectionName key ⟨raws.length + 1, raw⟩ = s'
      at seen takes
    have whole := (after_concat ..).trans next
    have kept {o : Sighting} (seen : (after sectionName key raws).seen? = some o) :
        ∃ xs ys, raws ++ [raw] = xs ++ ys ∧ o.tail = xs.length ∧
          (after sectionName key xs).here?.isSome ∧ ((after sectionName key xs).within? = none ∨
            ∃ init raw, xs = init ++ [raw] ∧ endsInComma (textOf raw)) := by
      obtain ⟨xs, ys, rfl, tail⟩ := ih seen
      exact ⟨xs, ys ++ [raw], List.append_assoc .., tail⟩
    have ends (ofKey : Bool) : withinAfter ⟨raws.length + 1, raw⟩ ofKey = none ∨
        ∃ init raw', raws ++ [raw] = init ++ [raw'] ∧ endsInComma (textOf raw') := by
      rw [withinAfter, text_eq_textOf]
      split
      next comma => exact Or.inr ⟨raws, raw, rfl, comma⟩
      next => exact Or.inl rfl
    cases takes with
    | passed => exact kept seen
    | @values ofKey within =>
      have opened := isSome_here?_of_within? sectionName key raws (by simp [within])
      obtain ⟨o', here⟩ := Option.isSome_iff_exists.mp opened
      rw [seen?, here] at seen
      obtain rfl := Option.some.inj seen
      refine ⟨raws ++ [raw], [], by simp, by simp [Sighting.extend], ?_, ?_⟩
      · rw [whole, here]
        rfl
      · rw [whole]
        exact ends ofKey
    | @heading here? outside headed =>
      rcases headed with rfl | rfl
      · exact kept seen
      · obtain rfl := Option.some.inj seen
        refine ⟨raws ++ [raw], [], by simp, by simp, by rw [whole]; rfl, Or.inl ?_⟩
        rw [whole]
        exact outside
    | @entry o' ofKey outside here =>
      obtain rfl := Option.some.inj seen
      refine ⟨raws ++ [raw], [], by simp, by simp [Sighting.follow], by rw [whole]; rfl, ?_⟩
      rw [whole]
      exact ends ofKey

end

end Search

end Keyfile
