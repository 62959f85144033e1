import Keyfile.Proofs.SearchTrace

namespace Keyfile

namespace Sighting

/-- The section said something behind so many lines, and the key, if it was seen, was seen there. -/
structure Later (o : Sighting) (bound : Nat) : Prop where
  tail : bound < o.tail
  span : ∀ first last, o.span? = some (first, last) → bound < last

/-- Where one search sees nothing later, the other one sees given lines. -/
def Echoes (span : Nat × Nat) (bound : Nat) (o o' : Sighting) : Prop :=
  o'.span? = some span ∨ o.Later bound

variable {span : Nat × Nat} {bound number : Nat} {o o' : Sighting}

theorem Echoes.move (h : Echoes span bound o o') (behind : bound < number)
    {span? : Option (Nat × Nat)} (later : ∀ first last, span? = some (first, last) → bound < last)
    (number' : Nat) (span'? : Option (Nat × Nat)) (ofKey : Bool) :
    Echoes span bound ⟨number, if ofKey then span? else o.span?⟩
      ⟨number', if ofKey then span'? else o'.span?⟩ := by
  cases ofKey with
  | true => exact Or.inr ⟨behind, later⟩
  | false => exact h.imp id fun fresh => ⟨behind, fresh.span⟩

theorem Echoes.extend (h : Echoes span bound o o') (behind : bound < number) (number' : Nat)
    (ofKey : Bool) : Echoes span bound (o.extend number ofKey) (o'.extend number' ofKey) := by
  refine h.move behind (fun first last map => ?_) number' _ ofKey
  obtain ⟨_, _, same⟩ := Option.map_eq_some_iff.mp map
  exact (Prod.mk.inj same).2 ▸ behind

theorem Echoes.follow (h : Echoes span bound o o') (behind : bound < number) (number' : Nat)
    (ofKey : Bool) : Echoes span bound (o.follow number ofKey) (o'.follow number' ofKey) := by
  refine h.move behind (fun first last own => ?_) number' _ ofKey
  exact (Prod.mk.inj (Option.some.inj own)).2 ▸ behind

end Sighting

namespace Search

/-- Two searches that go the same way from here on. -/
structure Alike (span : Nat × Nat) (bound : Nat) (s s' : Search) : Prop where
  within : s'.within? = s.within?
  here : s'.here?.isSome = s.here?.isSome
  seen : ∃ o o', s.seen? = some o ∧ s'.seen? = some o' ∧ o.Echoes span bound o'

section

variable {sectionName key : Text} {span : Nat × Nat} {bound : Nat} {s s' : Search}

theorem Alike.cases (h : Alike span bound s s') :
    (s.here? = none ∧ s'.here? = none) ∨
      ∃ o o', s.here? = some o ∧ s'.here? = some o' ∧ o.Echoes span bound o' := by
  have here := h.here
  obtain ⟨a, a', seen, seen', echoes⟩ := h.seen
  cases first : s.here? with
  | none =>
    cases second : s'.here? with
    | none => exact Or.inl ⟨rfl, rfl⟩
    | some o' => simp [first, second] at here
  | some o =>
    cases second : s'.here? with
    | none => simp [first, second] at here
    | some o' =>
      rw [seen?, first] at seen
      rw [seen?, second] at seen'
      obtain rfl := Option.some.inj seen
      obtain rfl := Option.some.inj seen'
      exact Or.inr ⟨_, _, rfl, rfl, echoes⟩

theorem Alike.step (h : Alike span bound s s') (raw : Bytes) {n : Nat} (n' : Nat)
    (behind : bound < n) :
    Alike span bound (s.step sectionName key ⟨n, raw⟩) (s'.step sectionName key ⟨n', raw⟩) := by
  have cases := h.cases
  obtain ⟨count, here?, earlier?, within?⟩ := s
  obtain ⟨count', here'?, earlier'?, within'?⟩ := s'
  obtain ⟨rfl : within'? = within?, here, seen⟩ := h
  have empty : (Line.mk n' raw).isEmpty = (Line.mk n raw).isEmpty := rfl
  have comment : (Line.mk n' raw).isComment = (Line.mk n raw).isComment := rfl
  have content : (Line.mk n' raw).isContent = (Line.mk n raw).isContent := rfl
  have bracket : (Line.mk n' raw).opensBracket = (Line.mk n raw).opensBracket := rfl
  have named : (Line.mk n' raw).sectionName? = (Line.mk n raw).sectionName? := rfl
  have text : (Line.mk n' raw).text = (Line.mk n raw).text := rfl
  cases within'? with
  | some ofKey =>
    simp only [Search.step, continueValues, empty, comment]
    split
    next => exact ⟨rfl, here, seen⟩
    next =>
      rcases cases with ⟨rfl, rfl⟩ | ⟨o, o', rfl, rfl, echoes⟩
      · exact ⟨rfl, rfl, seen⟩
      · exact ⟨rfl, rfl, _, _, rfl, rfl, echoes.extend behind n' ofKey⟩
  | none =>
    simp only [Search.step, takeLine, content, bracket, named, text]
    split
    next => exact ⟨rfl, here, seen⟩
    next =>
      split
      next =>
        split
        next => exact ⟨rfl, rfl, _, _, rfl, rfl, Or.inr ⟨behind, by simp⟩⟩
        next => exact ⟨rfl, rfl, seen⟩
      next =>
        rcases cases with ⟨rfl, rfl⟩ | ⟨o, o', rfl, rfl, echoes⟩
        · exact ⟨rfl, rfl, seen⟩
        · exact ⟨rfl, rfl, _, _, rfl, rfl, echoes.follow behind n' _⟩

theorem Alike.foldl_step (h : Alike span bound s s') (raws : List Bytes) {n : Nat} (n' : Nat)
    (behind : bound < n) :
    Alike span bound ((Line.numberFrom n raws).foldl (Search.step sectionName key) s)
      ((Line.numberFrom n' raws).foldl (Search.step sectionName key) s') := by
  induction raws generalizing s s' n n' with
  | nil => exact h
  | cons raw raws ih => exact ih (h.step raw n' behind) (n' + 1) (Nat.lt_succ_of_lt behind)

end

theorem exists_stand {sectionName key : Text} {raws : List Bytes} {o : Sighting}
    (seen : (after sectionName key raws).seen? = some o)
    (settled : o.span?.isSome ∨ ∀ line ∈ Line.numberFrom 1 raws, line.number = o.tail →
      endsInComma line.text = false) :
    ∃ xs run ys, raws = xs ++ (run ++ ys) ∧
      (after sectionName key raws).slot =
        ⟨xs.length, xs.length + run.length + 1, true, o.span?.isSome⟩ ∧
      ¬ o.Later (xs.length + run.length) ∧ Stand sectionName key xs run ys := by
  cases span : o.span? with
  | some s =>
    obtain ⟨first, last⟩ := s
    obtain ⟨xs, run, ys, split, rfl, rfl, stand⟩ := exists_stand_of_span seen span
    refine ⟨xs, run, ys, split, slot_of_span seen span, fun later => ?_, stand⟩
    exact Nat.lt_irrefl _ (later.span _ _ span)
  | none =>
    obtain ⟨xs, ys, rfl, tail, opened, ends⟩ := exists_tail seen
    have outside : (after sectionName key xs).within? = none := by
      rcases ends with outside | ⟨init, raw, rfl, comma⟩
      · exact outside
      · have plain := settled.resolve_left (by simp [span]) ⟨init.length + 1, raw⟩
          (by simp [Line.numberFrom_append, Line.numberFrom, Nat.add_comm]) (by simp [tail])
        rw [text_eq_textOf, comma] at plain
        cases plain
    refine ⟨xs, [], ys, rfl, ?_, fun later => ?_, outside, opened, by rwa [List.append_nil], ?_⟩
    · rw [slot_of_no_span seen span, tail]
      rfl
    · exact Nat.lt_irrefl _ (tail ▸ later.tail)
    · exact Or.inl (by rwa [List.append_nil])

/-- The search after the lines of a setting that were written where a line of its section is
expected. -/
theorem Stand.after_written {s : Setting} {xs run ys : List Bytes}
    (stand : Stand s.sectionName s.key xs run ys) (valid : s.Valid) :
    after s.sectionName s.key (xs.map Line.closeRaw ++ s.rawLines) =
      { after s.sectionName s.key xs with
        count := xs.length + s.rawLines.length
        here? := some ⟨xs.length + s.rawLines.length,
          some (xs.length + 1, xs.length + s.rawLines.length)⟩ } := by
  obtain ⟨o, here⟩ := Option.isSome_iff_exists.mp stand.opened
  have written := foldl_step_entry s.sectionName s.key (Setting.fills_rawLines valid) stand.before
    here (fun raw mem => (Setting.plain_of_mem_rawLines valid mem).2) valid.checkKey_key
  rw [count_after, if_pos rfl] at written
  rw [after_append, after_map _ _ textOf_closeRaw, List.length_map, written]

/-- The lines of a setting are found where they were written. -/
theorem Stand.slot_eq {s : Setting} {xs run ys : List Bytes} {o : Sighting}
    (stand : Stand s.sectionName s.key xs run ys) (valid : s.Valid)
    (seen : (after s.sectionName s.key (xs ++ (run ++ ys))).seen? = some o)
    (settled : ¬ o.Later (xs.length + run.length)) :
    (after s.sectionName s.key (xs.map Line.closeRaw ++ (s.rawLines ++ ys))).slot =
      ⟨xs.length, xs.length + s.rawLines.length + 1, true, true⟩ := by
  have written := stand.after_written valid
  have found : ∃ o', (after s.sectionName s.key
      (xs.map Line.closeRaw ++ s.rawLines ++ ys)).seen? = some o' ∧
        o'.span? = some (xs.length + 1, xs.length + s.rawLines.length) := by
    rcases stand.ends with outside | ⟨_, skipped⟩
    · obtain ⟨a, here⟩ := Option.isSome_iff_exists.mp stand.inside
      have alike : Alike (xs.length + 1, xs.length + s.rawLines.length) (xs.length + run.length)
          (after s.sectionName s.key (xs ++ run))
          (after s.sectionName s.key (xs.map Line.closeRaw ++ s.rawLines)) := by
        rw [written]
        refine ⟨stand.before.trans outside.symm, by rw [here]; rfl, a, _, ?_, rfl, Or.inl rfl⟩
        rw [seen?, here]
        rfl
      have ends : Alike (xs.length + 1, xs.length + s.rawLines.length) (xs.length + run.length)
          (after s.sectionName s.key (xs ++ (run ++ ys)))
          (after s.sectionName s.key (xs.map Line.closeRaw ++ s.rawLines ++ ys)) := by
        rw [← List.append_assoc, after_append, after_append _ _ (xs.map Line.closeRaw ++ s.rawLines)]
        exact alike.foldl_step ys _ (by simp)
      obtain ⟨b, b', seen', found, echoes⟩ := ends.seen
      obtain rfl : o = b := Option.some.inj (seen.symm.trans seen')
      exact ⟨b', found, echoes.resolve_right settled⟩
    · rw [after_append_skipped _ _ _ skipped, written]
      exact ⟨_, rfl, rfl⟩
  obtain ⟨o', seen', span⟩ := found
  rw [← List.append_assoc]
  exact slot_of_span seen' span

theorem slot_of_new_section {s : Setting} {raws : List Bytes} (valid : s.Valid)
    (seen : (after s.sectionName s.key raws).seen? = none) :
    (after s.sectionName s.key (raws.map Line.closeRaw ++ rawsOf (s.blocks false))).slot =
      ⟨raws.length + 2, raws.length + 2 + s.rawLines.length + 1, true, true⟩ := by
  have here : (after s.sectionName s.key raws).here? = none := (Option.or_eq_none_iff.mp seen).1
  have outside : (after s.sectionName s.key raws).within? = none := by
    cases within : (after s.sectionName s.key raws).within? with
    | none => rfl
    | some ofKey =>
      have opened := isSome_here?_of_within? s.sectionName s.key raws (by simp [within])
      rw [here] at opened
      cases opened
  have laid : Laid false (s.blocks false) := Setting.laid_blocks valid (by simp)
  have written := foldl_step_blocks s.sectionName s.key laid outside
    (fun raw mem => (Setting.plain_of_mem_blocks valid mem).2) valid.checkKey_key
  rw [count_after] at written
  rw [after_append, after_map _ _ textOf_closeRaw, List.length_map, written]
  have found : ((s.blocks false).foldl (pass s.sectionName s.key)
      (after s.sectionName s.key raws)).seen? = some ⟨raws.length + 2 + s.rawLines.length,
        some (raws.length + 3, raws.length + 2 + s.rawLines.length)⟩ := by
    simp [Setting.blocks, pass, seen?, count_after]
  exact slot_of_span found rfl

end Search

theorem Line.closeRaw_closeRaw (raw : Bytes) : closeRaw (closeRaw raw) = closeRaw raw := by
  have closed : (closeRaw raw).getLast? = some newline := by
    unfold closeRaw
    split
    next closed => exact closed
    next => exact List.getLast?_concat ..
  exact if_pos closed

theorem Line.eq_of_pieces_eq {a b : Bytes} (same : pieces a = pieces b) : a = b := by
  rw [← flatten_pieces a, same, flatten_pieces]

namespace Setting

def openingLines (sectionName : Text) (hasSection : Bool) : List Bytes :=
  if hasSection then [] else [lineOf [], headingLine sectionName]

theorem rawsOf_blocks (s : Setting) (hasSection : Bool) :
    rawsOf (s.blocks hasSection) = openingLines s.sectionName hasSection ++ s.rawLines := by
  cases hasSection <;> simp [blocks, openingLines, Block.raws]

variable {s₁ s₂ : Setting} {content : Bytes}

/-- An edit over the lines of an earlier one leaves nothing of this. -/
theorem applyTo_applyTo_of_slots {xs old ys : List Bytes} {hasSection hasKey : Bool}
    (valid₁ : s₁.Valid) (valid₂ : s₂.Valid) (sameSection : s₁.sectionName = s₂.sectionName)
    (sameKey : s₁.key = s₂.key) (split : Line.pieces content = xs ++ (old ++ ys))
    (slot : s₁.slotIn content = ⟨xs.length, xs.length + old.length + 1, hasSection, hasKey⟩)
    (slot' : s₁.slotIn (s₁.applyTo content) =
      ⟨xs.length + (openingLines s₁.sectionName hasSection).length,
        xs.length + (openingLines s₁.sectionName hasSection).length + s₁.rawLines.length + 1,
        true, true⟩) :
    s₂.applyTo (s₁.applyTo content) = s₂.applyTo content := by
  have same : s₁.slotIn = s₂.slotIn := by
    funext c
    rw [slotIn, sameSection, sameKey, slotIn]
  have closed : ∀ raw ∈ openingLines s₁.sectionName hasSection, Line.IsClosed raw := by
    intro raw mem
    have mem' : raw ∈ rawsOf (s₁.blocks hasSection) := by
      rw [rawsOf_blocks]
      exact List.mem_append_left _ mem
    exact (plain_of_mem_blocks valid₁ mem').1
  have first := pieces_applyTo valid₁ split slot
  have alone := pieces_applyTo valid₂ split (same ▸ slot)
  rw [rawsOf_blocks, List.append_assoc, ← List.append_assoc] at first
  have slot₂ : s₂.slotIn (s₁.applyTo content) =
      ⟨(xs.map Line.closeRaw ++ openingLines s₁.sectionName hasSection).length,
        (xs.map Line.closeRaw ++ openingLines s₁.sectionName hasSection).length +
          s₁.rawLines.length + 1, true, true⟩ := by
    rw [← same, slot', List.length_append, List.length_map]
  have absorbed := pieces_applyTo valid₂ first slot₂
  have kept : (xs.map Line.closeRaw ++ openingLines s₁.sectionName hasSection).map Line.closeRaw =
      xs.map Line.closeRaw ++ openingLines s₁.sectionName hasSection := by
    rw [List.map_append, List.map_map, List.map_congr_left fun raw mem =>
      Line.closeRaw_of_isClosed (closed raw mem), List.map_id']
    simp [Function.comp_def, Line.closeRaw_closeRaw]
  apply Line.eq_of_pieces_eq
  rw [absorbed, alone, kept, rawsOf_blocks, rawsOf_blocks, sameSection]
  simp [openingLines]

/-- A setting takes the place of an earlier one of its key. -/
theorem applyTo_applyTo (valid₁ : s₁.Valid) (valid₂ : s₂.Valid)
    (sameSection : s₁.sectionName = s₂.sectionName) (sameKey : s₁.key = s₂.key)
    (settled : (s₁.slotIn content).hasKey ∨ ¬ (s₁.slotIn content).hasSection ∨
      ∀ line ∈ Line.scan content, line.number = (s₁.slotIn content).above →
        endsInComma line.text = false) :
    s₂.applyTo (s₁.applyTo content) = s₂.applyTo content := by
  have place : s₁.slotIn content =
    (Search.after s₁.sectionName s₁.key (Line.pieces content)).slot := rfl
  have place' : s₁.slotIn (s₁.applyTo content) =
    (Search.after s₁.sectionName s₁.key (Line.pieces (s₁.applyTo content))).slot := rfl
  cases seen : (Search.after s₁.sectionName s₁.key (Line.pieces content)).seen? with
  | none =>
    have slot := place.trans (Search.slot_of_not_seen seen)
    rw [Search.count_after] at slot
    have split : Line.pieces content = Line.pieces content ++ ([] ++ []) := by simp
    refine applyTo_applyTo_of_slots valid₁ valid₂ sameSection sameKey split slot ?_
    rw [place', pieces_applyTo valid₁ split slot, List.append_nil]
    exact Search.slot_of_new_section valid₁ seen
  | some o =>
    have settled' : o.span?.isSome ∨ ∀ line ∈ Line.scan content, line.number = o.tail →
        endsInComma line.text = false := by
      cases span : o.span? with
      | some => exact Or.inl rfl
      | none =>
        rw [place, Search.slot_of_no_span seen span] at settled
        exact Or.inr (by simpa using settled)
    obtain ⟨xs, run, ys, split, slot, later, stand⟩ := Search.exists_stand seen settled'
    refine applyTo_applyTo_of_slots valid₁ valid₂ sameSection sameKey split (place.trans slot) ?_
    rw [place', pieces_applyTo valid₁ split (place.trans slot)]
    rw [split] at seen
    simpa [rawsOf_blocks, openingLines] using stand.slot_eq valid₁ seen later

end Setting

/-- Two saves of one key leave the file and all else on the disk as the second one alone does. -/
theorem saveSetting_twice {s₁ s₂ : Setting} {content : Bytes} {path : Path}
    {options₁ options₂ : Options} {h : Host} {d₁ d₂ : Disk}
    (absorbed : s₂.applyTo (s₁.applyTo content) = s₂.applyTo content)
    (read : h.disk.read path = .ok content) (staged₁ : h.disk.stage options₁.stagingPath = .ok d₁)
    (staged₂ : h.disk.stage options₂.stagingPath = .ok d₂) :
    ∃ h₁ h₂ h', (saveSetting path s₁ options₁).run h = (.ok (), h₁) ∧
      (saveSetting path s₂ options₂).run h₁ = (.ok (), h₂) ∧
      (saveSetting path s₂ options₂).run h = (.ok (), h') ∧ h₂.disk = h'.disk := by
  obtain ⟨log, first⟩ := Update.run_of_stage (s := s₁) read staged₁
  obtain ⟨log', alone⟩ := Update.run_of_stage (s := s₂) read staged₂
  have read' := Disk.read_put_of_read read (s₁.applyTo content)
  have stages := Disk.isOk_stage_put read (s₁.applyTo content) options₂.stagingPath
  rw [staged₂] at stages
  cases staged : (h.disk.put path.location (.file (s₁.applyTo content))).stage
      options₂.stagingPath with
  | error e => simp [staged, Except.isOk, Except.toBool] at stages
  | ok d =>
    obtain ⟨log'', second⟩ := Update.run_of_stage (s := s₂)
      (h := ⟨h.disk.put path.location (.file (s₁.applyTo content)), log⟩) read' staged
    refine ⟨_, _, _, first, second, alone, ?_⟩
    rw [Disk.put_put, absorbed]

/-- A later write of a key absorbs an earlier one, byte for byte and in any content, if the key or
no section is found there, or the line before the place does not go on with an open comma. So does
the same write once more. -/
theorem later_write_absorbs_earlier {name₁ key₁ name₂ key₂ : Text} {values₁ values₂ : List Text}
    {s₁ s₂ : Setting} (accepted₁ : Setting.ofRequest name₁ key₁ values₁ = .ok s₁)
    (accepted₂ : Setting.ofRequest name₂ key₂ values₂ = .ok s₂)
    (sameSection : normalName name₁ = normalName name₂)
    (sameKey : normalName key₁ = normalName key₂) (content : Bytes)
    (settled : (s₁.slotIn content).hasKey ∨ ¬ (s₁.slotIn content).hasSection ∨
      ∀ line ∈ Line.scan content, line.number = (s₁.slotIn content).above →
        endsInComma line.text = false) :
    s₂.applyTo (s₁.applyTo content) = s₂.applyTo content ∧
      s₁.applyTo (s₁.applyTo content) = s₁.applyTo content ∧
      ∀ path options₁ options₂ h d₁ d₂, h.disk.read path = .ok content →
        h.disk.stage options₁.stagingPath = .ok d₁ → h.disk.stage options₂.stagingPath = .ok d₂ →
        ∃ h₁ h₂ h', (saveSetting path s₁ options₁).run h = (.ok (), h₁) ∧
          (saveSetting path s₂ options₂).run h₁ = (.ok (), h₂) ∧
          (saveSetting path s₂ options₂).run h = (.ok (), h') ∧ h₂.disk = h'.disk := by
  obtain ⟨rfl, valid₁⟩ := Setting.ofRequest_eq_ok accepted₁
  obtain ⟨rfl, valid₂⟩ := Setting.ofRequest_eq_ok accepted₂
  have absorbed := Setting.applyTo_applyTo valid₁ valid₂ sameSection sameKey settled
  refine ⟨absorbed, Setting.applyTo_applyTo valid₁ valid₁ rfl rfl settled, ?_⟩
  intro path options₁ options₂ h d₁ d₂ read staged₁ staged₂
  exact saveSetting_twice absorbed read staged₁ staged₂

/-- A key on four lines gives way to one on one line and this to one on three, in a section that is
named twice. -/
theorem later_write_absorbs_earlier_repeated :
    ∃ s₁ s₂, Setting.ofRequest (chars "S") (chars "k") [chars "7"] = .ok s₁ ∧
      Setting.ofRequest (chars "s") (chars " K") [[], chars "8", []] = .ok s₂ ∧
      s₁.applyTo (encode (chars "[s]\nk = 1\n[t\n[S]\nk=3,\n# c\n\n  4\n?")) =
        encode (chars "[s]\nk = 1\n[t\n[S]\nk = 7\n?") ∧
      s₂.applyTo (encode (chars "[s]\nk = 1\n[t\n[S]\nk = 7\n?")) =
        s₂.applyTo (encode (chars "[s]\nk = 1\n[t\n[S]\nk=3,\n# c\n\n  4\n?")) := by
  have accepted₁ : Setting.ofRequest (chars "S") (chars "k") [chars "7"] =
    .ok ⟨chars "s", chars "k", [chars "7"]⟩ := rfl
  have accepted₂ : Setting.ofRequest (chars "s") (chars " K") [[], chars "8", []] =
    .ok ⟨chars "s", chars "k", [[], chars "8", []]⟩ := rfl
  obtain ⟨absorbed, _⟩ := later_write_absorbs_earlier accepted₁ accepted₂ (by decide) (by decide)
    (encode (chars "[s]\nk = 1\n[t\n[S]\nk=3,\n# c\n\n  4\n?")) (Or.inl rfl)
  exact ⟨_, _, accepted₁, accepted₂, rfl, absorbed⟩

/-- Behind an open comma a write that is repeated is not found again. -/
example :
    let s : Setting := ⟨chars "s", chars "k", [chars "7"]⟩
    s.applyTo (s.applyTo (encode (chars "[s]\na = 1,\n"))) =
      encode (chars "[s]\na = 1,\nk = 7\nk = 7\n") := by
  rfl

end Keyfile
