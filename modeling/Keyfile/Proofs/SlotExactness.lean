import Keyfile.Proofs.SlotAgreement
import Keyfile.Proofs.TrapContents

namespace Keyfile

theorem exists_laidOut_plain {content : Bytes} {sections : Sections}
    (parsed : parse content = .ok sections) (plain : ∀ t : Text, ¬ t.TrapIn content) :
    ∃ blocks, LaidOut content blocks ∧ (∀ raw ∈ rawsOf blocks, ¬ (textOf raw).Trap) ∧
      Sections.ofItems (itemsOf blocks) = sections := by
  obtain ⟨blocks, laidOut, same⟩ := exists_laidOut parsed
  refine ⟨blocks, laidOut, ?_, same⟩
  rw [laidOut.raws, ← map_raw_scan]
  intro raw hr trap
  obtain ⟨line, hl, rfl⟩ := List.mem_map.mp hr
  exact plain _ ⟨trap, line, hl, rfl⟩

/-- The place of every setting in the content, if that can be read, agrees with what is read. -/
def PlacesAgree (content : Bytes) : Prop :=
  ∀ sections, parse content = .ok sections →
    ∀ sectionName key values s, Setting.ofRequest sectionName key values = .ok s →
      (s.slotIn content).Agrees s.sectionName s.key (Line.scan content) sections

theorem placesAgree_of_no_traps {content : Bytes} (plain : ∀ t : Text, ¬ t.TrapIn content) :
    PlacesAgree content := by
  intro sections parsed sectionName key values s accepted
  obtain ⟨_, valid⟩ := Setting.ofRequest_eq_ok accepted
  obtain ⟨blocks, laidOut, plain', rfl⟩ := exists_laidOut_plain parsed plain
  exact laidOut.agrees plain' s.sectionName valid.checkKey_key

theorem Misleads.not_placesAgree {t name key : Text} {content : Bytes}
    (h : Misleads t content name key) : ¬ PlacesAgree content := by
  obtain ⟨_, accepted, found, sections, _, parsed, absent, _⟩ := h
  intro agree
  exact absent ((agree sections parsed name key [] _ accepted).hasKey.mp found)

/-- Places agree with what is read, in a content and in all others that have no other traps, exactly
if the content has no traps. -/
theorem placesAgree_iff_no_traps {content : Bytes} {sections : Sections}
    (parsed : parse content = .ok sections) :
    (∀ content', (∀ t : Text, t.TrapIn content' → t.TrapIn content) → PlacesAgree content') ↔
      ∀ t : Text, ¬ t.TrapIn content := by
  constructor
  · intro agree t trap
    obtain ⟨content', name, key, misleads⟩ := trap.exists_misleads parsed
    refine misleads.not_placesAgree (agree content' fun u other => ?_)
    rw [misleads.only u other]
    exact trap
  · intro plain content' fewer
    exact placesAgree_of_no_traps fun t trap => plain t (fewer t trap)

def tidyContent : Bytes := encode (chars "[s]\na = x,\n  y\n# z\nb = \n")

theorem not_trapIn_tidyContent (t : Text) : ¬ t.TrapIn tidyContent := by
  have all : (Line.scan tidyContent).all fun line =>
      line.text.all fun c => c ≠ '\\' && (!isBlank c || isGap c) := by decide
  rintro ⟨trap, line, hl, rfl⟩
  exact Text.not_trap_of_all (List.all_eq_true.mp all line hl) trap

/-- The place of a key among such lines. -/
theorem placesAgree_tidyContent : (∃ sections, parse tidyContent = .ok sections) ∧
    PlacesAgree tidyContent :=
  ⟨⟨_, rfl⟩, (placesAgree_iff_no_traps (show parse tidyContent = .ok _ from rfl)).mpr
    not_trapIn_tidyContent _ fun _ => id⟩

/-- Behind a comma and a blank that is no gap a search overlooks the next key. -/
theorem not_placesAgree_of_loose_line :
    ¬ PlacesAgree (encode (chars "[s]\na = x,\u00a0\nb = y\n")) := by
  intro agree
  have agrees := agree _ rfl (chars "s") (chars "b") [] _ rfl
  exact absurd (agrees.hasKey.mpr rfl) (by decide)

end Keyfile
