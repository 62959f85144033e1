import Keyfile.Proofs.InStep
import Keyfile.Proofs.SlotExactness

namespace Keyfile

structure Assignment where
  sectionName : Text
  key : Text
  values : List Text

/-- The sections with what is asked for in its place. -/
def Sections.assign (s : Sections) (a : Assignment) : Sections :=
  s.put (normalName a.sectionName) (normalName a.key) (Setting.kept a.values)

inductive Store.Assigned : Session → List Assignment → Session → Prop
  | none {s : Session} : Assigned s [] s
  | next {s s' s'' : Session} {a : Assignment} {rest : List Assignment} :
      (Store.set a.sectionName a.key a.values).run s = (.ok (), s') → Assigned s' rest s'' →
      Assigned s (a :: rest) s''

/-- Assignments that succeed leave a store in step with its file, and are put into its memory. -/
theorem Session.InStep.exists_assigned {s s' : Session} {blocks : List Block}
    {assignments : List Assignment} (h : s.InStep blocks) (done : Store.Assigned s assignments s') :
    ∃ blocks', s'.InStep blocks' ∧ s'.store.path = s.store.path ∧
      s'.store.sections = assignments.foldl Sections.assign s.store.sections := by
  induction done generalizing blocks with
  | none => exact ⟨blocks, h, rfl, rfl⟩
  | next first _ ih =>
    obtain ⟨setting, blocks₁, accepted, inStep, store, _⟩ := h.exists_set first
    obtain ⟨rfl, _⟩ := Setting.ofRequest_eq_ok accepted
    obtain ⟨blocks', inStep', path, sections⟩ := ih inStep
    rw [store] at path sections
    exact ⟨blocks', inStep', path, sections⟩

theorem Session.exists_inStep_of_ofFile {path : Path} {options : Options} {host host' : Host}
    {store : Store} {content : Bytes} (read : host.disk.read path = .ok content)
    (plain : ∀ t : Text, ¬ t.TrapIn content)
    (opened : (Store.ofFile path options).run host = (.ok store, host')) :
    store.path = path ∧ ∃ blocks, InStep ⟨store, host'⟩ blocks := by
  obtain ⟨log, ran⟩ := Store.run_ofFile path options host
  rw [ran] at opened
  cases found : readSections host.disk path with
  | error e =>
    rw [found] at opened
    cases opened
  | ok sections =>
    rw [found] at opened
    obtain ⟨made, rfl⟩ := Prod.mk.inj opened
    obtain rfl := Except.ok.inj made
    obtain ⟨content', read', parsed⟩ := readSections_eq_ok.mp found
    obtain rfl := Except.ok.inj (read.symm.trans read')
    obtain ⟨blocks, laidOut, plain', same⟩ := exists_laidOut_plain parsed plain
    exact ⟨rfl, blocks, ⟨content, read, laidOut⟩, plain', same⟩

theorem exists_assigned_of_parse {content : Bytes} {sectionName key : Text} {values : List Text}
    {setting : Setting} {sections : Sections}
    (accepted : Setting.ofRequest sectionName key values = .ok setting)
    (parsed : parse content = .ok sections) :
    ∃ path options host host' store s', host.disk.read path = .ok content ∧
      (Store.ofFile path options).run host = (.ok store, host') ∧
      Store.Assigned ⟨store, host'⟩ [⟨sectionName, key, values⟩] s' ∧
      s'.host.disk.read path = .ok (setting.applyTo content) ∧
      s'.store.sections = sections.put setting.sectionName setting.key setting.values := by
  let path : Path := [0x66]
  let options : Options := .usual [dot]
  let disk : Disk := ⟨[(path.location, .file content)], []⟩
  have read : disk.read path = .ok content := rfl
  obtain ⟨log, opened⟩ := Store.run_ofFile path options ⟨disk, []⟩
  rw [readSections_eq_ok.mpr ⟨content, read, parsed⟩] at opened
  obtain ⟨log', done⟩ := Store.run_set_of_stage (s := ⟨⟨path, options, sections⟩, ⟨disk, log⟩⟩)
    accepted read (show disk.stage options.stagingPath = .ok _ from rfl)
  exact ⟨path, options, _, _, _, _, read, opened, .next done .none,
    Disk.read_put_of_read read _, rfl⟩

/-- Assignments to a store on a file of the content keep file and memory in step and are put into
what the file said at first. -/
def StaysInStep (content : Bytes) : Prop :=
  ∀ path options host host' store assignments s', host.disk.read path = .ok content →
    (Store.ofFile path options).run host = (.ok store, host') →
    Store.Assigned ⟨store, host'⟩ assignments s' →
      ((sectionsOfFile path).run s'.host).1 = .ok s'.store.sections ∧
      s'.store.sections = assignments.foldl Sections.assign store.sections

theorem staysInStep_of_no_traps {content : Bytes} (plain : ∀ t : Text, ¬ t.TrapIn content) :
    StaysInStep content := by
  intro path options host host' store assignments s' read opened done
  obtain ⟨rfl, blocks, inStep⟩ := Session.exists_inStep_of_ofFile read plain opened
  obtain ⟨blocks', inStep', path, sections⟩ := inStep.exists_assigned done
  refine ⟨?_, sections⟩
  obtain ⟨log, again⟩ := run_sectionsOfFile store.path s'.host
  rw [again, ← path, inStep'.readSections_eq]

/-- An assignment gets file and memory out of step if the content with the setting does not say what
it should. -/
theorem not_staysInStep {content : Bytes} {sectionName key : Text} {values : List Text}
    {setting : Setting} {sections sections' : Sections}
    (accepted : Setting.ofRequest sectionName key values = .ok setting)
    (parsed : parse content = .ok sections)
    (reparsed : parse (setting.applyTo content) = .ok sections')
    (other : sections' ≠ sections.put setting.sectionName setting.key setting.values) :
    ¬ StaysInStep content := by
  obtain ⟨path, options, host, host', store, s', read, opened, done, reread, memory⟩ :=
    exists_assigned_of_parse accepted parsed
  intro stays
  obtain ⟨same, _⟩ := stays path options host host' store _ s' read opened done
  obtain ⟨log, again⟩ := run_sectionsOfFile path s'.host
  rw [again, readSections_eq_ok.mpr ⟨_, reread, reparsed⟩, memory] at same
  exact other (Except.ok.inj same)

theorem Misleads.not_staysInStep {t name key : Text} {content : Bytes}
    (h : Misleads t content name key) : ¬ StaysInStep content := by
  obtain ⟨_, accepted, _, sections, sections', parsed, _, reparsed, other⟩ := h
  exact Keyfile.not_staysInStep accepted parsed reparsed other

/-- File and memory stay in step, from a content on and from all others that have no other traps,
exactly if the content has no traps. -/
theorem staysInStep_iff_no_traps {content : Bytes} {sections : Sections}
    (parsed : parse content = .ok sections) :
    (∀ content', (∀ t : Text, t.TrapIn content' → t.TrapIn content) → StaysInStep content') ↔
      ∀ t : Text, ¬ t.TrapIn content := by
  constructor
  · intro stays t trap
    obtain ⟨content', name, key, misleads⟩ := trap.exists_misleads parsed
    refine misleads.not_staysInStep (stays content' fun u other => ?_)
    rw [misleads.only u other]
    exact trap
  · intro plain content' fewer
    exact staysInStep_of_no_traps fun t trap => plain t (fewer t trap)

/-- An assignment among lines that a person would write. -/
theorem staysInStep_tidyContent :
    ∃ path options host host' store s', host.disk.read path = .ok tidyContent ∧
      (Store.ofFile path options).run host = (.ok store, host') ∧
      Store.Assigned ⟨store, host'⟩ [⟨chars "S", chars "a", [chars " z"]⟩] s' ∧
      ((sectionsOfFile path).run s'.host).1 = .ok s'.store.sections := by
  obtain ⟨path, options, host, host', store, s', read, opened, done, _⟩ :=
    exists_assigned_of_parse (show Setting.ofRequest (chars "S") (chars "a") [chars " z"] = .ok _ from
      rfl) (show parse tidyContent = .ok _ from rfl)
  have stays := (staysInStep_iff_no_traps (show parse tidyContent = .ok _ from rfl)).mpr
    not_trapIn_tidyContent tidyContent fun _ => id
  exact ⟨path, options, host, host', store, s', read, opened, done,
    (stays path options host host' store _ s' read opened done).1⟩

/-- An assignment takes the next key with it where a comma and a blank that is no gap stand before
that. -/
theorem not_staysInStep_of_loose_line :
    ¬ StaysInStep (encode (chars "[s]\na = x,\u00a0\nb = y\n")) :=
  not_staysInStep (show Setting.ofRequest (chars "s") (chars "a") [chars "z"] = .ok _ from rfl) rfl rfl
    (by decide)

end Keyfile
