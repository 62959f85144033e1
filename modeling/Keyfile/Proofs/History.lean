import Keyfile.Proofs.ExtractSection
import Keyfile.Proofs.InStep

namespace Keyfile

/-- What a history on a path has led to: a store on its host, and the sections that the settings
which succeeded make of none. -/
inductive Reached (path : Path) : Session → Sections → Prop
  | created {comments : List Text} {options : Options} {host host' : Host} {store : Store} :
      (∀ c ∈ comments, '\n' ∉ c) →
      (Store.create path comments options).run host = (.ok store, host') →
      Reached path ⟨store, host'⟩ ∅
  | set {s s' : Session} {map : Sections} {sectionName key : Text} {values : List Text} :
      Reached path s map → (Store.set sectionName key values).run s = (.ok (), s') →
      Reached path s' (map.put (normalName sectionName) (normalName key) (Setting.kept values))
  | refused {s s' : Session} {map : Sections} {sectionName key : Text} {values : List Text}
      {e : Failure} :
      Reached path s map → (Store.set sectionName key values).run s = (.error e, s') →
      Reached path s' map
  | refreshed {s s' : Session} {map : Sections} {result : Except Failure Unit} :
      Reached path s map → Store.refresh.run s = (result, s') → Reached path s' map
  | restarted {s : Session} {map : Sections} {options : Options} {store : Store} {host : Host} :
      Reached path s map → (Store.ofFile path options).run s.host = (.ok store, host) →
      Reached path ⟨store, host⟩ map

namespace Reached

variable {path : Path} {s : Session} {map : Sections}

/-- No history leaves the file out of step with the store, nor a section named twice. -/
theorem exists_inStep (h : Reached path s map) :
    s.store.path = path ∧ s.store.sections = map ∧
      ∃ blocks, s.InStep blocks ∧ (headingsOf (itemsOf blocks)).Nodup := by
  induction h with
  | created single made =>
    obtain ⟨rfl, inStep⟩ := Session.inStep_of_create single made
    exact ⟨rfl, rfl, _, inStep, nodup_commentBlocks _⟩
  | set _ done ih =>
    obtain ⟨rfl, rfl, blocks, inStep, distinct⟩ := ih
    obtain ⟨setting, blocks', accepted, inStep', store, distinct'⟩ := inStep.exists_set done
    obtain ⟨rfl, _⟩ := Setting.ofRequest_eq_ok accepted
    rw [store]
    exact ⟨rfl, rfl, blocks', inStep', distinct' distinct⟩
  | refused _ failed ih =>
    obtain ⟨rfl, rfl, blocks, inStep, distinct⟩ := ih
    obtain ⟨inStep', store⟩ := inStep.of_failed_set failed
    rw [store]
    exact ⟨rfl, rfl, blocks, inStep', distinct⟩
  | refreshed _ ran ih =>
    obtain ⟨rfl, rfl, blocks, inStep, distinct⟩ := ih
    obtain ⟨log, again⟩ := inStep.exists_refresh
    rw [again] at ran
    obtain ⟨_, rfl⟩ := Prod.mk.inj ran
    exact ⟨rfl, rfl, blocks, inStep.of_log log, distinct⟩
  | @restarted s _ options _ _ _ ran ih =>
    obtain ⟨rfl, rfl, blocks, inStep, distinct⟩ := ih
    obtain ⟨log, again⟩ := inStep.exists_ofFile options
    rw [again] at ran
    obtain ⟨made, rfl⟩ := Prod.mk.inj ran
    obtain rfl := Except.ok.inj made
    exact ⟨rfl, rfl, blocks, (inStep.of_options options).of_log log, distinct⟩

end Reached

/-- After any history the memory, the file, and the file read section by section are the sections
that the settings which succeeded make, and the file can be read again and started over from. -/
theorem reached_refines_sections {path : Path} {s : Session} {map : Sections}
    (h : Reached path s map) :
    s.store.sections = map ∧
      ((sectionsOfFile path).run s.host).1 = .ok map ∧
      (∀ name, ((sectionOfFile path name).run s.host).1 = .ok (map.keysOf (normalName name))) ∧
      (Store.refresh.run s).1 = .ok () ∧
      ∀ options, ((Store.ofFile path options).run s.host).1 = .ok ⟨path, options, map⟩ := by
  obtain ⟨rfl, rfl, blocks, inStep, distinct⟩ := h.exists_inStep
  refine ⟨rfl, ?_, fun name => ?_, ?_, fun options => ?_⟩
  · obtain ⟨log, read⟩ := run_sectionsOfFile s.store.path s.host
    rw [read, inStep.readSections_eq]
  · obtain ⟨content, read, laidOut⟩ := inStep.file
    obtain ⟨found, extracted, keys⟩ := laidOut.exists_extract distinct name
    obtain ⟨log, ran⟩ := run_sectionOfFile read extracted
    rw [ran, keys, inStep.memory]
  · obtain ⟨log, ran⟩ := inStep.exists_refresh
    rw [ran]
  · obtain ⟨log, ran⟩ := inStep.exists_ofFile options
    rw [ran]

/-- A history on a new file: a setting, one that is refused, and a new start. -/
theorem reached_refines_sections_restarted :
    ∃ s, Reached [0x66] s (Sections.put ∅ (chars "s") (chars "k") [chars "v"]) ∧
      ((sectionsOfFile [0x66]).run s.host).1 =
        .ok (Sections.put ∅ (chars "s") (chars "k") [chars "v"]) := by
  have created : Reached [0x66] _ ∅ :=
    @Reached.created _ [chars "c"] (.usual [dot]) ⟨⟨[], []⟩, []⟩ _ _ (by decide) rfl
  have set := @Reached.set _ _ _ _ (chars " S") (chars "K") [chars " v"] created rfl
  have refused := @Reached.refused _ _ _ _ (chars "[") (chars "k") [] _ set rfl
  have restarted := @Reached.restarted _ _ _ (.usual [dot]) _ _ refused rfl
  exact ⟨_, restarted, (reached_refines_sections restarted).2.1⟩

end Keyfile
