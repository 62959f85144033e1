import Keyfile.Proofs.DraftItems
import Keyfile.Proofs.StoreRun

namespace Keyfile

/-- A store on its host after any history that starts on a given host: the store is set, its file or
another one is written past it, and it is read again, whether that succeeds or not. In between the
disk changes in any way, but for staging files, which only updates leave. -/
inductive Session.Reachable (start : Host) : Session → Prop
  | created {path : Path} {comments : List Text} {options : Options} {store : Store} {host : Host} :
      (Store.create path comments options).run start = (.ok store, host) →
      Reachable start ⟨store, host⟩
  | loaded {path : Path} {options : Options} {store : Store} {host : Host} :
      (Store.ofFile path options).run start = (.ok store, host) → Reachable start ⟨store, host⟩
  | set {s s' : Session} {sectionName key : Text} {values : List Text}
      {result : Except Failure Unit} :
      Reachable start s → (Store.set sectionName key values).run s = (result, s') →
      Reachable start s'
  | written {s s' : Session} {path : Path} {sectionName key : Text} {values : List Text}
      {options : Options} {result : Except Failure Unit} :
      Reachable start s →
      (onHost (writeSetting path sectionName key values options)).run s = (result, s') →
      Reachable start s'
  | refreshed {s s' : Session} {result : Except Failure Unit} :
      Reachable start s → Store.refresh.run s = (result, s') → Reachable start s'
  | changed {s : Session} {disk : Disk} :
      Reachable start s → disk.staged.Sublist s.host.disk.staged →
      Reachable start { s with host := { s.host with disk } }

namespace Session

variable {start : Host} {s s' : Session} {sectionName key : Text} {values : List Text}
  {options : Options} {path : Path} {e : Failure} {result : Except Failure Unit}

/-- The disk and the store are the same; more may have been told. -/
def Same (s s' : Session) : Prop := s'.store = s.store ∧ s'.host.disk = s.host.disk

def values? (s : Session) (sectionName key : Text) : Option (List Text) :=
  (s.store.sections.get? sectionName).bind (·.get? key)

theorem same_of_failed_set (failed : (Store.set sectionName key values).run s = (.error e, s')) :
    s.Same s' := by
  rcases Store.run_set_ends sectionName key values s with ⟨_, _, ran⟩ | ⟨_, _, _, _, _, ran⟩
  · cases ran.symm.trans failed
    exact ⟨rfl, rfl⟩
  · cases ran.symm.trans failed

theorem same_of_failed_writeSetting
    (failed : (onHost (writeSetting path sectionName key values options)).run s = (.error e, s')) :
    s.Same s' := by
  rw [StoreAction.run_onHost] at failed
  rcases run_writeSetting_ends path sectionName key values options s.host with
    ⟨_, _, ran⟩ | ⟨_, _, _, _, _, ran⟩
  · rw [ran] at failed
    cases failed
    exact ⟨rfl, rfl⟩
  · rw [ran] at failed
    cases failed

theorem store_of_onHost {α : Type} {act : Action α} {result : Except Failure α}
    (ran : (onHost act).run s = (result, s')) : s'.store = s.store := by
  rw [StoreAction.run_onHost] at ran
  cases ran
  rfl

theorem store_of_set (done : (Store.set sectionName key values).run s = (.ok (), s')) :
    ∃ setting, Setting.ofRequest sectionName key values = .ok setting ∧
      s'.store = s.store.keep setting := by
  rcases Store.run_set_ends sectionName key values s with
    ⟨_, _, ran⟩ | ⟨setting, _, _, accepted, _, ran⟩
  · cases ran.symm.trans done
  · cases ran.symm.trans done
    exact ⟨setting, accepted, rfl⟩

theorem staged_of_set (ran : (Store.set sectionName key values).run s = (result, s')) :
    s'.host.disk.staged = s.host.disk.staged := by
  rcases Store.run_set_ends sectionName key values s with ⟨_, _, ran'⟩ | ⟨_, _, _, _, _, ran'⟩
  · cases ran'.symm.trans ran
    rfl
  · cases ran'.symm.trans ran
    rfl

theorem staged_of_writeSetting
    (ran : (onHost (writeSetting path sectionName key values options)).run s = (result, s')) :
    s'.host.disk.staged = s.host.disk.staged := by
  rw [StoreAction.run_onHost] at ran
  rcases run_writeSetting_ends path sectionName key values options s.host with
    ⟨_, _, ran'⟩ | ⟨_, _, _, _, _, ran'⟩
  · rw [ran'] at ran
    cases ran
    rfl
  · rw [ran'] at ran
    cases ran
    rfl

/-- Reading the file again leaves the disk as it is, and if it fails memory too. -/
theorem of_refresh (ran : Store.refresh.run s = (result, s')) :
    s'.host.disk = s.host.disk ∧
      ((∃ e, result = .error e ∧ s'.store = s.store) ∨
        ∃ sections, result = .ok () ∧ readSections s.host.disk s.store.path = .ok sections ∧
          s'.store = { s.store with sections }) := by
  obtain ⟨log, ran'⟩ := Store.run_refresh s
  rw [ran'] at ran
  cases read : readSections s.host.disk s.store.path with
  | error e =>
    rw [read] at ran
    cases ran
    exact ⟨rfl, Or.inl ⟨e, rfl, rfl⟩⟩
  | ok sections =>
    rw [read] at ran
    cases ran
    exact ⟨rfl, Or.inr ⟨sections, rfl, rfl, rfl⟩⟩

/-- A setting kept in memory changes the values of its own key of its own section, and no other. -/
theorem values?_keep {store : Store} {setting : Setting} (kept : s'.store = store.keep setting)
    (same : s.store = store) (n k : Text) :
    s'.values? n k =
      if n = setting.sectionName ∧ k = setting.key then some setting.values
      else s.values? n k := by
  subst same
  rw [values?, values?, kept, Store.keep, Sections.get?_put]
  by_cases own : n = setting.sectionName
  · rw [if_pos own, Option.bind_some, Table.get?_insert, own]
    by_cases key : k = setting.key
    · rw [if_pos key, if_pos ⟨rfl, key⟩]
    · rw [if_neg key, if_neg fun both => key both.2, Sections.keysOf]
      cases s.store.sections.get? setting.sectionName <;> rfl
  · rw [if_neg own, if_neg fun both => own both.1]

/-- No history leaves a staging file that was not there at its start. -/
theorem Reachable.staged_sublist (reached : s.Reachable start) :
    s.host.disk.staged.Sublist start.disk.staged := by
  induction reached with
  | created made => exact Disk.staged_create (Store.of_create made).2 ▸ List.Sublist.refl _
  | loaded made => exact (Store.of_ofFile made).1 ▸ List.Sublist.refl _
  | set _ ran ih => exact staged_of_set ran ▸ ih
  | written _ ran ih => exact staged_of_writeSetting ran ▸ ih
  | refreshed _ ran ih => exact (of_refresh ran).1 ▸ ih
  | changed _ fewer ih => exact fewer.trans ih

end Session

open Session

/-- In every state that a history leads to, whether memory matches the file or not: a setting that
fails, in the store or past it, leaves the disk and the store as they were, and a request that is
not accepted fails alike in both. Writing past the store never changes memory, reading the file
again never changes the disk, and no memory either if it fails. A setting that succeeds changes
memory for its own key of its own section. No setting leaves a staging file, whether it succeeds or
not. -/
theorem failures_leave_no_trace {start : Host} {s : Session} (reached : s.Reachable start)
    (sectionName key : Text) (values : List Text) (path : Path) (options : Options) :
    (∀ e s', (Store.set sectionName key values).run s = (.error e, s') → s.Same s') ∧
    (∀ e s', (onHost (writeSetting path sectionName key values options)).run s = (.error e, s') →
      s.Same s') ∧
    (∀ e, Setting.ofRequest sectionName key values = .error e →
      (Store.set sectionName key values).run s = (.error e, s) ∧
      (onHost (writeSetting path sectionName key values options)).run s = (.error e, s)) ∧
    (∀ e s', Store.refresh.run s = (.error e, s') → s'.store = s.store) ∧
    (∀ result s', (onHost (writeSetting path sectionName key values options)).run s = (result, s') →
      s'.store = s.store) ∧
    (∀ result s', Store.refresh.run s = (result, s') → s'.host.disk = s.host.disk) ∧
    (∀ s', (Store.set sectionName key values).run s = (.ok (), s') →
      ∃ setting, Setting.ofRequest sectionName key values = .ok setting ∧
        s'.store.path = s.store.path ∧ s'.store.options = s.store.options ∧
        (∀ n, s'.store.sections.contains n ↔
          n = setting.sectionName ∨ s.store.sections.contains n) ∧
        ∀ n k, s'.values? n k =
          if n = setting.sectionName ∧ k = setting.key then some setting.values
          else s.values? n k) ∧
    ∀ result s', (Store.set sectionName key values).run s = (result, s') →
      s'.host.disk.staged = s.host.disk.staged ∧
      (start.disk.staged = [] → s'.host.disk.staged = []) := by
  refine ⟨fun e s' => same_of_failed_set, fun e s' => same_of_failed_writeSetting,
    fun e refused => ⟨Store.run_set_of_refused refused, ?_⟩, fun e s' failed => ?_,
    fun result s' => store_of_onHost, fun result s' ran => (of_refresh ran).1, fun s' done => ?_,
    fun result s' ran => ⟨staged_of_set ran, fun none => ?_⟩⟩
  · rw [StoreAction.run_onHost, run_writeSetting_of_refused refused]
  · obtain ⟨_, _, same⟩ | ⟨_, ok, _⟩ := (of_refresh failed).2
    · exact same
    · cases ok
  · obtain ⟨setting, accepted, kept⟩ := store_of_set done
    refine ⟨setting, accepted, by rw [kept]; rfl, by rw [kept]; rfl, fun n => ?_,
      values?_keep kept rfl⟩
    rw [kept]
    exact Table.contains_insert ..
  · have fewer := reached.staged_sublist
    rw [none, List.sublist_nil] at fewer
    rw [staged_of_set ran, fewer]

def stagingDisk : Disk where
  nodes := [([[0x66]], .file (encode (chars "[s]\nk = v\n"))), ([[0x74]], .directory)]
  staged := []

/-- The same disk after the file was overwritten with what cannot be read and the directory for
staging files was removed. -/
def strandedDisk : Disk := (stagingDisk.put [[0x66]] (.file [0x5B, 0xFF])).erase [[0x74]]

def strandedStore : Store :=
  ⟨[0x66], .usual [0x74], Sections.put ∅ (chars "s") (chars "k") [chars "v"]⟩

theorem exists_reachable_stranded :
    ∃ log, Reachable ⟨stagingDisk, []⟩ ⟨strandedStore, ⟨strandedDisk, log⟩⟩ := by
  obtain ⟨log, ran⟩ := Store.run_ofFile [0x66] (.usual [0x74]) ⟨stagingDisk, []⟩
  have read : readSections stagingDisk [0x66] = .ok strandedStore.sections := rfl
  rw [read] at ran
  have overwritten : Reachable ⟨stagingDisk, []⟩
      ⟨strandedStore, ⟨stagingDisk.put [[0x66]] (.file [0x5B, 0xFF]), log⟩⟩ :=
    (Reachable.loaded ran).changed (List.Sublist.refl _)
  exact ⟨log, overwritten.changed (List.Sublist.refl _)⟩

/-- There a setting fails, and so does reading the file again. Both leave everything as it is. -/
theorem failures_leave_no_trace_stranded :
    ∃ s s' s'', s.Reachable ⟨stagingDisk, []⟩ ∧ s.store = strandedStore ∧
      s.host.disk = strandedDisk ∧
      (Store.set (chars "s") (chars "k") [chars "w"]).run s = (.error (.disk .notFound), s') ∧
      s.Same s' ∧ s'.host.disk.staged = [] ∧
      Store.refresh.run s = (.error (.malformed [0x66] 1), s'') ∧ s''.store = s.store ∧
      (Store.set (chars "[") (chars "k") []).run s = (.error (.badName '[' (chars "[")), s) := by
  obtain ⟨log, reached⟩ := exists_reachable_stranded
  have accepted : Setting.ofRequest (chars "s") (chars "k") [chars "w"] = .ok _ := rfl
  have refused : Setting.ofRequest (chars "[") (chars "k") [] = .error _ := rfl
  have read : strandedDisk.read strandedStore.path = .ok [0x5B, 0xFF] := rfl
  have missing : strandedDisk.stage strandedStore.options.stagingPath = .error .notFound := rfl
  have unreadable : readSections strandedDisk strandedStore.path = .error (.malformed [0x66] 1) :=
    rfl
  obtain ⟨_, failed⟩ := Store.run_set_of_not_staged (s := ⟨strandedStore, ⟨strandedDisk, log⟩⟩)
    accepted read missing
  obtain ⟨_, refreshed⟩ := Store.run_refresh ⟨strandedStore, ⟨strandedDisk, log⟩⟩
  dsimp only at refreshed
  rw [unreadable] at refreshed
  obtain ⟨set, _, _, refresh, _, _, _, staged⟩ := failures_leave_no_trace reached (chars "s")
    (chars "k") [chars "w"] [0x66] strandedStore.options
  obtain ⟨_, _, alike, _⟩ := failures_leave_no_trace reached (chars "[") (chars "k") [] [0x66]
    strandedStore.options
  exact ⟨_, _, _, reached, rfl, rfl, failed, set _ _ failed, (staged _ _ failed).2 rfl, refreshed,
    refresh _ _ refreshed, (alike _ refused).1⟩

end Keyfile
