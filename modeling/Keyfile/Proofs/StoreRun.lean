import Keyfile.Proofs.UpdateRun

namespace Keyfile

section sectionsOfFile

open Keyfile.Action

variable {path : Path} {h : Host}

def readSections (d : Disk) (path : Path) : Except Failure Sections :=
  match d.read path with
  | .error e => .error (.disk e)
  | .ok content =>
    match parse content with
    | .error n => .error (.malformed path n)
    | .ok sections => .ok sections

theorem readSections_eq_ok {d : Disk} {sections : Sections} :
    readSections d path = .ok sections ↔
      ∃ content, d.read path = .ok content ∧ parse content = .ok sections := by
  unfold readSections
  cases d.read path with
  | error e => simp
  | ok content => cases parsed : parse content <;> simp [parsed]

theorem run_forM_noteEntry (entries : List (Text × Text × List Text)) (h : Host) :
    ∃ log, (entries.forM noteEntry).run h = (.ok (), ⟨h.disk, log⟩) := by
  induction entries generalizing h with
  | nil => exact ⟨h.log, rfl⟩
  | cons entry entries ih =>
    obtain ⟨log, told⟩ := ih ((noteEntry entry).run h).2
    refine ⟨log, ?_⟩
    change ((noteEntry entry >>= fun _ => entries.forM noteEntry) : Action Unit).run h = _
    rw [run_bind, noteEntry, run_note]
    exact told

theorem run_sectionsOfFile (path : Path) (h : Host) :
    ∃ log, (sectionsOfFile path).run h = (readSections h.disk path, ⟨h.disk, log⟩) := by
  unfold sectionsOfFile readSections
  cases read : h.disk.read path with
  | error e =>
    refine ⟨h.log, ?_⟩
    simp only [run_bind, run_query, read]
  | ok content =>
    obtain ⟨log, told⟩ := run_forM_noteEntry (entriesAfter none (readContent content).items) h
    simp only [run_bind, run_query, read, told]
    cases parsed : (readContent content).sections with
    | error n =>
      refine ⟨log, ?_⟩
      rw [parse, parsed, run_throw]
    | ok sections =>
      refine ⟨⟨.debug, contentTarget, chars "Loaded " ++ Text.ofNat sections.size ++
        chars " sections from " ++ decode path⟩ :: log, ?_⟩
      rw [parse, parsed]
      simp only [run_bind, run_note, run_pure]

theorem run_noteExtract (path : Path) (name : Text) (found : Extract) (h : Host) :
    ∃ log, (noteExtract path name found).run h = (.ok (), ⟨h.disk, log⟩) := by
  unfold noteExtract
  cases found.extent with
  | absent => exact ⟨_, run_note ..⟩
  | toBracket => exact ⟨_, run_note ..⟩
  | toEnd => exact ⟨_, run_pure ..⟩

theorem run_sectionOfFile {content : Bytes} {name : Text} {found : Extract}
    (read : h.disk.read path = .ok content) (extracted : extract name content = .ok found) :
    ∃ log, (sectionOfFile path name).run h = (.ok found.keys, ⟨h.disk, log⟩) := by
  obtain ⟨log, told⟩ := run_noteExtract path (normalName name) found h
  refine ⟨log, ?_⟩
  simp only [sectionOfFile, run_bind, run_query, read, extracted, told, run_pure]

end sectionsOfFile

namespace Store

open StoreAction

variable {s : Session} {sectionName key : Text} {values : List Text}

theorem run_set_of_refused {e : Failure}
    (refused : Setting.ofRequest sectionName key values = .error e) :
    (set sectionName key values).run s = (.error e, s) := by
  simp only [set, setDuring, run_bind, run_liftExcept, refused]

theorem run_commit (setting : Setting) (s : Session) :
    ∃ log, (commit setting).run s = (.ok (), ⟨s.store.keep setting, ⟨s.host.disk, log⟩⟩) :=
  ⟨_, rfl⟩

/-- A request that is accepted is an update of the file and, if that goes through, one of memory. -/
theorem run_setDuring {setting : Setting} {outage? : Option Outage}
    (accepted : Setting.ofRequest sectionName key values = .ok setting) :
    (setDuring outage? sectionName key values).run s =
      match (Update.run outage? s.store.path setting s.store.options).run s.host with
      | (.ok (), h) => (commit setting).run ⟨s.store, h⟩
      | (.error e, h) => (.error e, ⟨s.store, h⟩) := by
  simp only [setDuring, run_bind, run_liftExcept, accepted, run_getThe, run_onHost]
  rcases (Update.run outage? s.store.path setting s.store.options).run s.host with ⟨_ | _, h⟩ <;> rfl

/-- A setting that can be staged goes to the file and to memory. -/
theorem run_set_of_stage {setting : Setting} {content : Bytes} {d : Disk}
    (accepted : Setting.ofRequest sectionName key values = .ok setting)
    (read : s.host.disk.read s.store.path = .ok content)
    (staged : s.host.disk.stage s.store.options.stagingPath = .ok d) :
    ∃ log, (set sectionName key values).run s = (.ok (), ⟨s.store.keep setting,
      ⟨s.host.disk.put s.store.path.location (.file (setting.applyTo content)), log⟩⟩) := by
  obtain ⟨log, updated⟩ := Update.run_of_stage (s := setting) read staged
  obtain ⟨log', committed⟩ := run_commit setting ⟨s.store, ⟨s.host.disk.put s.store.path.location
    (.file (setting.applyTo content)), log⟩⟩
  refine ⟨log', ?_⟩
  rw [set, run_setDuring accepted, updated]
  exact committed

theorem run_set_of_not_staged {setting : Setting} {content : Bytes} {e : DiskFault}
    (accepted : Setting.ofRequest sectionName key values = .ok setting)
    (read : s.host.disk.read s.store.path = .ok content)
    (refused : s.host.disk.stage s.store.options.stagingPath = .error e) :
    ∃ log, (set sectionName key values).run s =
      (.error (.disk e), ⟨s.store, ⟨s.host.disk, log⟩⟩) := by
  obtain ⟨log, updated⟩ := Update.run_of_not_staged (s := setting) read refused
  exact ⟨log, by rw [set, run_setDuring accepted, updated]⟩

/-- A request succeeds if it is accepted and can be staged. -/
theorem run_set_ok_iff {content : Bytes} (read : s.host.disk.read s.store.path = .ok content)
    (sectionName key : Text) (values : List Text) :
    ((set sectionName key values).run s).1 = .ok () ↔
      (∃ setting, Setting.ofRequest sectionName key values = .ok setting) ∧
        ∃ d, s.host.disk.stage s.store.options.stagingPath = .ok d := by
  cases accepted : Setting.ofRequest sectionName key values with
  | error e => simp [run_set_of_refused accepted]
  | ok setting =>
    cases staged : s.host.disk.stage s.store.options.stagingPath with
    | error e =>
      obtain ⟨log, failed⟩ := run_set_of_not_staged accepted read staged
      simp [failed]
    | ok d =>
      obtain ⟨log, done⟩ := run_set_of_stage accepted read staged
      simp [done]

/-- What was told before makes no difference to a request. -/
theorem run_set_of_log {content : Bytes} (read : s.host.disk.read s.store.path = .ok content)
    (sectionName key : Text) (values : List Text) (log : List Record) :
    ∃ log', (set sectionName key values).run ⟨s.store, ⟨s.host.disk, log⟩⟩ =
      (((set sectionName key values).run s).1, ⟨((set sectionName key values).run s).2.store,
        ⟨((set sectionName key values).run s).2.host.disk, log'⟩⟩) := by
  cases accepted : Setting.ofRequest sectionName key values with
  | error e => exact ⟨log, by simp only [run_set_of_refused accepted]⟩
  | ok setting =>
    cases staged : s.host.disk.stage s.store.options.stagingPath with
    | error e =>
      obtain ⟨_, failed⟩ := run_set_of_not_staged accepted read staged
      obtain ⟨log', failed'⟩ := run_set_of_not_staged (s := ⟨s.store, ⟨s.host.disk, log⟩⟩)
        accepted read staged
      exact ⟨log', by rw [failed, failed']⟩
    | ok d =>
      obtain ⟨_, done⟩ := run_set_of_stage accepted read staged
      obtain ⟨log', done'⟩ := run_set_of_stage (s := ⟨s.store, ⟨s.host.disk, log⟩⟩)
        accepted read staged
      exact ⟨log', by rw [done, done']⟩

/-- A request either fails, and nothing has changed but the log, or it has gone to the file and to
memory. -/
theorem run_set_ends (sectionName key : Text) (values : List Text) (s : Session) :
    (∃ e log, (set sectionName key values).run s =
      (.error e, ⟨s.store, ⟨s.host.disk, log⟩⟩)) ∨
    ∃ setting content log, Setting.ofRequest sectionName key values = .ok setting ∧
      s.host.disk.read s.store.path = .ok content ∧
      (set sectionName key values).run s = (.ok (), ⟨s.store.keep setting,
        ⟨s.host.disk.put s.store.path.location (.file (setting.applyTo content)), log⟩⟩) := by
  cases accepted : Setting.ofRequest sectionName key values with
  | error e => exact Or.inl ⟨e, s.host.log, run_set_of_refused accepted⟩
  | ok setting =>
    rcases Update.run_cases s.store.path setting s.store.options s.host with
      ⟨e, log, ran⟩ | ⟨content, log, read, ran⟩
    · exact Or.inl ⟨e, log, by rw [set, run_setDuring accepted, ran]⟩
    · obtain ⟨log', committed⟩ := run_commit setting ⟨s.store, ⟨s.host.disk.put
        s.store.path.location (.file (setting.applyTo content)), log⟩⟩
      refine Or.inr ⟨setting, content, log', rfl, read, ?_⟩
      rw [set, run_setDuring accepted, ran]
      exact committed

theorem run_set_cases {content : Bytes} (read : s.host.disk.read s.store.path = .ok content)
    (sectionName key : Text) (values : List Text) :
    (∃ e log, (set sectionName key values).run s =
      (.error e, ⟨s.store, ⟨s.host.disk, log⟩⟩)) ∨
    (∃ setting log, Setting.ofRequest sectionName key values = .ok setting ∧
      (set sectionName key values).run s = (.ok (), ⟨s.store.keep setting,
        ⟨s.host.disk.put s.store.path.location (.file (setting.applyTo content)), log⟩⟩)) := by
  refine (run_set_ends sectionName key values s).imp id ?_
  rintro ⟨setting, content', log, accepted, read', ran⟩
  obtain rfl : content' = content := Except.ok.inj (read'.symm.trans read)
  exact ⟨setting, log, accepted, ran⟩

theorem run_refresh (s : Session) :
    ∃ log, refresh.run s =
      match readSections s.host.disk s.store.path with
      | .ok sections => (.ok (), ⟨{ s.store with sections }, ⟨s.host.disk, log⟩⟩)
      | .error e => (.error e, ⟨s.store, ⟨s.host.disk, log⟩⟩) := by
  obtain ⟨log, read⟩ := run_sectionsOfFile s.store.path s.host
  refine ⟨log, ?_⟩
  change ((onHost (sectionsOfFile s.store.path) >>= fun sections =>
    modify fun s => { s with store := { s.store with sections } }) : StoreAction Unit).run s = _
  rw [run_bind, run_onHost, read]
  cases readSections s.host.disk s.store.path <;> rfl

theorem of_create {path : Path} {comments : List Text} {options : Options} {h h' : Host}
    {store : Store} (created : (create path comments options).run h = (.ok store, h')) :
    store = ⟨path, options, ∅⟩ ∧
      h.disk.create path (encode (commentLines comments)) = .ok h'.disk := by
  cases written : h.disk.create path (encode (commentLines comments)) with
  | error e =>
    simp only [create, Action.run_bind, Action.run_change, written] at created
    cases created
  | ok d =>
    simp only [create, Action.run_bind, Action.run_change, written, Action.run_note,
      Action.run_pure] at created
    obtain ⟨made, rfl⟩ := Prod.mk.inj created
    exact ⟨(Except.ok.inj made).symm, rfl⟩

theorem read_of_create {path : Path} {comments : List Text} {options : Options} {h h' : Host}
    {store : Store} (created : (create path comments options).run h = (.ok store, h')) :
    store = ⟨path, options, ∅⟩ ∧
      h'.disk.read path = .ok (encode (commentLines comments)) :=
  (of_create created).imp id Disk.read_create

theorem run_ofFile (path : Path) (options : Options) (h : Host) :
    ∃ log, (ofFile path options).run h =
      match readSections h.disk path with
      | .ok sections => (.ok ⟨path, options, sections⟩, ⟨h.disk, log⟩)
      | .error e => (.error e, ⟨h.disk, log⟩) := by
  obtain ⟨log, read⟩ := run_sectionsOfFile path h
  refine ⟨log, ?_⟩
  rw [ofFile, Action.run_bind, read]
  cases readSections h.disk path <;> rfl

theorem of_ofFile {path : Path} {options : Options} {h h' : Host} {store : Store}
    (made : (ofFile path options).run h = (.ok store, h')) :
    h'.disk = h.disk ∧ ∃ sections, readSections h.disk path = .ok sections ∧
      store = ⟨path, options, sections⟩ := by
  obtain ⟨log, ran⟩ := run_ofFile path options h
  rw [ran] at made
  cases read : readSections h.disk path with
  | error e =>
    rw [read] at made
    cases made
  | ok sections =>
    rw [read] at made
    cases made
    exact ⟨rfl, sections, rfl, rfl⟩

end Store

end Keyfile
