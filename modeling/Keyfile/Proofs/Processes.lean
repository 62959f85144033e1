import Keyfile.Proofs.ToolRun

namespace Keyfile

/-- What processes on a file have led to: the disk that they leave, the store that was kept open and
had the same done to it, and the sections that the settings which succeeded make. -/
inductive Ran (file : Path) : Disk → Session → Sections → Prop
  | created {i : Invocation} {systemDir : Path} {comments : List Text} {d : Disk} {ending : Ending}
      {host made : Host} {store : Store} :
      i.file = file → i.command = .create comments → (∀ c ∈ comments, '\n' ∉ c) →
      i.run systemDir ⟨d, []⟩ = (ending, host) →
      (Store.create file comments (i.options systemDir)).run ⟨d, []⟩ = (.ok store, made) →
      Ran file host.disk ⟨store, made⟩ ∅
  | next {i : Invocation} {systemDir : Path} {d : Disk} {s s' : Session} {map : Sections}
      {ending : Ending} {host : Host} {result : Except Failure Ending} :
      Ran file d s map → i.file = file → (∀ comments, i.command ≠ .create comments) →
      i.run systemDir ⟨d, []⟩ = (ending, host) →
      (i.command.onOpen (i.options systemDir)).run s = (result, s') →
      Ran file host.disk s' (i.command.sectionsAfter map ending.code)

theorem runTool_of_demand {arguments : List Text} {i : Invocation}
    (demand : Demand.ofArguments arguments = .run i) (systemDir : Path) (host : Host) :
    runTool arguments systemDir host = i.run systemDir host := by
  rw [runTool, demand]

namespace Invocation

variable {i : Invocation} {systemDir : Path} {ending : Ending} {host host' : Host}

theorem code_of_run (ran : i.run systemDir host = (ending, host')) :
    ending.code = 0 ∨ ending.code = 1 := by
  cases performed : (i.command.perform i.file (i.options systemDir)).run host with
  | mk result h =>
    obtain ⟨log, ran'⟩ := exists_run performed
    cases ran'.symm.trans ran
    cases result with
    | ok ending => exact i.command.perform_gives i.file (i.options systemDir) _ _ _ performed
    | error e => exact Or.inr rfl

theorem run_create {comments : List Text} (asked : i.command = .create comments)
    {created : Except Failure Store} {made : Host}
    (store : (Store.create i.file comments (i.options systemDir)).run host = (created, made))
    (ran : i.run systemDir host = (ending, host')) :
    ending = .ofResult (created.map fun _ => .success []) ∧ host'.disk = made.disk := by
  obtain ⟨_, performed⟩ := Command.exists_run_perform_create i.file comments (i.options systemDir)
    host
  rw [store, ← asked] at performed
  obtain ⟨_, ran'⟩ := exists_run performed
  rw [ran'] at ran
  cases ran
  exact ⟨rfl, rfl⟩

/-- A process on a file that is in step with a store does what the store does. -/
theorem run_of_inStep {s s' : Session} {blocks : List Block} {result : Except Failure Ending}
    (h : s.InStep blocks) (distinct : (headingsOf (itemsOf blocks)).Nodup)
    (same : i.file = s.store.path) (later : ∀ comments, i.command ≠ .create comments)
    {log : List Record} (ran : i.run systemDir ⟨s.host.disk, log⟩ = (ending, host'))
    (kept : (i.command.onOpen (i.options systemDir)).run s = (result, s')) :
    ending = .ofResult result ∧ host'.disk = s'.host.disk := by
  obtain ⟨_, performed⟩ := Command.exists_run_perform h distinct later (i.options systemDir) log
  rw [kept, ← same] at performed
  obtain ⟨_, ran'⟩ := exists_run performed
  rw [ran'] at ran
  cases ran
  exact ⟨rfl, rfl⟩

end Invocation

namespace Ran

variable {file : Path} {d : Disk} {s : Session} {map : Sections}

/-- Processes leave the disk that the store leaves that was kept open, in step with it. -/
theorem exists_inStep (h : Ran file d s map) :
    s.host.disk = d ∧ s.store.path = file ∧ s.store.sections = map ∧
      ∃ blocks, s.InStep blocks ∧ (headingsOf (itemsOf blocks)).Nodup := by
  -- Each process reads what the one before it wrote, so it is not enough for the induction that the
  -- two disks are the same.
  induction h with
  | created same asked single ran made =>
    subst same
    obtain ⟨_, disk⟩ := Invocation.run_create asked made ran
    obtain ⟨rfl, inStep⟩ := Session.inStep_of_create single made
    exact ⟨disk.symm, rfl, rfl, _, inStep, nodup_commentBlocks _⟩
  | next _ same later ran kept ih =>
    obtain ⟨rfl, path, rfl, blocks, inStep, distinct⟩ := ih
    obtain ⟨rfl, disk⟩ := Invocation.run_of_inStep inStep distinct (same.trans path.symm) later ran
      kept
    obtain ⟨path', sections, after⟩ := inStep.exists_onOpen distinct later kept
    exact ⟨disk.symm, path'.trans path, sections, after⟩

end Ran

/-- A process is what its arguments ask for, and it exits with 0 or 1. One that makes the file new
does, on any disk, what making a store does. Each later one ends, and leaves the disk, as its
command does on the store that was kept open, with the options of the process. A setting exits with
0 if it is accepted and can be staged, and leaves the disk as it is otherwise. Values are printed as
they were last set, trimmed and without their backslashes, and a section read on its own in the
order of its keys. What does not write leaves the disk as it is. -/
theorem processes_act_as_one_store {i : Invocation} {systemDir : Path} {d : Disk} {ending : Ending}
    {host : Host} (ran : i.run systemDir ⟨d, []⟩ = (ending, host)) :
    (∀ arguments, Demand.ofArguments arguments = .run i →
      runTool arguments systemDir ⟨d, []⟩ = (ending, host)) ∧
    (ending.code = 0 ∨ ending.code = 1) ∧
    (∀ comments, i.command = .create comments →
      ∀ created made,
        (Store.create i.file comments (i.options systemDir)).run ⟨d, []⟩ = (created, made) →
        ending = .ofResult (created.map fun _ => .success []) ∧ host.disk = made.disk) ∧
    ∀ s map, Ran i.file d s map → (∀ comments, i.command ≠ .create comments) →
      s.host.disk = d ∧ s.store.sections = map ∧
      (∀ result s', (i.command.onOpen (i.options systemDir)).run s = (result, s') →
        ending = .ofResult result ∧ host.disk = s'.host.disk) ∧
      (∀ sectionName key values, i.command = .set sectionName key values →
        ending.output = [] ∧
        (ending.code = 0 ↔
          (∃ setting, Setting.ofRequest sectionName key values = .ok setting) ∧
            ∃ d', d.stage (i.options systemDir).stagingPath = .ok d') ∧
        (ending.code ≠ 0 → host.disk = d)) ∧
      (∀ sectionName key, i.command = .get sectionName key →
        ending = .success ((((map.get? (normalName sectionName)).bind
          (·.get? (normalName key))).getD [[]]).map (·.filter (· ≠ '\\')))) ∧
      (∀ sectionName, i.command = .read sectionName →
        Ordered (map.keysOf (normalName sectionName)).entries ∧
        ending = .success
          ((map.keysOf (normalName sectionName)).entries.map Command.entryLine)) ∧
      (i.command.writes = false → host.disk = d) := by
  refine ⟨fun _ demand => (runTool_of_demand demand ..).trans ran, Invocation.code_of_run ran,
    fun comments asked created made store => Invocation.run_create asked store ran,
    fun s map history later => ?_⟩
  obtain ⟨rfl, path, rfl, blocks, inStep, distinct⟩ := history.exists_inStep
  have follows : ∀ result s', (i.command.onOpen (i.options systemDir)).run s = (result, s') →
      ending = .ofResult result ∧ host.disk = s'.host.disk := fun result s' =>
    Invocation.run_of_inStep inStep distinct path.symm later ran
  have answers : i.command.writes = false →
      ending = .ofResult (i.command.answer s.store) ∧ host.disk = s.host.disk := fun reads =>
    follows _ _ (Command.run_onOpen_of_reads reads)
  refine ⟨rfl, rfl, follows, fun sectionName key values asked => ?_,
    fun sectionName key asked => ?_, fun sectionName asked => ?_, fun reads => (answers reads).2⟩
  · cases applied : (i.command.onOpen (i.options systemDir)).run s with
    | mk result s' =>
      obtain ⟨rfl, disk⟩ := follows result s' applied
      rw [asked] at applied
      rw [disk]
      exact inStep.of_onOpen_set applied
  · obtain ⟨said, _⟩ := answers (by rw [asked]; rfl)
    rw [said, asked, Command.answer, Ending.ofResult,
      Store.get_eq_of_filled fun _ => inStep.values_ne_nil]
  · obtain ⟨said, _⟩ := answers (by rw [asked]; rfl)
    rw [said, asked]
    exact ⟨Table.ordered _, rfl⟩

def smallDisk (content : Text) : Disk where
  nodes := [([[0x66]], .file (encode content)), ([[0x74]], .directory)]
  staged := []

def onF (words : List String) : List Text := (["-f", "f"] ++ words).map chars

/-- The disk after one process that makes the file new and one that sets a key. -/
def setDisk : Disk := smallDisk (chars "# c\n\n[s]\nk = v\\ w\n")

theorem exists_ran_setDisk :
    ∃ s, Ran [0x66] setDisk s (Sections.put ∅ (chars "s") (chars "k") [chars "v\\ w"]) := by
  let create : Invocation := ⟨[0x66], some [0xFF], .create [chars "c"]⟩
  let set : Invocation := ⟨[0x66], none, .set (chars " S") (chars "K") [chars "v\\ w "]⟩
  obtain ⟨_, ran⟩ : ∃ log, create.run [0x74] ⟨smallDisk [], []⟩ =
    (.success [], ⟨smallDisk (chars "# c\n"), log⟩) := ⟨_, rfl⟩
  obtain ⟨log, made⟩ : ∃ log, (Store.create [0x66] [chars "c"] (.usual [0xFF])).run
    ⟨smallDisk [], []⟩ = (.ok ⟨[0x66], .usual [0xFF], ∅⟩, ⟨smallDisk (chars "# c\n"), log⟩) :=
    ⟨_, rfl⟩
  obtain ⟨_, ran'⟩ : ∃ log', set.run [0x74] ⟨smallDisk (chars "# c\n"), []⟩ =
    (.success [], ⟨setDisk, log'⟩) := ⟨_, rfl⟩
  obtain ⟨_, kept⟩ : ∃ log', (set.command.onOpen (.usual [0x74])).run
    ⟨⟨[0x66], .usual [0xFF], ∅⟩, ⟨smallDisk (chars "# c\n"), log⟩⟩ =
      (.ok (.success []), ⟨⟨[0x66], .usual [0x74], Sections.put ∅ (chars "s") (chars "k")
        [chars "v\\ w"]⟩, ⟨setDisk, log'⟩⟩) := ⟨_, rfl⟩
  have created : Ran [0x66] _ _ ∅ := .created rfl rfl (by decide) ran made
  exact ⟨_, created.next rfl (by simp [set]) ran' kept⟩

/-- After them, one process prints the values of the key, and one the section. -/
theorem processes_act_as_one_store_set :
    (∃ log, runTool (onF ["get", "s", "k"]) [0x74] ⟨setDisk, []⟩ =
      (.success [chars "v w"], ⟨setDisk, log⟩)) ∧
    ∃ log, runTool (onF ["read", "S"]) [0x74] ⟨setDisk, []⟩ =
      (.success [chars "k = v\\ w"], ⟨setDisk, log⟩) := by
  obtain ⟨s, history⟩ := exists_ran_setDisk
  constructor
  · let get : Invocation := ⟨[0x66], none, .get (chars "s") (chars "k")⟩
    cases ran : get.run [0x74] ⟨setDisk, []⟩ with
    | mk ending host =>
      obtain ⟨asked, _, _, after⟩ := processes_act_as_one_store ran
      obtain ⟨_, _, _, _, printed, _, kept⟩ := after s _ history (by simp [get])
      exact ⟨host.log, by rw [asked _ rfl, printed _ _ rfl, ← kept rfl]; rfl⟩
  · let read : Invocation := ⟨[0x66], none, .read (chars "S")⟩
    cases ran : read.run [0x74] ⟨setDisk, []⟩ with
    | mk ending host =>
      obtain ⟨asked, _, _, after⟩ := processes_act_as_one_store ran
      obtain ⟨_, _, _, _, _, printed, kept⟩ := after s _ history (by simp [read])
      exact ⟨host.log, by rw [asked _ rfl, (printed _ rfl).2, ← kept rfl]; rfl⟩

/-- A process that is given a directory that is not there refuses a setting that is accepted. The
store that was kept open, which stages in the directory of the first process, carries it out. -/
theorem not_set_without_directory :
    ∃ made log log' log'',
      (Store.create [0x66] [] (.usual [0x74])).run ⟨smallDisk [], []⟩ =
        (.ok ⟨[0x66], .usual [0x74], ∅⟩, made) ∧
      runTool (onF ["--temp-dir", "t", "create"]) [dot] ⟨smallDisk [], []⟩ =
        (.success [], ⟨made.disk, log⟩) ∧
      Setting.ofRequest (chars "s") (chars "k") [chars "v"] =
        .ok ⟨chars "s", chars "k", [chars "v"]⟩ ∧
      runTool (onF ["--temp-dir", "u", "set", "s", "k", "v"]) [dot] ⟨made.disk, []⟩ =
        (.refusal, ⟨smallDisk [], log'⟩) ∧
      (Store.set (chars "s") (chars "k") [chars "v"]).run ⟨⟨[0x66], .usual [0x74], ∅⟩, made⟩ =
        (.ok (), ⟨⟨[0x66], .usual [0x74], Sections.put ∅ (chars "s") (chars "k") [chars "v"]⟩,
          ⟨smallDisk (chars "\n[s]\nk = v\n"), log''⟩⟩) :=
  ⟨_, _, _, _, rfl, rfl, rfl, rfl, rfl⟩

end Keyfile
