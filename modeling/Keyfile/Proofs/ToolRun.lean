import Keyfile.Tool.Run
import Keyfile.Proofs.ExtractSection
import Keyfile.Proofs.InStep
import Keyfile.Proofs.KeptForm

namespace Keyfile

theorem Action.run_liftExcept {α : Type} (x : Except Failure α) (h : Host) :
    (liftExcept x : Action α).run h = (x, h) := by
  cases x <;> rfl

theorem Store.run_apart {α : Type} (store : Store) (act : StoreAction α) (h : Host) :
    (store.apart act).run h = ((act.run ⟨store, h⟩).1, (act.run ⟨store, h⟩).2.host) := rfl

theorem Store.get_eq_of_filled {store : Store} {sectionName key : Text}
    (filled : ∀ values, (store.sections.get? (normalName sectionName)).bind
      (·.get? (normalName key)) = some values → values ≠ []) :
    store.get sectionName key =
      (((store.sections.get? (normalName sectionName)).bind
        (·.get? (normalName key))).getD [[]]).map (·.filter (· ≠ '\\')) := by
  unfold get
  cases found : (store.sections.get? (normalName sectionName)).bind (·.get? (normalName key)) with
  | none => rfl
  | some values =>
    cases values with
    | nil => exact absurd rfl (filled [] found)
    | cons v rest => rfl

namespace Command

def writes : Command → Bool
  | create _ | set .. => true
  | _ => false

/-- What a store says to a command, from memory. -/
def answer (store : Store) : Command → Except Failure Ending
  | create _ | set .. => .ok (.success [])
  | get sectionName key => .ok (.success (store.get sectionName key))
  | sections => .ok (.success store.sectionNames)
  | keys sectionName =>
    match store.keyNames? sectionName with
    | some names => .ok (.success names)
    | none => .ok .refusal
  | check sectionName key? =>
    .ok (if store.has (sectionName :: key?.toList) then .success [] else .refusal)
  | read sectionName =>
    .ok (.success ((store.sections.keysOf (normalName sectionName)).entries.map entryLine))
  | dump => store.dump.map fun text => .success [text]

/-- A command applied to a store that is kept open, with the options that come with the command. -/
def onOpen (options : Options) (command : Command) : StoreAction Ending := do
  if let .set sectionName key values := command then
    modify fun s => { s with store := { s.store with options } }
    Store.set sectionName key values
  liftExcept (command.answer (← getThe Session).store)

def sectionsAfter (map : Sections) (code : Nat) : Command → Sections
  | set sectionName key values =>
    if code = 0 then map.put (normalName sectionName) (normalName key) (Setting.kept values)
    else map
  | _ => map

end Command

def Ending.ofResult : Except Failure Ending → Ending
  | .ok ending => ending
  | .error _ => .refusal

namespace Invocation

def options (i : Invocation) (systemDir : Path) : Options :=
  .usual (i.stagingDir?.getD systemDir)

theorem exists_run {i : Invocation} {systemDir : Path} {h h' : Host}
    {result : Except Failure Ending}
    (ran : (i.command.perform i.file (i.options systemDir)).run h = (result, h')) :
    ∃ log, i.run systemDir h = (.ofResult result, ⟨h'.disk, log⟩) := by
  have ran' : (i.command.perform i.file (.usual (i.stagingDir?.getD systemDir))).run h =
    (result, h') := ran
  simp only [run, ran']
  cases result with
  | ok ending => exact ⟨_, rfl⟩
  | error e => exact ⟨_, rfl⟩

end Invocation

namespace Command

open Keyfile.Action

variable {s : Session} {blocks : List Block} {command : Command} {options : Options}

/-- Whatever the file says, a command that comes to its end says yes or no. -/
theorem perform_gives (command : Command) (file : Path) (options : Options) :
    (command.perform file options).Gives fun ending => ending.code = 0 ∨ ending.code = 1 := by
  have yes (lines : List Text) : (pure (Ending.success lines) : Action Ending).Gives
      fun ending => ending.code = 0 ∨ ending.code = 1 := .of_pure (Or.inl rfl)
  have no : (pure Ending.refusal : Action Ending).Gives
      fun ending => ending.code = 0 ∨ ending.code = 1 := .of_pure (Or.inr rfl)
  cases command with
  | create => exact .bind fun _ => .bind fun _ => yes _
  | get => exact .bind fun _ => yes _
  | set => exact .bind fun _ => .bind fun _ => .bind fun _ => yes _
  | sections => exact .bind fun _ => yes _
  | keys =>
    refine .bind fun store => ?_
    split
    · exact yes _
    · exact .bind fun _ => no
  | check =>
    refine .bind fun store => ?_
    split
    · exact yes _
    · exact no
  | read => exact .bind fun _ => yes _
  | dump => exact .bind fun _ => .bind fun _ => yes _

theorem exists_run_perform_create (file : Path) (comments : List Text) (options : Options)
    (h : Host) :
    ∃ log, ((create comments).perform file options).run h =
      (((Store.create file comments options).run h).1.map fun _ => .success [],
        ⟨((Store.create file comments options).run h).2.disk, log⟩) := by
  simp only [perform, run_bind, run_note, run_pure]
  rcases (Store.create file comments options).run h with ⟨_ | _, h'⟩
  · exact ⟨_, rfl⟩
  · exact ⟨_, rfl⟩

/-- A command that changes nothing says what the store says that was kept. -/
theorem exists_run_perform_of_reads (h : s.InStep blocks)
    (distinct : (headingsOf (itemsOf blocks)).Nodup) (reads : command.writes = false)
    (options : Options) (log : List Record) :
    ∃ log', (command.perform s.store.path options).run ⟨s.host.disk, log⟩ =
      (command.answer s.store, ⟨s.host.disk, log'⟩) := by
  obtain ⟨log', opened⟩ : ∃ log', (Store.ofFile s.store.path options).run ⟨s.host.disk, log⟩ =
      (.ok ⟨s.store.path, options, s.store.sections⟩, ⟨s.host.disk, log'⟩) :=
    (h.of_log log).exists_ofFile options
  cases command with
  | create => cases reads
  | set => cases reads
  | get => exact ⟨log', run_bind_of_ok opened _⟩
  | sections => exact ⟨log', run_bind_of_ok opened _⟩
  | check => exact ⟨log', run_bind_of_ok opened _⟩
  | keys sectionName =>
    have same : (Store.mk s.store.path options s.store.sections).keyNames? sectionName =
      s.store.keyNames? sectionName := rfl
    rw [perform, run_bind_of_ok opened, answer, same]
    cases s.store.keyNames? sectionName with
    | some names => exact ⟨log', rfl⟩
    | none => exact ⟨_, rfl⟩
  | read sectionName =>
    obtain ⟨content, read, laidOut⟩ := h.file
    obtain ⟨found, extracted, keys⟩ := laidOut.exists_extract distinct sectionName
    obtain ⟨log', ran⟩ := run_sectionOfFile (h := ⟨s.host.disk, log⟩) read extracted
    rw [keys, h.memory] at ran
    exact ⟨log', run_bind_of_ok ran _⟩
  | dump =>
    have same : (Store.mk s.store.path options s.store.sections).dump = s.store.dump := rfl
    rw [perform, run_bind_of_ok opened, run_bind, run_liftExcept, answer, same]
    refine ⟨log', ?_⟩
    cases s.store.dump <;> rfl

theorem sectionsAfter_of_reads {map : Sections} {code : Nat} (reads : command.writes = false) :
    command.sectionsAfter map code = map := by
  cases command with
  | create => cases reads
  | set => cases reads
  | _ => rfl

theorem run_onOpen_of_reads (reads : command.writes = false) :
    (command.onOpen options).run s = (command.answer s.store, s) := by
  cases command with
  | create => cases reads
  | set => cases reads
  | get => rfl
  | sections => rfl
  | check => rfl
  | keys => exact StoreAction.run_liftExcept ..
  | read => rfl
  | dump => exact StoreAction.run_liftExcept ..

theorem run_onOpen_set (sectionName key : Text) (values : List Text) :
    ((set sectionName key values).onOpen options).run s =
      match (Store.set sectionName key values).run ⟨{ s.store with options }, s.host⟩ with
      | (.ok (), s') => (.ok (.success []), s')
      | (.error e, s') => (.error e, s') := by
  change ((Store.set sectionName key values >>= fun _ => pure (.success [])) :
    StoreAction Ending).run ⟨{ s.store with options }, s.host⟩ = _
  rw [StoreAction.run_bind]
  rcases (Store.set sectionName key values).run ⟨{ s.store with options }, s.host⟩ with ⟨_ | _, s'⟩
  · rfl
  · rfl

/-- A command on a file that is in step with a store does what it does to the store. -/
theorem exists_run_perform (h : s.InStep blocks) (distinct : (headingsOf (itemsOf blocks)).Nodup)
    (later : ∀ comments, command ≠ create comments) (options : Options) (log : List Record) :
    ∃ log', (command.perform s.store.path options).run ⟨s.host.disk, log⟩ =
      (((command.onOpen options).run s).1,
        ⟨((command.onOpen options).run s).2.host.disk, log'⟩) := by
  by_cases reads : command.writes = false
  · rw [run_onOpen_of_reads reads]
    exact exists_run_perform_of_reads h distinct reads options log
  cases command with
  | create comments => exact absurd rfl (later comments)
  | set sectionName key values =>
    obtain ⟨content, read, _⟩ := h.file
    obtain ⟨log₁, opened⟩ := (h.of_log log).exists_ofFile options
    obtain ⟨log₂, alike⟩ := Store.run_set_of_log (s := ⟨{ s.store with options }, s.host⟩) read
      sectionName key values log₁
    have applied : (({ s.store with options } : Store).apart
        (Store.set sectionName key values)).run ⟨s.host.disk, log₁⟩ = _ :=
      (Store.run_apart ..).trans (by rw [alike])
    rw [perform, run_bind_of_ok opened, run_bind, applied, run_onOpen_set]
    rcases (Store.set sectionName key values).run ⟨{ s.store with options }, s.host⟩ with
      ⟨_ | _, s'⟩
    · exact ⟨_, rfl⟩
    · exact ⟨_, rfl⟩
  | _ => exact absurd rfl reads

end Command

namespace Session.InStep

variable {s : Session} {blocks : List Block} {command : Command}

/-- A command leaves the store in step with its file, and with the sections that it asks for if it
succeeds. -/
theorem exists_onOpen (h : s.InStep blocks) (distinct : (headingsOf (itemsOf blocks)).Nodup)
    (later : ∀ comments, command ≠ .create comments) {options : Options}
    {result : Except Failure Ending} {s' : Session}
    (ran : (command.onOpen options).run s = (result, s')) :
    s'.store.path = s.store.path ∧
      s'.store.sections =
        command.sectionsAfter s.store.sections (Ending.ofResult result).code ∧
      ∃ blocks', s'.InStep blocks' ∧ (headingsOf (itemsOf blocks')).Nodup := by
  by_cases reads : command.writes = false
  · rw [Command.run_onOpen_of_reads reads] at ran
    cases ran
    exact ⟨rfl, (Command.sectionsAfter_of_reads reads).symm, blocks, h, distinct⟩
  cases command with
  | create comments => exact absurd rfl (later comments)
  | set sectionName key values =>
    have opened := h.of_options options
    rw [Command.run_onOpen_set] at ran
    cases applied :
        (Store.set sectionName key values).run ⟨{ s.store with options }, s.host⟩ with
    | mk outcome s₁ =>
      rw [applied] at ran
      cases outcome with
      | ok _ =>
        cases ran
        obtain ⟨setting, blocks', accepted, inStep, store, keeps⟩ := opened.exists_set applied
        obtain ⟨rfl, _⟩ := Setting.ofRequest_eq_ok accepted
        rw [store]
        exact ⟨rfl, rfl, blocks', inStep, keeps distinct⟩
      | error e =>
        cases ran
        obtain ⟨inStep, store⟩ := opened.of_failed_set applied
        rw [store]
        exact ⟨rfl, rfl, blocks, inStep, distinct⟩
  | _ => exact absurd rfl reads

/-- A setting says nothing. It succeeds if it is accepted and can be staged, and otherwise it leaves
the disk as it is. -/
theorem of_onOpen_set (h : s.InStep blocks) {sectionName key : Text} {values : List Text}
    {options : Options} {result : Except Failure Ending} {s' : Session}
    (ran : ((Command.set sectionName key values).onOpen options).run s = (result, s')) :
    (Ending.ofResult result).output = [] ∧
      ((Ending.ofResult result).code = 0 ↔
        (∃ setting, Setting.ofRequest sectionName key values = .ok setting) ∧
          ∃ d, s.host.disk.stage options.stagingPath = .ok d) ∧
      ((Ending.ofResult result).code ≠ 0 → s'.host.disk = s.host.disk) := by
  obtain ⟨content, read, _⟩ := h.file
  have succeeds : ((Store.set sectionName key values).run
      ⟨{ s.store with options }, s.host⟩).1 = .ok () ↔
        (∃ setting, Setting.ofRequest sectionName key values = .ok setting) ∧
          ∃ d, s.host.disk.stage options.stagingPath = .ok d :=
    Store.run_set_ok_iff (s := ⟨{ s.store with options }, s.host⟩) read sectionName key values
  rw [Command.run_onOpen_set] at ran
  cases applied : (Store.set sectionName key values).run ⟨{ s.store with options }, s.host⟩ with
  | mk outcome s₁ =>
    rw [applied] at ran succeeds
    cases outcome with
    | ok _ =>
      cases ran
      exact ⟨rfl, iff_of_true rfl (succeeds.mp rfl), fun failed => absurd rfl failed⟩
    | error e =>
      cases ran
      have fails : (Ending.ofResult (.error e)).code ≠ 0 := Nat.one_ne_zero
      exact ⟨rfl, iff_of_false fails (fun both => nomatch succeeds.mpr both),
        fun _ => (same_of_failed_set applied).2⟩

theorem values_ne_nil (h : s.InStep blocks) {sectionName key : Text} {values : List Text}
    (found : s.values? sectionName key = some values) : values ≠ [] := by
  obtain ⟨content, _, laidOut⟩ := h.file
  have kept := kept_of_parse laidOut.parse_eq
  rw [h.memory] at kept
  exact (kept.of_values? found).2.2.filled

end Session.InStep

end Keyfile
