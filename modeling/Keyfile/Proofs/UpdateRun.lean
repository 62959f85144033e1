import Keyfile.Proofs.ActionRun
import Keyfile.Proofs.DiskPut

namespace Keyfile

open Keyfile.Action

/-- What an outage leaves in the file of an old content in whose place a new one was to go. -/
def Outage.leaves (o : Outage) (old new : Bytes) : Bytes :=
  match o.step with
  | .scan | .openStaging | .writeStaging | .syncStaging | .reopenStaging | .openTarget => old
  | .copy => new.take o.written
  | .syncTarget | .removeStaging => new

/-- An outage during anything but the copy leaves the old content or the new one. -/
theorem Outage.leaves_of_ne_copy {o : Outage} (other : o.step ≠ .copy) (old new : Bytes) :
    o.leaves old new = old ∨ o.leaves old new = new := by
  unfold leaves
  cases step : o.step with
  | copy => exact absurd step other
  | syncTarget | removeStaging => exact Or.inr rfl
  | _ => exact Or.inl rfl

theorem Outage.leaves_of_copy {o : Outage} (copying : o.step = .copy) (old new : Bytes) :
    o.leaves old new = new.take o.written := by
  rw [leaves, copying]

namespace Update

variable {path : Path} {s : Setting} {options : Options} {h : Host} {old : Bytes}

/-- An operation has gone through, or it has failed, with such a disk left. -/
def Ends (done : Disk → Prop) (failed : Failure → Disk → Prop) :
    Except Failure Unit × Host → Prop
  | (.ok (), h) => done h.disk
  | (.error e, h) => failed e h.disk

section Ends

variable {α : Type} {outage? : Option Outage} {done : Disk → Prop} {failed : Failure → Disk → Prop}
  {step : Step} {act : Action α} {next : α → Action Unit}

/-- A step is done as if there were no outage, or it is the one that the outage befalls. -/
theorem Ends.of_attempt {cut : Nat → Disk → Disk}
    (stop : ∀ o, outage? = some o → o.step = step →
      failed (.disk o.fault) (cut o.written h.disk))
    (go : Ends done failed ((act >>= next).run h)) :
    Ends done failed ((attempt outage? step act cut >>= next).run h) := by
  cases outage? with
  | none => exact go
  | some o =>
    by_cases here : o.step = step
    · simp only [attempt, here, if_true, run_bind, run_alter, run_throw]
      exact stop o rfl here
    · simp only [attempt, here, if_false]
      exact go

theorem Ends.of_attemptWhole
    (stop : ∀ o, outage? = some o → o.step = step → failed (.disk o.fault) h.disk)
    (go : Ends done failed ((act >>= next).run h)) :
    Ends done failed ((attemptWhole outage? step act >>= next).run h) :=
  Ends.of_attempt stop go

theorem Ends.of_forced {durability : Durability} {next : Unit → Action Unit}
    (stop : ∀ o, outage? = some o → o.step = step → failed (.disk o.fault) h.disk)
    (go : Ends done failed ((next ()).run h)) :
    Ends done failed ((if durability = .forced then
      attemptWhole outage? step (pure ()) >>= next else next ()).run h) := by
  cases durability with
  | forced => exact Ends.of_attemptWhole stop go
  | deferred => exact go

theorem run_cleanly (act : Action Unit) (h : Host) :
    (cleanly act).run h =
      match act.run h with
      | (.ok (), h') => (.ok (), h')
      | (.error e, h') => (.error e, { h' with disk := h'.disk.unstage }) := by
  have bound (k : Except Failure Unit → StateM Host (Except Failure Unit)) :
      (act.run >>= k) h = k (act.run h).1 (act.run h).2 := rfl
  rw [cleanly, ExceptT.run_tryCatch, bound]
  cases act.run h with
  | mk result h' => cases result <;> rfl

theorem Ends.of_cleanly {act : Action Unit} {next : Unit → Action Unit} {done' : Disk → Prop}
    {failed' : Failure → Disk → Prop} (ended : Ends done' failed' (act.run h))
    (stop : ∀ e d, failed' e d → failed e d.unstage)
    (go : ∀ h', done' h'.disk → Ends done failed ((next ()).run h')) :
    Ends done failed ((cleanly act >>= next).run h) := by
  rw [run_bind, run_cleanly]
  generalize act.run h = r at ended ⊢
  obtain ⟨e | _, h'⟩ := r
  · exact stop e _ ended
  · exact go h' ended

end Ends

/-- Once there is a staging file, the new content gets into the file, or an outage leaves there what
it leaves of the two contents. -/
theorem ends_replace {l : Location} {rest : List (Location × Bytes)} (outage? : Option Outage)
    (read : h.disk.read path = .ok old) (staged : h.disk.staged = (l, []) :: rest)
    (durability : Durability) (content : Bytes) :
    Ends (· = { (h.disk.put path.location (.file content)) with staged := (l, content) :: rest })
      (fun _ d => ∃ o, outage? = some o ∧ d.read path = .ok (o.leaves old content) ∧
        d.unstage.staged = rest)
      ((replace outage? path durability content).run h) := by
  obtain ⟨⟨nodes, _⟩, log⟩ := h
  subst staged
  have before (part : Bytes) : (Disk.mk nodes ((l, part) :: rest)).read path = .ok old :=
    Disk.read_congr rfl read
  -- The file is emptied before the copy, so it has to be there both times.
  have emptied := Disk.read_put_of_read (before content) []
  have copied (part : Bytes) := Disk.read_put_of_read (before content) part
  unfold replace
  refine Ends.of_attempt ?_ ?_
  · rintro ⟨_, _, n⟩ given rfl
    exact ⟨_, given, before _, rfl⟩
  rw [run_bind_of_ok (run_alter ..)]
  refine Ends.of_forced ?_ (Ends.of_attemptWhole ?_ ?_)
  · rintro ⟨_, _, _⟩ given rfl
    exact ⟨_, given, before _, rfl⟩
  · rintro ⟨_, _, _⟩ given rfl
    exact ⟨_, given, before _, rfl⟩
  rw [run_bind_of_ok (run_pure ..)]
  refine Ends.of_attemptWhole ?_ ?_
  · rintro ⟨_, _, _⟩ given rfl
    exact ⟨_, given, before _, rfl⟩
  rw [run_bind_of_ok (run_change_of_ok (Disk.write_of_read (before content) [])),
    run_bind_of_ok (run_query_of_ok (f := fun d => .ok d.readStaged) rfl)]
  refine Ends.of_attempt ?_ ?_
  · rintro ⟨_, _, n⟩ given rfl
    rw [Disk.write_of_read emptied, Disk.put_put]
    exact ⟨_, given, copied _, rfl⟩
  rw [run_bind_of_ok (run_change_of_ok (Disk.write_of_read emptied _)), Disk.put_put]
  refine Ends.of_forced ?_ ?_
  · rintro ⟨_, _, _⟩ given rfl
    exact ⟨_, given, copied _, rfl⟩
  rw [run_note]
  rfl

/-- An update that can be staged ends with the new content in the file and no staging file, or
with what an outage leaves. Then the staging file is gone too, unless its removal is what failed. -/
theorem ends_run_of_stage {d : Disk} (outage? : Option Outage) (read : h.disk.read path = .ok old)
    (staged : h.disk.stage options.stagingPath = .ok d) :
    Ends (· = h.disk.put path.location (.file (s.applyTo old)))
      (fun _ d => ∃ o, outage? = some o ∧ d.read path = .ok (o.leaves old (s.applyTo old)) ∧
        (o.step ≠ .removeStaging → d.staged = h.disk.staged))
      ((run outage? path s options).run h) := by
  obtain ⟨l, rfl⟩ : ∃ l, d = { h.disk with staged := (l, []) :: h.disk.staged } := by
    unfold Disk.stage at staged
    split at staged
    · cases staged
    next l _ => exact ⟨l.dropLast, (Except.ok.inj staged).symm⟩
  unfold run
  refine Ends.of_attemptWhole ?_ ?_
  · rintro ⟨_, _, _⟩ given rfl
    exact ⟨_, given, read, fun _ => rfl⟩
  rw [run_bind_of_ok (run_query_of_ok read), run_bind_of_ok (run_note ..)]
  refine Ends.of_attemptWhole ?_ ?_
  · rintro ⟨_, _, _⟩ given rfl
    exact ⟨_, given, read, fun _ => rfl⟩
  rw [run_bind_of_ok (run_change_of_ok staged), run_bind_of_ok (run_note ..)]
  have replaced (log : List Record) :=
    ends_replace (h := ⟨{ h.disk with staged := (l, []) :: h.disk.staged }, log⟩) outage?
      (Disk.read_congr rfl read) rfl options.durability (s.applyTo old)
  refine Ends.of_cleanly (replaced _) ?_ ?_
  · rintro _ _ ⟨o, given, left, gone⟩
    exact ⟨o, given, Disk.read_congr rfl left, fun _ => gone⟩
  rintro ⟨_, log⟩ rfl
  rw [← bind_pure (attemptWhole _ _ _)]
  refine Ends.of_attemptWhole ?_ rfl
  rintro ⟨_, _, _⟩ given rfl
  exact ⟨_, given, Disk.read_put_of_read (Disk.read_congr rfl read) _,
    fun other => absurd rfl other⟩

theorem ends_run_of_refused (outage? : Option Outage)
    (refused : ∀ content d, h.disk.read path = .ok content →
      h.disk.stage options.stagingPath ≠ .ok d) :
    Ends (fun _ => False) (fun _ d => d = h.disk) ((run outage? path s options).run h) := by
  unfold run
  refine Ends.of_attemptWhole (fun _ _ _ => rfl) ?_
  cases read : h.disk.read path with
  | error e =>
    simp only [run_bind, run_query, read]
    rfl
  | ok content =>
    rw [run_bind_of_ok (run_query_of_ok read), run_bind_of_ok (run_note ..)]
    refine Ends.of_attemptWhole (fun _ _ _ => rfl) ?_
    cases staged : h.disk.stage options.stagingPath with
    | error e =>
      simp only [run_bind, run_change, staged]
      rfl
    | ok d => exact absurd staged (refused content d read)

/-- An update that can be staged brings the new content into the file and leaves no staging
file. -/
theorem run_of_stage {d : Disk} (read : h.disk.read path = .ok old)
    (staged : h.disk.stage options.stagingPath = .ok d) :
    ∃ log, (run none path s options).run h =
      (.ok (), ⟨h.disk.put path.location (.file (s.applyTo old)), log⟩) := by
  have ended := ends_run_of_stage (s := s) none read staged
  generalize (run none path s options).run h = r at ended ⊢
  obtain ⟨e | _, d', log⟩ := r
  · obtain ⟨_, given, _⟩ := ended
    cases given
  · exact ⟨log, by rw [show d' = _ from ended]⟩

theorem run_of_not_staged {e : DiskFault} (read : h.disk.read path = .ok old)
    (refused : h.disk.stage options.stagingPath = .error e) :
    ∃ log, (run none path s options).run h = (.error (.disk e), ⟨h.disk, log⟩) := by
  refine ⟨⟨.debug, target, placeMessage path s (s.slotIn old)⟩ :: h.log, ?_⟩
  simp only [run, attemptWhole, attempt, run_bind, run_query, read, run_note, run_change, refused]

/-- An update without outage either fails and leaves the disk as it is, or it brings the new content
into the file and leaves no staging file. -/
theorem run_cases (path : Path) (s : Setting) (options : Options) (h : Host) :
    (∃ e log, (run none path s options).run h = (.error e, ⟨h.disk, log⟩)) ∨
      ∃ old log, h.disk.read path = .ok old ∧ (run none path s options).run h =
        (.ok (), ⟨h.disk.put path.location (.file (s.applyTo old)), log⟩) := by
  by_cases stageable : ∃ old d, h.disk.read path = .ok old ∧
      h.disk.stage options.stagingPath = .ok d
  · obtain ⟨old, d, read, staged⟩ := stageable
    obtain ⟨log, ran⟩ := run_of_stage read staged
    exact Or.inr ⟨old, log, read, ran⟩
  · have ended := ends_run_of_refused (s := s) none fun old d read staged =>
      stageable ⟨old, d, read, staged⟩
    generalize (run none path s options).run h = r at ended ⊢
    obtain ⟨e | _, d, log⟩ := r
    · exact Or.inl ⟨e, log, by rw [show d = h.disk from ended]⟩
    · exact ended.elim

end Update

section writeSetting

variable {path : Path} {sectionName key : Text} {values : List Text} {options : Options} {h : Host}

theorem run_writeSetting_of_refused {e : Failure}
    (refused : Setting.ofRequest sectionName key values = .error e) :
    (writeSetting path sectionName key values options).run h = (.error e, h) := by
  rw [writeSetting, refused]
  rfl

/-- A setting written to a file either fails, and nothing has changed but the log, or it has gone to
the file. -/
theorem run_writeSetting_ends (path : Path) (sectionName key : Text) (values : List Text)
    (options : Options) (h : Host) :
    (∃ e log, (writeSetting path sectionName key values options).run h =
      (.error e, ⟨h.disk, log⟩)) ∨
    ∃ setting content log, Setting.ofRequest sectionName key values = .ok setting ∧
      h.disk.read path = .ok content ∧
      (writeSetting path sectionName key values options).run h =
        (.ok (), ⟨h.disk.put path.location (.file (setting.applyTo content)), log⟩) := by
  cases accepted : Setting.ofRequest sectionName key values with
  | error e => exact Or.inl ⟨e, h.log, run_writeSetting_of_refused accepted⟩
  | ok setting =>
    have ran : (writeSetting path sectionName key values options).run h =
        (Update.run none path setting options).run h := by
      rw [writeSetting, accepted]
      rfl
    rw [ran]
    refine (Update.run_cases path setting options h).imp id ?_
    rintro ⟨content, log, read, done⟩
    exact ⟨setting, content, log, rfl, read, done⟩

end writeSetting

end Keyfile
