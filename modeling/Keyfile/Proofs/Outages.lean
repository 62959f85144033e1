import Keyfile.Proofs.StoreRun

namespace Keyfile

/-- A content stands whole at a path or in a staging file. -/
def Disk.Holds (d : Disk) (p : Path) (content : Bytes) : Prop :=
  d.read p = .ok content ∨ ∃ l, (l, content) ∈ d.staged

variable {s s' : Session} {sectionName key : Text} {values : List Text} {setting : Setting}
  {outage? : Option Outage} {e : Failure} {old : Bytes}

/-- A setting that is accepted and still fails has failed to update the file. -/
theorem Store.of_failed_setDuring
    (accepted : Setting.ofRequest sectionName key values = .ok setting)
    (failed : (Store.setDuring outage? sectionName key values).run s = (.error e, s')) :
    s'.store = s.store ∧
      (Update.run outage? s.store.path setting s.store.options).run s.host = (.error e, s'.host) := by
  rw [Store.run_setDuring accepted] at failed
  generalize (Update.run outage? s.store.path setting s.store.options).run s.host = r at failed ⊢
  obtain ⟨_ | _, h⟩ := r
  · cases failed
    exact ⟨rfl, rfl⟩
  · obtain ⟨log, committed⟩ := Store.run_commit setting ⟨s.store, h⟩
    cases committed.symm.trans failed

def oneKeySession : Session where
  store := ⟨[0x66], .usual [dot], Sections.put ∅ (chars "s") (chars "k") [chars "v"]⟩
  host := ⟨⟨[([[0x66]], .file (encode (chars "[s]\nk = v\n")))], []⟩, []⟩

/-- What is left of the store when the copy fails after three bytes. -/
def cutSession : Session :=
  ((Store.setDuring (some ⟨.copy, .notFound, 3⟩) (chars "s") (chars "k") [chars "w"]).run
    oneKeySession).2

theorem run_setDuring_cut :
    (Store.setDuring (some ⟨.copy, .notFound, 3⟩) (chars "s") (chars "k") [chars "w"]).run
      oneKeySession = (.error (.disk .notFound), cutSession) := rfl

theorem read_cutSession : cutSession.host.disk.read [0x66] = .ok (encode (chars "[s]")) := rfl

end Keyfile
