import Mathlib.Data.List.Induction
import Keyfile.Proofs.DraftItems
import Keyfile.Store.Schedule

namespace Keyfile

def Sections.ofSettings (settings : List Setting) : Sections :=
  settings.foldl (fun s t => s.put t.sectionName t.key t.values) ∅

def Setting.isOf (name key : Text) (s : Setting) : Bool := s.sectionName = name ∧ s.key = key

namespace Sections

theorem ofSettings_concat (settings : List Setting) (s : Setting) :
    ofSettings (settings ++ [s]) = (ofSettings settings).put s.sectionName s.key s.values := by
  rw [ofSettings, List.foldl_append]
  rfl

theorem get?_keysOf_ofSettings (settings : List Setting) (name key : Text) :
    ((ofSettings settings).keysOf name).get? key =
      (settings.filter (Setting.isOf name key)).getLast?.map Setting.values := by
  induction settings using List.reverseRecOn with
  | nil => rfl
  | append_singleton settings s ih =>
    rw [ofSettings_concat, keysOf_put, List.filter_append]
    by_cases same : name = s.sectionName
    · rw [if_pos same, Table.get?_insert, ← same, ih]
      by_cases own : key = s.key
      · simp [Setting.isOf, same, own]
      · simp [Setting.isOf, own, Ne.symm own]
    · rw [if_neg same, ih]
      simp [Setting.isOf, Ne.symm same]

theorem contains_ofSettings (settings : List Setting) (name : Text) :
    (ofSettings settings).contains name ↔ ∃ s ∈ settings, s.sectionName = name := by
  induction settings using List.reverseRecOn with
  | nil => simp [ofSettings, Table.contains]
  | append_singleton settings s ih =>
    rw [ofSettings_concat, put, Table.contains_insert, ih]
    simp [or_comm, eq_comm]

/-- Only the order among settings of one key counts. -/
theorem ofSettings_congr {xs ys : List Setting}
    (same : ∀ name key, xs.filter (Setting.isOf name key) = ys.filter (Setting.isOf name key)) :
    ofSettings xs = ofSettings ys := by
  have keys (name : Text) : (ofSettings xs).keysOf name = (ofSettings ys).keysOf name := by
    apply Table.ext_get?
    intro key
    rw [get?_keysOf_ofSettings, get?_keysOf_ofSettings, same]
  have mem : ∀ s, s ∈ xs ↔ s ∈ ys := by
    intro s
    have own := congrArg (s ∈ ·) (same s.sectionName s.key)
    simpa [Setting.isOf] using own
  have contained (name : Text) : (ofSettings xs).contains name = (ofSettings ys).contains name := by
    rw [Bool.eq_iff_iff, contains_ofSettings, contains_ofSettings]
    simp only [mem]
  apply Table.ext_get?
  intro name
  have own := keys name
  have there := contained name
  rw [keysOf, keysOf] at own
  rw [Table.contains, Table.contains] at there
  cases found : (ofSettings xs).get? name <;> cases found' : (ofSettings ys).get? name <;>
    simp_all

end Sections

/-- One hold of the lock: by which thread, what for, and whether its setting is in memory. -/
structure Hold where
  thread : Nat
  errand : Errand
  committed : Bool

def Hold.committed? (h : Hold) : Option (Nat × Setting) :=
  match h.errand with
  | .save setting => if h.committed then some (h.thread, setting) else none
  | .refresh => none

/-- Threads with all holds of the lock so far, the newest first. -/
structure Recorded where
  threads : Threads
  holds : List Hold

namespace Recorded

def ofRequests (session : Session) (requests : List (List Request)) : Recorded :=
  ⟨.ofRequests session requests, []⟩

def markCommitted (i : Nat) : List Hold → List Hold
  | [] => []
  | h :: rest =>
    if h.thread = i then { h with committed := true } :: rest else h :: markCommitted i rest

/-- A step of a thread takes the lock if the thread waits for it, and brings a setting into memory
if the thread is about to do so. -/
def step (r : Recorded) (i : Nat) : Recorded :=
  ⟨r.threads.step i,
    match r.threads.each[i]? with
    | none => r.holds
    | some t =>
      match t.phase with
      | .waiting errand =>
        if r.threads.holder?.isSome then r.holds else ⟨i, errand, false⟩ :: r.holds
      | .committing _ => markCommitted i r.holds
      | _ => r.holds⟩

def run (r : Recorded) (order : List Nat) : Recorded := order.foldl step r

/-- The threads run as they do without a record. -/
theorem threads_run (r : Recorded) (order : List Nat) :
    (r.run order).threads = r.threads.run order := by
  induction order generalizing r with
  | nil => rfl
  | cons i order ih => exact ih (r.step i)

theorem threads_run_ofRequests (session : Session) (requests : List (List Request))
    (order : List Nat) : ((ofRequests session requests).run order).threads =
      (Threads.ofRequests session requests).run order := threads_run ..

/-- The settings that are in memory in the order of the lock, each with its thread. -/
def committed (r : Recorded) : List (Nat × Setting) := r.holds.reverse.filterMap Hold.committed?

def settings (r : Recorded) : List Setting := r.committed.map Prod.snd

def settingsOf (r : Recorded) (i : Nat) : List Setting :=
  (r.committed.filter (·.1 = i)).map Prod.snd

end Recorded

end Keyfile
