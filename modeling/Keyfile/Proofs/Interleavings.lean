import Keyfile.Proofs.Serialized

namespace Keyfile

def Phase.isIdle : Phase → Bool
  | .idle => true
  | _ => false

def Threads.finished (s : Threads) : Bool :=
  s.each.all fun t => t.requests.isEmpty && t.phase.isIdle

/-- No key of a section is set by two of the threads. -/
def Apart (requests : List (List Request)) : Prop :=
  requests.Pairwise fun xs ys => ∀ s ∈ settingsIn xs, ∀ t ∈ settingsIn ys,
    ¬ (s.sectionName = t.sectionName ∧ s.key = t.key)

instance (requests : List (List Request)) : Decidable (Apart requests) :=
  inferInstanceAs (Decidable (requests.Pairwise _))

theorem Apart.eq_of_isOf {requests : List (List Request)} (apart : Apart requests) {i j : Nat}
    {xs ys : List Request} (hi : requests[i]? = some xs) (hj : requests[j]? = some ys)
    {name key : Text} {s t : Setting} (hs : s ∈ settingsIn xs) (ht : t ∈ settingsIn ys)
    (own : s.isOf name key) (own' : t.isOf name key) : i = j := by
  obtain ⟨ilt, rfl⟩ := List.getElem?_eq_some_iff.mp hi
  obtain ⟨jlt, rfl⟩ := List.getElem?_eq_some_iff.mp hj
  have apart := List.pairwise_iff_getElem.mp apart
  obtain ⟨hname, hkey⟩ : s.sectionName = name ∧ s.key = key := by simpa [Setting.isOf] using own
  obtain ⟨hname', hkey'⟩ : t.sectionName = name ∧ t.key = key := by simpa [Setting.isOf] using own'
  rcases Nat.lt_trichotomy i j with before | same | after
  · exact absurd ⟨hname.trans hname'.symm, hkey.trans hkey'.symm⟩
      (apart i j ilt jlt before s hs t ht)
  · exact same
  · exact absurd ⟨hname'.trans hname.symm, hkey'.trans hkey.symm⟩
      (apart j i jlt ilt after t ht s hs)

/-- What is selected from lists one after the other comes from one of them if no other one has any
of it. -/
theorem filter_flatMap_of_only {α β : Type} {f : α → List β} {p : β → Bool} {xs : List α} {i : Nat}
    {x : α} (here : xs[i]? = some x)
    (only : ∀ {j y}, j ≠ i → xs[j]? = some y → (f y).filter p = []) :
    (xs.flatMap f).filter p = (f x).filter p := by
  induction xs generalizing i with
  | nil => simp at here
  | cons y ys ih =>
    rw [List.flatMap_cons, List.filter_append]
    cases i with
    | zero =>
      obtain rfl : y = x := by simpa using here
      have others : (ys.flatMap f).filter p = [] := by
        rw [List.filter_flatMap, List.flatMap_eq_nil_iff]
        intro z mem
        obtain ⟨j, there⟩ := List.mem_iff_getElem?.mp mem
        exact only (j := j + 1) (by omega) there
      rw [others, List.append_nil]
    | succ i =>
      have first : (f y).filter p = [] := only (j := 0) (by omega) rfl
      rw [first, List.nil_append]
      exact ih here fun {j} _ other there => only (j := j + 1) (by omega) (by simpa using there)

namespace Recorded

variable {path : Path} {stages : Bool} {requests : List (List Request)} {r : Recorded}

/-- Settings that only one thread has made stand in the order in which it made them. -/
theorem filter_settings {p : Setting → Bool} {i : Nat} (only : ∀ e ∈ r.committed, p e.2 → e.1 = i) :
    r.settings.filter p = (r.settingsOf i).filter p := by
  rw [settings, settingsOf, List.filter_map, List.filter_map, List.filter_filter]
  congr 1
  apply List.filter_congr
  intro e mem
  have own := only e mem
  by_cases selected : p e.2 <;> simp_all

theorem Sound.settingsOf_eq (h : r.Sound path stages requests) (finished : r.threads.finished)
    (staged : stages = true) {i : Nat} {xs : List Request} (here : requests[i]? = some xs) :
    r.settingsOf i = settingsIn xs := by
  have bound : i < r.threads.each.length := by
    rw [h.length_eq]
    exact (List.getElem?_eq_some_iff.mp here).1
  have there : r.threads.each[i]? = some r.threads.each[i] := List.getElem?_eq_getElem bound
  have done := List.all_eq_true.mp finished _ (List.getElem_mem bound)
  rw [Bool.and_eq_true, List.isEmpty_iff] at done
  have due : r.threads.each[i].due = [] := by
    rw [Thread.due, done.1]
    cases phase : r.threads.each[i].phase <;> simp_all [Phase.isIdle, Phase.settings, settingsIn]
  have balance := h.balance staged there
  rw [due, List.append_nil, List.getD_eq_getElem?_getD, here] at balance
  exact balance

/-- What threads bring into memory that set different keys, thread by thread. -/
def final (stages : Bool) (requests : List (List Request)) : Sections :=
  Sections.ofSettings (if stages then requests.flatMap settingsIn else [])

/-- Once the threads are finished, the settings of one key stand in memory in the order of the one
thread that makes them. -/
theorem Sound.filter_settings_eq (h : r.Sound path true requests) (finished : r.threads.finished)
    (apart : Apart requests) (name key : Text) :
    r.settings.filter (Setting.isOf name key) =
      (requests.flatMap settingsIn).filter (Setting.isOf name key) := by
  have origin : ∀ e ∈ r.committed, ∃ xs, requests[e.1]? = some xs ∧ e.2 ∈ settingsIn xs := by
    intro e mem
    have bound := h.known e mem
    rw [h.length_eq] at bound
    have there : requests[e.1]? = some requests[e.1] := List.getElem?_eq_getElem bound
    refine ⟨_, there, ?_⟩
    rw [← h.settingsOf_eq finished rfl there]
    exact List.mem_map.mpr ⟨e, List.mem_filter.mpr ⟨mem, by simp⟩, rfl⟩
  by_cases set : ∃ xs ∈ requests, ∃ s ∈ settingsIn xs, s.isOf name key
  · obtain ⟨xs, hxs, s, hs, own⟩ := set
    obtain ⟨i, here⟩ := List.mem_iff_getElem?.mp hxs
    have only : ∀ e ∈ r.committed, e.2.isOf name key → e.1 = i := by
      intro e mem own'
      obtain ⟨ys, there, hy⟩ := origin e mem
      exact apart.eq_of_isOf there here hy hs own' own
    rw [filter_settings only, h.settingsOf_eq finished rfl here]
    refine (filter_flatMap_of_only here fun {j ys} other there => ?_).symm
    rw [List.filter_eq_nil_iff]
    exact fun t ht own' => other (apart.eq_of_isOf there here ht hs own' own)
  · have none : ∀ xs ∈ requests, ∀ s ∈ settingsIn xs, ¬ s.isOf name key :=
      fun xs hxs s hs own => set ⟨xs, hxs, s, hs, own⟩
    have requested : (requests.flatMap settingsIn).filter (Setting.isOf name key) = [] := by
      rw [List.filter_eq_nil_iff]
      intro s mem
      obtain ⟨xs, hxs, hs⟩ := List.mem_flatMap.mp mem
      exact none xs hxs s hs
    rw [requested, List.filter_eq_nil_iff]
    intro s mem
    obtain ⟨e, he, rfl⟩ := List.mem_map.mp mem
    obtain ⟨xs, there, hs⟩ := origin e he
    exact none xs (List.mem_of_getElem? there) e.2 hs

theorem Sound.memory_of_finished (h : r.Sound path stages requests)
    (finished : r.threads.finished) (apart : Apart requests) :
    r.memory = final stages requests := by
  rw [h.memory_eq, final]
  cases stages with
  | false =>
    have nothing : r.settings = [] := congrArg (List.map Prod.snd) (h.refused rfl)
    rw [nothing]
    rfl
  | true =>
    rw [if_pos rfl]
    exact Sections.ofSettings_congr (h.filter_settings_eq finished apart)

theorem Sound.free_of_finished (h : r.Sound path stages requests) (finished : r.threads.finished) :
    r.threads.holder? = none := by
  cases holder : r.threads.holder? with
  | none => rfl
  | some i =>
    have bound := h.held i holder
    have stands := h.stands (List.getElem?_eq_getElem bound)
    have done := List.all_eq_true.mp finished _ (List.getElem_mem bound)
    rw [Bool.and_eq_true] at done
    unfold Stands at stands
    cases phase : r.threads.each[i].phase <;> simp_all [Phase.isIdle]

theorem Filed.read_eq {sections : Sections} (h : r.Filed sections) :
    ((sectionsOfFile r.threads.session.store.path).run r.threads.session.host).1 =
      .ok sections := by
  obtain ⟨blocks, inStep⟩ := h
  obtain ⟨log, ran⟩ := run_sectionsOfFile r.threads.session.store.path r.threads.session.host
  rw [ran]
  exact inStep.readSections_eq

theorem sound_ofRequests {session : Session} (requests : List (List Request))
    (empty : session.store.sections = ∅) (inStep : ∃ blocks, session.InStep blocks) :
    (ofRequests session requests).Sound session.store.path (ofRequests session requests).stages
      requests := by
  have found {i : Nat} {t : Thread}
      (here : (ofRequests session requests).threads.each[i]? = some t) :
      ∃ xs, requests[i]? = some xs ∧ t = .ofRequests xs := by
    simp only [ofRequests, Threads.ofRequests, List.getElem?_map] at here
    obtain ⟨xs, there, rfl⟩ := Option.map_eq_some_iff.mp here
    exact ⟨xs, there, rfl⟩
  refine ⟨rfl, rfl, by simp [ofRequests, Threads.ofRequests], empty, fun _ => inStep,
    by simp [ofRequests, Threads.ofRequests], fun here => ?_, fun here => ?_,
    by simp [ofRequests, committed], fun _ => rfl, fun _ {i t} here => ?_⟩
  · obtain ⟨xs, _, rfl⟩ := found here
    simp [Stands, Thread.ofRequests, ofRequests, Threads.ofRequests]
  · obtain ⟨xs, _, rfl⟩ := found here
    exact ⟨[], rfl, .nil, by simp⟩
  · obtain ⟨xs, there, rfl⟩ := found here
    rw [List.getD_eq_getElem?_getD, there]
    rfl

end Recorded

structure Threads.Settled (path : Path) (s : Threads) (sections : Sections) : Prop where
  memory : s.session.store.sections = sections
  file : ((sectionsOfFile path).run s.session.host).1 = .ok sections

/-- Memory is what the settings that are in it make in the order of the lock, no thread has seen
anything but what settings at the front of that order make, and the file says the same as memory
while the lock is free. -/
structure Recorded.Serialized (path : Path) (r : Recorded) : Prop where
  memory : r.threads.session.store.sections = Sections.ofSettings r.settings
  seen : ∀ t ∈ r.threads.each, SeenOf r.settings t.seen
  settled : r.threads.holder? = none → r.threads.Settled path (Sections.ofSettings r.settings)

namespace Recorded

variable {path : Path} {stages : Bool} {requests : List (List Request)} {r : Recorded}

theorem Sound.settled (h : r.Sound path stages requests) (free : r.threads.holder? = none) :
    r.threads.Settled path r.memory := by
  have read := (h.free free).read_eq
  rw [h.path_eq] at read
  exact ⟨rfl, read⟩

theorem Sound.serialized (h : r.Sound path stages requests) : r.Serialized path := by
  refine ⟨h.memory_eq, fun t mem => ?_, fun free => h.memory_eq ▸ h.settled free⟩
  obtain ⟨i, here⟩ := List.mem_iff_getElem?.mp mem
  exact h.seen here

end Recorded

def twoThreads : List (List Request) :=
  [[.set (chars "A") (chars "k") [chars "1"], .look],
    [.set (chars "a") (chars "j") [chars "2", chars "3"], .refresh]]

end Keyfile
