import Keyfile.Proofs.InStep
import Keyfile.Proofs.LockOrder

namespace Keyfile

/-- The setting that is to be saved. -/
def Errand.settings : Errand → List Setting
  | .save setting => [setting]
  | .refresh => []

def Phase.settings : Phase → List Setting
  | .waiting errand => errand.settings
  | .holding errand => errand.settings
  | .committing setting => [setting]
  | _ => []

def Request.setting? : Request → Option Setting
  | .set sectionName key values => (Setting.ofRequest sectionName key values).toOption
  | _ => none

def settingsIn (requests : List Request) : List Setting := requests.filterMap Request.setting?

/-- The settings that a thread has still to bring into memory. -/
def Thread.due (t : Thread) : List Setting := t.phase.settings ++ settingsIn t.requests

theorem Thread.due_congr {t t' : Thread} (pending : t'.phase.settings = t.phase.settings)
    (requests : t'.requests = t.requests) : t'.due = t.due := by rw [due, due, pending, requests]

theorem Thread.begin_cases (t : Thread) (memory : Sections) (idle : t.phase = .idle) :
    ((t.begin memory).phase = .idle ∨
      ∃ errand, (t.begin memory).phase = .waiting errand ∧ ∀ s ∈ errand.settings, s.Valid) ∧
    ((t.begin memory).seen = t.seen ∨ (t.begin memory).seen = memory :: t.seen) ∧
    (t.begin memory).due = t.due := by
  obtain ⟨requests, phase, endings, seen⟩ := t
  obtain rfl : phase = .idle := idle
  cases requests with
  | nil => exact ⟨Or.inl rfl, Or.inl rfl, rfl⟩
  | cons request rest =>
    cases request with
    | look => exact ⟨Or.inl rfl, Or.inr rfl, rfl⟩
    | refresh => exact ⟨Or.inr ⟨.refresh, rfl, by simp [Errand.settings]⟩, Or.inl rfl, rfl⟩
    | set sectionName key values =>
      cases made : Setting.ofRequest sectionName key values with
      | error e =>
        simp [begin, made, due, Phase.settings, settingsIn, Request.setting?, Except.toOption]
      | ok s =>
        obtain ⟨_, valid⟩ := Setting.ofRequest_eq_ok made
        simp [begin, made, due, Phase.settings, Errand.settings, settingsIn, Request.setting?,
          Except.toOption, valid]

/-- What was seen, the newest first, are the sections that settings at the front of the given ones
make, and later not fewer than before. -/
def SeenOf (settings : List Setting) (seen : List Sections) : Prop :=
  ∃ counts : List Nat, seen = counts.map (fun n => Sections.ofSettings (settings.take n)) ∧
    counts.Pairwise (· ≥ ·) ∧ ∀ n ∈ counts, n ≤ settings.length

theorem SeenOf.append {settings : List Setting} {seen : List Sections} (h : SeenOf settings seen)
    (added : List Setting) : SeenOf (settings ++ added) seen := by
  obtain ⟨counts, rfl, ordered, bounded⟩ := h
  refine ⟨counts, ?_, ordered, fun n mem => ?_⟩
  · apply List.map_congr_left
    intro n mem
    rw [List.take_append_of_le_length (bounded n mem)]
  · rw [List.length_append]
    exact Nat.le_add_right_of_le (bounded n mem)

theorem SeenOf.look {settings : List Setting} {seen : List Sections} (h : SeenOf settings seen) :
    SeenOf settings (Sections.ofSettings settings :: seen) := by
  obtain ⟨counts, rfl, ordered, bounded⟩ := h
  refine ⟨settings.length :: counts, ?_, List.pairwise_cons.mpr ⟨bounded, ordered⟩, ?_⟩
  · rw [List.map_cons, List.take_length]
  · simpa using bounded

namespace Recorded

def memory (r : Recorded) : Sections := r.threads.session.store.sections

def stages (r : Recorded) : Bool :=
  (r.threads.session.host.disk.stage r.threads.session.store.options.stagingPath).isOk

/-- The file says the sections, and has no traps. -/
def Filed (r : Recorded) (sections : Sections) : Prop :=
  ∃ blocks,
    Session.InStep ⟨{ r.threads.session.store with sections }, r.threads.session.host⟩ blocks

/-- What holds where a thread stands. Only the thread that holds the lock can find the file ahead of
memory, by the one setting that it has written. -/
def Stands (r : Recorded) (i : Nat) (t : Thread) : Prop :=
  match t.phase with
  | .idle => r.threads.holder? ≠ some i
  | .waiting errand => r.threads.holder? ≠ some i ∧ ∀ s ∈ errand.settings, s.Valid
  | .holding errand => r.threads.holder? = some i ∧ (∀ s ∈ errand.settings, s.Valid) ∧
      r.holds.head? = some ⟨i, errand, false⟩ ∧ r.Filed r.memory
  | .committing s => r.threads.holder? = some i ∧ r.stages ∧
      r.holds.head? = some ⟨i, .save s, false⟩ ∧ r.Filed (r.memory.put s.sectionName s.key s.values)
  | .replacing sections => r.threads.holder? = some i ∧ sections = r.memory ∧ r.Filed r.memory
  | .releasing => r.threads.holder? = some i ∧ r.Filed r.memory

/-- What holds after any steps of threads with given requests. -/
structure Sound (path : Path) (stages : Bool) (requests : List (List Request)) (r : Recorded) :
    Prop where
  path_eq : r.threads.session.store.path = path
  stages_eq : r.stages = stages
  length_eq : r.threads.each.length = requests.length
  memory_eq : r.memory = Sections.ofSettings r.settings
  free : r.threads.holder? = none → r.Filed r.memory
  held : ∀ i, r.threads.holder? = some i → i < r.threads.each.length
  stands : ∀ {i : Nat} {t : Thread}, r.threads.each[i]? = some t → r.Stands i t
  seen : ∀ {i : Nat} {t : Thread}, r.threads.each[i]? = some t → SeenOf r.settings t.seen
  known : ∀ e ∈ r.committed, e.1 < r.threads.each.length
  refused : stages = false → r.committed = []
  balance : stages = true → ∀ {i : Nat} {t : Thread}, r.threads.each[i]? = some t →
    r.settingsOf i ++ t.due = settingsIn (requests.getD i [])

variable {path : Path} {stages : Bool} {requests : List (List Request)} {r r' : Recorded} {i : Nat}
  {t t' : Thread}

theorem Stands.of_other {j : Nat} {u : Thread} (h : r.Stands j u)
    (before : r.threads.holder? ≠ some j) (after : r'.threads.holder? ≠ some j) :
    r'.Stands j u := by
  unfold Stands at h ⊢
  cases phase : u.phase with
  | idle => exact after
  | waiting errand =>
    rw [phase] at h
    exact ⟨after, h.2⟩
  | holding | committing | replacing | releasing =>
    rw [phase] at h
    exact absurd h.1 before

theorem Stands.of_holder {j : Nat} {u : Thread} (h : r.Stands j u) (other : j ≠ i)
    (holds : r.threads.holder? = some i) (after : r'.threads.holder? ≠ some j) : r'.Stands j u := by
  refine h.of_other ?_ after
  rw [holds]
  exact fun same => other (Option.some.inj same).symm

theorem settings_of_committed {added : List Setting}
    (committed : r'.committed = r.committed ++ added.map (i, ·)) :
    r'.settings = r.settings ++ added := by
  rw [settings, committed, List.map_append, List.map_map]
  exact congrArg _ (List.map_id added)

theorem settingsOf_of_committed {added : List Setting}
    (committed : r'.committed = r.committed ++ added.map (i, ·)) :
    r'.settingsOf i = r.settingsOf i ++ added := by
  rw [settingsOf, committed, List.filter_append, List.map_append, List.filter_map]
  simp [settingsOf, Function.comp_def]

theorem settingsOf_of_committed_of_ne {added : List Setting} {j : Nat} (other : j ≠ i)
    (committed : r'.committed = r.committed ++ added.map (i, ·)) :
    r'.settingsOf j = r.settingsOf j := by
  rw [settingsOf, committed, List.filter_append, List.map_append, List.filter_map]
  simp [settingsOf, Function.comp_def, Ne.symm other]

/-- One thread takes a step, and no more than one setting comes into memory. -/
theorem Sound.change (h : r.Sound path stages requests) (here : r.threads.each[i]? = some t)
    (each : r'.threads.each = r.threads.each.set i t')
    (same : r'.threads.session.store.path = r.threads.session.store.path)
    (staging : r'.stages = r.stages) (added : List Setting)
    (committed : r'.committed = r.committed ++ added.map (i, ·))
    (memory : r'.memory = Sections.ofSettings r'.settings)
    (free : r'.threads.holder? = none → r'.Filed r'.memory)
    (held : ∀ j, r'.threads.holder? = some j → j = i ∨ r.threads.holder? = some j)
    (stands : r'.Stands i t') (others : ∀ j u, j ≠ i → r.Stands j u → r'.Stands j u)
    (seen : t'.seen = t.seen ∨ t'.seen = r'.memory :: t.seen) (granted : added ≠ [] → r.stages)
    (due : r.stages → added ++ t'.due = t.due) : r'.Sound path stages requests := by
  have length : r'.threads.each.length = r.threads.each.length := by rw [each, List.length_set]
  have bound : i < r.threads.each.length := (List.getElem?_eq_some_iff.mp here).1
  have settings := settings_of_committed committed
  -- A thread of the new state is the one that took the step or another, which is as it was.
  have found : ∀ {j u}, r'.threads.each[j]? = some u →
      (j = i ∧ u = t') ∨ (j ≠ i ∧ r.threads.each[j]? = some u) := by
    intro j u there
    rw [each] at there
    by_cases own : j = i
    · subst own
      rw [List.getElem?_set_self bound] at there
      exact Or.inl ⟨rfl, (Option.some.inj there).symm⟩
    · rw [List.getElem?_set_ne (Ne.symm own)] at there
      exact Or.inr ⟨own, there⟩
  refine ⟨same.trans h.path_eq, staging.trans h.stages_eq, length.trans h.length_eq, memory, free,
    ?_, ?_, ?_, ?_, ?_, ?_⟩
  · intro j holds
    rw [length]
    rcases held j holds with rfl | holds
    · exact bound
    · exact h.held j holds
  · intro j u there
    rcases found there with ⟨rfl, rfl⟩ | ⟨other, there⟩
    · exact stands
    · exact others j u other (h.stands there)
  · intro j u there
    have earlier {v : Thread} (there : r.threads.each[j]? = some v) :
        SeenOf r'.settings v.seen := by
      rw [settings]
      exact (h.seen there).append added
    rcases found there with ⟨rfl, rfl⟩ | ⟨_, there⟩
    · rcases seen with same | looked
      · rw [same]
        exact earlier here
      · rw [looked, memory]
        exact (earlier here).look
    · exact earlier there
  · intro e mem
    rw [committed, List.mem_append] at mem
    rw [length]
    rcases mem with mem | mem
    · exact h.known e mem
    · obtain ⟨s, _, rfl⟩ := List.mem_map.mp mem
      exact bound
  · intro never
    have none : added = [] := by
      by_contra filled
      have staged := granted filled
      rw [h.stages_eq, never] at staged
      cases staged
    rw [committed, h.refused never, none]
    rfl
  · intro always j u there
    rcases found there with ⟨rfl, rfl⟩ | ⟨other, there⟩
    · rw [settingsOf_of_committed committed, List.append_assoc, due (h.stages_eq.trans always)]
      exact h.balance always here
    · rw [settingsOf_of_committed_of_ne other committed]
      exact h.balance always there

/-- One thread takes a step that brings nothing into memory. -/
theorem Sound.keep (h : r.Sound path stages requests) (here : r.threads.each[i]? = some t)
    (each : r'.threads.each = r.threads.each.set i t')
    (same : r'.threads.session.store.path = r.threads.session.store.path)
    (staging : r'.stages = r.stages) (committed : r'.committed = r.committed)
    (memory : r'.memory = r.memory) (free : r'.threads.holder? = none → r'.Filed r'.memory)
    (held : ∀ j, r'.threads.holder? = some j → j = i ∨ r.threads.holder? = some j)
    (stands : r'.Stands i t') (others : ∀ j u, j ≠ i → r.Stands j u → r'.Stands j u)
    (seen : t'.seen = t.seen ∨ t'.seen = r'.memory :: t.seen) (due : r.stages → t'.due = t.due) :
    r'.Sound path stages requests := by
  have settings : r'.settings = r.settings := congrArg (List.map Prod.snd) committed
  refine h.change here each same staging [] ?_ ?_ free held stands others seen
    (fun filled => absurd rfl filled) due
  · rw [committed, List.map_nil, List.append_nil]
  · rw [memory, h.memory_eq, settings]

theorem committed_cons (threads : Threads) (hold : Hold) (holds : List Hold) :
    (Recorded.mk threads (hold :: holds)).committed =
      (Recorded.mk threads holds).committed ++ hold.committed?.toList := by
  rw [committed, List.reverse_cons, List.filterMap_append, committed]
  cases found : hold.committed? <;> simp [found]

section step

variable (h : r.Sound path stages requests) (here : r.threads.each[i]? = some t)

include h here

theorem Sound.begin (phase : t.phase = .idle) : (r.step i).Sound path stages requests := by
  obtain ⟨waits, seen, due⟩ := t.begin_cases r.memory phase
  have away := h.stands here
  rw [Stands, phase] at away
  have stepped : r.step i = ⟨r.threads.withThread i (t.begin r.memory), r.holds⟩ := by
    simp [step, Threads.step, here, phase, memory]
  rw [stepped]
  refine h.keep here rfl rfl rfl rfl rfl h.free (fun _ => Or.inr) ?_ (fun _ _ _ => id) seen
    (fun _ => due)
  rcases waits with idle | ⟨errand, waiting, valid⟩
  · rw [Stands, idle]
    exact away
  · rw [Stands, waiting]
    exact ⟨away, valid⟩

theorem Sound.acquire {errand : Errand} (phase : t.phase = .waiting errand) :
    (r.step i).Sound path stages requests := by
  have stands := h.stands here
  rw [Stands, phase] at stands
  obtain ⟨_, valid⟩ := stands
  cases holder : r.threads.holder? with
  | some j =>
    have stepped : r.step i = r := by simp [step, Threads.step, here, phase, holder]
    rw [stepped]
    exact h
  | none =>
    have stepped : r.step i = ⟨{ r.threads with holder? := some i }.withThread i
        { t with phase := .holding errand }, ⟨i, errand, false⟩ :: r.holds⟩ := by
      simp [step, Threads.step, here, phase, holder]
    have uncommitted : (Hold.mk i errand false).committed? = none := by cases errand <;> rfl
    rw [stepped]
    refine h.keep here rfl rfl rfl ?_ rfl (fun released => ?_) (fun j holds => ?_) ?_
      (fun j u other stands => ?_) (Or.inl rfl) (fun _ => Thread.due_congr (by rw [phase]; rfl) rfl)
    · rw [committed_cons, uncommitted]
      exact List.append_nil _
    · cases released
    · exact Or.inl (Option.some.inj holds).symm
    · exact ⟨rfl, valid, rfl, h.free holder⟩
    · refine stands.of_other (by simp [holder]) ?_
      exact fun holds => other (Option.some.inj holds).symm

/-- The thread under the lock changes the session, and keeps the lock. -/
theorem Sound.work {session : Session} (holds : r.threads.holder? = some i)
    (store : session.store = r.threads.session.store)
    (staging : (session.host.disk.stage session.store.options.stagingPath).isOk = r.stages)
    (seen : t'.seen = t.seen) (due : r.stages → t'.due = t.due)
    (stands : Stands ⟨{ r.threads with session }.withThread i t', r.holds⟩ i t') :
    Sound path stages requests ⟨{ r.threads with session }.withThread i t', r.holds⟩ := by
  refine h.keep here rfl (congrArg Store.path store) staging rfl (congrArg Store.sections store)
    (fun released => ?_) (fun _ => Or.inr) stands (fun j u other stands => ?_) (Or.inl seen) due
  · cases holds.symm.trans released
  · refine stands.of_holder other holds fun same => other ?_
    exact Option.some.inj (same.symm.trans holds)

theorem Sound.save {s : Setting} (phase : t.phase = .holding (.save s)) :
    (r.step i).Sound path stages requests := by
  have stands := h.stands here
  rw [Stands, phase] at stands
  obtain ⟨holds, valid, head, blocks, ⟨content, read, laidOut⟩, plain, said⟩ := stands
  let store := r.threads.session.store
  let host := r.threads.session.host
  cases staged : host.disk.stage store.options.stagingPath with
  | error e =>
    obtain ⟨log, ran⟩ := Update.run_of_not_staged (s := s) read staged
    have stepped : r.step i = ⟨{ r.threads with session := ⟨store, ⟨host.disk, log⟩⟩ }.withThread i
        (t.finish (some (.disk e))), r.holds⟩ := by
      simp [step, Threads.step, here, phase, Threads.errand, StoreAction.run_onHost, saveSetting,
        ran, host, store]
    have refused : r.stages = false := congrArg Except.isOk staged
    rw [stepped]
    refine h.work here holds rfl rfl rfl (fun stages => ?_)
      ⟨holds, blocks, ⟨content, read, laidOut⟩, plain, said⟩
    rw [refused] at stages
    cases stages
  | ok d =>
    -- From here to the commit the file is ahead of memory, by this one setting.
    obtain ⟨log, ran⟩ := Update.run_of_stage (s := s) read staged
    have stepped : r.step i = ⟨{ r.threads with
        session := ⟨store, ⟨host.disk.put store.path.location (.file (s.applyTo content)), log⟩⟩
        }.withThread i { t with phase := .committing s }, r.holds⟩ := by
      simp [step, Threads.step, here, phase, Threads.errand, StoreAction.run_onHost, saveSetting,
        ran, host, store]
    have stages : r.stages := congrArg Except.isOk staged
    have staging := Disk.isOk_stage_put read (s.applyTo content) store.options.stagingPath
    obtain ⟨blocks', laidOut', plain', sections, _⟩ := laidOut.exists_applyTo plain (valid s (by
      simp [Errand.settings]))
    rw [stepped]
    refine h.work here holds rfl staging rfl (fun _ => Thread.due_congr (by rw [phase]; rfl) rfl)
      ⟨holds, staging.trans stages, head, blocks', ⟨_, Disk.read_put_of_read read _, laidOut'⟩,
        plain', ?_⟩
    rw [sections, said]
    rfl

theorem Sound.reread (phase : t.phase = .holding .refresh) :
    (r.step i).Sound path stages requests := by
  have stands := h.stands here
  rw [Stands, phase] at stands
  obtain ⟨holds, -, -, blocks, inStep⟩ := stands
  obtain ⟨log, ran⟩ := run_sectionsOfFile r.threads.session.store.path r.threads.session.host
  rw [inStep.readSections_eq] at ran
  have stepped : r.step i = ⟨{ r.threads with
      session := ⟨r.threads.session.store, ⟨r.threads.session.host.disk, log⟩⟩
      }.withThread i { t with phase := .replacing r.memory }, r.holds⟩ := by
    simp [step, Threads.step, here, phase, Threads.errand, StoreAction.run_onHost, ran]
  rw [stepped]
  exact h.work here holds rfl rfl rfl (fun _ => Thread.due_congr (by rw [phase]; rfl) rfl)
    ⟨holds, rfl, blocks, inStep.of_log log⟩

theorem Sound.replace {sections : Sections} (phase : t.phase = .replacing sections) :
    (r.step i).Sound path stages requests := by
  have stands := h.stands here
  rw [Stands, phase] at stands
  obtain ⟨holds, rfl, filed⟩ := stands
  have stepped : r.step i =
      ⟨{ r.threads with session := r.threads.session }.withThread i (t.finish none), r.holds⟩ := by
    simp [step, Threads.step, here, phase, memory]
  rw [stepped]
  exact h.work here holds rfl rfl rfl (fun _ => Thread.due_congr (by rw [phase]; rfl) rfl)
    ⟨holds, filed⟩

theorem Sound.release (phase : t.phase = .releasing) : (r.step i).Sound path stages requests := by
  have stands := h.stands here
  rw [Stands, phase] at stands
  obtain ⟨holds, filed⟩ := stands
  have stepped : r.step i =
      ⟨{ r.threads with holder? := none }.withThread i { t with phase := .idle }, r.holds⟩ := by
    simp [step, Threads.step, here, phase]
  rw [stepped]
  have released (j : Nat) : (none : Option Nat) ≠ some j := Option.some_ne_none j |>.symm
  exact h.keep here rfl rfl rfl rfl rfl (fun _ => filed)
    (fun j holds' => absurd holds' (released j))
    (released i) (fun j u other stands => stands.of_holder other holds (released j)) (Or.inl rfl)
    (fun _ => Thread.due_congr (by rw [phase]; rfl) rfl)

theorem Sound.commit {s : Setting} (phase : t.phase = .committing s) :
    (r.step i).Sound path stages requests := by
  have stands := h.stands here
  rw [Stands, phase] at stands
  obtain ⟨holds, staged, head, blocks, inStep⟩ := stands
  obtain ⟨earlier, split⟩ : ∃ earlier, r.holds = ⟨i, .save s, false⟩ :: earlier :=
    List.head?_eq_some_iff.mp head
  obtain ⟨log, ran⟩ := Store.run_commit s r.threads.session
  let session : Session := ⟨r.threads.session.store.keep s, ⟨r.threads.session.host.disk, log⟩⟩
  have stepped : r.step i = ⟨{ r.threads with session }.withThread i (t.finish none),
      ⟨i, .save s, true⟩ :: earlier⟩ := by
    simp [step, Threads.step, here, phase, ran, session, split, markCommitted]
  have before : r.committed = (Recorded.mk r.threads earlier).committed := by
    rw [show r = ⟨r.threads, r.holds⟩ from rfl, split, committed_cons]
    exact List.append_nil _
  have committed : (r.step i).committed = r.committed ++ [s].map (i, ·) := by
    rw [stepped, before, committed_cons]
    rfl
  have memory : (r.step i).memory = Sections.ofSettings (r.step i).settings := by
    rw [settings_of_committed committed, Sections.ofSettings_concat, ← h.memory_eq, stepped]
    rfl
  rw [stepped] at committed memory ⊢
  refine h.change here rfl rfl rfl [s] committed memory (fun released => ?_) (fun _ => Or.inr)
    ⟨holds, blocks, inStep.of_log log⟩ (fun j u other stands => ?_) (Or.inl rfl) (fun _ => staged)
    (fun _ => ?_)
  · cases holds.symm.trans released
  · refine stands.of_holder other holds fun same => other ?_
    exact Option.some.inj (same.symm.trans holds)
  · rw [Thread.due, Thread.due, phase]
    rfl

end step

theorem Sound.step (h : r.Sound path stages requests) (i : Nat) :
    (r.step i).Sound path stages requests := by
  cases here : r.threads.each[i]? with
  | none =>
    have stepped : r.step i = r := by simp [Recorded.step, Threads.step, here]
    rwa [stepped]
  | some t =>
    cases phase : t.phase with
    | idle => exact h.begin here phase
    | waiting errand => exact h.acquire here phase
    | holding errand =>
      cases errand with
      | save s => exact h.save here phase
      | refresh => exact h.reread here phase
    | committing s => exact h.commit here phase
    | replacing sections => exact h.replace here phase
    | releasing => exact h.release here phase

theorem Sound.run (h : r.Sound path stages requests) (order : List Nat) :
    (r.run order).Sound path stages requests := by
  induction order generalizing r with
  | nil => exact h
  | cons i order ih => exact ih (h.step i)

end Recorded

end Keyfile
