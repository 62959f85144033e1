import Keyfile.Disk

namespace Keyfile

namespace Disk

variable {d d' : Disk} {p : Path} {l : Location}

theorem lookup_filter_ne (nodes : List (Location × Node)) {m : Location} (other : m ≠ l) :
    (nodes.filter fun e => e.1 ≠ l).lookup m = nodes.lookup m := by
  induction nodes with
  | nil => rfl
  | cons e nodes ih =>
    obtain ⟨k, n⟩ := e
    by_cases kept : k = l
    · have apart : (m == k) = false := by simpa [kept] using other
      rw [List.filter_cons_of_neg (by simp [kept]), ih, List.lookup_cons, apart]
    · rw [List.filter_cons_of_pos (by simpa using kept), List.lookup_cons, List.lookup_cons, ih]

theorem node?_put (d : Disk) (n : Node) (other : ¬ l.all (· = [dot, dot])) (m : Location) :
    (d.put l n).node? m = if m = l then some n else d.node? m := by
  unfold node?
  by_cases above : m.all (· = [dot, dot])
  · have apart : m ≠ l := by
      rintro rfl
      exact other above
    simp only [above, apart, if_true, if_false]
  · by_cases same : m = l
    · simp [put, same, other]
    · have apart : (m == l) = false := by simpa using same
      simp only [above, same, if_false, put, erase, List.lookup_cons, apart]
      exact lookup_filter_ne d.nodes same

theorem node?_congr (same : d.nodes = d'.nodes) : d.node? = d'.node? := by
  funext l
  rw [node?, node?, same]

theorem foldlM_enter_congr {parts : List Bytes} {here : Location}
    (same : ∀ m, d.node? m = some .directory → d'.node? m = some .directory)
    (h : parts.foldlM d.enter here = .ok l) : parts.foldlM d'.enter here = .ok l := by
  -- A step asks only whether there is a directory, never what else stands there.
  induction parts generalizing here with
  | nil => exact h
  | cons part parts ih =>
    rw [List.foldlM_cons] at h ⊢
    cases entered : d.enter here part with
    | error e => simp [entered, bind, Except.bind] at h
    | ok next =>
      have again : d'.enter here part = .ok next := by
        unfold enter checkDirectory at entered ⊢
        cases found : d.node? here with
        | none => simp [found, bind, Except.bind] at entered
        | some n =>
          cases n with
          | file content => simp [found, bind, Except.bind] at entered
          | directory =>
            rw [same here found]
            rwa [found] at entered
      rw [entered] at h
      rw [again]
      exact ih h

/-- A path that leads somewhere still does so where all directories are still there. -/
theorem resolve_congr (same : ∀ m, d.node? m = some .directory → d'.node? m = some .directory)
    (h : d.resolve p = .ok l) : d'.resolve p = .ok l := by
  unfold resolve follow at h ⊢
  split at h
  · cases h
  · split at h
    · cases h
    · split at h
      · cases h
      · next no_nul filled short =>
        rw [if_neg no_nul, if_neg filled, if_neg short]
        exact foldlM_enter_congr same h

theorem look_eq_ok {n? : Option Node} :
    d.look p = .ok n? ↔ d.resolve p = .ok p.location ∧ d.node? p.location = n? := by
  unfold look
  cases resolved : d.resolve p with
  | error e => simp
  | ok l =>
    obtain rfl := eq_location_of_resolve resolved
    simp

theorem read_eq_ok {content : Bytes} :
    d.read p = .ok content ↔ d.look p = .ok (some (.file content)) := by
  unfold read
  cases looked : d.look p with
  | error e => simp
  | ok n? =>
    cases n? with
    | none => simp
    | some n => cases n <;> simp

theorem not_all_above {n? : Option Node} (node : d.node? l = n?)
    (no_directory : n? ≠ some .directory) :
    ¬ l.all (· = [dot, dot]) := by
  intro above
  rw [node?, if_pos above] at node
  exact no_directory node.symm

/-- A file that is put where no directory is can be read. -/
theorem read_put {n? : Option Node} (looked : d.look p = .ok n?)
    (no_directory : n? ≠ some .directory)
    (content : Bytes) : (d.put p.location (.file content)).read p = .ok content := by
  obtain ⟨resolved, node⟩ := look_eq_ok.mp looked
  have other := not_all_above node no_directory
  refine read_eq_ok.mpr (look_eq_ok.mpr ⟨resolve_congr ?_ resolved, ?_⟩)
  · intro m directory
    have apart : m ≠ p.location := by
      rintro rfl
      exact no_directory (node.symm.trans directory)
    rw [node?_put d _ other, if_neg apart, directory]
  · rw [node?_put d _ other, if_pos rfl]

theorem read_put_of_read {content : Bytes} (h : d.read p = .ok content) (content' : Bytes) :
    (d.put p.location (.file content')).read p = .ok content' :=
  read_put (read_eq_ok.mp h) (by simp) content'

/-- A file in the place of a file makes no difference to what can be staged. -/
theorem isOk_stage_put {content : Bytes} (read : d.read p = .ok content)
    (content' : Bytes) (q : Path) :
    ((d.put p.location (.file content')).stage q).isOk = (d.stage q).isOk := by
  obtain ⟨_, node⟩ := look_eq_ok.mp (read_eq_ok.mp read)
  have other := not_all_above node (by simp)
  have directories (m : Location) : (d.put p.location (.file content')).node? m = some .directory ↔
      d.node? m = some .directory := by
    rw [node?_put d _ other]
    by_cases same : m = p.location
    · simp [same, node]
    · rw [if_neg same]
  have resolved (l : Location) : (d.put p.location (.file content')).resolve q = .ok l ↔
      d.resolve q = .ok l :=
    ⟨resolve_congr fun m => (directories m).mp, resolve_congr fun m => (directories m).mpr⟩
  unfold stage
  cases there : d.resolve q with
  | ok l =>
    rw [(resolved l).mpr there]
    rfl
  | error e =>
    cases there' : (d.put p.location (.file content')).resolve q with
    | error e' => rfl
    | ok l =>
      rw [(resolved l).mp there'] at there
      cases there

theorem read_create {content : Bytes} (h : d.create p content = .ok d') :
    d'.read p = .ok content := by
  unfold create at h
  split at h
  · repeat (split at h; · cases h)
    cases h
  · split at h
    · cases h
    · cases h
    next n? no_directory looked =>
      obtain rfl := Except.ok.inj h
      exact read_put looked no_directory content

theorem staged_create {content : Bytes} (h : d.create p content = .ok d') :
    d'.staged = d.staged := by
  unfold create at h
  split at h
  · repeat (split at h; · cases h)
    cases h
  · split at h
    · cases h
    · cases h
    · rw [← Except.ok.inj h]
      rfl

theorem read_congr (same : d.nodes = d'.nodes) {content : Bytes} (h : d.read p = .ok content) :
    d'.read p = .ok content := by
  obtain ⟨resolved, node⟩ := look_eq_ok.mp (read_eq_ok.mp h)
  have nodes := node?_congr same
  refine read_eq_ok.mpr (look_eq_ok.mpr ⟨resolve_congr ?_ resolved, nodes ▸ node⟩)
  intro m directory
  rw [← nodes, directory]

theorem write_of_read {content : Bytes} (h : d.read p = .ok content) (content' : Bytes) :
    d.write p content' = .ok (d.put p.location (.file content')) := by
  rw [write, read_eq_ok.mp h]

theorem put_put (d : Disk) (l : Location) (m n : Node) : (d.put l m).put l n = d.put l n := by
  simp [put, erase, List.filter_filter]

end Disk

end Keyfile
