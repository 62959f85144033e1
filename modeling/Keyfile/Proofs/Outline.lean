import Keyfile.Proofs.Rendering

namespace Keyfile

theorem eraseDups_concat (xs : List Text) (a : Text) :
    (xs ++ [a]).eraseDups = if a ∈ xs then xs.eraseDups else xs.eraseDups ++ [a] := by
  rw [List.eraseDups_append]
  by_cases seen : a ∈ xs
  · simp [List.removeAll, seen]
  · simp [List.removeAll, seen, List.eraseDups_cons]

theorem nodup_eraseDups (xs : List Text) : xs.eraseDups.Nodup := by
  induction xs using List.reverseRecOn with
  | nil => exact List.nodup_nil
  | append_singleton xs a ih =>
    rw [eraseDups_concat]
    split
    · exact ih
    next fresh =>
      refine List.nodup_append.mpr ⟨ih, by simp, ?_⟩
      rintro b seen _ last rfl
      obtain rfl := List.mem_singleton.mp last
      exact fresh (List.mem_eraseDups.mp seen)

theorem exists_eraseDups_split {xs : List Text} {a : Text} (h : a ∈ xs.eraseDups) :
    ∃ before after, xs.eraseDups = before ++ a :: after ∧ a ∉ before ∧ a ∉ after := by
  obtain ⟨before, after, split⟩ := List.append_of_mem h
  have distinct := nodup_eraseDups xs
  rw [split, List.nodup_append] at distinct
  obtain ⟨_, distinct, apart⟩ := distinct
  exact ⟨before, after, split, fun mem => apart a mem a (by simp) rfl,
    (List.nodup_cons.mp distinct).1⟩

namespace Outline

/-- The sections of settings, in the order in which each was set first. -/
def sectionNames (settings : List Setting) : List Text :=
  (settings.map Setting.sectionName).eraseDups

def keys (settings : List Setting) (name : Text) : List Text :=
  ((settings.filter (·.sectionName = name)).map Setting.key).eraseDups

def values (settings : List Setting) (name key : Text) : List Text :=
  ((settings.reverse.find? fun s => s.sectionName = name ∧ s.key = key).map Setting.values).getD []

/-- A key with its values, one on a line, below each other. -/
def keyText (key : Text) (values : List Text) : Text :=
  key ++ chars " = " ++
    List.intercalate (chars ",\n" ++ List.replicate (key.length + 3) ' ') values ++ chars "\n"

def sectionText (settings : List Setting) (name : Text) : Text :=
  chars "\n[" ++ name ++ chars "]\n" ++
    (keys settings name).flatMap fun key => keyText key (values settings name key)

/-- The text of the file that settings made of comments. -/
def fileText (comments : List Text) (settings : List Setting) : Text :=
  comments.flatMap (fun c => chars "# " ++ c ++ chars "\n") ++
    (sectionNames settings).flatMap (sectionText settings)

variable {settings : List Setting} {name key : Text} {s : Setting}

theorem mem_sectionNames : name ∈ sectionNames settings ↔ ∃ s ∈ settings, s.sectionName = name := by
  rw [sectionNames, List.mem_eraseDups, List.mem_map]

theorem mem_keys :
    key ∈ keys settings name ↔ ∃ s ∈ settings, s.sectionName = name ∧ s.key = key := by
  simp [keys, and_assoc]

theorem exists_values (h : key ∈ keys settings name) :
    ∃ s ∈ settings, s.sectionName = name ∧ s.key = key ∧ s.values = values settings name key := by
  obtain ⟨s, mem, own⟩ := mem_keys.mp h
  cases found : settings.reverse.find? fun s => s.sectionName = name ∧ s.key = key with
  | none =>
    have away := List.find?_eq_none.mp found s (List.mem_reverse.mpr mem)
    exact absurd own (by simpa using away)
  | some s' =>
    have same := List.find?_some found
    have mem' := List.mem_reverse.mp (List.mem_of_find?_eq_some found)
    obtain ⟨hname, hkey⟩ : s'.sectionName = name ∧ s'.key = key := by simpa using same
    exact ⟨s', mem', hname, hkey, by rw [values, found]; rfl⟩

theorem sectionNames_concat (settings : List Setting) (s : Setting) :
    sectionNames (settings ++ [s]) =
      if s.sectionName ∈ sectionNames settings then sectionNames settings
      else sectionNames settings ++ [s.sectionName] := by
  rw [sectionNames, List.map_append, List.map_singleton, eraseDups_concat]
  simp only [sectionNames, List.mem_eraseDups]

theorem keys_concat (settings : List Setting) (s : Setting) :
    keys (settings ++ [s]) s.sectionName =
      if s.key ∈ keys settings s.sectionName then keys settings s.sectionName
      else keys settings s.sectionName ++ [s.key] := by
  have filtered : (settings ++ [s]).filter (·.sectionName = s.sectionName) =
      settings.filter (·.sectionName = s.sectionName) ++ [s] := by
    simp [List.filter_append]
  rw [keys, filtered, List.map_append, List.map_singleton, eraseDups_concat]
  simp only [keys, List.mem_eraseDups]

theorem keys_concat_of_ne (other : s.sectionName ≠ name) :
    keys (settings ++ [s]) name = keys settings name := by
  simp [keys, List.filter_append, other]

theorem values_concat (settings : List Setting) (s : Setting) :
    values (settings ++ [s]) s.sectionName s.key = s.values := by
  simp [values]

theorem values_concat_of_ne (other : s.sectionName ≠ name ∨ s.key ≠ key) :
    values (settings ++ [s]) name key = values settings name key := by
  have skipped : ¬ (s.sectionName = name ∧ s.key = key) := by
    rintro ⟨rfl, rfl⟩
    simp at other
  simp [values, skipped]

theorem keys_concat_of_not_mem (fresh : s.sectionName ∉ sectionNames settings) :
    keys (settings ++ [s]) s.sectionName = [s.key] := by
  have none : keys settings s.sectionName = [] := by
    rw [List.eq_nil_iff_forall_not_mem]
    intro key mem
    obtain ⟨t, ht, same, _⟩ := mem_keys.mp mem
    exact fresh (mem_sectionNames.mpr ⟨t, ht, same⟩)
  rw [keys_concat, none]
  simp

end Outline

end Keyfile
