import Keyfile.Proofs.StoreRun
import Keyfile.Proofs.EditBlocks

namespace Keyfile

/-- The file of a store is laid out in blocks without traps, which say what is in memory. -/
structure Session.InStep (s : Session) (blocks : List Block) : Prop where
  file : ∃ content, s.host.disk.read s.store.path = .ok content ∧ LaidOut content blocks
  plain : ∀ raw ∈ rawsOf blocks, ¬ (textOf raw).Trap
  memory : Sections.ofItems (itemsOf blocks) = s.store.sections

namespace Session.InStep

variable {s : Session} {blocks : List Block}

theorem readSections_eq (h : s.InStep blocks) :
    readSections s.host.disk s.store.path = .ok s.store.sections := by
  obtain ⟨content, read, laidOut⟩ := h.file
  rw [← h.memory]
  exact readSections_eq_ok.mpr ⟨content, read, laidOut.parse_eq⟩

theorem of_log (h : s.InStep blocks) (log : List Record) :
    InStep ⟨s.store, ⟨s.host.disk, log⟩⟩ blocks := ⟨h.file, h.plain, h.memory⟩

theorem of_options (h : s.InStep blocks) (options : Options) :
    InStep ⟨{ s.store with options }, s.host⟩ blocks := ⟨h.file, h.plain, h.memory⟩

/-- A request that succeeds is one that is accepted, and it is put into file and memory. -/
theorem exists_set (h : s.InStep blocks) {sectionName key : Text} {values : List Text} {s' : Session}
    (done : (Store.set sectionName key values).run s = (.ok (), s')) :
    ∃ setting blocks', Setting.ofRequest sectionName key values = .ok setting ∧
      s'.InStep blocks' ∧ s'.store = s.store.keep setting ∧
      ((headingsOf (itemsOf blocks)).Nodup → (headingsOf (itemsOf blocks')).Nodup) := by
  obtain ⟨content, read, laidOut⟩ := h.file
  rcases Store.run_set_cases read sectionName key values with
    ⟨e, log, failed⟩ | ⟨setting, log, accepted, ran⟩
  · rw [failed] at done
    cases done
  · obtain ⟨_, valid⟩ := Setting.ofRequest_eq_ok accepted
    obtain ⟨blocks', laidOut', plain', sections, distinct⟩ := laidOut.exists_applyTo h.plain valid
    rw [ran] at done
    obtain rfl : (_ : Session) = s' := congrArg Prod.snd done
    refine ⟨setting, blocks', accepted, ⟨⟨_, Disk.read_put_of_read read _, laidOut'⟩, plain', ?_⟩,
      rfl, distinct⟩
    rw [sections, h.memory]
    rfl

theorem of_failed_set (h : s.InStep blocks) {sectionName key : Text} {values : List Text}
    {e : Failure} {s' : Session}
    (failed : (Store.set sectionName key values).run s = (.error e, s')) :
    s'.InStep blocks ∧ s'.store = s.store := by
  obtain ⟨content, read, _⟩ := h.file
  rcases Store.run_set_cases read sectionName key values with
    ⟨_, log, ran⟩ | ⟨_, _, _, ran⟩
  · rw [ran] at failed
    obtain rfl : (_ : Session) = s' := congrArg Prod.snd failed
    exact ⟨h.of_log log, rfl⟩
  · rw [ran] at failed
    cases failed

theorem exists_refresh (h : s.InStep blocks) :
    ∃ log, Store.refresh.run s = (.ok (), ⟨s.store, ⟨s.host.disk, log⟩⟩) := by
  obtain ⟨log, ran⟩ := Store.run_refresh s
  rw [h.readSections_eq] at ran
  exact ⟨log, ran⟩

theorem exists_ofFile (h : s.InStep blocks) (options : Options) :
    ∃ log, (Store.ofFile s.store.path options).run s.host =
      (.ok { s.store with options }, ⟨s.host.disk, log⟩) := by
  obtain ⟨log, ran⟩ := Store.run_ofFile s.store.path options s.host
  rw [h.readSections_eq] at ran
  exact ⟨log, ran⟩

end Session.InStep

def commentBlocks (comments : List Text) : List Block :=
  comments.map fun c => .quiet (lineOf (['#', ' '] ++ c))

theorem itemsOf_commentBlocks (comments : List Text) : itemsOf (commentBlocks comments) = [] := by
  induction comments with
  | nil => rfl
  | cons c rest ih => exact ih

theorem nodup_commentBlocks (comments : List Text) :
    (headingsOf (itemsOf (commentBlocks comments))).Nodup := by
  rw [itemsOf_commentBlocks]
  exact List.nodup_nil

/-- A comment stays one even if it loses a carriage return at its end. -/
theorem comment_textOf_lineOf (c : Text) : (textOf (lineOf (['#', ' '] ++ c))).Comment := by
  rw [textOf_lineOf_eq]
  split
  · rw [List.cons_append, List.dropLast_cons_of_ne_nil (by simp), Text.Comment,
      Text.trimStart_of_head (by decide)]
    rfl
  · rw [List.cons_append, Text.Comment, Text.trimStart_of_head (by decide)]
    rfl

theorem laid_commentBlocks (inSection : Bool) (comments : List Text) :
    Laid inSection (commentBlocks comments) := by
  induction comments with
  | nil => trivial
  | cons c rest ih => exact ⟨Or.inr (comment_textOf_lineOf c), trivial, ih⟩

theorem encode_commentLines (comments : List Text) :
    encode (Store.commentLines comments) = (rawsOf (commentBlocks comments)).flatten := by
  induction comments with
  | nil => rfl
  | cons c rest ih =>
    rw [Store.commentLines, List.flatMap_cons, encode_append, encode_newline,
      ← Store.commentLines, ih]
    rfl

theorem exists_of_mem_commentBlocks {comments : List Text} {raw : Bytes}
    (h : raw ∈ rawsOf (commentBlocks comments)) : ∃ c ∈ comments, raw = lineOf (['#', ' '] ++ c) := by
  obtain ⟨b, hb, mem⟩ := List.mem_flatMap.mp h
  obtain ⟨c, hc, rfl⟩ := List.mem_map.mp hb
  exact ⟨c, hc, List.mem_singleton.mp mem⟩

theorem laidOut_commentLines {comments : List Text} (single : ∀ c ∈ comments, '\n' ∉ c) :
    LaidOut (encode (Store.commentLines comments)) (commentBlocks comments) := by
  have closed : ∀ raw ∈ rawsOf (commentBlocks comments), Line.IsClosed raw := by
    intro raw hr
    obtain ⟨c, hc, rfl⟩ := exists_of_mem_commentBlocks hr
    exact isClosed_lineOf (by simp [single c hc])
  have lined := Line.lined_of_closed closed
  exact ⟨by rw [encode_commentLines, Line.pieces_flatten lined], laid_commentBlocks ..⟩

theorem Session.inStep_of_create {path : Path} {comments : List Text} {options : Options}
    {host host' : Host} {store : Store} (single : ∀ c ∈ comments, '\n' ∉ c)
    (created : (Store.create path comments options).run host = (.ok store, host')) :
    store = ⟨path, options, ∅⟩ ∧ InStep ⟨store, host'⟩ (commentBlocks comments) := by
  obtain ⟨rfl, read⟩ := Store.read_of_create created
  refine ⟨rfl, ⟨_, read, laidOut_commentLines single⟩, ?_, ?_⟩
  · intro raw hr
    obtain ⟨c, _, rfl⟩ := exists_of_mem_commentBlocks hr
    exact fun trap => trap.1 (comment_textOf_lineOf c)
  · rw [itemsOf_commentBlocks]
    rfl

end Keyfile
