import Keyfile.Store

namespace Keyfile

inductive Request where
  | set (sectionName key : Text) (values : List Text)
  | refresh
  | look

inductive Errand where
  | save (setting : Setting)
  | refresh

inductive Phase where
  | idle
  | waiting (errand : Errand)
  | holding (errand : Errand)
  | committing (setting : Setting)
  | replacing (sections : Sections)
  | releasing

/-- A thread: the requests still to come, where it stands, how the requests under the lock ended
and what it has seen of memory, each the newest first. -/
structure Thread where
  requests : List Request
  phase : Phase
  endings : List (Option Failure)
  seen : List Sections

/-- Threads on one store. One that writes or refreshes holds the lock from before it touches the
file until memory is up to date. -/
structure Threads where
  session : Session
  holder? : Option Nat
  each : List Thread

namespace Thread

def ofRequests (requests : List Request) : Thread := ⟨requests, .idle, [], []⟩

def begin (t : Thread) (memory : Sections) : Thread :=
  match t.requests with
  | [] => t
  | .look :: rest => { t with requests := rest, seen := memory :: t.seen }
  | .refresh :: rest => { t with requests := rest, phase := .waiting .refresh }
  | .set sectionName key values :: rest =>
    match Setting.ofRequest sectionName key values with
    | .error e => { t with requests := rest, endings := some e :: t.endings }
    | .ok setting => { t with requests := rest, phase := .waiting (.save setting) }

def finish (t : Thread) (failure? : Option Failure) : Thread :=
  { t with phase := .releasing, endings := failure? :: t.endings }

end Thread

namespace Threads

def withThread (s : Threads) (i : Nat) (t : Thread) : Threads :=
  { s with each := s.each.set i t }

def errand (s : Threads) (i : Nat) (t : Thread) : Errand → Threads
  | .save setting =>
    let store := s.session.store
    match (onHost (saveSetting store.path setting store.options)).run s.session with
    | (.error e, session) => { s with session }.withThread i (t.finish (some e))
    | (.ok (), session) => { s with session }.withThread i { t with phase := .committing setting }
  | .refresh =>
    match (onHost (sectionsOfFile s.session.store.path)).run s.session with
    | (.error e, session) => { s with session }.withThread i (t.finish (some e))
    | (.ok sections, session) =>
      { s with session }.withThread i { t with phase := .replacing sections }

def step (s : Threads) (i : Nat) : Threads :=
  match s.each[i]? with
  | none => s
  | some t =>
    match t.phase with
    | .idle => s.withThread i (t.begin s.session.store.sections)
    | .waiting errand =>
      if s.holder?.isSome then s
      else { s with holder? := some i }.withThread i { t with phase := .holding errand }
    | .holding errand => s.errand i t errand
    | .committing setting =>
      let (_, session) := (Store.commit setting).run s.session
      { s with session }.withThread i (t.finish none)
    | .replacing sections =>
      let store := { s.session.store with sections }
      { s with session := { s.session with store } }.withThread i (t.finish none)
    | .releasing => { s with holder? := none }.withThread i { t with phase := .idle }

def run (s : Threads) (order : List Nat) : Threads := order.foldl step s

def ofRequests (session : Session) (requests : List (List Request)) : Threads :=
  ⟨session, none, requests.map Thread.ofRequests⟩

/-- An order in which every thread gets to its end: they take turns, as often as all requests
together have steps. -/
def turns (requests : List (List Request)) : List Nat :=
  (List.replicate (5 * requests.flatten.length) (List.range requests.length)).flatten

def failures (s : Threads) : Nat :=
  (s.each.flatMap (·.endings)).countP Option.isSome

end Threads

end Keyfile
