import Spinfoam.Outbox.Conservation
import Spinfoam.Serve.Effects

/-!
# Requests and their responses

Every request a session has processed is accounted for: its response is in the
control queue, or its task is unfinished. The guards of the unfinished tasks are
what makes up the set of ids and what is missing from the slots.
-/

namespace Spinfoam.Serve

open Spinfoam.Json Spinfoam.Std Spinfoam.Outbox Spinfoam.Semantics

/-- The frame is a response to the request with this id. -/
def Answers (id : String) (frame : Frame) : Prop :=
  frame.value.get "method" = none ∧ frame.value.get "id" = some (.string id)

instance (id : String) (frame : Frame) : Decidable (Answers id frame) :=
  inferInstanceAs (Decidable (_ ∧ _))

/-- How many requests of a kind have been processed. -/
def requested (test : Asked → Bool) (events : List Event) : Nat :=
  events.countP fun
    | .requested asked => test asked
    | _ => false

/-- How many responses to requests of a kind have been queued. -/
def answered (test : Asked → Bool) (events : List Event) : Nat :=
  events.countP fun
    | .queued (some asked) _ => test asked
    | _ => false

/-- How many responses to requests of a kind could not be queued. -/
def failed (test : Asked → Bool) (events : List Event) : Nat :=
  events.countP fun
    | .unsent asked _ => test asked
    | _ => false

/-- How many response frames with this id have been queued. -/
def responses (id : String) (events : List Event) : Nat :=
  events.countP fun
    | .queued _ frame => decide (Answers id frame)
    | _ => false

/-- The frames that have been queued in the control queue, with what they answer. -/
def queued (events : List Event) : List (Option Asked × Frame) :=
  events.filterMap fun
    | .queued asked frame => some (asked, frame)
    | _ => none

/-- The control frames that have been written, and thus read by the embedder. -/
def written (events : List Event) : List Frame :=
  events.filterMap fun
    | .written .control frame => some frame
    | _ => none

/-- How many responses to requests of a kind have been read: control frames are
written in the order in which they were queued. -/
def read (test : Asked → Bool) (events : List Event) : Nat :=
  ((queued events).take (written events).length).countP fun entry => entry.1.any test

/-- How many unfinished tasks work on requests of a kind. -/
def unfinished (test : Asked → Bool) (session : Session) : Nat :=
  Map.weight (fun task => if task.unfinished && test task.asked then 1 else 0) session.tasks

/-- Requests with this id. -/
def named (id : String) (asked : Asked) : Bool := asked.id == id

section Counting

variable (test : Asked → Bool) (first second : List Event)

@[simp] theorem requested_append :
    requested test (first ++ second) = requested test first + requested test second :=
  List.countP_append

@[simp] theorem answered_append :
    answered test (first ++ second) = answered test first + answered test second :=
  List.countP_append

@[simp] theorem failed_append :
    failed test (first ++ second) = failed test first + failed test second :=
  List.countP_append

@[simp] theorem responses_append (id : String) :
    responses id (first ++ second) = responses id first + responses id second :=
  List.countP_append

@[simp] theorem queued_append : queued (first ++ second) = queued first ++ queued second :=
  List.filterMap_append

@[simp] theorem written_append : written (first ++ second) = written first ++ written second :=
  List.filterMap_append

/-- What has been read had been queued. -/
theorem read_le_answered (events : List Event) : read test events ≤ answered test events := by
  have all : answered test events = (queued events).countP fun entry => entry.1.any test := by
    induction events with
    | nil => rfl
    | cons event rest ih =>
      simp only [answered, queued] at ih ⊢
      rw [List.countP_cons, ih]
      cases event with
      | queued asked frame => cases asked <;> simp [List.countP_cons]
      | _ => simp
  rw [read, all]
  exact (List.take_sublist _ _).countP_le

end Counting

/-- The guards of the unfinished tasks: each holds its id, no two hold the same,
and each that is metered holds a permit. -/
structure Guarded (session : Session) : Prop where
  held : ∀ id, id ∈ session.ids ↔ ∃ number task, session.tasks.lookup number = some task ∧
    task.unfinished = true ∧ task.asked.id = id
  single : ∀ {number other task rival}, session.tasks.lookup number = some task →
    session.tasks.lookup other = some rival → task.unfinished = true → rival.unfinished = true →
    task.asked.id = rival.asked.id → number = other
  numbered : ∀ {number task}, session.tasks.lookup number = some task → number < session.spawned
  slots : session.slots + unfinished Asked.metered session = 48
  short : ∀ {number task}, session.tasks.lookup number = some task →
    task.asked.id.utf8ByteSize ≤ 128
  ready : ∀ {number task frame shutdown}, session.tasks.lookup number = some task →
    task.phase = .sending frame shutdown → Answers task.asked.id frame

section Guards

variable {session after : Session} {test : Asked → Bool} {number : Nat} {task : Task}
  {asked : Asked}

/-- Which requests are unfinished depends on the tasks alone. -/
theorem unfinished_of_tasks (same : after.tasks = session.tasks) :
    unfinished test after = unfinished test session := by
  rw [unfinished, same, unfinished]

/-- Setting a task aside splits its share off. -/
theorem unfinished_of_lookup (test : Asked → Bool)
    (found : session.tasks.lookup number = some task) :
    unfinished test session = (if task.unfinished && test task.asked then 1 else 0) +
      unfinished test { session with tasks := session.tasks.erase number } :=
  Map.weight_erase _ found

/-- A task that is replaced counts as the new one. -/
theorem unfinished_insert (test : Asked → Bool) (session : Session) (number : Nat) (task : Task) :
    unfinished test { session with tasks := session.tasks.insert number task } =
      (if task.unfinished && test task.asked then 1 else 0) +
        unfinished test { session with tasks := session.tasks.erase number } :=
  Map.weight_insert _ _ _ _

/-- The next number is free. -/
theorem Guarded.unnumbered (guarded : Guarded session) :
    session.tasks.lookup session.spawned = none := by
  cases found : session.tasks.lookup session.spawned with
  | none => rfl
  | some task => exact absurd (guarded.numbered found) (lt_irrefl _)

/-- A new request is unfinished. -/
theorem Guarded.unfinished_spawn (guarded : Guarded session) (asked : Asked) :
    unfinished test (session.spawn asked) =
      unfinished test session + if test asked then 1 else 0 := by
  have added := unfinished_insert test session session.spawned { asked }
  have same : unfinished test (session.spawn asked) = unfinished test
      { session with tasks := session.tasks.insert session.spawned { asked } } := rfl
  rw [same, added, Map.erase_of_lookup_none guarded.unnumbered, Nat.add_comm]
  rfl

/-- A task that ends is not unfinished any more. -/
theorem unfinished_finish (found : session.tasks.lookup number = some task)
    (live : task.unfinished = true) (shutdown : Bool) :
    unfinished test session = unfinished test (session.finish number task shutdown) +
      if test task.asked then 1 else 0 := by
  have removed := unfinished_of_lookup test found
  have added := unfinished_insert test session number
    { task with phase := .finished }
  have same : unfinished test (session.finish number task shutdown) = unfinished test
      { session with tasks := session.tasks.insert number { task with phase := .finished } } := rfl
  rw [same, added, removed, live]
  simp [Task.unfinished, Nat.add_comm]

/-- A task that waits for space is still unfinished. -/
theorem unfinished_park (found : session.tasks.lookup number = some task)
    (live : task.unfinished = true) (frame : Frame) (shutdown : Bool) :
    unfinished test
        { session with
          tasks := session.tasks.insert number { task with phase := .sending frame shutdown } } =
      unfinished test session := by
  rw [unfinished_insert, unfinished_of_lookup test found, live]
  simp [Task.unfinished]

/-- To join a task changes nothing about the unfinished ones. -/
theorem unfinished_join (found : session.tasks.lookup number = some task)
    (phase : task.phase = .finished) :
    unfinished test { session with tasks := session.tasks.erase number } =
      unfinished test session := by
  rw [unfinished_of_lookup test found]
  simp [Task.unfinished, phase]

namespace Guarded

/-- At the start nothing is guarded and all slots are free. -/
theorem initial (name : String) : Guarded { runtime := { host := { session := name } } } where
  held id := by simp
  single found := by cases found
  numbered found := by cases found
  slots := by simp [unfinished]
  short found := by cases found
  ready found := by cases found

/-- What leaves the tasks and their guards alone keeps them guarded. -/
theorem same (guarded : Guarded session) (tasks : after.tasks = session.tasks)
    (ids : after.ids = session.ids) (slots : after.slots = session.slots)
    (spawned : after.spawned = session.spawned) : Guarded after where
  held id := by
    rw [ids, tasks]
    exact guarded.held id
  single := by
    rw [tasks]
    exact guarded.single
  numbered := by
    rw [tasks, spawned]
    exact guarded.numbered
  slots := by
    rw [slots, unfinished_of_tasks tasks]
    exact guarded.slots
  short := by
    rw [tasks]
    exact guarded.short
  ready := by
    rw [tasks]
    exact guarded.ready

theorem spawn (guarded : Guarded session) (short : asked.id.utf8ByteSize ≤ 128)
    (new : asked.id ∉ session.ids) (free : asked.metered = true → session.slots ≠ 0) :
    Guarded (session.spawn asked) := by
  have fresh := guarded.unnumbered
  have cases_of {number : Nat} {task : Task}
      (found : (session.spawn asked).tasks.lookup number = some task) :
      number = session.spawned ∧ task = { asked } ∨
        number ≠ session.spawned ∧ session.tasks.lookup number = some task :=
    Map.lookup_insert_eq_some found
  have unheld {number : Nat} {task : Task} (found : session.tasks.lookup number = some task)
      (live : task.unfinished = true) : task.asked.id ≠ asked.id := by
    intro same
    exact new ((guarded.held _).mpr ⟨number, task, found, live, same⟩)
  constructor
  case held =>
    intro id
    have grown : id ∈ (session.spawn asked).ids ↔ id = asked.id ∨ id ∈ session.ids :=
      Finset.mem_insert
    rw [grown, guarded.held]
    constructor
    · rintro (rfl | ⟨number, task, found, live, same⟩)
      · exact ⟨session.spawned, { asked }, AList.lookup_insert _, rfl, rfl⟩
      · refine ⟨number, task, ?_, live, same⟩
        have other : number ≠ session.spawned := by
          rintro rfl
          rw [fresh] at found
          cases found
        exact (AList.lookup_insert_ne other).trans found
    · rintro ⟨number, task, found, live, same⟩
      obtain ⟨-, rfl⟩ | ⟨-, found⟩ := cases_of found
      · exact Or.inl same.symm
      · exact Or.inr ⟨number, task, found, live, same⟩
  case single =>
    intro number other task rival found against live rivalLive same
    obtain ⟨rfl, rfl⟩ | ⟨-, found⟩ := cases_of found
    · obtain ⟨rfl, -⟩ | ⟨-, against⟩ := cases_of against
      · rfl
      · exact absurd same.symm (unheld against rivalLive)
    · obtain ⟨rfl, rfl⟩ | ⟨-, against⟩ := cases_of against
      · exact absurd same (unheld found live)
      · exact guarded.single found against live rivalLive same
  case numbered =>
    intro number task found
    obtain ⟨rfl, -⟩ | ⟨-, found⟩ := cases_of found
    · exact Nat.lt_succ_self _
    · exact Nat.lt_succ_of_lt (guarded.numbered found)
  case slots =>
    have before := guarded.slots
    rw [guarded.unfinished_spawn]
    by_cases metered : asked.metered = true
    · have left := free metered
      simp only [Session.spawn, metered, if_true]
      omega
    · simp only [Session.spawn, metered, if_false, Bool.false_eq_true]
      omega
  case short =>
    intro number task found
    obtain ⟨-, rfl⟩ | ⟨-, found⟩ := cases_of found
    · exact short
    · exact guarded.short found
  case ready =>
    intro number task frame shutdown found phase
    obtain ⟨-, rfl⟩ | ⟨-, found⟩ := cases_of found
    · cases phase
    · exact guarded.ready found phase

/-- The end of a task gives its guards back. -/
theorem finish (guarded : Guarded session) (found : session.tasks.lookup number = some task)
    (live : task.unfinished = true) (shutdown : Bool) :
    Guarded (session.finish number task shutdown) := by
  have cases_of {other : Nat} {rival : Task}
      (against : (session.finish number task shutdown).tasks.lookup other = some rival) :
      other = number ∧ rival = { task with phase := .finished } ∨
        other ≠ number ∧ session.tasks.lookup other = some rival :=
    Map.lookup_insert_eq_some against
  constructor
  case held =>
    intro id
    have shrunk : id ∈ (session.finish number task shutdown).ids ↔
        id ≠ task.asked.id ∧ id ∈ session.ids := Finset.mem_erase
    rw [shrunk, guarded.held]
    constructor
    · rintro ⟨different, other, rival, against, alive, rfl⟩
      have apart : other ≠ number := by
        rintro rfl
        rw [found] at against
        obtain rfl := Option.some.inj against
        exact different rfl
      exact ⟨other, rival, (AList.lookup_insert_ne apart).trans against, alive, rfl⟩
    · rintro ⟨other, rival, against, alive, rfl⟩
      obtain ⟨-, rfl⟩ | ⟨apart, against⟩ := cases_of against
      · cases alive
      · refine ⟨?_, other, rival, against, alive, rfl⟩
        intro same
        exact apart (guarded.single against found alive live same)
  case single =>
    intro first second task rival found against live alive same
    obtain ⟨-, rfl⟩ | ⟨-, found⟩ := cases_of found
    · cases live
    · obtain ⟨-, rfl⟩ | ⟨-, against⟩ := cases_of against
      · cases alive
      · exact guarded.single found against live alive same
  case numbered =>
    intro other rival against
    obtain ⟨rfl, -⟩ | ⟨-, against⟩ := cases_of against
    · exact guarded.numbered found
    · exact guarded.numbered against
  case slots =>
    have before := guarded.slots
    rw [unfinished_finish found live shutdown] at before
    by_cases metered : task.asked.metered = true
    · simp only [metered, if_true] at before
      simp only [Session.finish, metered, if_true] at before ⊢
      omega
    · simp only [metered, if_false, Bool.false_eq_true] at before
      simp only [Session.finish, metered, if_false, Bool.false_eq_true] at before ⊢
      omega
  case short =>
    intro other rival against
    obtain ⟨-, rfl⟩ | ⟨-, against⟩ := cases_of against
    · have bounded := guarded.short found
      exact bounded
    · exact guarded.short against
  case ready =>
    intro other rival frame flag against phase
    obtain ⟨-, rfl⟩ | ⟨-, against⟩ := cases_of against
    · cases phase
    · exact guarded.ready against phase

/-- A task that waits for space keeps its guards. -/
theorem park (guarded : Guarded session) (found : session.tasks.lookup number = some task)
    (live : task.unfinished = true) {frame : Frame} (answers : Answers task.asked.id frame)
    (shutdown : Bool) :
    Guarded { session with
      tasks := session.tasks.insert number { task with phase := .sending frame shutdown } } := by
  -- Every task has its counterpart with the same request, unfinished or not.
  have before {other : Nat} {rival : Task}
      (against : (session.tasks.insert number
        { task with phase := .sending frame shutdown }).lookup other = some rival) :
      ∃ old, session.tasks.lookup other = some old ∧ old.asked = rival.asked ∧
        old.unfinished = rival.unfinished := by
    obtain ⟨rfl, rfl⟩ | ⟨-, against⟩ := Map.lookup_insert_eq_some against
    · exact ⟨task, found, rfl, live⟩
    · exact ⟨rival, against, rfl, rfl⟩
  constructor
  case held =>
    intro id
    rw [guarded.held]
    constructor
    · rintro ⟨other, old, against, alive, same⟩
      by_cases own : other = number
      · subst own
        obtain rfl := Option.some.inj (found.symm.trans against)
        exact ⟨other, _, AList.lookup_insert _, rfl, same⟩
      · exact ⟨other, old, (AList.lookup_insert_ne own).trans against, alive, same⟩
    · rintro ⟨other, rival, against, alive, same⟩
      obtain ⟨old, against, asked, equal⟩ := before against
      exact ⟨other, old, against, equal.trans alive, asked ▸ same⟩
  case single =>
    intro first second left right found against live alive same
    obtain ⟨old, found, asked, equal⟩ := before found
    obtain ⟨rival, against, other, like⟩ := before against
    exact guarded.single found against (equal.trans live) (like.trans alive)
      (by rw [asked, other, same])
  case numbered =>
    intro other rival against
    obtain ⟨old, against, -⟩ := before against
    exact guarded.numbered against
  case slots =>
    rw [unfinished_park found live]
    exact guarded.slots
  case short =>
    intro other rival against
    obtain ⟨old, against, same, -⟩ := before against
    rw [← same]
    exact guarded.short against
  case ready =>
    intro other rival sent flag against phase
    obtain ⟨-, rfl⟩ | ⟨-, against⟩ := Map.lookup_insert_eq_some against
    · obtain ⟨rfl, -⟩ := Phase.sending.inj phase
      exact answers
    · exact guarded.ready against phase

/-- Joining a finished task takes nothing away. -/
theorem join (guarded : Guarded session) (found : session.tasks.lookup number = some task)
    (phase : task.phase = .finished) :
    Guarded { session with tasks := session.tasks.erase number, frame := [] } := by
  have before {other : Nat} {rival : Task}
      (against : (session.tasks.erase number).lookup other = some rival) :
      session.tasks.lookup other = some rival := (Map.lookup_erase_eq_some against).2
  constructor
  case held =>
    intro id
    rw [guarded.held]
    constructor
    · rintro ⟨other, rival, against, alive, same⟩
      have apart : other ≠ number := by
        rintro rfl
        obtain rfl := Option.some.inj (found.symm.trans against)
        simp [Task.unfinished, phase] at alive
      exact ⟨other, rival, (AList.lookup_erase_ne apart).trans against, alive, same⟩
    · rintro ⟨other, rival, against, alive, same⟩
      exact ⟨other, rival, before against, alive, same⟩
  case single =>
    intro first second left right found against live alive same
    exact guarded.single (before found) (before against) live alive same
  case numbered => exact fun against => guarded.numbered (before against)
  case slots =>
    have unchanged : unfinished Asked.metered
        { session with tasks := session.tasks.erase number, frame := [] } =
          unfinished Asked.metered session := unfinished_join found phase
    rw [unchanged]
    exact guarded.slots
  case short => exact fun against => guarded.short (before against)
  case ready => exact fun against phase => guarded.ready (before against) phase

theorem sent (guarded : Guarded session) {frame : Frame} {shutdown : Bool} {events : List Event}
    (found : session.tasks.lookup number = some task) (live : task.unfinished = true)
    (answers : Answers task.asked.id frame)
    (sent : Sent session number task frame shutdown events after) : Guarded after := by
  cases sent with
  | closed => exact guarded.finish found live shutdown
  | @queued out offered =>
    have delivered : Guarded (session.withOut out) := guarded.same rfl rfl rfl rfl
    exact delivered.finish found live shutdown
  | parked => exact guarded.park found live answers shutdown

end Guarded

/-- What `Outbox::control` queues for a response answers the same request. -/
theorem answers_of_encodeControl {id : String} {result : RpcResult} {frame : Frame}
    (encoded : encodeControl (response (.string id) result) = some frame) : Answers id frame := by
  have whole : (response (.string id) result).get "id" = some (.string id) := by
    cases result <;> rfl
  unfold encodeControl at encoded
  split at encoded
  · rename_i fitting fits
    obtain rfl := Option.some.inj encoded
    rw [Answers, encode_eq_some.mp fits]
    cases result <;> exact ⟨rfl, rfl⟩
  · rw [whole, Option.bind_some, encode_eq_some] at encoded
    rw [Answers, encoded]
    exact ⟨rfl, rfl⟩

/-- Every effect keeps the tasks guarded. -/
theorem Effect.guarded {events : List Event} {action : Action}
    (effect : Effect session action events after)
    (guarded : Guarded session) : Guarded after := by
  cases effect with
  | idle => exact guarded
  | runtime | wrote | left | ended | more => exact guarded.same rfl rfl rfl rfl
  | handled found phase result encoded sent =>
    exact guarded.sent found (by simp [Task.unfinished, phase]) (answers_of_encodeControl encoded)
      sent
  | tooLarge found phase => exact guarded.finish found (by simp [Task.unfinished, phase]) _
  | polled found phase sent =>
    exact guarded.sent found (by simp [Task.unfinished, phase]) (guarded.ready found phase) sent
  | joined joins found phase => exact guarded.join found phase
  | @framed input front rest events after filled inner received =>
    have taken : Guarded { session with frame := [], buffer := rest } :=
      guarded.same rfl rfl rfl rfl
    cases received with
    | passed => exact taken
    | answered | rejected | left | refused | abandoned => exact taken.same rfl rfl rfl rfl
    | spawned short new free => exact taken.spawn short new free

end Guards

/-- The reply that replaces a large response fits its frame. -/
theorem size_responseTooLarge {id : String} (short : id.utf8ByteSize ≤ 128) :
    (responseTooLarge (.string id)).size < maxFrame := by
  have literal := Value.utf8ByteSize_quote_le id
  have error : (Value.object [
      ("code", .number (.int (-32003))),
      ("data", .object [("kind", .string "RESPONSE_TOO_LARGE")]),
      ("message", .string "response exceeds frame limit")]).compact.utf8ByteSize = 93 := by decide
  have names : (Value.quote "error").utf8ByteSize = 7 ∧ (Value.quote "id").utf8ByteSize = 4 ∧
      (Value.quote "jsonrpc").utf8ByteSize = 9 ∧ (Value.quote "2.0").utf8ByteSize = 5 := by decide
  have marks : "\x7b".utf8ByteSize = 1 ∧ "\x7d".utf8ByteSize = 1 ∧ ":".utf8ByteSize = 1 ∧
      ",".utf8ByteSize = 1 := by decide
  rw [responseTooLarge, Value.size, Value.compact, Value.compactMembers, Value.compactMembers,
    Value.compactMembers, Value.compact, Value.compact]
  simp only [String.utf8ByteSize_append, error, names, marks, maxFrame]
  omega

/-- Every response fits a frame. -/
theorem encodeControl_response_ne_none {id : String} (short : id.utf8ByteSize ≤ 128)
    (result : RpcResult) : encodeControl (response (.string id) result) ≠ none := by
  have whole : (response (.string id) result).get "id" = some (.string id) := by
    cases result <;> rfl
  unfold encodeControl
  split
  · simp
  · rw [whole, Option.bind_some, Ne, encode_eq_none, not_le]
    exact size_responseTooLarge short

/-- A queued frame goes to the end of the control queue. -/
theorem controls_offer {out after : Outbox} {frame : Frame}
    (offered : out.offer .control ⟨frame, none⟩ = some after) :
    after.controls = out.controls ++ [frame] := by
  simp [Outbox.controls, (Outbox.offer_eq_some offered).2.2.2]

/-- The writer takes control frames from the front. -/
theorem controls_next {out after : Outbox} {frame : Frame} (taken : out.next = some (frame, after)) :
    out.controls = written [.written out.queues.serving frame] ++ after.controls := by
  obtain ⟨outcome, same, served⟩ := Queues.next_spec out.wellFormed
  unfold Outbox.next at taken
  split at taken
  · rename_i head queues ok
    obtain rfl : outcome = some (head, queues) := (Except.ok.inj (ok.symm.trans same)).symm
    simp only [Option.some.injEq, Prod.mk.injEq] at taken
    obtain ⟨rfl, rfl⟩ := taken
    obtain ⟨entry, own, lanes⟩ := served.lane
    have control := congrArg (List.map DataFrame.frame) (lanes .control)
    rw [List.map_append] at control
    refine control.trans ?_
    by_cases turn : out.queues.serving = .control
    · rw [turn]
      simp [written, own, Outbox.controls, Outbox.lane]
    · rw [if_neg turn]
      have other : written [.written out.queues.serving head] = [] := by
        unfold written
        cases serving : out.queues.serving with
        | control => exact absurd serving turn
        | object name => rfl
      rw [other]
      rfl
  · cases taken

/-- The writer does not close the outbox. -/
theorem closed_next {out after : Outbox} {frame : Frame} (taken : out.next = some (frame, after)) :
    after.closed = out.closed := (Outbox.next_eq_some taken).1

/-- What an event says of its frame. -/
def Labelled : Event → Prop
  | .queued (some asked) frame => Answers asked.id frame
  | .queued none frame => Unasked frame
  | _ => True

/-- The requests and the responses so far, against the session. -/
structure Conserved (events : List Event) (session : Session) : Prop where
  balance : session.left = false → ∀ test,
    requested test events = answered test events + failed test events + unfinished test session
  closed : ∀ asked error, .unsent asked error ∈ events → session.out.closed = true
  labelled : ∀ event ∈ events, Labelled event
  flow : (queued events).map Prod.snd = written events ++ session.out.controls

/-- What a step adds to the accounts. -/
structure Adds (session : Session) (events : List Event) (after : Session) : Prop where
  balance : after.left = false → ∀ test,
    requested test events + unfinished test session =
      answered test events + failed test events + unfinished test after
  closed : session.out.closed = true → after.out.closed = true
  unsent : ∀ asked error, .unsent asked error ∈ events → after.out.closed = true
  labelled : ∀ event ∈ events, Labelled event
  flow : session.out.controls ++ (queued events).map Prod.snd =
    written events ++ after.out.controls

/-- What a step adds to the accounts keeps them balanced. -/
theorem Conserved.adds {events more : List Event} {session after : Session}
    (conserved : Conserved events session) (live : session.left = false)
    (adds : Adds session more after) : Conserved (events ++ more) after where
  balance := by
    intro stays test
    have before := conserved.balance live test
    have now := adds.balance stays test
    simp only [requested_append, answered_append, failed_append]
    omega
  closed := by
    intro asked error member
    rcases List.mem_append.mp member with earlier | here
    · exact adds.closed (conserved.closed asked error earlier)
    · exact adds.unsent asked error here
  labelled := by
    intro event member
    rcases List.mem_append.mp member with earlier | here
    · exact conserved.labelled event earlier
    · exact adds.labelled event here
  flow := by
    rw [queued_append, List.map_append, conserved.flow, List.append_assoc, adds.flow,
      written_append, List.append_assoc]

/-- An event no account is about. -/
def Quiet : Event → Prop
  | .runtime _ | .arrived _ | .framed _ => True
  | _ => False

section Steps

variable {session after : Session} {events : List Event} {asked : Asked}

/-- Quiet events count for nothing. -/
theorem counts_of_quiet (quiet : ∀ event ∈ events, Quiet event) (test : Asked → Bool) :
    requested test events = 0 ∧ answered test events = 0 ∧ failed test events = 0 ∧
      queued events = [] ∧ written events = [] := by
  refine ⟨List.countP_eq_zero.mpr ?_, List.countP_eq_zero.mpr ?_, List.countP_eq_zero.mpr ?_,
    List.filterMap_eq_nil_iff.mpr ?_, List.filterMap_eq_nil_iff.mpr ?_⟩
  all_goals
    intro event member
    have silent := quiet event member
    cases event with
    | runtime | arrived | framed => simp
    | requested | queued | unsent | written => cases silent

/-- Bytes that arrive are nothing to the accounts. -/
theorem quiet_filled {input : List Event} {bytes : List UInt8}
    (filled : Filled session input bytes) : ∀ event ∈ input, Quiet event := by
  cases filled with
  | buffered => simp
  | arrived => simp [Quiet]

namespace Adds

/-- What leaves the outbox and the number of unfinished tasks alone. -/
theorem nothing (tasks : ∀ test, unfinished test after = unfinished test session)
    (out : after.out = session.out) : Adds session [] after where
  balance _ test := by simp [requested, answered, failed, tasks]
  closed := by rw [out]; exact id
  unsent _ _ member := by cases member
  labelled _ member := by cases member
  flow := by simp [queued, written, out]

/-- Quiet events may come first. -/
theorem after_quiet {front : List Event} (quiet : ∀ event ∈ front, Quiet event)
    (adds : Adds session events after) : Adds session (front ++ events) after where
  balance := by
    intro stays test
    obtain ⟨requests, answers, lost, -⟩ := counts_of_quiet quiet test
    have rest := adds.balance stays test
    simp only [requested_append, answered_append, failed_append]
    omega
  closed := adds.closed
  unsent := by
    intro asked error member
    rcases List.mem_append.mp member with here | there
    · exact absurd (quiet _ here) id
    · exact adds.unsent asked error there
  labelled := by
    intro event member
    rcases List.mem_append.mp member with here | there
    · have silent := quiet event here
      cases event with
      | queued => cases silent
      | _ => trivial
    · exact adds.labelled event there
  flow := by
    obtain ⟨-, -, -, none, unwritten⟩ := counts_of_quiet quiet fun _ => true
    rw [queued_append, written_append, none, unwritten]
    exact adds.flow

/-- A frame of the loop is queued, of a request that is answered by it or of none. -/
theorem queued_by_loop {frame : Frame} {out : Outbox}
    (offered : session.out.offer .control ⟨frame, none⟩ = some out)
    (unasked : Unasked frame) : Adds session [.queued none frame] (session.withOut out) where
  balance _ test := by
    simp only [requested, answered, failed, List.countP_singleton]
    rfl
  closed closed := by simp [(Outbox.offer_eq_some offered).1] at closed
  unsent _ _ member := by simp at member
  labelled event member := by
    rw [List.mem_singleton.mp member]
    exact unasked
  flow := by simp [queued, written, Session.out, Session.withOut, controls_offer offered]

/-- A request that is refused is answered in the same step. -/
theorem refused {frame : Frame} {out : Outbox} (answers : Answers asked.id frame)
    (offered : session.out.offer .control ⟨frame, none⟩ = some out) :
    Adds session [.requested asked, .queued (some asked) frame] (session.withOut out) where
  balance _ test := by
    have same : unfinished test (session.withOut out) = unfinished test session := rfl
    simp [requested, answered, failed, List.countP_cons, same]
  closed closed := by simp [(Outbox.offer_eq_some offered).1] at closed
  unsent _ _ member := by simp at member
  labelled event member := by
    rcases List.mem_cons.mp member with rfl | member
    · trivial
    · rw [List.mem_singleton.mp member]
      exact answers
  flow := by simp [queued, written, Session.out, Session.withOut, controls_offer offered]

theorem received (guarded : Guarded session) (received : Received session events after) :
    Adds session events after := by
  cases received with
  | passed => exact nothing (fun _ => rfl) rfl
  | @answered host events same =>
    have quiet : ∀ event ∈ events.map fun event => (Event.runtime (.host event)), Quiet event := by
      intro event member
      obtain ⟨inner, -, rfl⟩ := List.mem_map.mp member
      trivial
    rw [← List.append_nil (events.map _)]
    exact after_quiet quiet (nothing (fun _ => rfl) same)
  | rejected unasked offered => exact queued_by_loop offered unasked
  | left => exact nothing (fun _ => rfl) rfl
  | refused refusal value offered =>
    refine refused ?_ offered
    rw [Answers, value]
    exact ⟨rfl, rfl⟩
  | abandoned asked =>
    constructor
    case balance => exact fun stays => by cases stays
    case closed => exact id
    case unsent => simp
    case labelled => simp [Labelled]
    case flow => simp [queued, written, Session.out]
  | @spawned asked short new free =>
    constructor
    case balance =>
      intro _ test
      rw [guarded.unfinished_spawn]
      simp [requested, answered, failed, List.countP_cons, Nat.add_comm]
    case closed => exact id
    case unsent => simp
    case labelled => simp [Labelled]
    case flow => simp [queued, written, Session.out, Session.spawn]

theorem sent {number : Nat} {task : Task} {frame : Frame} {shutdown : Bool}
    (found : session.tasks.lookup number = some task) (live : task.unfinished = true)
    (answers : Answers task.asked.id frame)
    (sent : Sent session number task frame shutdown events after) : Adds session events after := by
  cases sent with
  | closed closed =>
    constructor
    case balance =>
      intro _ test
      rw [unfinished_finish found live shutdown]
      simp [requested, answered, failed, List.countP_cons, Nat.add_comm]
    case closed => exact id
    case unsent => exact fun _ _ _ => closed
    case labelled => simp [Labelled]
    case flow => simp [queued, written, Session.out, Session.finish]
  | @queued out offered =>
    have ended : ∀ test, unfinished test ((session.withOut out).finish number task shutdown) =
        unfinished test (session.finish number task shutdown) := fun _ => rfl
    constructor
    case balance =>
      intro _ test
      rw [ended, unfinished_finish found live shutdown]
      simp [requested, answered, failed, List.countP_cons, Nat.add_comm]
    case closed => exact fun closed => by simp [(Outbox.offer_eq_some offered).1] at closed
    case unsent => simp
    case labelled => simpa [Labelled] using answers
    case flow =>
      simp [queued, written, Session.out, Session.withOut, Session.finish, controls_offer offered]
  | parked => exact nothing (fun _ => unfinished_park found live frame shutdown) rfl

end Adds

/-- What a step of a session with guarded tasks adds to the accounts. -/
theorem Effect.adds {action : Action} (effect : Effect session action events after)
    (guarded : Guarded session) : Adds session events after := by
  cases effect with
  | idle | left => exact .nothing (fun _ => rfl) rfl
  | @runtime runtime events noticed =>
    obtain ⟨more, grown, notices⟩ := noticed.grown
    have new : added session.out runtime.host.out = more := by simp [added, grown]
    rw [new]
    apply Adds.after_quiet
    · intro event member
      obtain ⟨inner, -, rfl⟩ := List.mem_map.mp member
      trivial
    · constructor
      case balance =>
        intro _ test
        have none : requested test (more.map (.queued none)) = 0 ∧
            answered test (more.map (.queued none)) = 0 ∧
            failed test (more.map (.queued none)) = 0 := by
          refine ⟨List.countP_eq_zero.mpr ?_, List.countP_eq_zero.mpr ?_,
            List.countP_eq_zero.mpr ?_⟩
          all_goals
            intro event member
            obtain ⟨frame, -, rfl⟩ := List.mem_map.mp member
            simp
        rw [none.1, none.2.1, none.2.2]
        rfl
      case closed => exact noticed.closed
      case unsent => simp
      case labelled =>
        intro event member
        obtain ⟨frame, listed, rfl⟩ := List.mem_map.mp member
        exact Or.inl (notices frame listed)
      case flow =>
        have all : queued (more.map (.queued none)) = more.map fun frame => (none, frame) := by
          simp [queued, List.filterMap_map]
        have unwritten : written (more.map (.queued none)) = [] := by
          simp [written, List.filterMap_map]
        rw [all, unwritten, List.map_map]
        simpa [Session.out, Function.comp_def] using grown.symm
  | @wrote frame out taken =>
    constructor
    case balance =>
      intro _ test
      simp only [requested, answered, failed, List.countP_singleton]
      rfl
    case closed => exact fun closed => (closed_next taken).trans closed
    case unsent => simp
    case labelled => simp [Labelled]
    case flow =>
      have fronted := controls_next taken
      simpa [queued, Session.out, Session.withOut] using fronted
  | handled found phase result encoded sent =>
    exact .sent found (by simp [Task.unfinished, phase]) (answers_of_encodeControl encoded) sent
  | tooLarge found phase encoded =>
    exact absurd encoded (encodeControl_response_ne_none (guarded.short found) _)
  | polled found phase sent =>
    exact .sent found (by simp [Task.unfinished, phase]) (guarded.ready found phase) sent
  | joined joins found phase => exact .nothing (fun _ => unfinished_join found phase) rfl
  | ended filled | more filled =>
    rw [← List.append_nil events]
    exact .after_quiet (quiet_filled filled) (.nothing (fun _ => rfl) rfl)
  | @framed input front rest events after filled inner received =>
    have taken : Guarded { session with frame := [], buffer := rest } :=
      guarded.same rfl rfl rfl rfl
    have adds := Adds.received taken received
    have whole : Adds session events after :=
      ⟨adds.balance, adds.closed, adds.unsent, adds.labelled, adds.flow⟩
    have quiet : ∀ event ∈ [Event.framed (session.frame ++ (front ++ [newline]))], Quiet event := by
      simp [Quiet]
    exact .after_quiet (quiet_filled filled) (.after_quiet quiet whole)

/-- The invariant of all runs. -/
theorem accounts_of_execution {fromSlice : List UInt8 → Except String Value}
    {history : List (Transition Session Action Event)}
    (execution : (machine fromSlice).Execution history session) :
    Guarded session ∧ Conserved (trace history) session := by
  refine execution.historyInvariant
    (fun history session => Guarded session ∧ Conserved (trace history) session) ?_ ?_
  · rintro session ⟨name, rfl⟩
    refine ⟨.initial name, ?_⟩
    constructor
    case balance => exact fun _ test => by simp [requested, answered, failed, unfinished]
    case closed => simp
    case labelled => simp
    case flow => rfl
  · intro history session action next events _ kept taken
    obtain ⟨live, effect⟩ := step_spec taken
    refine ⟨effect.guarded kept.1, ?_⟩
    rw [trace_append]
    simpa using kept.2.adds live (effect.adds kept.1)

end Steps

end Spinfoam.Serve
