import Spinfoam.Serve.Custody

/-!
# Answers and what they tell of

An answer to a load, a stop, an unload or a delivery that is a success tells the
embedder of something that the runtime has done. What is told of has been done, in
the same poll, and whatever has been done is told of.
-/

namespace Spinfoam.Serve

open Spinfoam.Json Spinfoam.Std Spinfoam.Outbox Spinfoam.Guest Spinfoam.Semantics

/-- What the result of a request tells of. -/
def reported (asked : Asked) (params : Value) : RpcResult → Option Runtime.Report
  | .error _ => none
  | .ok value =>
    match asked.method with
    | "sf.object.load" => ((value.get "object_id").bind Value.asStr).map .loaded
    | "sf.object.stop" => (readId params).map (.stopped · false)
    | "sf.object.unload" => (readId params).map (.stopped · true)
    | "sf.event.deliver" =>
      if value = Mailbox.admitted false then
        (readEvent params).map fun event =>
          .delivered event.objectId (Runtime.envelope event.eventId event.topic event.payload)
      else none
    | _ => none

/-- The answer of a call tells of what the call has done. -/
theorem Called.reported {number : Nat} {asked : Asked} {params : Value} {runtime : Runtime}
    {action : Runtime.Action} {result : RpcResult} {reports : List Runtime.Report}
    (called : Called runtime number asked params action)
    (tells : Runtime.Tells runtime action result reports) :
    (Serve.reported asked params result).toList = reports := by
  obtain ⟨id, method⟩ := asked
  cases called with
  | first asks =>
    cases asks with
    | load hash config capabilities named =>
      cases tells with
      | refused => rfl
    | start named =>
      obtain rfl : method = _ := named
      cases tells with
      | refused => rfl
      | started => rfl
    | status named =>
      obtain rfl : method = _ := named
      cases tells with
      | refused => rfl
      | status => rfl
    | stop unload order named read =>
      obtain rfl : method = _ := named
      cases tells with
      | refused => rfl
      | stopped => cases unload <;> simp [Serve.reported, stopMethod, read]
    | deliver named read =>
      obtain rfl : method = _ := named
      cases tells with
      | refused => rfl
      | accepted => simp [Serve.reported, read]
      | duplicate _ _ _ _ old => simp [Serve.reported, old]
  | loaded _ method =>
    obtain rfl := method
    cases tells with
    | refused => rfl
    | loaded _ _ named => simp [Serve.reported, named]
  | @stopped _ call unload method waiting purpose named =>
    obtain rfl := method
    cases tells with
    | refused => rfl
    | @joined _ current asked _ _ found request =>
      obtain rfl := Option.some.inj (found.symm.trans waiting)
      obtain rfl := Runtime.Purpose.request.inj (request.symm.trans purpose)
      cases asked <;> simp [Serve.reported, stopMethod, named]

namespace Process

/-- What an event tells of. -/
def told : Event → Option Runtime.Report
  | .returned asked params result => reported asked params result
  | _ => none

/-- What has been done in an event. -/
def happened (event : Event) : Option Runtime.Report := (beneath event).bind Runtime.Event.report

section Lists

variable {events : List Event}

theorem filterMap_happened (events : List Event) :
    events.filterMap happened = Runtime.reports (events.filterMap beneath) := by
  rw [Runtime.reports, List.filterMap_filterMap]
  rfl

theorem told_session (events : List Serve.Event) :
    (events.map Event.session).filterMap told = [] := by
  rw [List.filterMap_map, List.filterMap_eq_nil_iff]
  exact fun _ _ => rfl

theorem happened_session (events : List Serve.Event) :
    (events.map Event.session).filterMap happened = Runtime.reports (events.filterMap observed) := by
  rw [filterMap_happened, filterMap_beneath, inner_session]

/-- In the loop nothing is done. -/
theorem quiet_session {events : List Serve.Event} (own : ∀ event ∈ events, event.ofLoop = true) :
    Runtime.reports (events.filterMap observed) = [] := by
  rw [Runtime.reports, List.filterMap_eq_nil_iff]
  intro event member
  obtain ⟨outer, there, seen⟩ := List.mem_filterMap.mp member
  have looped := own outer there
  cases outer with
  | runtime inner =>
    obtain rfl := Option.some.inj seen
    cases inner with
    | host => rfl
    | _ => cases looped
  | written => cases looped
  | arrived | framed | requested | queued | unsent => cases seen

end Lists

variable {env : Environment} {fromSlice : List UInt8 → Except String Value}
  {process after : Process} {number : Nat} {asked : Asked} {params : Value}

theorem reported_plain (params : Value) (result : RpcResult)
    (plain : asked.method ∈ ["sf.object.list", "sf.stats", "sf.shutdown", "sf.initialize",
      compileMethod, "sf.object.start", "sf.object.get"]) :
    reported asked params result = none := by
  obtain ⟨id, method⟩ := asked
  cases result with
  | error => rfl
  | ok value =>
    simp only [List.mem_cons, List.not_mem_nil, or_false, compileMethod] at plain
    rcases plain with rfl | rfl | rfl | rfl | rfl | rfl | rfl <;> rfl

/-- A handler that returns without the runtime tells of nothing. -/
theorem Returns.unreported {result : RpcResult} {initialized : Bool}
    (returns : Returns env process number asked params result initialized)
    (custody : process.Custody number) : reported asked params result = none := by
  cases returns with
  | answered _ handled =>
    cases handled_of_eq handled with
    | refused error => rfl
    | welcomed named => exact reported_plain params _ (by simp [named])
    | informed value _ named =>
      refine reported_plain params _ ?_
      simp only [List.mem_cons, List.not_mem_nil, or_false] at named ⊢
      rcases named with same | same | same <;> simp [same]
  | compiled output compiling =>
    have named := (handling_custody compiling custody).2.2.2 rfl
    exact reported_plain params _ (by simp [named])

/-- A step that does not shut the runtime down does what it tells of. -/
theorem Effect.reported {events : List Event} (effect : Effect env fromSlice process events after)
    (steady : process.Steady) :
    events.filterMap happened = events.filterMap told ∨
      ∃ action runtime emitted, Stops process action ∧
        Runtime.machine.step process.session.runtime action = some (runtime, emitted) ∧
        events = (process.afterShutdown runtime emitted).2 ∧
        after = (process.afterShutdown runtime emitted).1 := by
  have custody (live : process.session.left = false) : process.stage = .serving :=
    steady.behind.resolve_right (by simp [live])
  cases effect with
  | looped loop _ taken =>
    left
    rw [told_session, happened_session]
    exact quiet_session (looped_perform loop taken).events
  | @returned task asked params result initialized session events returns taken =>
    left
    have silent := returns.unreported (steady.custody (custody returns.live) task)
    have quiet := (returned_handled taken).2.2.2.2
    rw [List.filterMap_cons, List.filterMap_cons, told_session, happened_session,
      quiet_session quiet]
    simp [happened, beneath, inner, told, silent]
  | @waiting task asked params action initialized session events calls taken silent =>
    left
    obtain ⟨-, runtime, emitted, stepped, -, rfl, called, -⟩ :=
      calls.outcome (steady.custody (custody calls.live) task) steady.sound taken
    rw [answerIn_runtime] at silent
    rw [told_session, happened_session, List.filterMap_append, observed_runtime, observed_queued,
      List.append_nil]
    cases called.call.honest steady.sound called.purpose stepped with
    | silent _ nothing => exact nothing
    | told answered => exact absurd (silent.symm.trans answered) (by simp)
  | @answered task asked params action result initialized middle session first later calls taken
      answer sent =>
    left
    obtain ⟨-, runtime, emitted, stepped, -, rfl, called, -⟩ :=
      calls.outcome (steady.custody (custody calls.live) task) steady.sound taken
    have quiet := (returned_handled sent).2.2.2.2
    rw [answerIn_runtime] at answer
    rw [List.filterMap_append, List.filterMap_append, List.filterMap_cons, List.filterMap_cons,
      told_session, told_session, happened_session, happened_session, List.filterMap_append,
      observed_runtime, observed_queued, List.append_nil,
      quiet_session quiet]
    cases called.call.honest steady.sound called.purpose stepped with
    | silent unanswered => exact absurd (unanswered.symm.trans answer) (by simp)
    | @told other answered tells =>
      obtain rfl := Option.some.inj (answered.symm.trans answer)
      rw [← called.reported tells]
      cases reported : Serve.reported asked params other <;>
        simp [happened, beneath, inner, Process.told, reported]
  | compiling | looked | accepted | cancelled | aborted | finished => exact Or.inl rfl
  | guest taken =>
    left
    obtain ⟨-, runtime, emitted, stepped, -, rfl⟩ := perform_runtime taken
    simp only [Runtime.machine, Option.ite_none_left_eq_some] at stepped
    rw [told_session, happened_session, List.filterMap_append, observed_runtime, observed_queued,
      List.append_nil]
    exact (Runtime.unasked_pollTask stepped.2).reports
  | took => exact Or.inl rfl
  | broken _ taken =>
    left
    obtain ⟨-, runtime, emitted, stepped, -, rfl⟩ := perform_runtime taken
    simp only [Runtime.machine, Runtime.perform, Option.ite_none_left_eq_some] at stepped
    obtain ⟨-, rfl⟩ := Prod.mk.inj (Option.some.inj stepped.2)
    rw [told_session, happened_session, List.filterMap_append, observed_runtime, observed_queued]
    rfl
  | stopped stops taken => exact Or.inr ⟨_, _, _, stops, taken, rfl, rfl⟩

end Process

end Spinfoam.Serve
