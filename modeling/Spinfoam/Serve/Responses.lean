import Spinfoam.Serve.Accounting

/-!
# What an embedder can count on

Every request gets exactly one response, an id is free again when its response
has been read, and 48 requests besides compilations can be outstanding.
-/

namespace Spinfoam.Serve

open Spinfoam.Json Spinfoam.Std Spinfoam.Outbox Spinfoam.Semantics

variable {fromSlice : List UInt8 → Except String Value} {session after : Session}
  {events : List Event} {asked : Asked} {frame : Frame}

/-- Frames with this id are those that answer requests with this id. -/
theorem responses_eq_answered (labelled : ∀ event ∈ events, Labelled event) (id : String) :
    responses id events = answered (named id) events := by
  apply List.countP_congr
  intro event member
  have label := labelled event member
  cases event with
  | queued origin frame =>
    cases origin with
    | none =>
      suffices unanswered : ¬ Answers id frame by simp [unanswered]
      rintro ⟨method, same⟩
      rcases label with notice | null
      · exact notice method
      · rw [same] at null
        cases null
    | some asked =>
      have own : Answers asked.id frame := label
      have iff : Answers id frame ↔ asked.id = id := by
        constructor
        · intro answers
          have same := own.2.symm.trans answers.2
          simpa using same
        · rintro rfl
          exact own
      simp [iff, named]
  | _ => simp

/-- A request that is answered in the step that processes it has been refused. -/
theorem refusal_of_effect {action : Action} (effect : Effect session action events after)
    (processed : .requested asked ∈ events) (reply : .queued (some asked) frame ∈ events) :
    ∃ error, Refusal session asked error ∧
      frame.value = response (.string asked.id) (.error error) := by
  cases effect with
  | idle | left | wrote | tooLarge | joined => simp at processed
  | runtime => simp at processed
  | handled found phase result encoded sent | polled found phase sent =>
    cases sent <;> simp at processed
  | ended filled | more filled => exact absurd (quiet_filled filled _ processed) id
  | @framed input front rest events after filled inner received =>
    have inside : ∀ event, (¬ Quiet event) → event ∈ input ++
        .framed (session.frame ++ (front ++ [newline])) :: events → event ∈ events := by
      intro event loud member
      rcases List.mem_append.mp member with early | late
      · exact absurd (quiet_filled filled event early) loud
      · rcases List.mem_cons.mp late with rfl | here
        · exact absurd trivial loud
        · exact here
    replace processed := inside (.requested asked) (fun silent => silent) processed
    replace reply := inside (.queued (some asked) frame) (fun silent => silent) reply
    cases received with
    | passed | left => cases processed
    | answered => simp at processed
    | rejected => simp at processed
    | @refused other error sent out refusal value =>
      simp only [List.mem_cons, Event.requested.injEq, reduceCtorEq, List.not_mem_nil, or_false] at processed
      subst processed
      simp only [List.mem_cons, reduceCtorEq, Event.queued.injEq, true_and, List.not_mem_nil,
        or_false, false_or] at reply
      subst reply
      refine ⟨error, ?_, value⟩
      cases refusal with
      | duplicate held => exact .duplicate held
      | busy new metered full => exact .busy new metered full
    | abandoned | spawned => simp at reply

theorem duplicateId_ne_tooManyRequests (id : Value) :
    response id (.error duplicateId) ≠ response id (.error tooManyRequests) := by
  intro same
  have codes := congrArg (fun value => (value.get "error").bind (Value.get "code")) same
  change some (Value.number (.int (-32600))) = some (Value.number (.int (-32001))) at codes
  simp at codes

/-- The ids are those of the unfinished tasks, one task for each, and the free
slots are what the unfinished tasks besides compilations leave of 48. Control
frames are read in the order in which they were queued; when every request with
an id has had its response read, a request with that id is not refused as a
duplicate, and with at most 47 requests besides compilations that have not, none
is refused for lack of a slot. -/
theorem outstanding_requests_accounted {history : List (Transition Session Action Event)}
    (execution : (machine fromSlice).Execution history session) :
    (∀ id, id ∈ session.ids ↔ ∃ number task, session.tasks.lookup number = some task ∧
      task.unfinished = true ∧ task.asked.id = id) ∧
    (∀ number other task rival, session.tasks.lookup number = some task →
      session.tasks.lookup other = some rival → task.unfinished = true →
      rival.unfinished = true → task.asked.id = rival.asked.id → number = other) ∧
    session.slots + unfinished Asked.metered session = 48 ∧
    ((queued (trace history)).take (written (trace history)).length).map Prod.snd =
      written (trace history) ∧
    ∀ earlier transition later, history = earlier ++ transition :: later →
      ∀ asked frame, .requested asked ∈ transition.events →
      .queued (some asked) frame ∈ transition.events →
      (requested (named asked.id) (trace earlier) ≤ read (named asked.id) (trace earlier) →
        frame.value ≠ response (.string asked.id) (.error duplicateId)) ∧
      (requested Asked.metered (trace earlier) ≤ read Asked.metered (trace earlier) + 47 →
        frame.value ≠ response (.string asked.id) (.error tooManyRequests)) := by
  obtain ⟨guarded, conserved⟩ := accounts_of_execution execution
  refine ⟨guarded.held, fun _ _ _ _ => guarded.single, guarded.slots, ?_, ?_⟩
  · rw [List.map_take, conserved.flow, List.take_left]
  · intro earlier transition later split asked frame processed reply
    obtain ⟨prior, taken⟩ := execution.cut split
    obtain ⟨live, effect⟩ := step_spec taken
    obtain ⟨before, accounts⟩ := accounts_of_execution prior
    obtain ⟨error, refusal, value⟩ := refusal_of_effect effect processed reply
    constructor
    · intro allRead same
      cases refusal with
      | busy => exact duplicateId_ne_tooManyRequests _ (same.symm.trans value)
      | duplicate held =>
        obtain ⟨number, task, found, alive, own⟩ := (before.held _).mp held
        have balance := accounts.balance live (named asked.id)
        have seen := read_le_answered (named asked.id) (trace earlier)
        have share := unfinished_of_lookup (named asked.id) found
        have mine : named asked.id task.asked = true := by simp [named, own]
        rw [alive, mine, Bool.and_self, if_pos rfl] at share
        omega
    · intro few same
      cases refusal with
      | duplicate => exact duplicateId_ne_tooManyRequests _ (value.symm.trans same)
      | busy new metered full =>
        have balance := accounts.balance live Asked.metered
        have seen := read_le_answered Asked.metered (trace earlier)
        have slots := before.slots
        omega

/-- A parser that knows the requests for statistics with two ids. -/
def statistics : List UInt8 → Except String Value := Sample.parser [.stats "a", .stats "b"]

set_option maxRecDepth 10000 in
def duplicate : Frame := ⟨response (.string "a") (.error duplicateId), by decide⟩

/-- A request, and another one with its id. -/
def askTwice : List Action := List.replicate 2 (.frame (.ok (Sample.stats "a").line))

/-- The first is answered, both responses are read, and the id is used again. -/
def askAgain : List Action :=
  [.handled 0 Sample.early, .write, .write, .frame (.ok (Sample.stats "a").line)]

/-- Of two requests with one id the second is refused, but not for lack of a slot. When
both responses have been read, a third one is not refused as a duplicate. -/
theorem outstanding_requests_accounted_again :
    ∃ first second answered third session frame,
      (machine statistics).Execution (first ++ second :: (answered ++ [third])) session ∧
      .queued (some ⟨"a", "sf.stats"⟩) frame ∈ second.events ∧
      frame.value ≠ response (.string "a") (.error tooManyRequests) ∧
      .requested ⟨"a", "sf.stats"⟩ ∈ third.events ∧
      (∀ frame, .queued (some ⟨"a", "sf.stats"⟩) frame ∈ third.events →
        frame.value ≠ response (.string "a") (.error duplicateId)) ∧
      "a" ∈ session.ids ∧ session.slots + unfinished Asked.metered session = 48 := by
  have evaluated : ((machine statistics).run opening askTwice).any (fun refused =>
      (refused.1.getLast?.any fun second =>
        decide (.requested ⟨"a", "sf.stats"⟩ ∈ second.events ∧
          .queued (some ⟨"a", "sf.stats"⟩) duplicate ∈ second.events)) &&
      decide (requested Asked.metered (trace refused.1.dropLast) ≤ 47) &&
      ((machine statistics).run refused.2 askAgain).any fun reused =>
        (reused.1.getLast?.any fun third => decide (.requested ⟨"a", "sf.stats"⟩ ∈ third.events)) &&
        decide ("a" ∈ reused.2.ids) &&
        decide (requested (named "a") (trace (refused.1 ++ reused.1.dropLast)) ≤
          read (named "a") (trace (refused.1 ++ reused.1.dropLast)))) = true := by decide +kernel
  obtain ⟨⟨refused, middle⟩, ran, tested⟩ := (Option.any_eq_true ..).mp evaluated
  simp only [Bool.and_eq_true, Option.any_eq_true, decide_eq_true_eq] at tested
  obtain ⟨⟨⟨second, last, processed, reply⟩, few⟩, ⟨reused, session⟩, again,
    ⟨⟨third, final, asked⟩, waits⟩, allRead⟩ := tested
  obtain ⟨first, rfl⟩ := List.getLast?_eq_some_iff.mp last
  obtain ⟨answered, rfl⟩ := List.getLast?_eq_some_iff.mp final
  have prior : (machine statistics).Execution (first ++ [second]) middle :=
    Machine.execution_of_run ⟨"", rfl⟩ ran
  have execution : (machine statistics).Execution (first ++ second :: (answered ++ [third]))
      session := by
    simpa using prior.extend again
  rw [List.dropLast_concat] at few allRead
  obtain ⟨-, -, slots, -, refusals⟩ := outstanding_requests_accounted execution
  refine ⟨first, second, answered, third, session, duplicate, execution, reply, ?_, asked, ?_,
    waits, slots⟩
  · exact (refusals first second _ rfl _ duplicate processed reply).2 (by omega)
  · intro frame refusal
    refine (refusals (first ++ second :: answered) third [] (by simp) _ frame asked refusal).1 ?_
    simpa using allRead

/-- Every request that has been processed has had exactly one response queued, or
has an unfinished task, as long as the session goes on. A response can only be
lost to a closed outbox, and then the loop takes no more frames. -/
theorem every_request_answered_once {history : List (Transition Session Action Event)}
    (execution : (machine fromSlice).Execution history session) :
    (session.left = false → session.out.closed = false → ∀ id,
      requested (named id) (trace history) =
        responses id (trace history) + unfinished (named id) session) ∧
    (∀ asked error, .unsent asked error ∈ trace history → session.out.closed = true) ∧
    (session.out.closed = true → ∀ read, (machine fromSlice).step session (.frame read) = none) := by
  obtain ⟨-, conserved⟩ := accounts_of_execution execution
  refine ⟨?_, conserved.closed, ?_⟩
  · intro live isOpen id
    have balance := conserved.balance live (named id)
    have none : failed (named id) (trace history) = 0 := by
      apply List.countP_eq_zero.mpr
      intro event member
      cases event with
      | unsent asked error => simp [conserved.closed asked error member] at isOpen
      | _ => simp
    rw [responses_eq_answered conserved.labelled]
    omega
  · intro closed read
    simp [machine, Session.perform, closed]

/-- Two requests with one id: one refusal, one unfinished task. -/
theorem every_request_answered_once_twice :
    ∃ history session,
      (machine statistics).run opening askTwice = some (history, session) ∧
      responses "a" (trace history) = 1 ∧
      2 = responses "a" (trace history) + unfinished (named "a") session := by
  have evaluated : ((machine statistics).run opening askTwice).any (fun result =>
      decide (result.2.left = false ∧ result.2.out.closed = false ∧
        requested (named "a") (trace result.1) = 2 ∧
        responses "a" (trace result.1) = 1)) = true := by decide +kernel
  obtain ⟨⟨history, session⟩, ran, tested⟩ := (Option.any_eq_true ..).mp evaluated
  obtain ⟨live, isOpen, asked, answers⟩ := of_decide_eq_true tested
  obtain ⟨balance, -, -⟩ := every_request_answered_once (Machine.execution_of_run ⟨"", rfl⟩ ran)
  exact ⟨history, session, ran, answers, asked ▸ balance live isOpen "a"⟩

end Spinfoam.Serve
