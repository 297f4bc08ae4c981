import Spinfoam.Host.Ledger

/-!
# The account of the host

The registry, the outbox and the reply channels, against the events so far: what
every operation of the host keeps up.
-/

namespace Spinfoam.Host

open Spinfoam.Json Spinfoam.Std Spinfoam.Outbox Spinfoam.Semantics

/-- A call in progress is pending or has got its reply, and only a cancellation
replies that it is closed. -/
structure Answerable (events : List Event) (host : Host) (live : Nat → Option CallGuard) :
    Prop where
  cancelled : ∀ {id}, host.replies.lookup id = some (.error Status.closed) →
    .objectCancelled id ∈ events
  awaited : ∀ {future guard}, live future = some guard →
    guard.id ∈ host.pending ∨ guard.id ∈ host.replies

variable {events more : List Event} {host after : Host} {live : Nat → Option CallGuard}

/-- No response says that a call is closed. -/
theorem resultOf_ne_closed (frame : Value) : resultOf frame ≠ .error Status.closed := by
  unfold resultOf
  split
  · split_ifs
    · simp
    · decide
  · decide

theorem answerable_start (session : String) : Answerable [] { session } fun _ => none where
  cancelled := by
    intro id found
    cases found
  awaited := by simp

namespace Answerable

/-- Steps that leave the calls alone. -/
theorem keep (answers : Answerable events host live) (pending : after.pending = host.pending)
    (replies : after.replies = host.replies) : Answerable (events ++ more) after live where
  cancelled := by
    intro id found
    rw [replies] at found
    exact List.mem_append_left _ (answers.cancelled found)
  awaited := by
    rw [pending, replies]
    exact answers.awaited

theorem withOut (answers : Answerable events host live) (out : Outbox) :
    Answerable events { host with out } live := ⟨answers.cancelled, answers.awaited⟩

/-- A new call is pending. -/
theorem register (answers : Answerable events host live) (future : Nat) (object : String) :
    Answerable (events ++ [.registered host.nextId object]) (host.register object)
      (Function.update live future (some ⟨host.nextId, false, object⟩)) where
  cancelled := fun found => List.mem_append_left _ (answers.cancelled found)
  awaited := by
    intro other guard held
    by_cases same : other = future
    · subst same
      rw [Function.update_self] at held
      obtain rfl := Option.some.inj held
      exact Or.inl ((AList.mem_insert _).mpr (Or.inl rfl))
    · rw [Function.update_of_ne same] at held
      exact (answers.awaited held).imp_left fun member => (AList.mem_insert _).mpr (Or.inr member)

/-- A call counts as sent. -/
theorem mark (answers : Answerable events host live) {future : Nat} {guard : CallGuard}
    (found : live future = some guard) (pending : after.pending = host.pending)
    (replies : after.replies = host.replies) :
    Answerable (events ++ more) after
      (Function.update live future (some { guard with sent := true })) where
  cancelled := (answers.keep pending replies).cancelled
  awaited := by
    intro other current held
    rw [pending, replies]
    by_cases same : other = future
    · subst same
      rw [Function.update_self] at held
      obtain rfl := Option.some.inj held
      have waits := answers.awaited found
      exact waits
    · rw [Function.update_of_ne same] at held
      exact answers.awaited held

/-- A call that is over takes only its own with it. -/
theorem withdraw (answers : Answerable events host live) (ledger : Ledger events host live)
    {future : Nat} {guard : CallGuard} (found : live future = some guard) {notices : List Event}
    (withdrawn : Withdrawn guard host after notices) :
    Answerable (events ++ more) after (Function.update live future none) where
  cancelled := by
    intro id stored
    rw [withdrawn.replies] at stored
    exact List.mem_append_left _ (answers.cancelled (Map.lookup_erase_eq_some stored).2)
  awaited := by
    intro other current held
    by_cases same : other = future
    · subst same
      rw [Function.update_self] at held
      cases held
    · rw [Function.update_of_ne same] at held
      have different : current.id ≠ guard.id :=
        fun ids => same (ledger.liveDistinct held found ids)
      rw [withdrawn.pending, withdrawn.replies, AList.mem_erase, AList.mem_erase]
      exact (answers.awaited held).imp (And.intro different) (And.intro different)

/-- A pending entry is taken for a reply. -/
theorem take (answers : Answerable events host live) {id : String} {result : Result}
    (pending : after.pending = host.pending.erase id)
    (replies : after.replies = host.replies.insert id result)
    (reason : result = .error Status.closed → .objectCancelled id ∈ more) :
    Answerable (events ++ more) after live where
  cancelled := by
    intro other stored
    rw [replies] at stored
    obtain ⟨rfl, same⟩ | ⟨-, old⟩ := Map.lookup_insert_eq_some stored
    · exact List.mem_append_right _ (reason same.symm)
    · exact List.mem_append_left _ (answers.cancelled old)
  awaited := by
    intro future guard held
    rw [pending, replies, AList.mem_erase, AList.mem_insert]
    by_cases same : guard.id = id
    · exact Or.inr (Or.inl same)
    · exact (answers.awaited held).imp (And.intro same) Or.inr

end Answerable

/-- Registry and outbox agree with the events. -/
structure Accounted (events : List Event) (host : Host) (live : Nat → Option CallGuard) :
    Prop where
  ledger : Ledger events host live
  lanes : Lanes none events host live
  answers : Answerable events host live

/-- The guard that goes on living after a poll. -/
def Outcome.guard : Outcome → Option CallGuard
  | .ready _ => none
  | .pending call => some call.guard

namespace Accounted

theorem start (session : String) : Accounted [] { session } fun _ => none :=
  ⟨ledger_start session {}, lanes_start session, answerable_start session⟩

private theorem update_found {future : Nat} {guard : CallGuard} (found : live future = some guard) :
    Function.update live future (some guard) = live := by
  rw [← found, Function.update_eq_self]

/-- A poll of a call in progress. -/
theorem polled (accounted : Accounted events host live) {future : Nat} {guard : CallGuard}
    (found : live future = some guard) {sends : DataFrame → Prop}
    (asks : ∀ entry, sends entry → Asks guard.id entry)
    {result : Host × List Event × Outcome} (polled : Polled guard sends host result) :
    Accounted (events ++ result.2.1) result.1
      (Function.update live future result.2.2.guard) := by
  obtain ⟨ledger, lanes, answers⟩ := accounted
  cases polled with
  | parked =>
    simp only [Outcome.guard, update_found found, List.append_nil]
    exact ⟨ledger, lanes, answers⟩
  | waiting =>
    simp only [Outcome.guard, update_found found, List.append_nil]
    exact ⟨ledger, lanes, answers⟩
  | @queued entry out sending offered registered =>
    have marked := Function.update_self future (some { guard with sent := true }) live
    have uncancelled := (ledger.pendingFresh registered).2.1
    have recorded := ledger.queue found entry.frame
    exact ⟨recorded.withOut out, (lanes.mark found entry.frame).enqueue marked
      (asks entry sending) offered (by simpa using uncancelled), answers.mark found rfl rfl⟩
  | returned withdrawn =>
    exact ⟨ledger.withdraw found withdrawn (Or.inr ⟨_, rfl⟩),
      lanes.withdraw ledger found withdrawn (Or.inr ⟨_, rfl⟩),
      answers.withdraw ledger found withdrawn⟩
  | @queuedReturned entry after notices outcome sending withdrawn =>
    have marked := Function.update_self future (some { guard with sent := true }) live
    have recorded := ledger.queue found entry.frame
    have left := recorded.withdraw marked withdrawn (Or.inr ⟨outcome, rfl⟩)
    have empty := (lanes.mark found entry.frame).withdraw recorded marked withdrawn
      (Or.inr ⟨outcome, rfl⟩)
    have answered : Answerable (events ++ [.queued guard.id entry.frame] ++
        (notices ++ [.returned guard.id outcome])) _ _ :=
      (answers.mark found rfl rfl).withdraw recorded marked withdrawn
    rw [Function.update_idem, List.append_assoc] at left empty answered
    exact ⟨left, empty, answered⟩

/-- The first poll of a call. -/
theorem started (accounted : Accounted events host live) {future : Nat}
    (idle : live future = none) {object capability : String} {arguments : Value}
    {timeoutMs now : Nat} {result : Host × List Event × Outcome}
    (started : Started object capability arguments timeoutMs now host result) :
    Accounted (events ++ result.2.1) result.1
      (Function.update live future result.2.2.guard) := by
  cases started with
  | refused =>
    have same : Function.update live future none = live := by
      rw [← idle, Function.update_eq_self]
    simpa [Outcome.guard, same] using accounted
  | @registered result polled =>
    have registered : Accounted (events ++ [.registered host.nextId object])
        (host.register object)
        (Function.update live future (some ⟨host.nextId, false, object⟩)) :=
      ⟨accounted.ledger.register idle object, by
        apply accounted.lanes.register idle
        · rfl
        · simp, accounted.answers.register future object⟩
    have after := registered.polled (Function.update_self ..) ?_ polled
    · simpa [Function.update_idem] using after
    · intro entry starts
      exact starts.asks (isCall_request _ _ _ _ _ _)

/-- A call dropped while it is suspended. -/
theorem abandoned (accounted : Accounted events host live) {future : Nat} {call : Call}
    (found : live future = some call.guard) :
    Accounted (events ++ (host.abandon call).2) (host.abandon call).1
      (Function.update live future none) := by
  have withdrawn := dropGuard_spec host call.guard
  exact ⟨accounted.ledger.withdraw found withdrawn (Or.inl rfl),
    accounted.lanes.withdraw accounted.ledger found withdrawn (Or.inl rfl),
    accounted.answers.withdraw accounted.ledger found withdrawn⟩

/-- A response frame. -/
theorem response (accounted : Accounted events host live) (frame : Value) :
    Accounted (events ++ (host.response frame).2) (host.response frame).1 live := by
  rcases response_eq host frame with ⟨id, -, registered, same⟩ | ⟨-, same⟩
  · rw [same]
    change Accounted (events ++ [.answered id frame]) { host with
      pending := host.pending.erase id
      replies := host.replies.insert id (resultOf frame) } live
    refine ⟨?_, ?_, accounted.answers.take rfl rfl ?_⟩
    · apply accounted.ledger.take registered
      case reason => exact Or.inl ⟨frame, rfl, rfl⟩
      all_goals rfl
    · apply accounted.lanes.shrink
      · exact fun _ => List.Subset.refl _
      · simp
    · exact fun closed => absurd closed (resultOf_ne_closed frame)
  · rw [same]
    change Accounted (events ++ [.ignored]) { host with
      ignored := min (host.ignored + 1) (2 ^ 64 - 1) } live
    refine ⟨?_, ?_, accounted.answers.keep rfl rfl⟩
    · apply accounted.ledger.quiet
      case silent => simp [Event.subject]
      all_goals rfl
    · apply accounted.lanes.shrink
      · exact fun _ => List.Subset.refl _
      · simp

/-- The cancellation of all calls of an object and the removal of its frames. -/
theorem cancelledObject (accounted : Accounted events host live) (object : String)
    (order : List String) :
    Accounted (events ++ (host.cancelObject object order).2)
      { (host.cancelObject object order).1 with
        out := (host.cancelObject object order).1.out.removeObject object } live := by
  -- between the two, the lane of the object may hold requests of cancelled calls
  have cancelled : Ledger (events ++ (host.cancelObject object order).2)
        (host.cancelObject object order).1 live ∧
      Lanes (some object) (events ++ (host.cancelObject object order).2)
        (host.cancelObject object order).1 live ∧
      Answerable (events ++ (host.cancelObject object order).2)
        (host.cancelObject object order).1 live ∧
      ∀ id entry, (host.cancelObject object order).1.pending.lookup id = some entry →
        host.pending.lookup id = some entry := by
    refine cancelCalls_induction (fun events after => Ledger events after live ∧
      Lanes (some object) events after live ∧ Answerable events after live ∧
      ∀ id entry, after.pending.lookup id = some entry → host.pending.lookup id = some entry)
      (fun id => ∃ entry, host.pending.lookup id = some entry ∧ entry.object = object)
      ?_ (fun id member => mem_idsOf.mp member)
      ⟨accounted.ledger, accounted.lanes.exempting object, accounted.answers,
        fun _ _ found => found⟩
    rintro events current id ⟨entry, found, own⟩ ⟨ledger, lanes, answers, earlier⟩
    by_cases registered : id ∈ current.pending
    · have revoked := cancelCall_spec registered
      obtain ⟨still, bound⟩ := Option.isSome_iff_exists.mp (AList.lookup_isSome.mpr registered)
      obtain rfl := Option.some.inj (found.symm.trans (earlier id still bound))
      refine ⟨?_, lanes.revoke ledger bound own revoked,
        answers.take revoked.pending revoked.replies fun _ => ?_, ?_⟩
      · refine ledger.take registered revoked.pending revoked.replies revoked.next
          revoked.session (Or.inr ⟨rfl, ?_⟩)
        exact revoked.notice.imp And.left And.left
      · rcases revoked.notice with ⟨same, -⟩ | ⟨same, -⟩ <;>
          · rw [same]
            exact List.mem_cons_self
      · intro other waiting left
        rw [revoked.pending] at left
        have different : other ≠ id := by
          rintro rfl
          rw [AList.lookup_erase] at left
          cases left
        rw [AList.lookup_erase_ne different] at left
        exact earlier other waiting left
    · rw [cancelCall_of_not_mem registered, List.append_nil]
      exact ⟨ledger, lanes, answers, earlier⟩
  obtain ⟨ledger, lanes, answers, -⟩ := cancelled
  obtain ⟨-, -, removed⟩ :=
    Outbox.removeObject_spec (host.cancelObject object order).1.out object
  refine ⟨ledger.withOut _, (lanes.fewer ?_).settle (by simp [removed]), answers.withOut _⟩
  intro lane
  rw [removed]
  split_ifs
  · exact List.nil_subset _
  · exact List.Subset.refl _

/-- Steps of the outbox that take frames out, or only close it. -/
theorem shrunk (accounted : Accounted events host live) {out : Outbox}
    (fewer : ∀ lane, out.lane lane ⊆ host.out.lane lane) {more : List Event}
    (silent : ∀ event ∈ more, event.subject = none) :
    Accounted (events ++ more) { host with out } live :=
  ⟨(accounted.ledger.quiet rfl rfl rfl rfl silent).withOut out,
    accounted.lanes.shrink fewer (fun id member => by cases silent _ member),
    accounted.answers.keep rfl rfl⟩

/-- Control traffic that is none of calls. -/
theorem controlled (accounted : Accounted events host live) {value : Value}
    (other : foreign value = true) :
    Accounted events { host with out := (host.out.tryControl value).1 } live := by
  refine ⟨accounted.ledger.withOut _, ?_, accounted.answers.withOut _⟩
  rcases Outbox.tryControl_spec host.out value with same | ⟨frame, out, encoded, offered, same⟩
  · rw [same]
    exact accounted.lanes
  · rw [same]
    obtain ⟨-, -, -, grown⟩ := Outbox.offer_eq_some offered
    refine accounted.lanes.push grown ?_ rfl (Or.inr rfl)
    rwa [encode_eq_some.mp encoded]

/-- Data traffic that is none of calls. -/
theorem logged (accounted : Accounted events host live) {object : String} {value : Value}
    (other : foreign value = true) (unnamed : value.get "id" = none) :
    Accounted events { host with out := (host.out.tryData object value).1 } live := by
  refine ⟨accounted.ledger.withOut _, ?_, accounted.answers.withOut _⟩
  rcases Outbox.tryData_spec host.out object value with
    ⟨-, same⟩ | ⟨frame, out, encoded, offered, same⟩
  · exact accounted.lanes.fewer fun lane => by simp [same]
  · rw [same]
    obtain ⟨-, -, -, grown⟩ := Outbox.offer_eq_some offered
    have none : requestId value = none := by simp [requestId, unnamed]
    refine accounted.lanes.push grown ?_ none (Or.inl ?_)
    · rwa [encode_eq_some.mp encoded]
    · rwa [encode_eq_some.mp encoded]

end Accounted

end Spinfoam.Host
