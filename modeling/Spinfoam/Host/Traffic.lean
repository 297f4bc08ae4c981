import Spinfoam.Host.Ledger

/-!
# What gets into the outbox

The frames in which guests speak are host calls and log messages. Every operation
of the host says which entries it may add to the lanes: a call its own request,
everything else only frames in which no guest speaks.
-/

namespace Spinfoam

open Spinfoam.Json Spinfoam.Std Spinfoam.Outbox

/-- A frame in which a guest speaks. -/
def Speaks (value : Value) : Prop :=
  value.get "method" = some (.string "host.call") ∨ value.get "method" = some (.string "sf.log")

namespace Outbox

/-- The entries that have been added are among those shipped, or nobody speaks in
them. -/
def Carries (ships : Lane → DataFrame → Prop) (out after : Outbox) : Prop :=
  ∀ lane entry, entry ∈ after.lane lane →
    entry ∈ out.lane lane ∨ ships lane entry ∨ lane = .control ∧ ¬ Speaks entry.frame.value

/-- Nothing is shipped. -/
def nothing (_ : Lane) (_ : DataFrame) : Prop := False

namespace Carries

variable {out middle after : Outbox} {ships others : Lane → DataFrame → Prop}

/-- What only takes entries out carries nothing. -/
theorem of_subset (fewer : ∀ lane, after.lane lane ⊆ out.lane lane) : Carries ships out after :=
  fun lane _ member => Or.inl (fewer lane member)

theorem refl (out : Outbox) : Carries ships out out := of_subset fun _ => List.Subset.refl _

/-- What two steps carry is what they carry together. -/
theorem trans (first : Carries ships out middle) (second : Carries ships middle after) :
    Carries ships out after := by
  intro lane entry member
  rcases second lane entry member with old | new
  · exact first lane entry old
  · exact Or.inr new

/-- More may be shipped than is. -/
theorem mono (carries : Carries ships out after)
    (more : ∀ lane entry, ships lane entry → others lane entry) : Carries others out after := by
  intro lane entry member
  exact (carries lane entry member).imp_right (Or.imp_left (more lane entry))

/-- One entry more. -/
theorem of_offer {lane : Lane} {entry : DataFrame} (offered : out.offer lane entry = some after)
    (shipped : ships lane entry ∨ lane = .control ∧ ¬ Speaks entry.frame.value)
    (same : kept lane entry = entry) : Carries ships out after := by
  obtain ⟨-, -, -, lanes⟩ := offer_eq_some offered
  intro other current member
  rw [lanes, List.mem_append] at member
  rcases member with old | new
  · exact Or.inl old
  · split_ifs at new with here
    · subst here
      rw [List.mem_singleton.mp new, same]
      exact Or.inr shipped
    · cases new

/-- Control traffic in which nobody speaks. -/
theorem tryControl (out : Outbox) {value : Value} (silent : ¬ Speaks value) :
    Carries ships out (out.tryControl value).1 := by
  rcases tryControl_spec out value with same | ⟨frame, after, encoded, offered, same⟩
  · rw [same]
    exact refl out
  · rw [same]
    refine of_offer offered (Or.inr ⟨rfl, ?_⟩) rfl
    rwa [encode_eq_some.mp encoded]

/-- `try_data` carries at most its own value, in the lane of its object. -/
theorem tryData (out : Outbox) (object : String) (value : Value) :
    Carries (fun lane entry => lane = .object object ∧ entry.frame.value = value ∧
      entry.requestId = requestId value) out (out.tryData object value).1 := by
  rcases tryData_spec out object value with ⟨-, lanes⟩ | ⟨frame, after, encoded, offered, same⟩
  · apply of_subset
    intro lane
    rw [lanes]
    exact List.Subset.refl _
  · rw [same]
    exact of_offer offered (Or.inl ⟨rfl, encode_eq_some.mp encoded, rfl⟩) rfl

/-- `remove_object` only takes entries out. -/
theorem removeObject (out : Outbox) (object : String) :
    Carries ships out (out.removeObject object) := by
  obtain ⟨-, -, lanes⟩ := removeObject_spec out object
  apply of_subset
  intro lane
  rw [lanes]
  split_ifs
  · exact List.nil_subset _
  · exact List.Subset.refl _

/-- The writer only takes entries out. -/
theorem next {frame : Frame} (taken : out.next = some (frame, after)) : Carries ships out after := by
  obtain ⟨-, -, place, entry, -, lanes⟩ := next_eq_some taken
  apply of_subset
  intro lane
  rw [lanes]
  exact List.subset_append_right _ _

end Carries

end Outbox

namespace Host

variable {host after : Host} {guard : CallGuard} {events : List Event}
  {sends : DataFrame → Prop} {ships : Lane → DataFrame → Prop}

/-- No guest speaks in a `host.cancel`. -/
theorem silent_cancelNotice (id : String) : ¬ Speaks (cancelNotice id) := by
  simp [Speaks, cancelNotice, List.lookup]

/-- What a call ships: its own request, in the lane of its object. -/
def Own (object : String) (sends : DataFrame → Prop) (lane : Lane) (entry : DataFrame) : Prop :=
  lane = .object object ∧ sends entry

/-- A call that is withdrawn leaves a notice at most. -/
theorem Withdrawn.carries (withdrawn : Withdrawn guard host after events) :
    Carries ships host.out after.out := by
  intro lane entry member
  cases lane with
  | object name =>
    rw [withdrawn.lane] at member
    split_ifs at member
    · exact Or.inl (List.mem_filter.mp member).1
    · exact Or.inl member
  | control =>
    rcases withdrawn.notice with ⟨-, same⟩ | ⟨-, -, -, frame, value, grown⟩
    · rw [same] at member
      exact Or.inl member
    · rw [grown, List.mem_append] at member
      refine member.imp_right fun new => Or.inr ⟨rfl, ?_⟩
      rw [List.mem_singleton.mp new, value]
      exact silent_cancelNotice _

/-- A poll of a call carries at most the call's own request. -/
theorem Polled.carries {result : Host × List Event × Outcome}
    (polled : Polled guard sends host result) :
    Carries (Own guard.object sends) host.out result.1.out := by
  cases polled with
  | parked | waiting => exact .refl _
  | queued sending offered => exact .of_offer offered (Or.inl ⟨rfl, sending⟩) rfl
  | returned withdrawn => exact withdrawn.carries
  | queuedReturned sending withdrawn => exact withdrawn.carries

/-- What a call queues or goes on trying to queue is its own. -/
theorem Polled.traffic {result : Host × List Event × Outcome}
    (polled : Polled guard sends host result) :
    (∀ id frame, .queued id frame ∈ result.2.1 → ∃ entry, sends entry ∧ entry.frame = frame) ∧
      ∀ call entry, result.2.2 = .pending call → call.phase = .sending entry → sends entry := by
  have notices : ∀ {guard : CallGuard} {after : Host} {events : List Event} {outcome : Result},
      Withdrawn guard host after events → ∀ {id frame},
      .queued id frame ∉ events ++ [.returned guard.id outcome] := by
    intro guard after events outcome withdrawn id frame member
    rcases withdrawn.notice with ⟨same, -⟩ | ⟨same, -⟩ <;>
      · rw [same] at member
        simp at member
  cases polled with
  | parked sending =>
    refine ⟨by simp, ?_⟩
    rintro call entry ⟨⟩ ⟨⟩
    exact sending
  | @queued entry out sending =>
    refine ⟨?_, ?_⟩
    · intro id frame member
      obtain ⟨-, rfl⟩ := Event.queued.inj (List.mem_singleton.mp member)
      exact ⟨entry, sending, rfl⟩
    · rintro call other ⟨⟩ ⟨⟩
  | waiting =>
    refine ⟨by simp, ?_⟩
    rintro call entry ⟨⟩ ⟨⟩
  | returned withdrawn =>
    refine ⟨?_, by simp⟩
    intro id frame member
    exact absurd member (notices withdrawn)
  | @queuedReturned entry after events outcome sending withdrawn =>
    refine ⟨?_, by simp⟩
    intro id frame member
    rcases List.mem_cons.mp member with same | later
    · obtain ⟨-, rfl⟩ := Event.queued.inj same
      exact ⟨entry, sending, rfl⟩
    · exact absurd later (notices withdrawn)

/-- The first poll of a call ships the request of that call. -/
theorem Started.carries {object capability : String} {arguments : Value} {timeoutMs now : Nat}
    {result : Host × List Event × Outcome}
    (started : Started object capability arguments timeoutMs now host result) :
    Carries (Own object (Starts (request host.nextId object capability arguments timeoutMs now)))
        host.out result.1.out ∧
      (∀ id frame, .queued id frame ∈ result.2.1 → ∃ entry,
        Starts (request host.nextId object capability arguments timeoutMs now) entry ∧
          entry.frame = frame) ∧
      ∀ call entry, result.2.2 = .pending call → call.phase = .sending entry →
        Starts (request host.nextId object capability arguments timeoutMs now) entry := by
  cases started with
  | refused => exact ⟨.refl _, by simp, by simp⟩
  | registered polled =>
    obtain ⟨queued, suspended⟩ := polled.traffic
    refine ⟨polled.carries, ?_, suspended⟩
    intro id frame member
    exact queued id frame ((List.mem_cons.mp member).resolve_left (by simp))

/-- A call that is cancelled queues no request. -/
theorem carries_cancelCall (host : Host) (id : String) :
    Carries ships host.out (host.cancelCall id).1.out ∧
      ∀ other frame, .queued other frame ∉ (host.cancelCall id).2 := by
  by_cases registered : id ∈ host.pending
  · have revoked := cancelCall_spec registered
    refine ⟨?_, ?_⟩
    · intro lane entry member
      cases lane with
      | object name =>
        rw [revoked.lane] at member
        exact Or.inl member
      | control =>
        rcases revoked.notice with ⟨-, same⟩ | ⟨-, frame, value, grown⟩
        · rw [same] at member
          exact Or.inl member
        · rw [grown, List.mem_append] at member
          refine member.imp_right fun new => Or.inr ⟨rfl, ?_⟩
          rw [List.mem_singleton.mp new, value]
          exact silent_cancelNotice _
    · intro other frame member
      rcases revoked.notice with ⟨same, -⟩ | ⟨same, -⟩ <;>
        · rw [same] at member
          simp at member
  · rw [cancelCall_of_not_mem registered]
    exact ⟨.refl _, fun _ _ => List.not_mem_nil⟩

/-- The end of an object ships nothing. -/
theorem carries_cancelObject (host : Host) (object : String) (order : List String) :
    Carries ships host.out (host.cancelObject object order).1.out ∧
      ∀ other frame, .queued other frame ∉ (host.cancelObject object order).2 := by
  refine @cancelCalls_induction (fun events after => Carries ships host.out after.out ∧
    ∀ other frame, .queued other frame ∉ events) (fun _ => True) ?_ (host.idsOf object order)
    (fun _ _ => trivial) [] host ⟨.refl _, fun _ _ => List.not_mem_nil⟩
  rintro events after id - ⟨carried, silent⟩
  obtain ⟨more, quiet⟩ := @carries_cancelCall ships after id
  refine ⟨carried.trans more, ?_⟩
  intro other frame member
  rcases List.mem_append.mp member with old | new
  · exact silent other frame old
  · exact quiet other frame new

section Subjects

/-- Every event is about a call. -/
def Busy (events : List Event) : Prop := ∀ event ∈ events, event.subject ≠ none

/-- Busy stretches stay busy one after the other. -/
theorem Busy.append {more : List Event} (first : Busy events) (second : Busy more) :
    Busy (events ++ more) := by
  intro event member
  rcases List.mem_append.mp member with old | new
  · exact first event old
  · exact second event new

/-- One event about a call. -/
theorem Busy.one {event : Event} (subject : event.subject ≠ none) : Busy [event] := by
  intro other member
  rwa [List.mem_singleton.mp member]

/-- Nothing leaves the outbox while calls are served. -/
theorem Busy.not_emitted (busy : Busy events) {frame : Frame} : .emitted frame ∉ events :=
  fun member => busy _ member rfl

/-- A call that is withdrawn reports only about itself. -/
theorem Withdrawn.busy (withdrawn : Withdrawn guard host after events) : Busy events := by
  rcases withdrawn.notice with ⟨rfl, -⟩ | ⟨rfl, -⟩
  · simp [Busy]
  · exact .one (by simp [Event.subject])

/-- A poll of a call reports only about calls. -/
theorem Polled.busy {result : Host × List Event × Outcome}
    (polled : Polled guard sends host result) : Busy result.2.1 := by
  cases polled with
  | parked | waiting => simp [Busy]
  | queued => exact .one (by simp [Event.subject])
  | returned withdrawn => exact withdrawn.busy.append (.one (by simp [Event.subject]))
  | @queuedReturned entry after events outcome sending withdrawn =>
    have sent : Busy [.queued guard.id entry.frame] := .one (by simp [Event.subject])
    exact sent.append (withdrawn.busy.append (.one (by simp [Event.subject])))

/-- The first poll of a call reports only about calls. -/
theorem Started.busy {object capability : String} {arguments : Value} {timeoutMs now : Nat}
    {result : Host × List Event × Outcome}
    (started : Started object capability arguments timeoutMs now host result) :
    Busy result.2.1 := by
  cases started with
  | refused => simp [Busy]
  | registered polled =>
    have registered : Busy [.registered host.nextId object] := .one (by simp [Event.subject])
    exact registered.append polled.busy

/-- The end of an object reports only about its calls. -/
theorem busy_cancelObject (host : Host) (object : String) (order : List String) :
    Busy (host.cancelObject object order).2 := by
  refine @cancelCalls_induction (fun events _ => Busy events) (fun _ => True) ?_
    (host.idsOf object order) (fun _ _ => trivial) [] host (by simp [Busy])
  rintro events after id - busy
  refine busy.append ?_
  by_cases registered : id ∈ after.pending
  · rcases (cancelCall_spec registered).notice with ⟨same, -⟩ | ⟨same, -⟩ <;>
      · rw [same]
        simp [Busy, Event.subject]
  · rw [cancelCall_of_not_mem registered]
    simp [Busy]

end Subjects

end Host

end Spinfoam
