import Spinfoam.Host.Machine

/-!
# The ledger of the calls

Two invariants tie the host to the events of the run behind it. `Ledger` is
about the registry: which ids exist, who holds them, and which of them have been
answered, cancelled or settled. `Lanes` is about the frames in the outbox. Both
speak of the calls in progress as a function from futures to guards, so that
they serve every machine that runs `Host::call` futures.
-/

namespace Spinfoam.Host

open Spinfoam.Json Spinfoam.Std Spinfoam.Outbox Spinfoam.Semantics

/-- The call an event is about. -/
def Event.subject : Event → Option String
  | .registered id _ | .queued id _ | .answered id _ | .objectCancelled id | .cancelled id
  | .returned id _ | .dropped id => some id
  | .ignored | .emitted _ => none

/-- The ids given out, in order. -/
def registeredIds (events : List Event) : List String :=
  events.filterMap fun
    | .registered id _ => some id
    | _ => none

@[simp] theorem registeredIds_append (first second : List Event) :
    registeredIds (first ++ second) = registeredIds first ++ registeredIds second :=
  List.filterMap_append

theorem mem_registeredIds {id : String} {events : List Event} :
    id ∈ registeredIds events ↔ ∃ object, .registered id object ∈ events := by
  simp only [registeredIds, List.mem_filterMap]
  constructor
  · rintro ⟨event, member, named⟩
    cases event with
    | registered other object =>
      obtain rfl := Option.some.inj named
      exact ⟨object, member⟩
    | _ => cases named
  · rintro ⟨object, member⟩
    exact ⟨_, member, rfl⟩

/-- Ids are given out by number, each once, and events are about given ids. -/
structure Registry (events : List Event) (host : Host) : Prop where
  issued : ∀ {id object}, .registered id object ∈ events →
    ∃ serial ≤ host.next, id = callId host.session serial
  distinct : (registeredIds events).Nodup
  known : ∀ {event id}, event ∈ events → event.subject = some id →
    ∃ object, .registered id object ∈ events

/-- The registry of calls and who holds them, against the events so far. -/
structure Ledger (events : List Event) (host : Host) (live : Nat → Option CallGuard) : Prop
    extends Registry events host where
  liveIssued : ∀ {future guard}, live future = some guard →
    .registered guard.id guard.object ∈ events
  liveOpen : ∀ {future guard}, live future = some guard →
    .dropped guard.id ∉ events ∧ ∀ result, .returned guard.id result ∉ events
  liveDistinct : ∀ {future other guard current}, live future = some guard →
    live other = some current → guard.id = current.id → future = other
  sentQueued : ∀ {future guard}, live future = some guard → guard.sent = true →
    ∃ frame, .queued guard.id frame ∈ events
  pendingLive : ∀ {id entry}, host.pending.lookup id = some entry →
    ∃ future guard, live future = some guard ∧ guard.id = id ∧ guard.object = entry.object
  pendingFresh : ∀ {id}, id ∈ host.pending →
    (∀ frame, .answered id frame ∉ events) ∧ .cancelled id ∉ events ∧
      .objectCancelled id ∉ events
  announced : ∀ {id}, .cancelled id ∈ events →
    (∃ frame, .queued id frame ∈ events) ∨ .objectCancelled id ∈ events
  once : ∀ id, events.count (.cancelled id) ≤ 1
  exclusive : ∀ {id frame}, .answered id frame ∈ events → .cancelled id ∉ events
  replied : ∀ {id result}, host.replies.lookup id = some result →
    result = .error Status.closed ∨ ∃ frame, .answered id frame ∈ events ∧ result = resultOf frame

/-- The calls in the outbox, against the events so far. The lane of the exempt
object may hold requests of calls that have just been cancelled. -/
structure Lanes (exempt : Option String) (events : List Event) (host : Host)
    (live : Nat → Option CallGuard) : Prop where
  owned : ∀ {name entry id}, entry ∈ host.out.lane (.object name) → entry.requestId = some id →
    ∃ future guard, live future = some guard ∧ guard.id = id ∧ guard.object = name
  fresh : ∀ {name entry id}, exempt ≠ some name → entry ∈ host.out.lane (.object name) →
    entry.requestId = some id → .cancelled id ∉ events
  tagged : ∀ {name entry}, entry ∈ host.out.lane (.object name) →
    entry.requestId = requestId entry.frame.value
  plain : ∀ {name entry id}, entry ∈ host.out.lane (.object name) →
    ¬ IsCancel id entry.frame.value
  control : ∀ {entry id}, entry ∈ host.out.lane .control →
    ¬ IsCall id entry.frame.value ∧ (IsCancel id entry.frame.value → .cancelled id ∈ events)

variable {events : List Event} {host after : Host} {live : Nat → Option CallGuard}

namespace Registry

/-- An id that has not been given out occurs in no event. -/
theorem unknown (registry : Registry events host) {id : String}
    (fresh : ∀ object, .registered id object ∉ events) {event : Event} (member : event ∈ events) :
    event.subject ≠ some id := by
  intro subject
  obtain ⟨object, registered⟩ := registry.known member subject
  exact fresh object registered

/-- The next id is new. -/
theorem next_fresh (registry : Registry events host) (object : String) :
    .registered host.nextId object ∉ events := by
  intro member
  obtain ⟨serial, bound, same⟩ := registry.issued member
  have := callId_injective host.session same
  omega

/-- Events about given ids. -/
theorem append (registry : Registry events host) (next : after.next = host.next)
    (session : after.session = host.session) {more : List Event}
    (given : ∀ event ∈ more, ∀ id, event.subject = some id →
      ∃ object, .registered id object ∈ events)
    (none : ∀ id object, .registered id object ∉ more) :
    Registry (events ++ more) after := by
  constructor
  case issued =>
    intro id object member
    rw [next, session]
    rcases List.mem_append.mp member with old | new
    · exact registry.issued old
    · exact absurd new (none id object)
  case distinct =>
    have empty : registeredIds more = [] := by
      rw [List.eq_nil_iff_forall_not_mem]
      intro id member
      obtain ⟨object, registered⟩ := mem_registeredIds.mp member
      exact none id object registered
    simpa [empty] using registry.distinct
  case known =>
    intro event id member subject
    have old : ∃ object, .registered id object ∈ events := by
      rcases List.mem_append.mp member with old | new
      · exact registry.known old subject
      · exact given event new id subject
    obtain ⟨object, registered⟩ := old
    exact ⟨object, List.mem_append_left _ registered⟩

end Registry

theorem ledger_start (session : String) (out : Outbox) :
    Ledger [] { session, out } fun _ => none where
  issued := by simp
  distinct := by simp [registeredIds]
  known := by simp
  liveIssued := by simp
  liveOpen := by simp
  liveDistinct := by simp
  sentQueued := by simp
  pendingLive := by
    intro id entry found
    cases found
  pendingFresh := by simp
  announced := by simp
  once := by simp
  exclusive := by simp
  replied := by
    intro id result found
    cases found

namespace Ledger

/-- Steps that do not touch the registry. -/
theorem quiet (ledger : Ledger events host live) (pending : after.pending = host.pending)
    (replies : after.replies = host.replies) (next : after.next = host.next)
    (session : after.session = host.session) {more : List Event}
    (silent : ∀ event ∈ more, event.subject = none) :
    Ledger (events ++ more) after live := by
  have absent : ∀ {event : Event} {id : String}, event.subject = some id → event ∉ more := by
    intro event id subject member
    rw [silent event member] at subject
    cases subject
  have old : ∀ {event : Event} {id : String}, event.subject = some id →
      (event ∈ events ++ more ↔ event ∈ events) := by
    intro event id subject
    simp [absent subject]
  constructor
  case toRegistry =>
    refine ledger.append next session ?_ (fun id object => absent rfl)
    intro event member id subject
    exact absurd member (absent subject)
  case liveIssued =>
    intro future guard found
    exact (old rfl).mpr (ledger.liveIssued found)
  case liveOpen =>
    intro future guard found
    obtain ⟨dropped, returned⟩ := ledger.liveOpen found
    exact ⟨fun member => dropped ((old rfl).mp member),
      fun result member => returned result ((old rfl).mp member)⟩
  case liveDistinct => exact ledger.liveDistinct
  case sentQueued =>
    intro future guard found sent
    obtain ⟨frame, queued⟩ := ledger.sentQueued found sent
    exact ⟨frame, (old rfl).mpr queued⟩
  case pendingLive =>
    rw [pending]
    exact ledger.pendingLive
  case pendingFresh =>
    intro id member
    rw [pending] at member
    obtain ⟨answered, cancelled, revoked⟩ := ledger.pendingFresh member
    exact ⟨fun frame member => answered frame ((old rfl).mp member),
      fun member => cancelled ((old rfl).mp member), fun member => revoked ((old rfl).mp member)⟩
  case announced =>
    intro id member
    rcases ledger.announced ((old rfl).mp member) with ⟨frame, queued⟩ | revoked
    · exact Or.inl ⟨frame, (old rfl).mpr queued⟩
    · exact Or.inr ((old rfl).mpr revoked)
  case once =>
    intro id
    rw [List.count_append, List.count_eq_zero_of_not_mem (absent rfl), add_zero]
    exact ledger.once id
  case exclusive =>
    intro id frame member cancelled
    exact ledger.exclusive ((old rfl).mp member) ((old rfl).mp cancelled)
  case replied =>
    intro id result found
    rw [replies] at found
    rcases ledger.replied found with closed | ⟨frame, answered, same⟩
    · exact Or.inl closed
    · exact Or.inr ⟨frame, (old rfl).mpr answered, same⟩

/-- The registry does not depend on the outbox. -/
theorem withOut (ledger : Ledger events host live) (out : Outbox) :
    Ledger events { host with out } live where
  issued := ledger.issued
  distinct := ledger.distinct
  known := ledger.known
  liveIssued := ledger.liveIssued
  liveOpen := ledger.liveOpen
  liveDistinct := ledger.liveDistinct
  sentQueued := ledger.sentQueued
  pendingLive := ledger.pendingLive
  pendingFresh := ledger.pendingFresh
  announced := ledger.announced
  once := ledger.once
  exclusive := ledger.exclusive
  replied := ledger.replied

/-- A call registers under the next id. -/
theorem register (ledger : Ledger events host live) {future : Nat} (idle : live future = none)
    (object : String) :
    Ledger (events ++ [.registered host.nextId object]) (host.register object)
      (Function.update live future (some ⟨host.nextId, false, object⟩)) := by
  have fresh := ledger.next_fresh
  unfold Host.register
  generalize named : host.nextId = id at fresh ⊢
  have unknown : ∀ {event : Event}, event.subject = some id → event ∉ events :=
    fun subject member => ledger.unknown fresh member subject
  have others : ∀ {other guard}, live other = some guard → guard.id ≠ id := by
    rintro other guard found rfl
    exact fresh guard.object (ledger.liveIssued found)
  have lives : ∀ {other guard},
      Function.update live future (some ⟨id, false, object⟩) other = some guard →
      guard = ⟨id, false, object⟩ ∧ other = future ∨ live other = some guard ∧ other ≠ future := by
    intro other guard found
    by_cases same : other = future
    · subst same
      rw [Function.update_self, Option.some.injEq] at found
      exact Or.inl ⟨found.symm, rfl⟩
    · rw [Function.update_of_ne same] at found
      exact Or.inr ⟨found, same⟩
  constructor
  case toRegistry =>
    constructor
    case issued =>
      intro other place member
      rcases List.mem_append.mp member with old | new
      · obtain ⟨serial, bound, same⟩ := ledger.issued old
        exact ⟨serial, Nat.le_succ_of_le bound, same⟩
      · simp only [List.mem_singleton, Event.registered.injEq] at new
        exact ⟨host.next + 1, le_refl _, by rw [new.1, ← named, nextId]⟩
    case distinct =>
      rw [registeredIds_append]
      refine ledger.distinct.append (List.nodup_singleton id) ?_
      rintro other member ⟨⟩
      · obtain ⟨place, registered⟩ := mem_registeredIds.mp member
        exact fresh place registered
      · contradiction
    case known =>
      intro event other member subject
      rcases List.mem_append.mp member with old | new
      · obtain ⟨place, registered⟩ := ledger.known old subject
        exact ⟨place, List.mem_append_left _ registered⟩
      · obtain rfl := List.mem_singleton.mp new
        cases subject
        exact ⟨object, by simp⟩
  case liveIssued =>
    intro other guard found
    rcases lives found with ⟨rfl, -⟩ | ⟨found, -⟩
    · simp
    · exact List.mem_append_left _ (ledger.liveIssued found)
  case liveOpen =>
    intro other guard found
    rcases lives found with ⟨rfl, -⟩ | ⟨found, -⟩
    · simpa using ⟨unknown rfl, fun result => unknown rfl⟩
    · simpa using ledger.liveOpen found
  case liveDistinct =>
    intro left right guard current leftFound rightFound same
    rcases lives leftFound with ⟨rfl, rfl⟩ | ⟨leftOld, -⟩ <;>
      rcases lives rightFound with ⟨rfl, rfl⟩ | ⟨rightOld, -⟩
    · rfl
    · exact absurd same.symm (others rightOld)
    · exact absurd same (others leftOld)
    · exact ledger.liveDistinct leftOld rightOld same
  case sentQueued =>
    intro other guard found sent
    rcases lives found with ⟨rfl, -⟩ | ⟨found, -⟩
    · cases sent
    · obtain ⟨frame, queued⟩ := ledger.sentQueued found sent
      exact ⟨frame, List.mem_append_left _ queued⟩
  case pendingLive =>
    intro other entry found
    by_cases same : other = id
    · subst same
      simp only [AList.lookup_insert, Option.some.injEq] at found
      subst found
      exact ⟨future, _, Function.update_self .., rfl, rfl⟩
    · simp only [AList.lookup_insert_ne same] at found
      obtain ⟨holder, guard, held, rfl, object⟩ := ledger.pendingLive found
      refine ⟨holder, guard, ?_, rfl, object⟩
      rwa [Function.update_of_ne]
      rintro rfl
      rw [idle] at held
      cases held
  case pendingFresh =>
    intro other member
    by_cases same : other = id
    · subst same
      simpa using ⟨fun frame => unknown rfl, unknown rfl, unknown rfl⟩
    · have member : other ∈ host.pending := by simpa [same] using member
      simpa using ledger.pendingFresh member
  case announced =>
    intro other member
    simpa using ledger.announced (by simpa using member)
  case once =>
    intro other
    simpa using ledger.once other
  case exclusive =>
    intro other frame member
    simpa using ledger.exclusive (by simpa using member)
  case replied =>
    intro other result found
    simpa using ledger.replied found

/-- The request of a call is queued. -/
theorem queue (ledger : Ledger events host live) {future : Nat} {guard : CallGuard}
    (found : live future = some guard) (frame : Frame) :
    Ledger (events ++ [.queued guard.id frame]) host
      (Function.update live future (some { guard with sent := true })) := by
  have lives : ∀ {other current},
      Function.update live future (some { guard with sent := true }) other = some current →
      ∃ before, live other = some before ∧ before.id = current.id ∧
        before.object = current.object ∧
        (current.sent = true → before.sent = true ∨ current.id = guard.id) := by
    intro other current held
    by_cases same : other = future
    · subst same
      rw [Function.update_self, Option.some.injEq] at held
      subst held
      exact ⟨guard, found, rfl, rfl, fun _ => Or.inr rfl⟩
    · rw [Function.update_of_ne same] at held
      exact ⟨current, held, rfl, rfl, Or.inl⟩
  constructor
  case toRegistry =>
    refine ledger.append rfl rfl ?_ (by simp)
    intro event member id subject
    obtain rfl := List.mem_singleton.mp member
    cases subject
    exact ⟨guard.object, ledger.liveIssued found⟩
  case liveIssued =>
    intro other current held
    obtain ⟨before, held, id, object, -⟩ := lives held
    rw [← id, ← object]
    exact List.mem_append_left _ (ledger.liveIssued held)
  case liveOpen =>
    intro other current held
    obtain ⟨before, held, id, -⟩ := lives held
    rw [← id]
    simpa using ledger.liveOpen held
  case liveDistinct =>
    intro left right leftGuard rightGuard leftHeld rightHeld same
    obtain ⟨leftBefore, leftHeld, leftId, -⟩ := lives leftHeld
    obtain ⟨rightBefore, rightHeld, rightId, -⟩ := lives rightHeld
    exact ledger.liveDistinct leftHeld rightHeld (by rw [leftId, rightId, same])
  case sentQueued =>
    intro other current held sent
    obtain ⟨before, held, id, -, reason⟩ := lives held
    rcases reason sent with earlier | same
    · obtain ⟨queued, member⟩ := ledger.sentQueued held earlier
      exact ⟨queued, List.mem_append_left _ (id ▸ member)⟩
    · exact ⟨frame, by simp [same]⟩
  case pendingLive =>
    intro id entry bound
    obtain ⟨holder, current, held, rfl, object⟩ := ledger.pendingLive bound
    by_cases same : holder = future
    · subst same
      obtain rfl := Option.some.inj (found.symm.trans held)
      exact ⟨holder, _, Function.update_self .., rfl, object⟩
    · exact ⟨holder, current, by rwa [Function.update_of_ne same], rfl, object⟩
  case pendingFresh =>
    intro id member
    simpa using ledger.pendingFresh member
  case announced =>
    intro id member
    rcases ledger.announced (by simpa using member) with ⟨earlier, queued⟩ | revoked
    · exact Or.inl ⟨earlier, List.mem_append_left _ queued⟩
    · exact Or.inr (List.mem_append_left _ revoked)
  case once =>
    intro id
    simpa using ledger.once id
  case exclusive =>
    intro id response member
    simpa using ledger.exclusive (by simpa using member)
  case replied =>
    intro id result bound
    simpa using ledger.replied bound

/-- A call is over: its guard has been dropped. -/
theorem withdraw (ledger : Ledger events host live) {future : Nat} {guard : CallGuard}
    (found : live future = some guard) {notices : List Event}
    (withdrawn : Withdrawn guard host after notices) {last : Event}
    (final : last = .dropped guard.id ∨ ∃ result, last = .returned guard.id result) :
    Ledger (events ++ (notices ++ [last])) after (Function.update live future none) := by
  have registered := ledger.liveIssued found
  have lives : ∀ {other current}, Function.update live future none other = some current →
      live other = some current ∧ current.id ≠ guard.id := by
    intro other current held
    by_cases same : other = future
    · subst same
      rw [Function.update_self] at held
      cases held
    · rw [Function.update_of_ne same] at held
      exact ⟨held, fun ids => same (ledger.liveDistinct held found ids)⟩
  have noticed : ∀ {event}, event ∈ notices → event = .cancelled guard.id ∧
      guard.id ∈ host.pending ∧ guard.sent = true := by
    intro event member
    rcases withdrawn.notice with ⟨rfl, -⟩ | ⟨rfl, pending, sent, -⟩
    · cases member
    · exact ⟨List.mem_singleton.mp member, pending, sent⟩
  have ending : ∀ {event}, event ∈ notices ++ [last] → event = .cancelled guard.id ∧
      event ∈ notices ∨ event = .dropped guard.id ∨ ∃ result, event = .returned guard.id result := by
    intro event member
    rcases List.mem_append.mp member with notice | same
    · exact Or.inl ⟨(noticed notice).1, notice⟩
    · obtain rfl := List.mem_singleton.mp same
      exact Or.inr final
  have pending : ∀ {id}, id ∈ after.pending → id ∈ host.pending ∧ id ≠ guard.id := by
    intro id member
    rw [withdrawn.pending, AList.mem_erase] at member
    exact ⟨member.2, member.1⟩
  have keeps : ∀ {event : Event} {id : String}, event.subject = some id → id ≠ guard.id →
      (event ∈ events ++ (notices ++ [last]) ↔ event ∈ events) := by
    intro event id subject different
    constructor
    · intro member
      rcases List.mem_append.mp member with old | new
      · exact old
      · rcases ending new with ⟨rfl, -⟩ | rfl | ⟨result, rfl⟩ <;>
          exact absurd (Option.some.inj subject).symm different
    · exact List.mem_append_left _
  constructor
  case toRegistry =>
    refine ledger.append withdrawn.next withdrawn.session ?_ ?_
    · intro event member id subject
      rcases ending member with ⟨rfl, -⟩ | rfl | ⟨result, rfl⟩ <;>
        obtain rfl := Option.some.inj subject <;> exact ⟨_, registered⟩
    · intro id object member
      rcases ending member with ⟨impossible, -⟩ | impossible | ⟨result, impossible⟩ <;>
        cases impossible
  case liveIssued =>
    intro other current held
    exact List.mem_append_left _ (ledger.liveIssued (lives held).1)
  case liveOpen =>
    intro other current held
    obtain ⟨held, different⟩ := lives held
    obtain ⟨dropped, returned⟩ := ledger.liveOpen held
    exact ⟨fun member => dropped ((keeps rfl different).mp member),
      fun result member => returned result ((keeps rfl different).mp member)⟩
  case liveDistinct =>
    intro left right guard current leftHeld rightHeld same
    exact ledger.liveDistinct (lives leftHeld).1 (lives rightHeld).1 same
  case sentQueued =>
    intro other current held sent
    obtain ⟨frame, queued⟩ := ledger.sentQueued (lives held).1 sent
    exact ⟨frame, List.mem_append_left _ queued⟩
  case pendingLive =>
    intro id entry bound
    obtain ⟨member, different⟩ := pending (AList.lookup_isSome.mp (by rw [bound]; rfl))
    rw [withdrawn.pending, AList.lookup_erase_ne different] at bound
    obtain ⟨holder, current, held, rfl, object⟩ := ledger.pendingLive bound
    refine ⟨holder, current, ?_, rfl, object⟩
    rwa [Function.update_of_ne]
    rintro rfl
    obtain rfl := Option.some.inj (found.symm.trans held)
    exact different rfl
  case pendingFresh =>
    intro id member
    obtain ⟨member, different⟩ := pending member
    obtain ⟨answered, cancelled, revoked⟩ := ledger.pendingFresh member
    exact ⟨fun frame member => answered frame ((keeps rfl different).mp member),
      fun member => cancelled ((keeps rfl different).mp member),
      fun member => revoked ((keeps rfl different).mp member)⟩
  case announced =>
    intro id member
    have old : (∃ frame, .queued id frame ∈ events) ∨ .objectCancelled id ∈ events := by
      rcases List.mem_append.mp member with old | new
      · exact ledger.announced old
      · rcases ending new with ⟨same, notice⟩ | impossible | ⟨result, impossible⟩
        · obtain rfl := Event.cancelled.inj same
          exact Or.inl (ledger.sentQueued found (noticed notice).2.2)
        · cases impossible
        · cases impossible
    rcases old with ⟨frame, queued⟩ | revoked
    · exact Or.inl ⟨frame, List.mem_append_left _ queued⟩
    · exact Or.inr (List.mem_append_left _ revoked)
  case once =>
    intro id
    have lastOther : last ≠ .cancelled id := by
      rcases final with rfl | ⟨result, rfl⟩ <;> simp
    rcases withdrawn.notice with ⟨rfl, -⟩ | ⟨rfl, member, -⟩
    · simpa [lastOther] using ledger.once id
    · by_cases same : guard.id = id
      · subst same
        have absent := (ledger.pendingFresh member).2.1
        simp [lastOther, List.count_eq_zero_of_not_mem absent]
      · simpa [lastOther, same] using ledger.once id
  case exclusive =>
    intro id frame member cancelled
    have answered : .answered id frame ∈ events := by
      rcases List.mem_append.mp member with old | new
      · exact old
      · rcases ending new with ⟨impossible, -⟩ | impossible | ⟨result, impossible⟩ <;>
          cases impossible
    rcases List.mem_append.mp cancelled with old | new
    · exact ledger.exclusive answered old
    · rcases ending new with ⟨same, notice⟩ | impossible | ⟨result, impossible⟩
      · obtain rfl := Event.cancelled.inj same
        exact (ledger.pendingFresh (noticed notice).2.1).1 frame answered
      · cases impossible
      · cases impossible
  case replied =>
    intro id result bound
    rw [withdrawn.replies] at bound
    have different : id ≠ guard.id := by
      rintro rfl
      rw [AList.lookup_erase] at bound
      cases bound
    rw [AList.lookup_erase_ne different] at bound
    rcases ledger.replied bound with closed | ⟨frame, answered, same⟩
    · exact Or.inl closed
    · exact Or.inr ⟨frame, List.mem_append_left _ answered, same⟩

/-- A pending entry is taken: by a response, or by `cancel_object`. -/
theorem take (ledger : Ledger events host live) {id : String} (member : id ∈ host.pending)
    {result : Result} (pending : after.pending = host.pending.erase id)
    (replies : after.replies = host.replies.insert id result) (next : after.next = host.next)
    (session : after.session = host.session) {more : List Event}
    (reason : (∃ frame, more = [.answered id frame] ∧ result = resultOf frame) ∨
      result = .error Status.closed ∧
        (more = [.objectCancelled id] ∨ more = [.objectCancelled id, .cancelled id])) :
    Ledger (events ++ more) after live := by
  obtain ⟨unanswered, uncancelled, unrevoked⟩ := ledger.pendingFresh member
  obtain ⟨entry, bound⟩ := Option.isSome_iff_exists.mp (AList.lookup_isSome.mpr member)
  obtain ⟨holder, guard, held, named, -⟩ := ledger.pendingLive bound
  have forms : ∀ {event}, event ∈ more → (∃ frame, event = .answered id frame) ∨
      event = .objectCancelled id ∨ event = .cancelled id := by
    intro event new
    rcases reason with ⟨frame, rfl, -⟩ | ⟨-, rfl | rfl⟩
    · exact Or.inl ⟨frame, List.mem_singleton.mp new⟩
    · exact Or.inr (Or.inl (List.mem_singleton.mp new))
    · exact Or.inr (by simpa using new)
  have absent : ∀ {event : Event} {other : String}, event.subject = some other → other ≠ id →
      event ∉ more := by
    intro event other subject different new
    rcases forms new with ⟨frame, rfl⟩ | rfl | rfl <;>
      exact different (Option.some.inj subject).symm
  have left : ∀ {other}, other ∈ after.pending → other ∈ host.pending ∧ other ≠ id := by
    intro other still
    rw [pending, AList.mem_erase] at still
    exact ⟨still.2, still.1⟩
  constructor
  case toRegistry =>
    refine ledger.append next session ?_ ?_
    · intro event new other subject
      have registered := ledger.liveIssued held
      rw [named] at registered
      rcases forms new with ⟨frame, rfl⟩ | rfl | rfl <;>
        obtain rfl := Option.some.inj subject <;> exact ⟨_, registered⟩
    · intro other object new
      rcases forms new with ⟨frame, impossible⟩ | impossible | impossible <;> cases impossible
  case liveIssued =>
    intro future current found
    exact List.mem_append_left _ (ledger.liveIssued found)
  case liveOpen =>
    intro future current found
    obtain ⟨dropped, returned⟩ := ledger.liveOpen found
    constructor
    · intro either
      rcases List.mem_append.mp either with old | new
      · exact dropped old
      · rcases forms new with ⟨frame, impossible⟩ | impossible | impossible <;> cases impossible
    · intro outcome either
      rcases List.mem_append.mp either with old | new
      · exact returned outcome old
      · rcases forms new with ⟨frame, impossible⟩ | impossible | impossible <;> cases impossible
  case liveDistinct => exact ledger.liveDistinct
  case sentQueued =>
    intro future current found sent
    obtain ⟨frame, queued⟩ := ledger.sentQueued found sent
    exact ⟨frame, List.mem_append_left _ queued⟩
  case pendingLive =>
    intro other current found
    have different := (left (AList.lookup_isSome.mp (by rw [found]; rfl))).2
    rw [pending, AList.lookup_erase_ne different] at found
    exact ledger.pendingLive found
  case pendingFresh =>
    intro other still
    obtain ⟨still, different⟩ := left still
    obtain ⟨answered, cancelled, revoked⟩ := ledger.pendingFresh still
    simp [absent, Event.subject, different, answered, cancelled, revoked]
  case announced =>
    intro other either
    rcases List.mem_append.mp either with old | new
    · rcases ledger.announced old with ⟨frame, queued⟩ | revoked
      · exact Or.inl ⟨frame, List.mem_append_left _ queued⟩
      · exact Or.inr (List.mem_append_left _ revoked)
    · rcases reason with ⟨frame, rfl, -⟩ | ⟨-, rfl | rfl⟩
      · simp at new
      · simp at new
      · obtain rfl : other = id := by simpa using new
        exact Or.inr (by simp)
  case once =>
    intro other
    have earlier := ledger.once other
    rcases reason with ⟨frame, rfl, -⟩ | ⟨-, rfl | rfl⟩
    · simpa using earlier
    · simpa using earlier
    · by_cases same : id = other
      · subst same
        simp [List.count_eq_zero_of_not_mem uncancelled]
      · simpa [same] using earlier
  case exclusive =>
    intro other frame answered cancelled
    by_cases same : other = id
    · subst same
      rcases reason with ⟨response, rfl, -⟩ | ⟨-, rfl | rfl⟩
      · simp [uncancelled] at cancelled
      · simp [unanswered] at answered
      · simp [unanswered] at answered
    · rw [List.mem_append, or_iff_left (absent rfl same)] at answered cancelled
      exact ledger.exclusive answered cancelled
  case replied =>
    intro other outcome found
    rw [replies] at found
    by_cases same : other = id
    · subst same
      rw [AList.lookup_insert, Option.some.injEq] at found
      subst found
      rcases reason with ⟨frame, rfl, same⟩ | ⟨closed, -⟩
      · exact Or.inr ⟨frame, by simp, same⟩
      · exact Or.inl closed
    · rw [AList.lookup_insert_ne same] at found
      rcases ledger.replied found with closed | ⟨frame, answered, same⟩
      · exact Or.inl closed
      · exact Or.inr ⟨frame, List.mem_append_left _ answered, same⟩

end Ledger

theorem lanes_start (session : String) : Lanes none [] { session } fun _ => none := by
  have empty : ∀ lane, ({ session } : Host).out.lane lane = [] := by
    intro lane
    cases lane <;> rfl
  constructor <;> simp [empty]

theorem isCancel_cancelNotice {id other : String} :
    IsCancel other (cancelNotice id) ↔ id = other := by
  unfold IsCancel
  constructor
  · rintro ⟨-, same⟩
    exact Value.string.inj (Option.some.inj same)
  · rintro rfl
    exact ⟨rfl, rfl⟩

theorem not_isCall_cancelNotice (id other : String) : ¬ IsCall other (cancelNotice id) := by
  rintro ⟨method, -⟩
  exact absurd (Value.string.inj (Option.some.inj method)) (by decide)

theorem not_isCall_of_foreign {value : Value} (other : foreign value = true) (id : String) :
    ¬ IsCall id value := by
  rintro ⟨method, -⟩
  simp [foreign, method] at other

theorem not_isCancel_of_foreign {value : Value} (other : foreign value = true) (id : String) :
    ¬ IsCancel id value := by
  rintro ⟨method, -⟩
  simp [foreign, method] at other

namespace Lanes

variable {exempt : Option String}

/-- The writer takes frames and objects lose theirs; nothing is queued. -/
theorem shrink (lanes : Lanes exempt events host live)
    (fewer : ∀ lane, after.out.lane lane ⊆ host.out.lane lane) {more : List Event}
    (none : ∀ id, .cancelled id ∉ more) : Lanes exempt (events ++ more) after live where
  owned member := lanes.owned (fewer _ member)
  fresh other member named := by
    simpa [none] using lanes.fresh other (fewer _ member) named
  tagged member := lanes.tagged (fewer _ member)
  plain member := lanes.plain (fewer _ member)
  control member := by
    obtain ⟨call, cancel⟩ := lanes.control (fewer _ member)
    exact ⟨call, fun notice => List.mem_append_left _ (cancel notice)⟩

/-- Taking frames out needs no event. -/
theorem fewer (lanes : Lanes exempt events host live) {out : Outbox}
    (subset : ∀ lane, out.lane lane ⊆ host.out.lane lane) :
    Lanes exempt events { host with out } live := by
  have shrunk : Lanes exempt (events ++ []) { host with out } live :=
    lanes.shrink subset (fun _ => List.not_mem_nil)
  rwa [List.append_nil] at shrunk

/-- Once the lane of the exempt object is empty, nothing is exempt. -/
theorem settle {object : String} (lanes : Lanes (some object) events host live)
    (empty : host.out.lane (.object object) = []) : Lanes none events host live where
  owned := lanes.owned
  fresh := by
    intro name entry id _ member named
    refine lanes.fresh ?_ member named
    rintro ⟨⟩
    rw [empty] at member
    cases member
  tagged := lanes.tagged
  plain := lanes.plain
  control := lanes.control

theorem exempting (lanes : Lanes none events host live) (object : String) :
    Lanes (some object) events host live where
  owned := lanes.owned
  fresh _ := lanes.fresh (by simp)
  tagged := lanes.tagged
  plain := lanes.plain
  control := lanes.control

/-- A frame that is neither a call nor a cancellation is queued. -/
theorem push (lanes : Lanes exempt events host live) {place : Lane} {entry : DataFrame}
    (grown : ∀ lane, after.out.lane lane = host.out.lane lane ++
      if place = lane then [Outbox.kept place entry] else [])
    (other : foreign entry.frame.value = true) (unnamed : entry.requestId = none)
    (tagged : requestId entry.frame.value = none ∨ place = .control) :
    Lanes exempt events after live := by
  have cases : ∀ {lane} {found : DataFrame}, found ∈ after.out.lane lane →
      found ∈ host.out.lane lane ∨ place = lane ∧ found.frame = entry.frame ∧
        found.requestId = none := by
    intro lane found member
    rw [grown, List.mem_append] at member
    refine member.imp_right fun new => ?_
    split_ifs at new with same
    · obtain rfl := List.mem_singleton.mp new
      cases place <;> exact ⟨same, rfl, by first | rfl | exact unnamed⟩
    · cases new
  constructor
  case owned =>
    intro name found id member named
    rcases cases member with old | ⟨-, -, none⟩
    · exact lanes.owned old named
    · rw [none] at named
      cases named
  case fresh =>
    intro name found id different member named
    rcases cases member with old | ⟨-, -, none⟩
    · exact lanes.fresh different old named
    · rw [none] at named
      cases named
  case tagged =>
    intro name found member
    rcases cases member with old | ⟨rfl, frame, none⟩
    · exact lanes.tagged old
    · rw [none, frame, tagged.resolve_right (by simp)]
  case plain =>
    intro name found id member
    rcases cases member with old | ⟨-, frame, -⟩
    · exact lanes.plain old
    · rw [frame]
      exact not_isCancel_of_foreign other id
  case control =>
    intro found id member
    rcases cases member with old | ⟨-, frame, -⟩
    · exact lanes.control old
    · rw [frame]
      exact ⟨not_isCall_of_foreign other id,
        fun cancel => absurd cancel (not_isCancel_of_foreign other id)⟩

/-- A new call holds no frames yet. -/
theorem register (lanes : Lanes exempt events host live) {future : Nat}
    (idle : live future = none) (out : after.out = host.out) {guard : CallGuard}
    {more : List Event} (none : ∀ id, .cancelled id ∉ more) :
    Lanes exempt (events ++ more) after (Function.update live future (some guard)) where
  owned := by
    intro name entry id member named
    rw [out] at member
    obtain ⟨holder, current, held, same⟩ := lanes.owned member named
    refine ⟨holder, current, ?_, same⟩
    rwa [Function.update_of_ne]
    rintro rfl
    rw [idle] at held
    cases held
  fresh := by
    intro name entry id other member named
    rw [out] at member
    simpa [none] using lanes.fresh other member named
  tagged := by
    rw [out]
    exact lanes.tagged
  plain := by
    rw [out]
    exact lanes.plain
  control := by
    intro entry id member
    rw [out] at member
    obtain ⟨call, cancel⟩ := lanes.control member
    exact ⟨call, fun notice => List.mem_append_left _ (cancel notice)⟩

/-- A call counts as sent. -/
theorem mark (lanes : Lanes exempt events host live) {future : Nat} {guard : CallGuard}
    (found : live future = some guard) (frame : Frame) :
    Lanes exempt (events ++ [.queued guard.id frame]) host
      (Function.update live future (some { guard with sent := true })) where
  owned := by
    intro name entry id member named
    obtain ⟨holder, current, held, same⟩ := lanes.owned member named
    by_cases own : holder = future
    · subst own
      obtain rfl := Option.some.inj (found.symm.trans held)
      exact ⟨holder, _, Function.update_self .., same⟩
    · exact ⟨holder, current, by rwa [Function.update_of_ne own], same⟩
  fresh := by
    intro name entry id other member named
    simpa using lanes.fresh other member named
  tagged := lanes.tagged
  plain := lanes.plain
  control := by
    intro entry id member
    simpa using lanes.control member

/-- The request of a call that has not been cancelled joins the lane of its object. -/
theorem enqueue (lanes : Lanes exempt events host live) {future : Nat} {guard : CallGuard}
    (found : live future = some guard) {entry : DataFrame} {out : Outbox}
    (asks : Asks guard.id entry)
    (offered : host.out.offer (.object guard.object) entry = some out)
    (uncancelled : .cancelled guard.id ∉ events) :
    Lanes exempt events { host with out } live := by
  obtain ⟨-, -, -, grown⟩ := Outbox.offer_eq_some offered
  have cases : ∀ {name} {other : DataFrame}, other ∈ out.lane (.object name) →
      other ∈ host.out.lane (.object name) ∨ guard.object = name ∧ other = entry := by
    intro name other member
    rw [grown, List.mem_append] at member
    refine member.imp_right fun new => ?_
    split_ifs at new with same
    · exact ⟨Lane.object.inj same, List.mem_singleton.mp new⟩
    · cases new
  constructor
  case owned =>
    intro name other id member named
    rcases cases member with old | ⟨rfl, rfl⟩
    · exact lanes.owned old named
    · obtain rfl := Option.some.inj (asks.tagged.symm.trans named)
      exact ⟨future, guard, found, rfl, rfl⟩
  case fresh =>
    intro name other id different member named
    rcases cases member with old | ⟨rfl, rfl⟩
    · exact lanes.fresh different old named
    · obtain rfl := Option.some.inj (asks.tagged.symm.trans named)
      exact uncancelled
  case tagged =>
    intro name other member
    rcases cases member with old | ⟨rfl, rfl⟩
    · exact lanes.tagged old
    · rw [asks.tagged, requestId_of_isCall asks.call]
  case plain =>
    intro name other id member
    rcases cases member with old | ⟨rfl, rfl⟩
    · exact lanes.plain old
    · rintro ⟨method, -⟩
      rw [asks.call.1] at method
      exact absurd (Value.string.inj (Option.some.inj method)) (by decide)
  case control =>
    intro other id member
    rw [grown] at member
    simpa using lanes.control (by simpa using member)

/-- The frames of a call leave with it. -/
theorem withdraw (lanes : Lanes exempt events host live) (ledger : Ledger events host live)
    {future : Nat} {guard : CallGuard} (found : live future = some guard)
    {notices : List Event} (withdrawn : Withdrawn guard host after notices) {last : Event}
    (final : last = .dropped guard.id ∨ ∃ result, last = .returned guard.id result) :
    Lanes exempt (events ++ (notices ++ [last])) after (Function.update live future none) := by
  -- a frame under the id of the call lies in the lane of its object, where none is left
  have remains : ∀ {name entry id}, entry ∈ after.out.lane (.object name) →
      entry.requestId = some id → entry ∈ host.out.lane (.object name) ∧ id ≠ guard.id := by
    intro name entry id member named
    rw [withdrawn.lane] at member
    split_ifs at member with own
    · obtain ⟨member, other⟩ := List.mem_filter.mp member
      refine ⟨member, ?_⟩
      rintro rfl
      simp [bears, named] at other
    · refine ⟨member, ?_⟩
      rintro rfl
      obtain ⟨holder, current, held, same, object⟩ := lanes.owned member named
      obtain rfl := ledger.liveDistinct held found same
      obtain rfl := Option.some.inj (found.symm.trans held)
      exact own object.symm
  have member_of : ∀ {name entry}, entry ∈ after.out.lane (.object name) →
      entry ∈ host.out.lane (.object name) := by
    intro name entry member
    rw [withdrawn.lane] at member
    split_ifs at member
    · exact (List.mem_filter.mp member).1
    · exact member
  have noticed : ∀ {id}, .cancelled id ∈ notices ++ [last] → id = guard.id := by
    intro id member
    rcases List.mem_append.mp member with notice | same
    · rcases withdrawn.notice with ⟨rfl, -⟩ | ⟨rfl, -⟩
      · cases notice
      · simpa using notice
    · obtain rfl := List.mem_singleton.mp same
      rcases final with impossible | ⟨result, impossible⟩ <;> cases impossible
  constructor
  case owned =>
    intro name entry id member named
    obtain ⟨old, different⟩ := remains member named
    obtain ⟨holder, current, held, rfl, object⟩ := lanes.owned old named
    refine ⟨holder, current, ?_, rfl, object⟩
    rwa [Function.update_of_ne]
    rintro rfl
    obtain rfl := Option.some.inj (found.symm.trans held)
    exact different rfl
  case fresh =>
    intro name entry id other member named cancelled
    obtain ⟨old, different⟩ := remains member named
    rcases List.mem_append.mp cancelled with earlier | new
    · exact lanes.fresh other old named earlier
    · exact different (noticed new)
  case tagged =>
    intro name entry member
    exact lanes.tagged (member_of member)
  case plain =>
    intro name entry id member
    exact lanes.plain (member_of member)
  case control =>
    intro entry id member
    rcases withdrawn.notice with ⟨rfl, same⟩ | ⟨rfl, -, -, frame, value, grown⟩
    · rw [same] at member
      obtain ⟨call, cancel⟩ := lanes.control member
      exact ⟨call, fun notice => List.mem_append_left _ (cancel notice)⟩
    · rw [grown, List.mem_append] at member
      rcases member with old | new
      · obtain ⟨call, cancel⟩ := lanes.control old
        exact ⟨call, fun notice => List.mem_append_left _ (cancel notice)⟩
      · obtain rfl := List.mem_singleton.mp new
        rw [value]
        refine ⟨not_isCall_cancelNotice _ _, fun notice => ?_⟩
        obtain rfl := isCancel_cancelNotice.mp notice
        simp

/-- A pending call of the exempt object is cancelled. -/
theorem revoke {object : String} (lanes : Lanes (some object) events host live)
    (ledger : Ledger events host live) {id : String} {entry : Pending}
    (found : host.pending.lookup id = some entry) (own : entry.object = object)
    {more : List Event} (revoked : Revoked id host after more) :
    Lanes (some object) (events ++ more) after live := by
  obtain ⟨future, guard, held, rfl, place⟩ := ledger.pendingLive found
  constructor
  case owned =>
    intro name entry id member named
    rw [revoked.lane] at member
    exact lanes.owned member named
  case fresh =>
    intro name queued other different member named cancelled
    rw [revoked.lane] at member
    rcases List.mem_append.mp cancelled with earlier | new
    · exact lanes.fresh different member named earlier
    · have same : other = guard.id := by
        rcases revoked.notice with ⟨rfl, -⟩ | ⟨rfl, -⟩
        · simp at new
        · simpa using new
      obtain ⟨holder, current, held', named', place'⟩ := lanes.owned member named
      obtain rfl := ledger.liveDistinct held' held (named'.trans same)
      obtain rfl := Option.some.inj (held.symm.trans held')
      exact different (by rw [← place', place, own])
  case tagged =>
    intro name queued member
    rw [revoked.lane] at member
    exact lanes.tagged member
  case plain =>
    intro name queued other member
    rw [revoked.lane] at member
    exact lanes.plain member
  case control =>
    intro queued other member
    rcases revoked.notice with ⟨rfl, same⟩ | ⟨rfl, frame, value, grown⟩
    · rw [same] at member
      obtain ⟨call, cancel⟩ := lanes.control member
      exact ⟨call, fun notice => List.mem_append_left _ (cancel notice)⟩
    · rw [grown, List.mem_append] at member
      rcases member with old | new
      · obtain ⟨call, cancel⟩ := lanes.control old
        exact ⟨call, fun notice => List.mem_append_left _ (cancel notice)⟩
      · obtain rfl := List.mem_singleton.mp new
        rw [value]
        refine ⟨not_isCall_cancelNotice _ _, fun notice => ?_⟩
        obtain rfl := isCancel_cancelNotice.mp notice
        simp

end Lanes

end Spinfoam.Host
