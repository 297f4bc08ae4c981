import Spinfoam.Outbox.Delivery

/-!
# The outbox as its users see it

`Outbox` carries the representation invariant of its queues, so that a broken
outbox cannot be built and its operations are total functions. What they do is
stated lane by lane. `host.rs`, `helpers.rs` and `runtime.rs` are modelled over
this structure.
-/

namespace Spinfoam

open Spinfoam.Json Spinfoam.Std Spinfoam.Semantics Spinfoam.Outbox

structure Outbox where
  queues : Queues := {}
  wellFormed : queues.WellFormed := by exact Queues.wellFormed_empty
  closed : Bool := false
  dropped : Nat := 0

namespace Outbox

/-- The entries waiting in a lane, oldest first. -/
def lane (out : Outbox) (lane : Lane) : List DataFrame := out.queues.lane lane

/-- The entry a lane keeps: a control frame has no request id. -/
def kept : Lane → DataFrame → DataFrame
  | .control, entry => ⟨entry.frame, none⟩
  | .object _, entry => entry

@[simp] theorem kept_control (frame : Frame) : kept .control ⟨frame, none⟩ = ⟨frame, none⟩ := rfl

@[simp] theorem kept_object (name : String) (entry : DataFrame) :
    kept (.object name) entry = entry := rfl

/-- One attempt to queue an entry. -/
def offer (out : Outbox) (lane : Lane) (entry : DataFrame) : Option Outbox :=
  match offered : out.queues.offer out.closed lane entry with
  | none => none
  | some queues => some { out with queues, wellFormed := out.wellFormed.offer offered }

/-- `Outbox::try_control`. -/
def tryControl (out : Outbox) (value : Value) : Outbox × Bool :=
  match (encode value).bind fun frame => out.offer .control ⟨frame, none⟩ with
  | none => (out, false)
  | some after => (after, true)

/-- `Outbox::try_data`. A value that does not fit a frame is not counted as
dropped. -/
def tryData (out : Outbox) (object : String) (value : Value) : Outbox × Bool :=
  match encode value with
  | none => (out, false)
  | some frame =>
    match out.offer (.object object) ⟨frame, requestId value⟩ with
    | none => ({ out with dropped := min (out.dropped + 1) (2 ^ 64 - 1) }, false)
    | some after => (after, true)

/-- `Outbox::remove_request`. -/
def removeRequest (out : Outbox) (object id : String) : Outbox :=
  match removed : out.queues.removeRequest object id with
  | .ok queues =>
    { out with
      queues
      wellFormed := by
        obtain ⟨next, same, kept, -⟩ := Queues.removeRequest_spec out.wellFormed object id
        rw [removed] at same
        exact Except.ok.inj same ▸ kept }
  | .error _ => out

/-- `Outbox::remove_object`. -/
def removeObject (out : Outbox) (object : String) : Outbox :=
  match removed : out.queues.removeObject object with
  | .ok queues =>
    { out with
      queues
      wellFormed := by
        obtain ⟨next, same, kept, -⟩ := Queues.removeObject_spec out.wellFormed object
        rw [removed] at same
        exact Except.ok.inj same ▸ kept }
  | .error _ => out

/-- The pass of `Outbox::next` over the queues. -/
def next (out : Outbox) : Option (Frame × Outbox) :=
  match passed : out.queues.next with
  | .ok (some (frame, queues)) =>
    some (frame, { out with
      queues
      wellFormed := by
        obtain ⟨outcome, same, served⟩ := Queues.next_spec out.wellFormed
        rw [passed] at same
        obtain rfl := Except.ok.inj same
        exact served.wellFormed out.wellFormed })
  | _ => none

def close (out : Outbox) : Outbox := { out with closed := true }

section Laws

variable {out after : Outbox}

@[simp] theorem close_lane (lane : Lane) : out.close.lane lane = out.lane lane := rfl

theorem offer_queues {lane : Lane} {entry : DataFrame} :
    (out.offer lane entry).map Outbox.queues = out.queues.offer out.closed lane entry := by
  unfold offer
  split <;> rename_i offered <;> simp [offered]

/-- An accepted entry goes to the end of its own lane and changes nothing else. -/
theorem offer_eq_some {lane : Lane} {entry : DataFrame}
    (offered : out.offer lane entry = some after) :
    out.closed = false ∧ after.closed = false ∧ after.dropped = out.dropped ∧
      ∀ other, after.lane other = out.lane other ++
        if lane = other then [kept lane entry] else [] := by
  unfold offer at offered
  split at offered
  · cases offered
  · rename_i queues pushed
    obtain rfl := Option.some.inj offered
    cases lane with
    | control =>
      simp only [Queues.offer, Option.ite_none_left_eq_some] at pushed
      obtain ⟨isOpen, pushed⟩ := pushed
      obtain ⟨-, rfl⟩ := Queues.pushControl_eq_some.mp pushed
      refine ⟨by simpa using isOpen, by simpa using isOpen, rfl, ?_⟩
      intro other
      cases other <;> simp [Outbox.lane, Queues.lane, kept]
    | object name =>
      obtain ⟨isOpen, -, -, rfl⟩ := Queues.pushData_eq_some.mp pushed
      refine ⟨isOpen, isOpen, rfl, ?_⟩
      intro other
      cases other with
      | control => simp [Outbox.lane, Queues.lane]
      | object key =>
        by_cases same : name = key
        · subst same
          simp [Outbox.lane, Queues.lane]
        · simp [Outbox.lane, Queues.lane, MultiQueue.queue_put_ne _ _ (Ne.symm same), same]

/-- `try_control` queues its frame in the control lane or changes nothing. -/
theorem tryControl_spec (out : Outbox) (value : Value) :
    out.tryControl value = (out, false) ∨
      ∃ frame after, encode value = some frame ∧ out.offer .control ⟨frame, none⟩ = some after ∧
        out.tryControl value = (after, true) := by
  unfold tryControl
  cases encoded : encode value with
  | none => exact Or.inl rfl
  | some frame =>
    cases offered : out.offer .control ⟨frame, none⟩ with
    | none => simp [offered]
    | some after => exact Or.inr ⟨frame, after, rfl, offered, by simp [offered]⟩

@[simp] theorem tryControl_lane_object (out : Outbox) (value : Value) (name : String) :
    (out.tryControl value).1.lane (.object name) = out.lane (.object name) := by
  rcases tryControl_spec out value with same | ⟨frame, after, -, offered, same⟩
  · rw [same]
  · rw [same, (offer_eq_some offered).2.2.2]
    simp

@[simp] theorem tryControl_closed (out : Outbox) (value : Value) :
    (out.tryControl value).1.closed = out.closed := by
  rcases tryControl_spec out value with same | ⟨frame, after, -, offered, same⟩
  · rw [same]
  · rw [same, (offer_eq_some offered).1, (offer_eq_some offered).2.1]

/-- `try_data` queues its frame in the lane of its object or leaves the lanes
alone. -/
theorem tryData_spec (out : Outbox) (object : String) (value : Value) :
    (((out.tryData object value).2 = false ∧
        ∀ lane, (out.tryData object value).1.lane lane = out.lane lane) ∨
      ∃ frame after, encode value = some frame ∧
        out.offer (.object object) ⟨frame, requestId value⟩ = some after ∧
        out.tryData object value = (after, true)) := by
  unfold tryData
  cases encoded : encode value with
  | none => exact Or.inl ⟨rfl, fun _ => rfl⟩
  | some frame =>
    cases offered : out.offer (.object object) ⟨frame, requestId value⟩ with
    | none => exact Or.inl ⟨by simp [offered], fun _ => by simp [offered]; rfl⟩
    | some after => exact Or.inr ⟨frame, after, rfl, offered, by simp [offered]⟩

/-- `remove_request` takes the frames of that request out of that object's lane
and changes nothing else. -/
theorem removeRequest_spec (out : Outbox) (object id : String) :
    (out.removeRequest object id).closed = out.closed ∧
      (out.removeRequest object id).dropped = out.dropped ∧
      ∀ lane, (out.removeRequest object id).lane lane =
        if lane = .object object then
          (out.lane lane).filter fun entry => !(entry.requestId == some id)
        else out.lane lane := by
  obtain ⟨next, removed, -, control, own, others⟩ :=
    Queues.removeRequest_spec out.wellFormed object id
  unfold removeRequest
  split
  · rename_i queues same
    obtain rfl : queues = next := Except.ok.inj (same.symm.trans removed)
    refine ⟨rfl, rfl, ?_⟩
    intro lane
    cases lane with
    | control => simp [Outbox.lane, Queues.lane, control]
    | object name =>
      by_cases same : name = object
      · subst same
        simp [Outbox.lane, Queues.lane, own]
      · simp [Outbox.lane, Queues.lane, others name same, same]
  · rename_i failed
    rw [removed] at failed
    cases failed

/-- `remove_object` empties that object's lane and changes nothing else. -/
theorem removeObject_spec (out : Outbox) (object : String) :
    (out.removeObject object).closed = out.closed ∧
      (out.removeObject object).dropped = out.dropped ∧
      ∀ lane, (out.removeObject object).lane lane =
        if lane = .object object then [] else out.lane lane := by
  obtain ⟨next, removed, -, control, own, others⟩ :=
    Queues.removeObject_spec out.wellFormed object
  unfold removeObject
  split
  · rename_i queues same
    obtain rfl : queues = next := Except.ok.inj (same.symm.trans removed)
    refine ⟨rfl, rfl, ?_⟩
    intro lane
    cases lane with
    | control => simp [Outbox.lane, Queues.lane, control]
    | object name =>
      by_cases same : name = object
      · subst same
        simp [Outbox.lane, Queues.lane, own]
      · simp [Outbox.lane, Queues.lane, others name same, same]
  · rename_i failed
    rw [removed] at failed
    cases failed

/-- `next` takes the oldest entry of one lane. -/
theorem next_eq_some {frame : Frame} (passed : out.next = some (frame, after)) :
    after.closed = out.closed ∧ after.dropped = out.dropped ∧
      ∃ place entry, entry.frame = frame ∧
        ∀ lane, out.lane lane = (if place = lane then [entry] else []) ++ after.lane lane := by
  obtain ⟨outcome, same, served⟩ := Queues.next_spec out.wellFormed
  unfold next at passed
  split at passed
  · rename_i head queues ok
    obtain rfl : outcome = some (head, queues) := (Except.ok.inj (ok.symm.trans same)).symm
    simp only [Option.some.injEq, Prod.mk.injEq] at passed
    obtain ⟨rfl, rfl⟩ := passed
    refine ⟨rfl, rfl, ?_⟩
    cases served with
    | control waiting turn =>
      refine ⟨.control, ⟨head, none⟩, rfl, ?_⟩
      intro lane
      cases lane <;> simp [Outbox.lane, Queues.lane, waiting]
    | @data object ready first rest turn rotation queued =>
      refine ⟨.object object, first, rfl, ?_⟩
      intro lane
      cases lane with
      | control => simp [Outbox.lane, Queues.lane]
      | object key =>
        by_cases same : object = key
        · subst same
          simp [Outbox.lane, Queues.lane, queued]
        · simp [Outbox.lane, Queues.lane, MultiQueue.queue_put_ne _ _ (Ne.symm same), same]
  · cases passed

/-- `next` finds nothing only when every lane is empty. -/
theorem next_eq_none : out.next = none ↔ ∀ lane, out.lane lane = [] := by
  have empty : (∀ lane, out.lane lane = []) ↔ out.queues.Drained := by
    rw [Queues.drained_iff_frames]
    simp [Queues.frames, Outbox.lane]
  obtain ⟨outcome, same, served⟩ := Queues.next_spec out.wellFormed
  rw [empty, out.wellFormed.drained_iff]
  unfold next
  split
  · rename_i head queues ok
    obtain rfl : outcome = some (head, queues) := (Except.ok.inj (ok.symm.trans same)).symm
    cases served with
    | control waiting turn => simp [waiting]
    | data turn rotation queued => simp [rotation]
  · rename_i notSome
    cases served with
    | nothing control ready => simp [control, ready]
    | control => exact absurd same (notSome _ _)
    | data => exact absurd same (notSome _ _)

end Laws

end Outbox

end Spinfoam
