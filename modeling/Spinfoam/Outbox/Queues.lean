import Spinfoam.Json.Value
import Spinfoam.Std.MultiQueue

/-!
# The queues of the outbox

Control frames wait in one bounded queue, data frames in one queue for each
object. `ready` rotates over the objects with data and `bytes` counts all queued
data. The operations are those of `outbox.rs` on its `Queues`, a panic included
as a possible outcome. `WellFormed` is what they keep true of the three
redundant structures; with it no operation panics.
-/

namespace Spinfoam.Outbox

open Spinfoam.Json Spinfoam.Std

def maxFrame : Nat := 256 * 1024
def controlSlots : Nat := 64
def dataBytes : Nat := 4 * 1024 * 1024
def objectBytes : Nat := 64 * 1024

/-- An encoded output frame. The queues hold its bytes, which the value
determines; the value is what is kept here. -/
structure Frame where
  value : Value
  fits : value.size < maxFrame
deriving DecidableEq

namespace Frame

/-- The compact encoding and the newline that ends the frame. -/
def bytes (frame : Frame) : String := frame.value.compact ++ "\n"

def length (frame : Frame) : Nat := frame.bytes.utf8ByteSize

/-- A frame has a newline behind its value. -/
theorem length_eq (frame : Frame) : frame.length = frame.value.size + 1 := by
  have newline : "\n".utf8ByteSize = 1 := by decide
  simp [length, bytes, Value.size, newline]

end Frame

/-- `Outbox::encode`. -/
def encode (value : Value) : Option Frame :=
  if fits : value.size < maxFrame then some ⟨value, fits⟩ else none

/-- The frame of a value that has one. -/
theorem encode_eq_some {value : Value} {frame : Frame} :
    encode value = some frame ↔ frame.value = value := by
  unfold encode
  constructor
  · intro encoded
    split_ifs at encoded
    cases encoded
    rfl
  · rintro rfl
    rw [dif_pos frame.fits]

/-- A value has no frame exactly if it is too long. -/
theorem encode_eq_none {value : Value} : encode value = none ↔ maxFrame ≤ value.size := by
  unfold encode
  split_ifs with fits
  · simpa using fits
  · simpa using fits

structure DataFrame where
  frame : Frame
  requestId : Option String
deriving DecidableEq

/-- The bytes of a queue of data frames. -/
def queuedBytes (frames : List DataFrame) : Nat :=
  (frames.map fun entry => entry.frame.length).sum

@[simp] theorem queuedBytes_nil : queuedBytes [] = 0 := rfl

@[simp] theorem queuedBytes_cons (first : DataFrame) (rest : List DataFrame) :
    queuedBytes (first :: rest) = first.frame.length + queuedBytes rest := by
  simp [queuedBytes]

@[simp] theorem queuedBytes_append (front back : List DataFrame) :
    queuedBytes (front ++ back) = queuedBytes front + queuedBytes back := by
  simp [queuedBytes]

/-- Splitting a queue by a test splits its bytes. -/
theorem queuedBytes_filter (frames : List DataFrame) (test : DataFrame → Bool) :
    queuedBytes (frames.filter fun entry => !test entry) + queuedBytes (frames.filter test) =
      queuedBytes frames := by
  induction frames with
  | nil => rfl
  | cons first rest ih =>
    cases chosen : test first <;> simp [chosen] <;> omega

structure Queues where
  control : List Frame := []
  data : MultiQueue String DataFrame := ∅
  ready : List String := []
  bytes : Nat := 0
  controlBurst : Nat := 0

/-- The ways in which an operation on the queues could panic. -/
inductive Panic where
  | readyQueueInvariant
  | nonemptyQueue
  | subtractOverflow
deriving DecidableEq

/-- Subtraction on `usize`. -/
def checkedSub (left right : Nat) : Except Panic Nat :=
  if right ≤ left then .ok (left - right) else .error .subtractOverflow

/-- A subtraction that does not underflow. -/
theorem checkedSub_of_le {left right : Nat} (bounded : right ≤ left) :
    checkedSub left right = .ok (left - right) := if_pos bounded

namespace Queues

/-- The common step of `Outbox::control` and `Outbox::try_control`: take a slot
of the control queue if one is free. -/
def pushControl (queues : Queues) (frame : Frame) : Option Queues :=
  if queues.control.length < controlSlots then
    some { queues with control := queues.control ++ [frame] }
  else none

/-- `Outbox::push_data`. -/
def pushData (queues : Queues) (closed : Bool) (object : String) (frame : Frame)
    (requestId : Option String) : Option Queues :=
  let used := queuedBytes (queues.data.queue object)
  if closed ∨ used + frame.length > objectBytes ∨ queues.bytes + frame.length > dataBytes then
    none
  else
    some { queues with
      ready := if object ∈ queues.data then queues.ready else queues.ready ++ [object]
      bytes := queues.bytes + frame.length
      data := queues.data.put object (queues.data.queue object ++ [⟨frame, requestId⟩]) }

/-- `Outbox::remove_request`. -/
def removeRequest (queues : Queues) (object id : String) : Except Panic Queues :=
  match queues.data.lookup object with
  | none => .ok queues
  | some frames => do
    let kept := frames.filter fun entry => !(entry.requestId == some id)
    let removed := queuedBytes (frames.filter fun entry => entry.requestId == some id)
    let bytes ← checkedSub queues.bytes removed
    .ok { queues with
      bytes := bytes
      data := queues.data.put object kept
      ready := if kept = [] then queues.ready.filter (· ≠ object) else queues.ready }

/-- `Outbox::remove_object`. -/
def removeObject (queues : Queues) (object : String) : Except Panic Queues :=
  match queues.data.lookup object with
  | none => .ok { queues with ready := queues.ready.filter (· ≠ object) }
  | some items => do
    let bytes ← checkedSub queues.bytes (queuedBytes items)
    .ok { queues with
      bytes := bytes
      data := queues.data.erase object
      ready := queues.ready.filter (· ≠ object) }

/-- The pass of `Outbox::next` over the queues: the frame it hands to the writer
and the queues without it, or nothing when all of them are empty. -/
def next (queues : Queues) : Except Panic (Option (Frame × Queues)) :=
  match queues.control, decide (queues.controlBurst < 8 ∨ queues.ready = []) with
  | item :: rest, true =>
    .ok (some (item, { queues with control := rest, controlBurst := queues.controlBurst + 1 }))
  | _, _ =>
    match queues.ready with
    | [] => .ok none
    | id :: ready =>
      match queues.data.lookup id with
      | none => .error .readyQueueInvariant
      | some [] => .error .nonemptyQueue
      | some (first :: rest) => do
        let bytes ← checkedSub queues.bytes first.frame.length
        .ok (some (first.frame, { queues with
          data := queues.data.put id rest
          ready := if rest = [] then ready else ready ++ [id]
          bytes := bytes
          controlBurst := 0 }))

/-- Neither control nor data is queued. -/
def Drained (queues : Queues) : Prop :=
  queues.control = [] ∧ ∀ object, queues.data.queue object = []

/-- The representation invariant. -/
structure WellFormed (queues : Queues) : Prop where
  readyNodup : queues.ready.Nodup
  readyKeys : ∀ object, object ∈ queues.ready ↔ object ∈ queues.data
  compact : queues.data.Compact
  bytesExact : queues.bytes = Map.weight queuedBytes queues.data
  objectBound : ∀ object, queuedBytes (queues.data.queue object) ≤ objectBytes
  totalBound : queues.bytes ≤ dataBytes
  controlBound : queues.control.length ≤ controlSlots

/-- The empty queues are well formed. -/
theorem wellFormed_empty : WellFormed {} where
  readyNodup := List.nodup_nil
  readyKeys := by simp
  compact := MultiQueue.compact_empty
  bytesExact := rfl
  objectBound := by simp
  totalBound := Nat.zero_le _
  controlBound := Nat.zero_le _

namespace WellFormed

variable {queues : Queues}

/-- An object stands in the rotation exactly when it has data. -/
theorem mem_ready_iff (wellFormed : queues.WellFormed) (object : String) :
    object ∈ queues.ready ↔ queues.data.queue object ≠ [] :=
  (wellFormed.readyKeys object).trans (wellFormed.compact.mem_iff object)

/-- The rotation is empty exactly when no object has data. -/
theorem ready_eq_nil_iff (wellFormed : queues.WellFormed) :
    queues.ready = [] ↔ ∀ object, queues.data.queue object = [] := by
  rw [List.eq_nil_iff_forall_not_mem]
  simp only [wellFormed.mem_ready_iff, ne_eq, not_not]

/-- The queues are drained when nothing is ready and no control frame waits. -/
theorem drained_iff (wellFormed : queues.WellFormed) :
    queues.Drained ↔ queues.control = [] ∧ queues.ready = [] := by
  rw [Drained, wellFormed.ready_eq_nil_iff]

/-- The counter covers the bytes of each single queue. -/
theorem queuedBytes_le (wellFormed : queues.WellFormed) (object : String) :
    queuedBytes (queues.data.queue object) ≤ queues.bytes := by
  rw [wellFormed.bytesExact]
  exact MultiQueue.le_weight queuedBytes_nil queues.data object

/-- Rewriting one queue with no more bytes than it had, the rotation and the
counter following suit, keeps the invariant. -/
theorem rewrite (wellFormed : queues.WellFormed) {object : String} {kept : List DataFrame}
    {ready : List String} {bytes : Nat} {burst : Nat}
    (fewer : queuedBytes kept ≤ queuedBytes (queues.data.queue object))
    (exact : bytes + queuedBytes (queues.data.queue object) = queues.bytes + queuedBytes kept)
    (readyNodup : ready.Nodup)
    (readyKeys : ∀ other, other ∈ ready ↔
      if other = object then kept ≠ [] else other ∈ queues.ready) :
    WellFormed { queues with
      data := queues.data.put object kept, ready := ready, bytes := bytes,
      controlBurst := burst } where
  readyNodup := readyNodup
  readyKeys := by
    intro other
    rw [readyKeys, (wellFormed.compact.put object kept).mem_iff, MultiQueue.queue_put]
    split_ifs with same
    · rfl
    · exact wellFormed.mem_ready_iff other
  compact := wellFormed.compact.put object kept
  bytesExact := by
    have sum := MultiQueue.weight_put_add queuedBytes_nil queues.data object kept
    have total := wellFormed.bytesExact
    change bytes = Map.weight queuedBytes (queues.data.put object kept)
    omega
  objectBound := by
    intro other
    rw [MultiQueue.queue_put]
    split_ifs with same
    · exact fewer.trans (wellFormed.objectBound object)
    · exact wellFormed.objectBound other
  totalBound := by
    have bound := wellFormed.totalBound
    change bytes ≤ dataBytes
    omega
  controlBound := wellFormed.controlBound

end WellFormed

section Push

variable {queues next : Queues}

/-- What an accepted control frame changes. -/
theorem pushControl_eq_some {frame : Frame} :
    queues.pushControl frame = some next ↔
      queues.control.length < controlSlots ∧
        next = { queues with control := queues.control ++ [frame] } := by
  unfold pushControl
  split_ifs with room
  · simp only [Option.some.injEq, room, true_and]
    exact eq_comm
  · simp [room]

/-- A control frame keeps the queues well formed. -/
theorem WellFormed.pushControl (wellFormed : queues.WellFormed) {frame : Frame}
    (pushed : queues.pushControl frame = some next) : next.WellFormed := by
  obtain ⟨room, rfl⟩ := pushControl_eq_some.mp pushed
  exact { wellFormed with controlBound := by simpa using room }

/-- What an accepted data frame changes. -/
theorem pushData_eq_some {closed : Bool} {object : String} {frame : Frame}
    {requestId : Option String} :
    queues.pushData closed object frame requestId = some next ↔
      closed = false ∧ queuedBytes (queues.data.queue object) + frame.length ≤ objectBytes ∧
        queues.bytes + frame.length ≤ dataBytes ∧
        next = { queues with
          ready := if object ∈ queues.data then queues.ready else queues.ready ++ [object]
          bytes := queues.bytes + frame.length
          data := queues.data.put object (queues.data.queue object ++ [⟨frame, requestId⟩]) } := by
  unfold Queues.pushData
  by_cases refused : closed ∨ queuedBytes (queues.data.queue object) + frame.length > objectBytes ∨
      queues.bytes + frame.length > dataBytes
  · simp only [if_pos refused, reduceCtorEq, false_iff]
    rintro ⟨isOpen, objectRoom, totalRoom, -⟩
    rcases refused with closed | object | total
    · simp [isOpen] at closed
    · omega
    · omega
  · simp only [if_neg refused, Option.some.injEq]
    push Not at refused
    obtain ⟨isOpen, objectRoom, totalRoom⟩ := refused
    constructor
    · rintro rfl
      exact ⟨by simpa using isOpen, objectRoom, totalRoom, rfl⟩
    · rintro ⟨-, -, -, rfl⟩
      rfl

/-- A data frame keeps the queues well formed. -/
theorem WellFormed.pushData (wellFormed : queues.WellFormed) {closed : Bool} {object : String}
    {frame : Frame} {requestId : Option String}
    (pushed : queues.pushData closed object frame requestId = some next) : next.WellFormed := by
  obtain ⟨-, objectRoom, totalRoom, rfl⟩ := pushData_eq_some.mp pushed
  have grown : queuedBytes (queues.data.queue object ++ [⟨frame, requestId⟩]) =
      queuedBytes (queues.data.queue object) + frame.length := by simp
  refine ⟨?_, ?_, wellFormed.compact.put _ _, ?_, ?_, totalRoom, wellFormed.controlBound⟩
  · change (if object ∈ queues.data then _ else _ : List String).Nodup
    split_ifs with bound
    · exact wellFormed.readyNodup
    · refine wellFormed.readyNodup.append (List.nodup_singleton _) ?_
      simpa [wellFormed.readyKeys] using bound
  · intro other
    rw [(wellFormed.compact.put _ _).mem_iff, MultiQueue.queue_put]
    change other ∈ (if object ∈ queues.data then _ else _ : List String) ↔ _
    by_cases same : other = object
    · subst same
      by_cases bound : other ∈ queues.data <;> simp [bound, wellFormed.readyKeys]
    · rw [if_neg same, ← wellFormed.mem_ready_iff]
      split_ifs <;> simp [same]
  · have sum := MultiQueue.weight_put_add queuedBytes_nil queues.data object
      (queues.data.queue object ++ [⟨frame, requestId⟩])
    have total := wellFormed.bytesExact
    change queues.bytes + frame.length = Map.weight queuedBytes (queues.data.put object _)
    omega
  · intro other
    rw [MultiQueue.queue_put]
    split_ifs with same
    · rw [grown]
      exact objectRoom
    · exact wellFormed.objectBound other

end Push

section Remove

variable {queues : Queues}

private theorem nodup_filter_ready (wellFormed : queues.WellFormed) (object : String) :
    (queues.ready.filter (· ≠ object)).Nodup :=
  wellFormed.readyNodup.filter _

private theorem removeRequest_eq {object id : String} {frames : List DataFrame}
    (found : queues.data.lookup object = some frames)
    (bounded : queuedBytes (frames.filter fun entry => entry.requestId == some id) ≤
      queues.bytes) :
    queues.removeRequest object id = .ok { queues with
      bytes := queues.bytes - queuedBytes (frames.filter fun entry => entry.requestId == some id)
      data := queues.data.put object (frames.filter fun entry => !(entry.requestId == some id))
      ready :=
        if frames.filter (fun entry => !(entry.requestId == some id)) = [] then
          queues.ready.filter (· ≠ object)
        else queues.ready } := by
  simp only [Queues.removeRequest, found, checkedSub_of_le bounded]
  rfl

private theorem removeObject_eq {object : String}
    (bounded : queuedBytes (queues.data.queue object) ≤ queues.bytes) :
    queues.removeObject object = .ok { queues with
      bytes := queues.bytes - queuedBytes (queues.data.queue object)
      data := queues.data.put object []
      ready := queues.ready.filter (· ≠ object) } := by
  cases found : queues.data.lookup object with
  | none =>
    have absent : queues.data.queue object = [] := by simp [MultiQueue.queue, found]
    simp [Queues.removeObject, found, absent, MultiQueue.put, Map.erase_of_lookup_none found]
  | some items =>
    rw [MultiQueue.queue_of_lookup found] at bounded ⊢
    simp only [Queues.removeObject, found, checkedSub_of_le bounded, MultiQueue.put, if_true]
    rfl

/-- `remove_request` never panics, keeps the invariant, and takes exactly the
frames of that request out of that object's queue. -/
theorem removeRequest_spec (wellFormed : queues.WellFormed) (object id : String) :
    ∃ next, queues.removeRequest object id = .ok next ∧ next.WellFormed ∧
      next.control = queues.control ∧
      next.data.queue object =
        (queues.data.queue object).filter (fun entry => !(entry.requestId == some id)) ∧
      ∀ other, other ≠ object → next.data.queue other = queues.data.queue other := by
  cases found : queues.data.lookup object with
  | none =>
    have absent : queues.data.queue object = [] := by simp [MultiQueue.queue, found]
    refine ⟨queues, ?_, wellFormed, rfl, by simp [absent], fun _ _ => rfl⟩
    simp [Queues.removeRequest, found]
  | some frames =>
    have queued := MultiQueue.queue_of_lookup found
    have split := queuedBytes_filter frames fun entry => entry.requestId == some id
    have covered := wellFormed.queuedBytes_le object
    rw [queued] at covered
    have bounded : queuedBytes (frames.filter fun entry => entry.requestId == some id) ≤
        queues.bytes := by omega
    refine ⟨_, removeRequest_eq found bounded, ?_, rfl, ?_, ?_⟩
    · refine wellFormed.rewrite ?_ ?_ ?_ ?_
      · rw [queued]
        omega
      · rw [queued]
        omega
      · split_ifs
        · exact nodup_filter_ready wellFormed object
        · exact wellFormed.readyNodup
      · intro other
        by_cases same : other = object
        · subst same
          have present : other ∈ queues.ready := by
            rw [wellFormed.mem_ready_iff, queued]
            exact wellFormed.compact other frames found
          rw [if_pos rfl]
          split_ifs with empty
          · simp [empty]
          · simp only [present, empty, ne_eq, not_false_eq_true]
        · rw [if_neg same]
          split_ifs
          · simp [same]
          · rfl
    · rw [queued]
      exact MultiQueue.queue_put_self _ _ _
    · intro other different
      exact MultiQueue.queue_put_ne _ _ different

/-- `remove_object` never panics, keeps the invariant, and empties exactly that
object's queue. -/
theorem removeObject_spec (wellFormed : queues.WellFormed) (object : String) :
    ∃ next, queues.removeObject object = .ok next ∧ next.WellFormed ∧
      next.control = queues.control ∧ next.data.queue object = [] ∧
      ∀ other, other ≠ object → next.data.queue other = queues.data.queue other := by
  have covered := wellFormed.queuedBytes_le object
  refine ⟨_, removeObject_eq covered, ?_, rfl, ?_, ?_⟩
  · refine wellFormed.rewrite (Nat.zero_le _) ?_ (nodup_filter_ready wellFormed object) ?_
    · rw [queuedBytes_nil]
      omega
    · intro other
      by_cases same : other = object <;> simp [same]
  · exact MultiQueue.queue_put_self _ _ _
  · intro other different
    exact MultiQueue.queue_put_ne _ _ different

/-- A removal takes at most its own object out of the rotation, and leaves the
count of control frames alone. -/
theorem removeRequest_rotation {next : Queues} (wellFormed : queues.WellFormed)
    {object id : String} (removed : queues.removeRequest object id = .ok next) :
    next.controlBurst = queues.controlBurst ∧
      ((next.ready = queues.ready ∧ (queues.data.queue object = [] ∨
          (queues.data.queue object).filter (fun entry => !(entry.requestId == some id)) ≠ [])) ∨
        next.ready = queues.ready.filter (· ≠ object) ∧
          (queues.data.queue object).filter (fun entry => !(entry.requestId == some id)) = []) := by
  cases found : queues.data.lookup object with
  | none =>
    have absent : queues.data.queue object = [] := by simp [MultiQueue.queue, found]
    simp only [Queues.removeRequest, found, Except.ok.injEq] at removed
    subst removed
    exact ⟨rfl, Or.inl ⟨rfl, Or.inl absent⟩⟩
  | some frames =>
    have queued := MultiQueue.queue_of_lookup found
    have split := queuedBytes_filter frames fun entry => entry.requestId == some id
    have covered := wellFormed.queuedBytes_le object
    rw [queued] at covered
    rw [removeRequest_eq found (by omega), Except.ok.injEq] at removed
    subst removed
    refine ⟨rfl, ?_⟩
    rw [queued]
    by_cases empty : frames.filter (fun entry => !(entry.requestId == some id)) = []
    · exact Or.inr ⟨if_pos empty, empty⟩
    · exact Or.inl ⟨if_neg empty, Or.inr empty⟩

/-- Removing an object takes it out of the rotation and changes nothing else of it. -/
theorem removeObject_rotation {next : Queues} (wellFormed : queues.WellFormed) {object : String}
    (removed : queues.removeObject object = .ok next) :
    next.controlBurst = queues.controlBurst ∧ next.ready = queues.ready.filter (· ≠ object) := by
  rw [removeObject_eq (wellFormed.queuedBytes_le object), Except.ok.injEq] at removed
  subst removed
  exact ⟨rfl, rfl⟩

end Remove

section Next

variable {queues : Queues}

/-- The three outcomes of a pass over well-formed queues. -/
inductive Served (queues : Queues) : Option (Frame × Queues) → Prop where
  | nothing (control : queues.control = []) (ready : queues.ready = []) : Served queues none
  | control {item rest} (waiting : queues.control = item :: rest)
      (turn : queues.controlBurst < 8 ∨ queues.ready = []) :
      Served queues (some (item,
        { queues with control := rest, controlBurst := queues.controlBurst + 1 }))
  | data {object ready first rest} (turn : queues.control = [] ∨ 8 ≤ queues.controlBurst)
      (rotation : queues.ready = object :: ready)
      (queued : queues.data.queue object = first :: rest) :
      Served queues (some (first.frame, { queues with
        data := queues.data.put object rest
        ready := if rest = [] then ready else ready ++ [object]
        bytes := queues.bytes - first.frame.length
        controlBurst := 0 }))

/-- `next` never panics on well-formed queues. -/
theorem next_spec (wellFormed : queues.WellFormed) :
    ∃ outcome, queues.next = .ok outcome ∧ queues.Served outcome := by
  have rotate : (queues.control = [] ∨ ¬ (queues.controlBurst < 8 ∨ queues.ready = [])) →
      ∃ outcome, (match queues.ready with
        | [] => .ok none
        | id :: ready =>
          match queues.data.lookup id with
          | none => .error .readyQueueInvariant
          | some [] => .error .nonemptyQueue
          | some (first :: rest) => do
            let bytes ← checkedSub queues.bytes first.frame.length
            .ok (some (first.frame, { queues with
              data := queues.data.put id rest
              ready := if rest = [] then ready else ready ++ [id]
              bytes := bytes
              controlBurst := 0 })) : Except Panic (Option (Frame × Queues))) = .ok outcome ∧
        queues.Served outcome := by
    intro turn
    cases rotation : queues.ready with
    | nil =>
      have control : queues.control = [] := by simpa [rotation] using turn
      exact ⟨none, rfl, .nothing control rotation⟩
    | cons object ready =>
      have member : object ∈ queues.data :=
        (wellFormed.readyKeys object).mp (by simp [rotation])
      obtain ⟨first, rest, found⟩ := wellFormed.compact.lookup_of_mem member
      have queued := MultiQueue.queue_of_lookup found
      have covered := wellFormed.queuedBytes_le object
      rw [queued, queuedBytes_cons] at covered
      have bounded : first.frame.length ≤ queues.bytes := by omega
      have served : queues.control = [] ∨ 8 ≤ queues.controlBurst := by
        rcases turn with control | burst
        · exact Or.inl control
        · push Not at burst
          exact Or.inr burst.1
      refine ⟨_, ?_, .data served rotation queued⟩
      simp only [found, checkedSub_of_le bounded]
      rfl
  unfold Queues.next
  split
  · rename_i item rest waiting turn
    exact ⟨_, rfl, .control waiting (by simpa using turn)⟩
  · rename_i excluded
    apply rotate
    by_cases turn : queues.controlBurst < 8 ∨ queues.ready = []
    · left
      cases waiting : queues.control with
      | nil => rfl
      | cons item rest => exact absurd (by simpa using turn) (excluded item rest waiting)
    · exact Or.inr turn

/-- A served frame leaves well-formed queues behind. -/
theorem Served.wellFormed {frame : Frame} {next : Queues} (wellFormed : queues.WellFormed)
    (served : queues.Served (some (frame, next))) : next.WellFormed := by
  cases served with
  | @control _ rest waiting =>
    have bound := wellFormed.controlBound
    rw [waiting, List.length_cons] at bound
    exact { wellFormed with controlBound := by change rest.length ≤ controlSlots; omega }
  | @data object ready first rest _ rotation queued =>
    have distinct := wellFormed.readyNodup
    rw [rotation, List.nodup_cons] at distinct
    have covered := wellFormed.queuedBytes_le object
    rw [queued, queuedBytes_cons] at covered
    refine wellFormed.rewrite ?_ ?_ ?_ ?_
    · rw [queued, queuedBytes_cons]
      omega
    · rw [queued, queuedBytes_cons]
      omega
    · split_ifs
      · exact distinct.2
      · refine distinct.2.append (List.nodup_singleton _) ?_
        simpa using distinct.1
    · intro other
      rw [rotation]
      by_cases same : other = object
      · subst same
        rw [if_pos rfl]
        split_ifs with empty <;> simp [empty, distinct.1]
      · rw [if_neg same]
        split_ifs <;> simp [same]

end Next

end Queues

end Spinfoam.Outbox
