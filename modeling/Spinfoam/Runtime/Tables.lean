import Spinfoam.Guest.Journal
import Spinfoam.Json.Measures
import Spinfoam.Runtime.Handles

/-!
# What a handle table can hold

A handle comes from the configuration, from an event, from a result, from the
parser, from guest memory, or from another handle. A property that all of these
have holds of every table in every run.
-/

namespace Spinfoam

open Spinfoam.Json Spinfoam.Std Spinfoam.Outbox Spinfoam.Guest Spinfoam.Semantics

/-- A property that the values within the limits have and that what is made of a
handle inherits from it. -/
structure Inherited (property : Handle → Prop) : Prop where
  checked : ∀ {value : Value}, validValue value = true → property (.json value)
  part : ∀ {value part : Value}, property (.json value) →
    ((∃ key, value.get key = some part) ∨ ∃ index, value.at? index = some part) →
      property (.json part)
  dumped : ∀ {value : Value}, property (.json value) → property (.bytes (encodeUtf8 value.compact))
  bytes : ∀ {bytes : List UInt8}, bytes.length ≤ maxValueBytes → property (.bytes bytes)

/-- All handles of a table have the property. -/
def Holds (property : Handle → Prop) (handles : Map Nat Handle) : Prop :=
  ∀ handle entry, handles.lookup handle = some entry → property entry

/-- Everything an object holds that may get a handle has the property. -/
structure Object.Holding (property : Handle → Prop) (object : Object) : Prop where
  config : property (.json object.config)
  mailbox : ∀ event ∈ object.mailbox.events, property (.json event)
  guest : ∀ {context posted}, object.task = .running context posted →
    property (.json context.config) ∧ Holds property context.handles

namespace Guest

/-- The constants that helpers create are within the limits. -/
theorem validValue_constant {value : Value}
    (simple : value ∈ [.object [], .array [], .null, .bool true, .bool false]) :
    validValue value = true := by
  revert value
  decide

theorem validValue_null : validValue .null = true := by decide

/-- Every integer that helpers create is within the limits. -/
theorem validValue_toI64 (word : Nat) : validValue (.number (.int (toI64 word))) = true := by
  have register : word % 2 ^ 64 < 2 ^ 64 := Nat.mod_lt _ (by decide)
  apply validValue_int <;> unfold toI64 <;> split_ifs <;> omega

end Guest

variable {property : Handle → Prop}

/-- A table holds what it held, and what is inserted. -/
theorem Holds.insert {handles : Map Nat Handle} (table : Holds property handles) {handle : Nat}
    {entry : Handle} (suits : property entry) : Holds property (handles.insert handle entry) := by
  intro other current found
  obtain ⟨-, rfl⟩ | ⟨-, found⟩ := Map.lookup_insert_eq_some found
  · exact suits
  · exact table other current found

namespace Guest

variable {guest after : Guest}

/-- A value that can be read has the property of the table. -/
theorem holds_json (table : Holds property guest.context.handles) {handle : Nat} {value : Value}
    (stored : guest.context.json handle = some value) : property (.json value) := by
  refine table handle _ ?_
  unfold GuestContext.json at stored
  split at stored
  · rename_i found
    rw [found, Option.some.inj stored]
  · cases stored

/-- A new handle has the property if what the guest holds has it. -/
theorem Source.holds {scope : Scope} {call : HelperCall} {handle : Handle}
    (source : Source guest scope call handle) (inherited : Inherited property)
    (config : property (.json guest.context.config))
    (table : Holds property guest.context.handles) : property handle := by
  cases source with
  | config => exact config
  | part stored within => exact inherited.part (holds_json table stored) within
  | checked valid => exact inherited.checked valid
  | number word => exact inherited.checked (validValue_toI64 word)
  | constant simple => exact inherited.checked (validValue_constant simple)
  | dumped stored => exact inherited.dumped (holds_json table stored)
  | bytes short => exact inherited.bytes short

/-- A helper call keeps the property of the table. -/
theorem invoke_holds (inherited : Inherited property) {scope : Scope} {call : HelperCall}
    {reply : Reply} (invoked : guest.invoke scope call = (after, reply))
    (config : property (.json guest.context.config))
    (table : Holds property guest.context.handles) :
    property (.json after.context.config) ∧ Holds property after.context.handles := by
  have effect := invoke_table guest scope call
  rw [invoked] at effect
  cases effect with
  | kept handles counter same =>
    rw [same, handles]
    exact ⟨config, table⟩
  | created creates room source => exact ⟨config, table.insert (source.holds inherited config table)⟩
  | replaced grown valid => exact ⟨config, table.insert (inherited.checked valid)⟩
  | dropped =>
    refine ⟨config, ?_⟩
    intro handle value found
    exact table handle value (Map.lookup_erase_eq_some found).2

/-- What a future fetches has the property if what waits for it has. -/
theorem Fetched.holds (inherited : Inherited property) {ready : Ready} {future : Posted}
    {value : Value} {envelope : Option Value}
    (fetched : Fetched guest ready future value envelope)
    (mailbox : ∀ event ∈ guest.mailbox.events, property (.json event))
    (answering : guest.host.Answering) : property (.json value) := by
  cases fetched with
  | event taken =>
    apply mailbox
    rw [guest.mailbox.receive_events, taken]
    exact List.mem_cons_self
  | called answered => exact inherited.checked ((answering.call _ _ _ _ _ _).2 _ answered)
  | polled answered => exact inherited.checked ((answering.poll _ _ _).2 _ answered)

/-- A completion gives the guest nothing but what has been checked. -/
theorem pollPosted_holds (inherited : Inherited property) {ready : Ready} {future : Posted}
    {events : List Host.Event} {progress : Progress}
    (polled : guest.pollPosted ready future = (after, events, progress))
    (config : property (.json guest.context.config))
    (table : Holds property guest.context.handles)
    (mailbox : ∀ event ∈ guest.mailbox.events, property (.json event))
    (answering : guest.host.Answering) :
    property (.json after.context.config) ∧ Holds property after.context.handles := by
  have effect := pollPosted_table guest ready future
  rw [polled] at effect
  cases effect with
  | pending context | kept context =>
    rw [context]
    exact ⟨config, table⟩
  | created room fetched context =>
    rw [context]
    exact ⟨config, table.insert (fetched.holds inherited mailbox answering)⟩

/-- Neither a helper nor a future brings an event into the mailbox. -/
theorem invoke_mailbox (guest : Guest) (scope : Scope) (call : HelperCall) :
    (guest.invoke scope call).1.mailbox = guest.mailbox := by
  have spec := invoke_spec guest scope call
  generalize guest.invoke scope call = result at spec ⊢
  cases spec with
  | table same mailbox | log same mailbox => exact mailbox
  | posted => rfl

/-- A call that ends leaves the mailbox alone. -/
theorem settleCall_mailbox (guest : Guest) (outcome : Host.Outcome) :
    (guest.settleCall outcome).1.mailbox = guest.mailbox := by
  obtain (status | value) | call := outcome
  · rfl
  · exact (insert_spec { guest with wait := .none } (.json value)).2.1
  · rfl

/-- A posted future only takes events out. -/
theorem pollPosted_mailbox (guest : Guest) (ready : Ready) (future : Posted) :
    (guest.pollPosted ready future).1.mailbox.events ⊆ guest.mailbox.events := by
  cases future with
  | sleep | yield =>
    unfold pollPosted
    split_ifs <;> exact List.Subset.refl _
  | event ms =>
    have kept := guest.mailbox.receive_events
    simp only [pollPosted]
    split
    · rename_i event mailbox received
      rw [(insert_spec { guest with mailbox, wait := .none } (.json event)).2.1, kept, received]
      exact List.subset_append_right _ _
    · rename_i mailbox received
      have same : mailbox.events = guest.mailbox.events := by
        rw [kept, received]
        rfl
      split_ifs
      · simp [same]
      · simp [same]
  | call capability arguments ms =>
    simp only [pollPosted, settleCall_mailbox]
    exact List.Subset.refl _
  | calling call =>
    simp only [pollPosted, settleCall_mailbox]
    exact List.Subset.refl _

end Guest

namespace Runtime

variable {runtime after : Runtime} {events : List Event} {serial : Nat}

private theorem holding_join (inherited : Inherited property) {object : Object}
    (holding : object.Holding property) : object.join.1.Holding property := by
  rcases object.join_spec with ⟨-, same⟩ | ⟨-, same⟩
  · rw [same]
    exact ⟨holding.config, holding.mailbox, holding.guest⟩
  · rw [same]
    exact ⟨inherited.checked validValue_null, by simp [Object.release], holding.guest⟩

/-- An object passes an event on to its mailbox or refuses it. -/
theorem deliver_eq (object : Object) (event : Value) :
    object.deliver event = ({ object with mailbox := (object.mailbox.deliver event).1 },
        (object.mailbox.deliver event).2) ∨ (object.deliver event).1 = object := by
  unfold Object.deliver
  split
  · exact Or.inl rfl
  · exact Or.inl rfl
  · exact Or.inl rfl
  · exact Or.inr rfl

/-- The mailbox itself bounds the encoding of an event. -/
theorem holding_deliver {object : Object} (holding : object.Holding property) (event : Value)
    (accepted : (object.deliver event).2 = .ok (Mailbox.admitted false) →
      event.size ≤ maxValueBytes → property (.json event)) :
    (object.deliver event).1.Holding property := by
  rcases deliver_eq object event with same | same
  · rw [same] at accepted ⊢
    refine ⟨holding.config, ?_, holding.guest⟩
    have delivery := object.mailbox.deliver_spec event
    generalize object.mailbox.deliver event = result at delivery accepted ⊢
    cases delivery with
    | invalid | duplicate | refused => exact holding.mailbox
    | accepted identified short fresh fits slot room entries =>
      intro other member
      rw [Mailbox.events, entries, List.map_append, List.mem_append] at member
      rcases member with old | new
      · exact holding.mailbox other old
      · obtain rfl := List.mem_singleton.mp new
        exact accepted rfl fits
  · rwa [same]

/-- What is done to an object from outside keeps what it holds. -/
theorem holding_tended (inherited : Inherited property) {object next : Object}
    (tended : Object.Tended serial object events next) (holding : object.Holding property)
    (accepted : ∀ event, .accepted serial event ∈ events → event.size ≤ maxValueBytes →
      property (.json event)) : next.Holding property := by
  cases tended with
  | start => exact ⟨holding.config, holding.mailbox, by simp⟩
  | stop =>
    rcases object.stop_spec with ⟨-, same⟩ | ⟨-, same⟩ | ⟨-, same⟩
    · rw [same]
      exact holding_join inherited ⟨holding.config, holding.mailbox, holding.guest⟩
    · rw [same]
      exact ⟨holding.config, holding.mailbox, holding.guest⟩
    · rw [same]
      exact holding_join inherited holding
  | pollStop fits =>
    rcases Object.pollStop_spec fits with ⟨same, -⟩ | ⟨-, same | same⟩
    · rwa [same]
    · rw [same]
      exact holding_join inherited holding
    · rw [same]
      exact ⟨inherited.checked validValue_null, by simp [Object.release], holding.guest⟩
  | cancel => exact ⟨holding.config, holding.mailbox, holding.guest⟩
  | deliver event =>
    apply holding_deliver holding
    intro admitted
    rw [if_pos admitted] at accepted
    exact accepted event List.mem_cons_self
  | begin clock spawned =>
    refine ⟨inherited.checked validValue_null, holding.mailbox, ?_⟩
    intro context posted task
    cases task
    refine ⟨holding.config, ?_⟩
    intro handle value found
    cases found

/-- Everything in the runtime that may get a handle has the property. -/
structure Bounded (property : Handle → Prop) (runtime : Runtime) : Prop where
  loads : ∀ {request load}, runtime.loads.lookup request = some load →
    validValue load.config = true
  objects : ∀ {serial object}, runtime.heap.lookup serial = some object →
    object.Holding property

/-- A load that waits has a checked configuration. -/
theorem Move.loads (move : Move runtime events after)
    (loads : ∀ {request load}, runtime.loads.lookup request = some load →
      validValue load.config = true) :
    ∀ {request load}, after.loads.lookup request = some load → validValue load.config = true := by
  intro request load found
  cases move with
  | issue other fresh config =>
    obtain ⟨-, rfl⟩ | ⟨-, found⟩ := Map.lookup_insert_eq_some found
    · exact config
    · exact loads found
  | forget other => exact loads (Map.lookup_erase_eq_some found).2
  | bind waiting => exact loads (Map.lookup_erase_eq_some found).2
  | finish found' ending order =>
    rw [finish_eq] at found
    exact loads found
  | respond | tend | park | unpark | clear | settle | absent | host | helper | stay | complete =>
    exact loads found

/-- Every move keeps the property, if the events it accepts have it. -/
theorem Bounded.move (inherited : Inherited property) (bounded : Bounded property runtime)
    (answering : runtime.host.Answering) (move : Move runtime events after)
    (accepted : ∀ serial event, .accepted serial event ∈ events → event.size ≤ maxValueBytes →
      property (.json event)) : Bounded property after := by
  refine ⟨move.loads bounded.loads, ?_⟩
  intro serial object stored
  cases move.became stored with
  | same found => exact bounded.objects found
  | loaded waiting =>
    exact ⟨inherited.checked (bounded.loads waiting), by simp [Mailbox.events], by simp⟩
  | tended found tended =>
    exact holding_tended inherited tended (bounded.objects found) (accepted serial)
  | @worked object context posted next guest found task worked =>
    have holding := bounded.objects found
    obtain ⟨config, table⟩ := holding.guest task
    cases worked with
    | @helper scope call _ reply invoked =>
      have mailbox := invoke_mailbox (runtime.guest object context) scope call
      rw [invoked] at mailbox
      refine ⟨holding.config, ?_, ?_⟩
      · rw [mailbox]
        exact holding.mailbox
      · rintro _ _ ⟨⟩
        exact invoke_holds inherited invoked config table
    | @stay ready future _ _ _ polled =>
      have mailbox := pollPosted_mailbox (runtime.guest object context) ready future
      rw [polled] at mailbox
      refine ⟨holding.config, fun event member => holding.mailbox event (mailbox member), ?_⟩
      rintro _ _ ⟨⟩
      exact pollPosted_holds inherited polled config table holding.mailbox answering
    | @complete ready future _ _ word envelope polled =>
      have mailbox := pollPosted_mailbox (runtime.guest object context) ready future
      rw [polled] at mailbox
      refine ⟨holding.config, fun event member => holding.mailbox event (mailbox member), ?_⟩
      rintro _ _ ⟨⟩
      exact pollPosted_holds inherited polled config table holding.mailbox answering
  | @finished object current context posted result mailbox found ending =>
    have holding := bounded.objects found
    have config : property (.json current.config) := by
      cases ending with
      | running => exact holding.config
      | spawned => exact inherited.checked validValue_null
    refine ⟨?_, by simp [Object.settle], by simp⟩
    rcases result with _ | error | code <;> exact config

/-- What handles inherit, all handles of a run have. -/
theorem bounded_of_execution (inherited : Inherited property)
    {history : List (Transition Runtime Action Event)}
    (execution : machine.Execution history runtime)
    (accepted : ∀ serial event, .accepted serial event ∈ trace history →
      event.size ≤ maxValueBytes → property (.json event)) : Bounded property runtime := by
  refine (invariant_of_moves (fun events runtime => runtime.host.Answering ∧
    ((∀ serial event, .accepted serial event ∈ events → event.size ≤ maxValueBytes →
      property (.json event)) → Bounded property runtime)) ?_ ?_ execution).2 accepted
  · intro session
    refine ⟨?_, fun _ => ⟨?_, ?_⟩⟩
    · intro id result found
      cases found
    · intro request load found
      cases found
    · intro serial object found
      cases found
  · rintro events runtime more after _ ⟨answering, bounded⟩ move
    refine ⟨move.answering answering, ?_⟩
    intro accepted
    refine (bounded fun serial event member => ?_).move inherited answering move
      fun serial event member => ?_
    · exact accepted serial event (List.mem_append_left _ member)
    · exact accepted serial event (List.mem_append_right _ member)

end Runtime

end Spinfoam
