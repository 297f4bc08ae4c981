import Spinfoam.Runtime.Moves
import Spinfoam.Std.Pages

/-!
# The inventory of objects

`sf.object.list`, and an embedder that follows `next` through its pages while
objects are loaded and unloaded.
-/

namespace Spinfoam

open Spinfoam.Json Spinfoam.Std Spinfoam.Guest Spinfoam.Semantics

namespace Runtime

/-- The reply with the first of the statuses, and whether there are more. -/
def pageReply (items : List Value) (limit : Nat) : Value :=
  let page := items.take limit
  let next :=
    if (items.drop limit).isEmpty then none
    else page.getLast?.map fun status => (status.get "object_id").getD .null
  .object [("next", next.getD .null), ("objects", .array page)]

/-- `sf.object.list` with decoded parameters. -/
def list (runtime : Runtime) (after : Option String) (limit : Nat) : RpcResult :=
  if limit = 0 ∨ limit > 256 then .error (.params "limit must be 1..256")
  else
    let items := ((runtime.ids.filter fun id => after.all (· < id)).filterMap runtime.get).map
      fun (_, object) => object.status
    .ok (pageReply items limit)

/-- An embedder on its way through the pages. -/
structure Listing where
  runtime : Runtime
  /-- The `after` of its next request. -/
  cursor : Option String := none
  /-- The ids on the pages it has got. -/
  pages : List (List String) := []
  /-- Whether `next` was null on the last of them. -/
  complete : Bool := false

namespace Listing

inductive Action where
  | runtime (action : Runtime.Action)
  | page (limit : Nat)

/-- The ids on a page. -/
def listed (result : Value) : List String :=
  match result.get "objects" with
  | some (.array items) => items.filterMap fun item => (item.get "object_id").bind Value.asStr
  | _ => []

/-- The next cursor that a page names. -/
def next (result : Value) : Option String := (result.get "next").bind Value.asStr

def perform (listing : Listing) : Action → Option (Listing × List Runtime.Event)
  | .runtime action =>
    (Runtime.machine.step listing.runtime action).map fun (runtime, events) =>
      ({ listing with runtime }, events)
  | .page limit =>
    if listing.complete then none
    else
      match listing.runtime.list listing.cursor limit with
      | .error _ => none
      | .ok result =>
        some ({ listing with
          cursor := next result
          pages := listing.pages ++ [listed result]
          complete := (next result).isNone }, [.responded (.ok result)])

/-- A traversal that begins at some state of the runtime. -/
def machine (runtime : Runtime) : Machine Listing Action Runtime.Event where
  Initial listing := listing = { runtime }
  step := perform

end Listing

section Lists

variable {runtime after : Runtime} {events : List Event}

/-- The ids come in strict order. -/
theorem sorted_ids (runtime : Runtime) : runtime.ids.Pairwise (· < ·) := by
  have distinct : runtime.ids.Nodup :=
    (List.perm_insertionSort (· ≤ ·) _).nodup_iff.mpr runtime.objects.keys_nodup
  refine (List.pairwise_and_iff.mpr ⟨List.pairwise_insertionSort (· ≤ ·) _, distinct⟩).imp ?_
  rintro first second ⟨below, different⟩
  exact lt_of_le_of_ne below different

/-- Every bound id leads to an object that carries it. -/
theorem Sound.get_of_mem (sound : Sound runtime) {id : String} (bound : id ∈ runtime.objects) :
    ∃ serial object, runtime.get id = some (serial, object) ∧ object.id = id := by
  obtain ⟨serial, listed⟩ := Option.isSome_iff_exists.mp (AList.lookup_isSome.mpr bound)
  obtain ⟨named, stored⟩ := sound.bound listed
  obtain ⟨object, found⟩ := Option.isSome_iff_exists.mp (AList.lookup_isSome.mpr stored)
  refine ⟨serial, object, ?_, (sound.object found).2.trans named.symm⟩
  simp [Runtime.get, listed, found]

/-- The ids of the objects that some ids lead to. -/
theorem Sound.ids_of_get (sound : Sound runtime) {names : List String}
    (bound : ∀ id ∈ names, id ∈ runtime.objects) :
    (names.filterMap runtime.get).map (fun found => found.2.id) = names := by
  induction names with
  | nil => rfl
  | cons id rest ih =>
    obtain ⟨serial, object, got, named⟩ := sound.get_of_mem (bound id List.mem_cons_self)
    rw [List.filterMap_cons_some got, List.map_cons, named,
      ih fun other member => bound other (List.mem_cons_of_mem _ member)]

@[simp] theorem get_status (object : Object) :
    object.status.get "object_id" = some (.string object.id) := rfl

/-- The ids on a page of statuses. -/
theorem listed_pageReply (objects : List (Nat × Object)) (limit : Nat) :
    Listing.listed (pageReply (objects.map fun found => found.2.status) limit) =
      (objects.map fun found => found.2.id).take limit := by
  have page : (pageReply (objects.map fun found => found.2.status) limit).get "objects" =
      some (.array ((objects.map fun found => found.2.status).take limit)) := rfl
  have ids : (fun item : Value => (item.get "object_id").bind Value.asStr) ∘
      (fun found : Nat × Object => found.2.status) = some ∘ fun found => found.2.id := by
    ext found
    simp
  rw [Listing.listed, page]
  simp only [← List.map_take, List.filterMap_map, ids, List.filterMap_eq_map]

/-- The cursor of a page of statuses. -/
theorem next_pageReply (objects : List (Nat × Object)) (limit : Nat) :
    Listing.next (pageReply (objects.map fun found => found.2.status) limit) =
      (firstPage limit (objects.map fun found => found.2.id)).2 := by
  have cursor : (pageReply (objects.map fun found => found.2.status) limit).get "next" =
      some ((if ((objects.map fun found => found.2.status).drop limit).isEmpty then none
        else ((objects.map fun found => found.2.status).take limit).getLast?.map
          fun status => (status.get "object_id").getD .null).getD .null) := rfl
  rw [Listing.next, cursor, firstPage]
  simp only [← List.map_take, ← List.map_drop, List.isEmpty_map, List.getLast?_map]
  split_ifs with rest
  · rfl
  · cases (objects.take limit).getLast? <;> rfl

/-- The reply to a request with a limit in the range is a page of the bound ids. -/
theorem Sound.list_page (sound : Sound runtime) (cursor : Option String) {limit : Nat}
    (positive : 1 ≤ limit) (bounded : limit ≤ 256) :
    ∃ result, runtime.list cursor limit = .ok result ∧
      (Listing.listed result).length ≤ limit ∧
      Page {id | id ∈ runtime.objects} cursor (Listing.listed result) (Listing.next result) := by
  have valid : ¬ (limit = 0 ∨ limit > 256) := by omega
  have sorted := (sorted_ids runtime).filter fun id => cursor.all (· < id)
  have exact_ : ∀ id, id ∈ runtime.ids.filter (fun id => cursor.all (· < id)) ↔
      id ∈ {id | id ∈ runtime.objects} ∧ Beyond cursor id := by
    intro id
    rw [List.mem_filter, mem_ids]
    cases cursor <;> simp [Beyond]
  have found := sound.ids_of_get fun id member => ((exact_ id).mp member).1
  refine ⟨_, if_neg valid, ?_, ?_⟩
  · rw [listed_pageReply]
    exact List.length_take_le ..
  · rw [listed_pageReply, next_pageReply, found]
    exact page_firstPage positive sorted exact_

/-- Only a load adds an id. -/
theorem Move.unbound (move : Move runtime events after) {id : String}
    (loadless : ∀ serial, .bound serial id ∉ events) (bound : id ∈ after.objects) :
    id ∈ runtime.objects := by
  cases move with
  | bind waiting =>
    rcases (AList.mem_insert _).mp bound with rfl | old
    · exact absurd List.mem_cons_self (loadless _)
    · exact old
  | clear => cases bound
  | settle found released unload order =>
    simp only [Runtime.finishStop] at bound
    split_ifs at bound
    · exact ((AList.mem_erase).mp bound).2
    · exact bound
  | _ => exact bound

theorem Moves.unbound (moves : Moves runtime events after) {id : String}
    (loadless : ∀ serial, .bound serial id ∉ events) (bound : id ∈ after.objects) :
    id ∈ runtime.objects := by
  induction moves with
  | refl => exact bound
  | head move _ ih =>
    refine move.unbound (fun serial member => loadless serial ?_) (ih ?_ bound)
    · exact List.mem_append_left _ member
    · exact fun serial member => loadless serial (List.mem_append_right _ member)

end Lists

namespace Listing

variable {runtime : Runtime} {listing after : Listing} {events : List Runtime.Event}

/-- What a request of the embedder brings it. -/
theorem page_spec (sound : Sound listing.runtime) {limit : Nat}
    (taken : listing.perform (.page limit) = some (after, events)) :
    listing.complete = false ∧ (∀ serial id, .bound serial id ∉ events) ∧ ∃ ids cursor,
      ids.length ≤ limit ∧ Page {id | id ∈ listing.runtime.objects} listing.cursor ids cursor ∧
        after = { listing with
          cursor := cursor, pages := listing.pages ++ [ids], complete := cursor.isNone } := by
  rw [perform] at taken
  split_ifs at taken with complete
  refine ⟨Bool.not_eq_true _ ▸ complete, ?_⟩
  by_cases valid : 1 ≤ limit ∧ limit ≤ 256
  · obtain ⟨result, listed, short, turned⟩ := sound.list_page listing.cursor valid.1 valid.2
    rw [listed] at taken
    obtain ⟨rfl, rfl⟩ := Prod.mk.inj (Option.some.inj taken)
    exact ⟨by simp, _, _, short, turned, rfl⟩
  · rw [list, if_pos (by omega)] at taken
    cases taken

/-- `next` is null exactly if no object lies beyond the page. -/
theorem page_law (sound : Sound listing.runtime) {limit : Nat}
    (taken : listing.perform (.page limit) = some (after, events)) :
    ∃ ids, after.pages = listing.pages ++ [ids] ∧ ids.length ≤ limit ∧
      (∀ id ∈ ids, id ∈ listing.runtime.objects) ∧
      (after.complete = true ↔
        ∀ id ∈ listing.runtime.objects, Beyond listing.cursor id → id ∈ ids) := by
  obtain ⟨-, -, ids, cursor, short, turned, rfl⟩ := page_spec sound taken
  refine ⟨ids, rfl, short, fun id listed => (turned.listed id listed).1, ?_⟩
  cases cursor with
  | none =>
    refine iff_of_true rfl ?_
    intro id bound beyond
    exact (turned.covers id bound beyond).resolve_right (by simp)
  | some last =>
    refine iff_of_false (by simp) ?_
    intro all
    obtain ⟨final, highest, id, bound, past⟩ := turned.more last rfl
    have beyond : Beyond listing.cursor id := fun first reached =>
      ((turned.listed last final).2 first reached).trans past
    exact absurd (highest id (all id bound beyond)) (not_le.mpr past)

/-- A request can be made until `next` has been null. -/
theorem page_step (sound : Sound listing.runtime) (going : listing.complete = false) {limit : Nat}
    (positive : 1 ≤ limit) (bounded : limit ≤ 256) :
    ∃ after events, listing.perform (.page limit) = some (after, events) := by
  obtain ⟨result, listed, -⟩ := sound.list_page listing.cursor positive bounded
  rw [perform, going, listed]
  exact ⟨_, _, rfl⟩

/-- The id is bound at every request of the run. -/
def Present (history : List (Transition Listing Action Runtime.Event)) (id : String) : Prop :=
  ∀ transition ∈ history, ∀ limit, transition.action = .page limit →
    id ∈ transition.before.runtime.objects

/-- Where an embedder stands after a run. -/
structure Progressed (history : List (Transition Listing Action Runtime.Event))
    (listing : Listing) : Prop where
  reached : Runtime.machine.Reachable listing.runtime
  sorted : listing.pages.flatten.Pairwise (· < ·)
  walked : listing.complete = false → Walked listing.pages.flatten listing.cursor
  covered : ∀ id, Present history id →
    id ∈ listing.pages.flatten ∨ listing.complete = false ∧ Beyond listing.cursor id

/-- How much an embedder has got if nothing has been loaded since it began. -/
structure Counted (runtime : Runtime) (listing : Listing) : Prop where
  bound : ∀ id ∈ listing.runtime.objects, id ∈ runtime.objects
  listed : ∀ id ∈ listing.pages.flatten, id ∈ runtime.objects
  full : listing.pages.length ≤
    listing.pages.flatten.length + if listing.complete then 1 else 0

variable {history : List (Transition Listing Action Runtime.Event)}

theorem progressed (reached : Runtime.machine.Reachable runtime)
    (execution : (machine runtime).Execution history listing) : Progressed history listing := by
  refine execution.historyInvariant Progressed ?_ ?_
  · rintro _ rfl
    exact ⟨reached, .nil, fun _ => walked_nil, fun id _ => Or.inr ⟨rfl, by simp [Beyond]⟩⟩
  · intro history before action after events _ progressed taken
    have sound := sound_of_reachable progressed.reached.choose_spec
    have still : ∀ {id}, Present (history ++ [⟨before, action, events, after⟩]) id →
        Present history id ∧ ∀ limit, action = .page limit → id ∈ before.runtime.objects := by
      intro id present
      refine ⟨fun transition member => present transition (List.mem_append_left _ member), ?_⟩
      exact present ⟨before, action, events, after⟩ (List.mem_append_right _ List.mem_cons_self)
    cases action with
    | runtime action =>
      obtain ⟨⟨next, more⟩, stepped, same⟩ := Option.map_eq_some_iff.mp taken
      obtain ⟨rfl, rfl⟩ := Prod.mk.inj same
      obtain ⟨run, prior⟩ := progressed.reached
      exact ⟨⟨_, prior.step stepped⟩, progressed.sorted, progressed.walked,
        fun id present => progressed.covered id (still present).1⟩
    | page limit =>
      obtain ⟨going, -, ids, cursor, -, turned, rfl⟩ := page_spec sound taken
      have walked := progressed.walked going
      constructor
      case reached => exact progressed.reached
      case sorted => simpa using walked.sorted_append turned
      case walked =>
        intro later
        obtain ⟨last, rfl⟩ := Option.isSome_iff_exists.mp (by simpa using later)
        simpa using walked.turn turned
      case covered =>
        intro id present
        obtain ⟨before, now⟩ := still present
        rcases progressed.covered id before with old | ⟨-, beyond⟩
        · exact Or.inl (by simp [List.mem_flatten.mp old])
        · rcases turned.covers id (now limit rfl) beyond with listed | ⟨last, rfl, past⟩
          · exact Or.inl (by simp [listed])
          · refine Or.inr ⟨rfl, ?_⟩
            rintro _ ⟨⟩
            exact past

theorem counted (reached : Runtime.machine.Reachable runtime)
    (execution : (machine runtime).Execution history listing)
    (loadless : ∀ serial id, .bound serial id ∉ trace history) : Counted runtime listing := by
  refine execution.historyInvariant (fun history listing =>
    (∀ serial id, .bound serial id ∉ trace history) → Counted runtime listing) ?_ ?_ loadless
  · rintro _ rfl _
    exact ⟨fun id bound => bound, by simp, by simp⟩
  · intro history before action after events prior counted taken loadless
    have sound := sound_of_reachable (progressed reached prior).reached.choose_spec
    simp only [trace_append, trace_cons, trace_nil, List.append_nil, List.mem_append,
      not_or] at loadless
    obtain ⟨bound, listed, full⟩ := counted fun serial id => (loadless serial id).1
    cases action with
    | runtime action =>
      obtain ⟨⟨next, more⟩, stepped, same⟩ := Option.map_eq_some_iff.mp taken
      obtain ⟨rfl, rfl⟩ := Prod.mk.inj same
      simp only [Runtime.machine, Option.ite_none_left_eq_some] at stepped
      have moves := perform_moves sound stepped.2
      exact ⟨fun id member => bound id (moves.unbound (fun serial => (loadless serial id).2) member),
        listed, full⟩
    | page limit =>
      obtain ⟨going, -, ids, cursor, -, turned, rfl⟩ := page_spec sound taken
      refine ⟨bound, ?_, ?_⟩
      · intro id member
        rw [List.flatten_append, List.flatten_singleton] at member
        rcases List.mem_append.mp member with old | new
        · exact listed id old
        · exact bound id (turned.listed id new).1
      · rw [going] at full
        cases cursor with
        | none => simp at full ⊢; omega
        | some last =>
          have filled := List.length_pos_of_ne_nil turned.ne_nil
          simp at full ⊢
          omega

/-- From any state of the runtime on, and whatever is loaded or unloaded between
the requests: the pages bring ids in strictly increasing order; an object that is
bound at every request is on exactly one page once `next` has been null; `next` is
null exactly if no object lies beyond the page at that moment; and without loads
there are at most as many pages that name a next one as there were objects, while
a further request is always possible until then. -/
theorem listing_complete (reached : Runtime.machine.Reachable runtime)
    (execution : (machine runtime).Execution history listing) :
    listing.pages.flatten.Pairwise (· < ·) ∧
    (listing.complete = true → ∀ id, Present history id → listing.pages.flatten.count id = 1) ∧
    (∀ transition ∈ history, ∀ limit, transition.action = .page limit →
      ∃ ids, transition.after.pages = transition.before.pages ++ [ids] ∧ ids.length ≤ limit ∧
        (∀ id ∈ ids, id ∈ transition.before.runtime.objects) ∧
        (transition.after.complete = true ↔
          ∀ id ∈ transition.before.runtime.objects,
            Beyond transition.before.cursor id → id ∈ ids)) ∧
    ((∀ serial id, .bound serial id ∉ trace history) →
      listing.pages.length ≤ runtime.objects.entries.length + 1 ∧
        (runtime.objects.entries.length < listing.pages.length → listing.complete = true)) ∧
    (listing.complete = false → ∀ limit, 1 ≤ limit → limit ≤ 256 →
      ∃ after events, listing.perform (.page limit) = some (after, events)) := by
  have here := progressed reached execution
  have distinct : listing.pages.flatten.Nodup := here.sorted.imp fun below => below.ne
  refine ⟨here.sorted, ?_, ?_, ?_, ?_⟩
  · intro complete id present
    rcases here.covered id present with listed | ⟨going, -⟩
    · exact List.count_eq_one_of_mem distinct listed
    · rw [complete] at going
      cases going
  · intro transition member limit action
    obtain ⟨⟨front, prior⟩, taken⟩ := execution.taken member
    rw [action] at taken
    exact page_law (sound_of_reachable (progressed reached prior).reached.choose_spec) taken
  · intro loadless
    obtain ⟨bound, listed, full⟩ := counted reached execution loadless
    have fewer : listing.pages.flatten.length ≤ runtime.objects.entries.length := by
      have within : listing.pages.flatten ⊆ runtime.objects.keys :=
        fun id member => AList.mem_keys.mp (listed id member)
      have shorter := (distinct.subperm within).length_le
      simpa [AList.keys, List.keys] using shorter
    refine ⟨?_, ?_⟩
    · split_ifs at full <;> omega
    · intro more
      by_contra going
      rw [if_neg going] at full
      omega
  · intro going limit positive bounded
    exact page_step (sound_of_reachable here.reached.choose_spec) going positive bounded

set_option maxRecDepth 20000 in
/-- Three objects in pages of one, the second of which is unloaded after the first
page. -/
theorem listing_complete_three :
    ∃ runtime history listing, Runtime.machine.Reachable runtime ∧
      (machine runtime).run { runtime } [.page 1, .runtime (.stop 0 "o2" true []), .page 1] =
        some (history, listing) ∧
      listing.pages = [["o1"], ["o3"]] ∧ listing.complete = true ∧
      listing.pages.flatten.Pairwise (· < ·) ∧ listing.pages.flatten.count "o3" = 1 := by
  obtain ⟨before, runtime, history, listing, loaded, ran, pages, complete, present⟩ :
      ∃ before runtime history listing,
        Runtime.machine.run { host := { session := "" } }
          [.load 0 "" .null [], .loaded 0 (.ok true), .load 0 "" .null [], .loaded 0 (.ok true),
            .load 0 "" .null [], .loaded 0 (.ok true)] = some (before, runtime) ∧
        (machine runtime).run { runtime } [.page 1, .runtime (.stop 0 "o2" true []), .page 1] =
          some (history, listing) ∧
        listing.pages = [["o1"], ["o3"]] ∧ listing.complete = true ∧
        ∀ transition ∈ history, "o3" ∈ transition.before.runtime.objects :=
    ⟨_, _, _, _, rfl, rfl, by decide, by decide, by decide⟩
  have reached : Runtime.machine.Reachable runtime :=
    ⟨before, Machine.execution_of_run ⟨"", rfl⟩ loaded⟩
  have execution : (machine runtime).Execution history listing := Machine.execution_of_run rfl ran
  obtain ⟨sorted, once, -⟩ := listing_complete reached execution
  exact ⟨runtime, history, listing, reached, ran, pages, complete, sorted,
    once complete "o3" fun transition member _ _ => present transition member⟩

end Listing

end Runtime

end Spinfoam
