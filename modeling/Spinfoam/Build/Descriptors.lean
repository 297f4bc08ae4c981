import Spinfoam.Build.Files

/-!
# Descriptors

Over any file map, the descriptors of the compiler behave like those of
read-only files: their numbers are issued once, each goes through its own file
from front to back, and nothing the compiler calls makes the host abort.
-/

namespace Spinfoam.Build

open Spinfoam.Guest Spinfoam.Semantics Spinfoam.Std

/-- The calls of a compilation over any file map. -/
def serving (files : Map String (List UInt8)) : Machine Compilation Action Exchange where
  Initial compilation :=
    compilation.context.files = files ∧ compilation.context.opened = ∅ ∧
      compilation.context.next = 0
  step := step

/-- Every compilation serves the tree of its bundle. -/
theorem serving_of_execution {sdk : String} {request : Request} {compilation : Compilation}
    {history : List (Transition Compilation Action Exchange)}
    (execution : (machine sdk request).Execution history compilation) :
    (serving (fileTree sdk request.files)).Execution history compilation := by
  induction execution with
  | initial valid =>
    obtain rfl := valid
    exact .initial ⟨rfl, rfl, rfl⟩
  | step prior taken ih => exact ih.step taken

/-- The descriptor that a call has issued. -/
def Exchange.issued : Exchange → Option Nat
  | ⟨.openFile _ _ _, .value fd⟩ => if fd = u64Max then none else some fd
  | _ => none

/-- The descriptors that have been issued, in order. -/
def issued (exchanges : List Exchange) : List Nat := exchanges.filterMap Exchange.issued

/-- The descriptor has been closed since it was issued. -/
def Closed (fd : Nat) (exchanges : List Exchange) : Prop :=
  ∃ earlier answer later, exchanges = earlier ++ ⟨.closeFile fd, answer⟩ :: later ∧
    fd ∈ issued earlier

/-- Every open descriptor has been issued, and is at a place of a file that exists. -/
def Context.Sound (context : Context) : Prop :=
  ∀ fd ∈ context.opened, ∃ content offset, context.At fd content offset

/-- This call says nothing about any descriptor. -/
structure Exchange.Silent (exchange : Exchange) : Prop where
  issued : exchange.issued = none
  received : ∀ fd, exchange.received fd = []
  requested : ∀ fd, exchange.requested fd = 0
  closes : ∀ fd, exchange.call ≠ .closeFile fd
  survived : exchange.answer ≠ .panicked

/-- What a call does to the descriptors. -/
inductive Serves (context : Context) (reach : Reach) : Call → Context → Answer → Prop where
  | still {call : Call} {after : Context} {answer : Answer} (next : after.next = context.next)
      (opened : after.opened = context.opened) (silent : Exchange.Silent ⟨call, answer⟩) :
      Serves context reach call after answer
  | opened {pointer length flags : Nat} {path name : String} {content : List UInt8}
      (text : (reach.memory pointer length).bind decodeUtf8 = some path)
      (resolved : virtualPath path = some name)
      (listed : context.files.lookup name = some content)
      (few : context.opened.entries.length < 64) (room : context.next + 1 ≤ 2 ^ 31 - 1 - 2) :
      Serves context reach (.openFile pointer length flags) (context.issue name)
        (.value (context.next + 3))
  | read {fd pointer length offset : Nat} {name : String} {content : List UInt8}
      (found : context.opened.lookup fd = some (name, offset))
      (listed : context.files.lookup name = some content) :
      Serves context reach (.readFile fd pointer length)
        (context.moveTo fd name (offset + min length (content.length - offset)))
        (.wrote (min length (content.length - offset)) pointer ((content.drop offset).take length))
  | closed (fd : Nat) :
      Serves context reach (.closeFile fd)
        { context with opened := context.opened.erase fd } (.value 0)

section Calls

variable {context : Context} {reach : Reach}

/-- A read of a descriptor that is not open. -/
theorem readFile_of_not_open {fd : Nat} (unknown : fd ∉ context.opened) (reach : Reach)
    (pointer length : Nat) :
    context.readFile reach fd pointer length =
      (context, if reach.writable pointer length then .value u64Max else .fault) := by
  have absent : context.opened.lookup fd = none := AList.lookup_eq_none.mpr unknown
  unfold Context.readFile
  rw [absent]
  cases reach.writable pointer length <;> rfl

theorem serves_read (sound : context.Sound) (reach : Reach) (fd pointer length : Nat) :
    Serves context reach (.readFile fd pointer length)
      (context.readFile reach fd pointer length).1 (context.readFile reach fd pointer length).2 := by
  by_cases known : fd ∈ context.opened
  · by_cases room : reach.writable pointer length = true
    · obtain ⟨content, offset, place⟩ := sound fd known
      obtain ⟨name, found, listed⟩ := place.opened
      rw [readFile_eq place.inside found listed room]
      exact .read found listed
    · have failed : context.readFile reach fd pointer length = (context, .fault) := by
        simp [Context.readFile, room]
      rw [failed]
      exact .still rfl rfl ⟨rfl, fun _ => rfl, fun _ => rfl, by simp, by simp⟩
  · rw [readFile_of_not_open known]
    refine .still rfl rfl ?_
    split_ifs
    · exact ⟨rfl, fun _ => rfl, fun _ => rfl, by simp, by simp⟩
    · exact ⟨rfl, fun _ => rfl, fun _ => rfl, by simp, by simp⟩

/-- What the helpers do, over a sound context. -/
theorem serves_invoke (sound : context.Sound) (reach : Reach) (call : Call) :
    Serves context reach call (context.invoke reach call).1 (context.invoke reach call).2 := by
  cases call with
  | inputCopy pointer length =>
    simp only [Context.invoke, Context.inputCopy]
    split_ifs
    · exact .still rfl rfl ⟨rfl, fun _ => rfl, fun _ => rfl, by simp, by simp⟩
    · exact .still rfl rfl ⟨rfl, fun _ => rfl, fun _ => rfl, by simp, by simp⟩
  | write pointer length =>
    simp only [Context.invoke, Context.write]
    split
    · exact .still rfl rfl ⟨rfl, fun _ => rfl, fun _ => rfl, by simp, by simp⟩
    · split_ifs
      · exact .still rfl rfl ⟨rfl, fun _ => rfl, fun _ => rfl, by simp, by simp⟩
      · exact .still rfl rfl ⟨rfl, fun _ => rfl, fun _ => rfl, by simp, by simp⟩
  | fatal pointer length =>
    simp only [Context.invoke, Context.fatal]
    split
    · exact .still rfl rfl ⟨rfl, fun _ => rfl, fun _ => rfl, by simp, by simp⟩
    · exact .still rfl rfl ⟨rfl, fun _ => rfl, fun _ => rfl, by simp, by simp⟩
  | diagnostic pointer length =>
    simp only [Context.invoke, Context.diagnostic]
    split
    · exact .still rfl rfl ⟨rfl, fun _ => rfl, fun _ => rfl, by simp, by simp⟩
    · exact .still rfl rfl ⟨rfl, fun _ => rfl, fun _ => rfl, by simp, by simp⟩
  | closeFile fd => exact .closed fd
  | readFile fd pointer length => exact serves_read sound reach fd pointer length
  | openFile pointer length flags =>
    obtain ⟨answer, served, refused⟩ | ⟨path, name, listed, text, resolved, few, room, served⟩ :=
      openFile_spec context reach pointer length flags
    · rw [Context.invoke, served]
      refine .still rfl rfl ?_
      rcases refused with rfl | rfl
      · exact ⟨rfl, fun _ => rfl, fun _ => rfl, by simp, by simp⟩
      · exact ⟨rfl, fun _ => rfl, fun _ => rfl, by simp, by simp⟩
    · obtain ⟨content, found⟩ := Option.isSome_iff_exists.mp (AList.lookup_isSome.mpr listed)
      rw [Context.invoke, served]
      exact .opened text resolved found few room

variable {call : Call} {after : Context} {answer : Answer} {fd : Nat}

/-- Nothing comes from a descriptor that is not open. -/
theorem Serves.silent (serves : Serves context reach call after answer)
    (unknown : fd ∉ context.opened) :
    Exchange.received fd ⟨call, answer⟩ = [] ∧ Exchange.requested fd ⟨call, answer⟩ = 0 := by
  cases serves with
  | still next opened silent => exact ⟨silent.received fd, silent.requested fd⟩
  | opened | closed => exact ⟨rfl, rfl⟩
  | @read other pointer length offset name content found listed =>
    have different : other ≠ fd := by
      rintro rfl
      exact unknown (Map.mem_of_lookup found)
    simp [Exchange.received, Exchange.requested, different]

/-- A descriptor that is not open and has not been read is not read by the call. -/
theorem Serves.unread (serves : Serves context reach call after answer)
    (unknown : fd ∉ context.opened) {exchanges : List Exchange}
    (before : received fd exchanges = [] ∧ requested fd exchanges = 0) :
    received fd (exchanges ++ [⟨call, answer⟩]) = [] ∧
      requested fd (exchanges ++ [⟨call, answer⟩]) = 0 := by
  obtain ⟨silent, unasked⟩ := serves.silent unknown
  rw [received_append, requested_append, before.1, before.2]
  exact ⟨by simpa [received] using silent, by simpa [requested] using unasked⟩

/-- A closed descriptor is not opened again. -/
theorem Serves.closed_forever (serves : Serves context reach call after answer)
    (unknown : fd ∉ context.opened) (old : fd ≤ context.next + 2) : fd ∉ after.opened := by
  cases serves with
  | still next opened silent => rwa [opened]
  | opened =>
    rw [Context.issue, AList.mem_insert, not_or]
    exact ⟨by omega, unknown⟩
  | read found listed =>
    rw [Context.moveTo, AList.mem_insert, not_or]
    refine ⟨?_, unknown⟩
    rintro rfl
    exact unknown (Map.mem_of_lookup found)
  | closed other =>
    rw [AList.mem_erase, not_and]
    exact fun _ => unknown

/-- A descriptor stays open until it is closed. -/
theorem Serves.known (serves : Serves context reach call after answer)
    (known : ∀ fd ∈ context.opened, 3 ≤ fd ∧ fd ≤ context.next + 2) :
    ∀ fd ∈ after.opened, 3 ≤ fd ∧ fd ≤ after.next + 2 := by
  intro fd member
  cases serves with
  | still next opened silent =>
    rw [opened] at member
    rw [next]
    exact known fd member
  | opened =>
    rcases (AList.mem_insert _).mp member with rfl | member
    · rw [issue_next]
      omega
    · have before := known fd member
      rw [issue_next]
      omega
  | read found listed =>
    rcases (AList.mem_insert _).mp member with rfl | member
    · exact known _ (Map.mem_of_lookup found)
    · exact known fd member
  | closed other => exact known fd (AList.mem_erase.mp member).2

/-- At most 64 descriptors are open. -/
theorem Serves.few (serves : Serves context reach call after answer)
    (few : context.opened.entries.length ≤ 64) : after.opened.entries.length ≤ 64 := by
  cases serves with
  | still next opened silent => rwa [opened]
  | @opened _ _ _ _ name _ _ _ _ room =>
    have grown := Map.length_insert_le context.opened (context.next + 3) (name, 0)
    exact grown.trans (by omega)
  | read found listed =>
    rw [Context.moveTo, Map.length_insert_of_mem (Map.mem_of_lookup found)]
    exact few
  | closed other => exact (Map.length_erase_le _ _).trans few

/-- No call makes the host abort. -/
theorem Serves.survived (serves : Serves context reach call after answer) : answer ≠ .panicked := by
  cases serves with
  | still next opened silent => exact silent.survived
  | opened | read | closed => simp

/-- What is open behind a call was open or has been issued by it, and is not what it closes. -/
theorem Serves.mem_opened (serves : Serves context reach call after answer)
    (room : context.next ≤ 2 ^ 31 - 1 - 2) :
    fd ∈ after.opened ↔
      (fd ∈ context.opened ∨ Exchange.issued ⟨call, answer⟩ = some fd) ∧ call ≠ .closeFile fd := by
  cases serves with
  | still next opened silent =>
    rw [opened, silent.issued]
    simp [silent.closes fd]
  | opened =>
    have valid : context.next + 3 ≠ u64Max := by
      unfold u64Max
      omega
    rw [Context.issue, AList.mem_insert, Exchange.issued, if_neg valid]
    simp [or_comm, eq_comm]
  | read found listed =>
    rw [Context.moveTo, AList.mem_insert]
    constructor
    · rintro (rfl | known)
      · exact ⟨Or.inl (Map.mem_of_lookup found), by simp⟩
      · exact ⟨Or.inl known, by simp⟩
    · rintro ⟨known | issued, -⟩
      · exact Or.inr known
      · cases issued
  | closed other =>
    rw [AList.mem_erase]
    simp [Exchange.issued, eq_comm, and_comm]

/-- The next number is issued, or none. -/
theorem Serves.numbered (serves : Serves context reach call after answer)
    (room : context.next ≤ 2 ^ 31 - 1 - 2) :
    after.next ≤ 2 ^ 31 - 1 - 2 ∧
      (Exchange.issued ⟨call, answer⟩ = none ∧ after.next = context.next ∨
        Exchange.issued ⟨call, answer⟩ = some (context.next + 3) ∧
          after.next = context.next + 1) := by
  cases serves with
  | still next opened silent => exact ⟨by omega, Or.inl ⟨silent.issued, next⟩⟩
  | opened text resolved listed few bound =>
    refine ⟨bound, Or.inr ⟨?_, rfl⟩⟩
    have valid : context.next + 3 ≠ u64Max := by
      unfold u64Max
      omega
    rw [Exchange.issued, if_neg valid]
  | read found listed => exact ⟨room, Or.inl ⟨rfl, rfl⟩⟩
  | closed other => exact ⟨room, Or.inl ⟨rfl, rfl⟩⟩

/-- A descriptor is issued at the front of the file that the call named. -/
theorem Serves.opens (serves : Serves context reach call after answer)
    (here : Exchange.issued ⟨call, answer⟩ = some fd) :
    fd = context.next + 3 ∧
      ∃ content pointer length flags path name, call = .openFile pointer length flags ∧
      (reach.memory pointer length).bind decodeUtf8 = some path ∧ virtualPath path = some name ∧
      context.files.lookup name = some content ∧ after.At fd content 0 := by
  cases serves with
  | still next opened silent => cases silent.issued.symm.trans here
  | @opened pointer length flags path name content text resolved listed few room =>
    obtain rfl : context.next + 3 = fd := by
      simp only [Exchange.issued, Option.ite_none_left_eq_some, Option.some.injEq] at here
      exact here.2
    exact ⟨rfl, content, pointer, length, flags, path, name, rfl, text, resolved, listed, le_refl _,
      Nat.zero_le _, name, AList.lookup_insert _, listed⟩
  | read | closed => cases here

end Calls

/-- This step opened a file with this content. -/
def Opens (files : Map String (List UInt8)) (transition : Transition Compilation Action Exchange)
    (content : List UInt8) : Prop :=
  ∃ pointer length flags path name, transition.action.call = .openFile pointer length flags ∧
    (transition.action.reach.memory pointer length).bind decodeUtf8 = some path ∧
    virtualPath path = some name ∧ files.lookup name = some content

/-- How far a descriptor has come in its file. -/
def Followed (context : Context) (exchanges : List Exchange) (fd : Nat) (content : List UInt8) :
    Prop :=
  received fd exchanges = content.take (requested fd exchanges) ∧
    (fd ∈ context.opened → context.At fd content (received fd exchanges).length)

/-- What a run has done to the descriptors. -/
structure Ledger (files : Map String (List UInt8))
    (history : List (Transition Compilation Action Exchange)) (context : Context) : Prop where
  tree : context.files = files
  numbers : issued (trace history) = (List.range context.next).map (· + 3)
  room : context.next ≤ 2 ^ 31 - 1 - 2
  few : context.opened.entries.length ≤ 64
  known : ∀ fd ∈ context.opened, 3 ≤ fd ∧ fd ≤ context.next + 2
  held : ∀ fd, fd ∈ context.opened ↔ fd ∈ issued (trace history) ∧ ¬ Closed fd (trace history)
  unread : ∀ fd, context.next + 2 < fd →
    received fd (trace history) = [] ∧ requested fd (trace history) = 0
  served : ∀ transition ∈ history, ∀ fd ∈ issued transition.events, ∃ content,
    Opens files transition content ∧ Followed context (trace history) fd content
  survived : ∀ exchange ∈ trace history, exchange.answer ≠ .panicked

section Runs

variable {files : Map String (List UInt8)} {compilation next : Compilation} {action : Action}
  {events : List Exchange} {history : List (Transition Compilation Action Exchange)} {fd : Nat}

@[simp] theorem issued_append (first second : List Exchange) :
    issued (first ++ second) = issued first ++ issued second := List.filterMap_append

/-- What is closed had been issued. -/
theorem Closed.issued {exchanges : List Exchange} (closed : Closed fd exchanges) :
    fd ∈ Build.issued exchanges := by
  obtain ⟨earlier, answer, later, rfl, given⟩ := closed
  rw [issued_append]
  exact List.mem_append_left _ given

/-- One more exchange closes what it names, if that has been issued. -/
theorem closed_concat {exchanges : List Exchange} {exchange : Exchange} :
    Closed fd (exchanges ++ [exchange]) ↔
      Closed fd exchanges ∨ fd ∈ issued exchanges ∧ exchange.call = .closeFile fd := by
  constructor
  · rintro ⟨earlier, answer, later, same, given⟩
    rcases List.eq_nil_or_concat later with rfl | ⟨front, last, rfl⟩
    · obtain ⟨rfl, here⟩ := List.append_inj' same rfl
      obtain rfl := List.singleton_inj.mp here
      exact Or.inr ⟨given, rfl⟩
    · rw [List.concat_eq_append, ← List.cons_append, ← List.append_assoc] at same
      obtain ⟨rfl, -⟩ := List.append_inj' same rfl
      exact Or.inl ⟨earlier, answer, front, rfl, given⟩
  · rintro (⟨earlier, answer, later, rfl, given⟩ | ⟨given, closes⟩)
    · exact ⟨earlier, answer, later ++ [exchange], by simp, given⟩
    · obtain ⟨call, answer⟩ := exchange
      obtain rfl : call = .closeFile fd := closes
      exact ⟨exchanges, answer, [], rfl, given⟩

theorem Ledger.mem_issued {context : Context} (ledger : Ledger files history context) :
    fd ∈ issued (trace history) ↔ 3 ≤ fd ∧ fd ≤ context.next + 2 := by
  rw [ledger.numbers, List.mem_map]
  constructor
  · rintro ⟨index, inside, rfl⟩
    rw [List.mem_range] at inside
    omega
  · rintro ⟨low, high⟩
    exact ⟨fd - 3, by rw [List.mem_range]; omega, by omega⟩

/-- Some step of the run has issued it. -/
theorem exists_issued (member : fd ∈ issued (trace history)) :
    ∃ transition ∈ history, fd ∈ issued transition.events := by
  obtain ⟨exchange, listed, here⟩ := List.mem_filterMap.mp member
  obtain ⟨transition, taken, inner⟩ := mem_trace.mp listed
  exact ⟨transition, taken, List.mem_filterMap.mpr ⟨exchange, inner, here⟩⟩

theorem Ledger.sound {context : Context} (ledger : Ledger files history context) :
    context.Sound := by
  intro fd member
  obtain ⟨transition, taken, here⟩ := exists_issued (ledger.mem_issued.mpr (ledger.known fd member))
  obtain ⟨content, -, -, place⟩ := ledger.served transition taken fd here
  exact ⟨content, _, place member⟩

/-- One more exchange, of which the descriptor may have been part. -/
theorem Followed.invoke {context : Context} {exchanges : List Exchange} {content : List UInt8}
    (followed : Followed context exchanges fd content) (sound : context.Sound)
    (old : fd ≤ context.next + 2) (reach : Reach) (call : Call) :
    Followed (context.invoke reach call).1
      (exchanges ++ [⟨call, (context.invoke reach call).2⟩]) fd content := by
  obtain ⟨brought, place⟩ := followed
  have serves := serves_invoke sound reach call
  simp only [Followed, received, requested, List.flatMap_append, List.map_append, List.sum_append,
    List.flatMap_singleton, List.map_singleton, List.sum_singleton] at *
  by_cases known : fd ∈ context.opened
  · by_cases kept : call = .closeFile fd
    · subst kept
      refine ⟨?_, ?_⟩
      · simpa [Context.invoke, Context.closeFile, Exchange.received, Exchange.requested] using
          brought
      · intro member
        exact absurd rfl (AList.mem_erase.mp member).1
    · obtain ⟨moved, here⟩ := (place known).invoke reach kept
      refine ⟨?_, fun _ => by rwa [List.length_append]⟩
      rw [here, brought, take_append_take_rest]
  · obtain ⟨nothing, none⟩ := serves.silent known
    rw [nothing, none]
    exact ⟨by simpa using brought, fun member => absurd member (serves.closed_forever known old)⟩

/-- What has not been issued is not open. -/
theorem Ledger.not_opened {context : Context} (ledger : Ledger files history context)
    (beyond : context.next + 2 < fd) : fd ∉ context.opened := by
  intro member
  have bound := (ledger.known fd member).2
  omega

/-- The descriptors that are open behind one more exchange. -/
theorem Ledger.mem_opened {context after : Context} {reach : Reach} {call : Call}
    {answer : Answer} (ledger : Ledger files history context)
    (serves : Serves context reach call after answer) :
    fd ∈ after.opened ↔ fd ∈ issued (trace history ++ [⟨call, answer⟩]) ∧
      ¬ Closed fd (trace history ++ [⟨call, answer⟩]) := by
  have here : fd ∈ issued [⟨call, answer⟩] ↔ Exchange.issued ⟨call, answer⟩ = some fd := by
    simp [issued]
  rw [serves.mem_opened ledger.room, closed_concat, ledger.held fd, issued_append,
    List.mem_append, here]
  constructor
  · rintro ⟨⟨given, still⟩ | new, kept⟩
    · exact ⟨Or.inl given, not_or.mpr ⟨still, fun closes => kept closes.2⟩⟩
    · have unknown : fd ∉ issued (trace history) := by
        have number := (serves.opens new).1
        rw [ledger.mem_issued]
        omega
      exact ⟨Or.inr new, not_or.mpr ⟨fun closed => unknown closed.issued,
        fun closes => unknown closes.1⟩⟩
  · rintro ⟨given | new, still⟩
    · obtain ⟨still, kept⟩ := not_or.mp still
      exact ⟨Or.inl ⟨given, still⟩, fun closes => kept ⟨given, closes⟩⟩
    · obtain ⟨-, content, pointer, length, flags, path, name, called, -⟩ := serves.opens new
      exact ⟨Or.inr new, by simp [called]⟩

/-- The ledger is kept by every step. -/
theorem Ledger.step (ledger : Ledger files history compilation.context)
    (taken : Build.step compilation action = some (next, events)) :
    Ledger files (history ++ [⟨compilation, action, events, next⟩]) next.context := by
  obtain ⟨-, context, rfl⟩ := step_eq_some taken
  have sound := ledger.sound
  have serves := serves_invoke sound action.reach action.call
  obtain ⟨room, numbers⟩ := serves.numbered ledger.room
  have grown : trace (history ++ [⟨compilation, action,
      [⟨action.call, (compilation.context.invoke action.reach action.call).2⟩], next⟩]) =
        trace history ++
          [⟨action.call, (compilation.context.invoke action.reach action.call).2⟩] := by simp
  rw [← context] at serves room numbers
  refine ⟨?_, ?_, room, serves.few ledger.few, serves.known ledger.known, ?_, ?_, ?_, ?_⟩
  · rw [context, invoke_files, ledger.tree]
  · rw [grown, issued, List.filterMap_append, ← issued, ledger.numbers]
    obtain ⟨none, same⟩ | ⟨some, more⟩ := numbers
    · rw [same]
      simp [none]
    · rw [more, List.range_succ]
      simp [some]
  · intro fd
    rw [grown]
    exact ledger.mem_opened serves
  · intro fd beyond
    have earlier : compilation.context.next + 2 < fd := by omega
    rw [grown]
    exact serves.unread (ledger.not_opened earlier) (ledger.unread fd earlier)
  · intro transition member fd here
    rw [grown]
    rcases List.mem_append.mp member with old | new
    · obtain ⟨content, opens, followed⟩ := ledger.served transition old fd here
      have earlier : fd ∈ issued (trace history) := by
        obtain ⟨exchange, listed, found⟩ := List.mem_filterMap.mp here
        exact List.mem_filterMap.mpr ⟨exchange, mem_trace.mpr ⟨transition, old, listed⟩, found⟩
      have bound := (ledger.mem_issued.mp earlier).2
      rw [context]
      exact ⟨content, opens, followed.invoke sound bound action.reach action.call⟩
    · obtain rfl := List.mem_singleton.mp new
      have found : Exchange.issued ⟨action.call,
          (compilation.context.invoke action.reach action.call).2⟩ = some fd := by
        simpa [issued] using here
      obtain ⟨rfl, content, pointer, length, flags, path, name, called, text, resolved, listed,
        place⟩ := serves.opens found
      rw [ledger.tree] at listed
      refine ⟨content, ⟨pointer, length, flags, path, name, called, text, resolved, listed⟩, ?_⟩
      have earlier : compilation.context.next + 2 < compilation.context.next + 3 := by omega
      obtain ⟨empty, unasked⟩ :=
        serves.unread (ledger.not_opened earlier) (ledger.unread _ earlier)
      rw [Followed, empty, unasked]
      exact ⟨rfl, fun _ => place⟩
  · intro exchange member
    rw [grown] at member
    rcases List.mem_append.mp member with old | new
    · exact ledger.survived exchange old
    · obtain rfl := List.mem_singleton.mp new
      exact serves.survived

end Runs

end Spinfoam.Build
