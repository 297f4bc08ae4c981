import Spinfoam.Build.Compiler

/-!
# The compiler's file system

The map that `run` builds is a tree that holds exactly the submitted bundle and
the SDK, and the descriptors of the helpers serve its files from front to back.
-/

namespace Spinfoam.Build

open Spinfoam.Guest Spinfoam.Semantics Spinfoam.Std

section Tree

variable {sdk name path : String} {files : Map String String} {request : Request}

end Tree

/-- The bytes a read of this descriptor brought. -/
def Exchange.received (fd : Nat) : Exchange → List UInt8
  | ⟨.readFile other _ _, .wrote _ _ bytes⟩ => if other = fd then bytes else []
  | _ => []

/-- The bytes for which a read of this descriptor had room. -/
def Exchange.requested (fd : Nat) : Exchange → Nat
  | ⟨.readFile other _ length, .wrote _ _ _⟩ => if other = fd then length else 0
  | _ => 0

/-- What the reads of a descriptor have brought, one after the other. -/
def received (fd : Nat) (exchanges : List Exchange) : List UInt8 :=
  exchanges.flatMap (Exchange.received fd)

def requested (fd : Nat) (exchanges : List Exchange) : Nat :=
  (exchanges.map (Exchange.requested fd)).sum

@[simp] theorem received_append (fd : Nat) (first second : List Exchange) :
    received fd (first ++ second) = received fd first ++ received fd second :=
  List.flatMap_append

@[simp] theorem requested_append (fd : Nat) (first second : List Exchange) :
    requested fd (first ++ second) = requested fd first + requested fd second := by
  simp [requested]

/-- A descriptor is at this place of a file with this content. -/
structure Context.At (context : Context) (fd : Nat) (content : List UInt8) (offset : Nat) :
    Prop where
  issued : fd ≤ context.next + 2
  inside : offset ≤ content.length
  opened : ∃ name, context.opened.lookup fd = some (name, offset) ∧
    context.files.lookup name = some content

/-- The context after a successful open. -/
def Context.issue (context : Context) (path : String) : Context :=
  { context with
    next := context.next + 1
    opened := context.opened.insert (context.next + 3) (path, 0) }

@[simp] theorem issue_next (context : Context) (path : String) :
    (context.issue path).next = context.next + 1 := rfl

section Descriptors

variable {context : Context} {reach : Reach} {fd offset : Nat} {content : List UInt8}

/-- No helper changes the files. -/
theorem invoke_files (context : Context) (reach : Reach) (call : Call) :
    (context.invoke reach call).1.files = context.files := by
  cases call <;> simp only [Context.invoke, Context.inputCopy, Context.write, Context.fatal,
    Context.openFile, Context.readFile, Context.closeFile, Context.diagnostic]
  all_goals
    repeat' split
  all_goals rfl

/-- An open is refused, or numbers a new descriptor above all those before. -/
theorem openFile_spec (context : Context) (reach : Reach) (pointer length flags : Nat) :
    (∃ answer, context.openFile reach pointer length flags = (context, answer) ∧
      (answer = .value u64Max ∨ answer = .fault)) ∨
      ∃ path, ∃ name ∈ context.files, (reach.memory pointer length).bind decodeUtf8 = some path ∧
        virtualPath path = some name ∧ context.opened.entries.length < 64 ∧
        context.next + 1 ≤ 2 ^ 31 - 1 - 2 ∧
        context.openFile reach pointer length flags =
          (context.issue name, .value (context.next + 3)) := by
  unfold Context.openFile
  by_cases refused : length > 256 ∨ flags ≠ 0
  · rw [if_pos refused]
    exact Or.inl ⟨_, rfl, Or.inl rfl⟩
  · rw [if_neg refused]
    split
    · exact Or.inl ⟨_, rfl, Or.inr rfl⟩
    · rename_i path text
      split
      · exact Or.inl ⟨_, rfl, Or.inl rfl⟩
      · rename_i name resolved
        split_ifs with missing room
        · exact Or.inl ⟨_, rfl, Or.inl rfl⟩
        · simp only [not_or, not_not, not_le] at missing
          exact Or.inr ⟨path, name, missing.1, text, resolved, missing.2, room, rfl⟩
        · exact Or.inl ⟨_, rfl, Or.inr rfl⟩

/-- The context when a descriptor has moved to a place. -/
def Context.moveTo (context : Context) (fd : Nat) (name : String) (offset : Nat) : Context :=
  { context with opened := context.opened.insert fd (name, offset) }

/-- A read of an open file. -/
theorem readFile_eq {name : String} {pointer length : Nat} (inside : offset ≤ content.length)
    (found : context.opened.lookup fd = some (name, offset))
    (listed : context.files.lookup name = some content)
    (room : reach.writable pointer length = true) :
    context.readFile reach fd pointer length =
      (context.moveTo fd name (offset + min length (content.length - offset)),
        .wrote (min length (content.length - offset)) pointer
          ((content.drop offset).take length)) := by
  have bytes : (content.drop offset).take (min length (content.length - offset)) =
      (content.drop offset).take length := by
    rw [← List.length_drop, List.take_eq_take_iff]
    omega
  simp only [Context.readFile, room, Bool.not_true, Bool.false_eq_true, if_false, found, listed,
    not_lt.mpr inside, bytes]
  rfl

/-- A read at some place of a file goes on from there. -/
theorem readFile_of_at (place : context.At fd content offset) {pointer length : Nat}
    (room : reach.writable pointer length = true) :
    ∃ after, context.readFile reach fd pointer length =
        (after, .wrote (min length (content.length - offset)) pointer
          ((content.drop offset).take length)) ∧
      after.At fd content (offset + min length (content.length - offset)) := by
  obtain ⟨name, found, listed⟩ := place.opened
  have before := place.inside
  exact ⟨_, readFile_eq place.inside found listed room, place.issued, by omega, name,
    AList.lookup_insert _, listed⟩

/-- Reads of other descriptors move nothing here. -/
theorem readFile_opened (context : Context) (reach : Reach) {other : Nat} (different : fd ≠ other)
    (pointer length : Nat) :
    (context.readFile reach other pointer length).1.opened.lookup fd = context.opened.lookup fd ∧
      (context.readFile reach other pointer length).1.next = context.next := by
  unfold Context.readFile
  split_ifs
  · exact ⟨rfl, rfl⟩
  · split
    · exact ⟨rfl, rfl⟩
    · split
      · exact ⟨rfl, rfl⟩
      · split_ifs
        · exact ⟨rfl, rfl⟩
        · exact ⟨AList.lookup_insert_ne different, rfl⟩

/-- A call that leaves a descriptor where it was. -/
private theorem Context.At.unmoved (place : context.At fd content offset) {after : Context}
    (files : after.files = context.files) (next : context.next ≤ after.next)
    (opened : after.opened.lookup fd = context.opened.lookup fd) : after.At fd content offset := by
  obtain ⟨name, found, listed⟩ := place.opened
  exact ⟨place.issued.trans (by omega), place.inside, name, opened.trans found, files ▸ listed⟩

/-- Whatever is called, short of a close, a descriptor goes on through its file. -/
theorem Context.At.invoke (place : context.At fd content offset) (reach : Reach) {call : Call}
    (kept : call ≠ .closeFile fd) :
    (context.invoke reach call).1.At fd content
        (offset + (Exchange.received fd ⟨call, (context.invoke reach call).2⟩).length) ∧
      Exchange.received fd ⟨call, (context.invoke reach call).2⟩ =
        (content.drop offset).take
          (Exchange.requested fd ⟨call, (context.invoke reach call).2⟩) := by
  have files := invoke_files context reach call
  cases call with
  | inputCopy pointer length =>
    have same : (context.inputCopy reach pointer length).1 = context := by
      unfold Context.inputCopy
      split_ifs <;> rfl
    refine ⟨place.unmoved files ?_ ?_, rfl⟩ <;> simp [Context.invoke, same]
  | write pointer length =>
    have same : (context.write reach pointer length).1.next = context.next ∧
        (context.write reach pointer length).1.opened = context.opened := by
      unfold Context.write
      split
      · exact ⟨rfl, rfl⟩
      · split_ifs <;> exact ⟨rfl, rfl⟩
    refine ⟨place.unmoved files ?_ ?_, rfl⟩ <;> simp [Context.invoke, same]
  | fatal pointer length =>
    have same : (context.fatal reach pointer length).1.next = context.next ∧
        (context.fatal reach pointer length).1.opened = context.opened := by
      unfold Context.fatal
      split <;> exact ⟨rfl, rfl⟩
    refine ⟨place.unmoved files ?_ ?_, rfl⟩ <;> simp [Context.invoke, same]
  | diagnostic pointer length =>
    have same : (context.diagnostic reach pointer length).1.next = context.next ∧
        (context.diagnostic reach pointer length).1.opened = context.opened := by
      unfold Context.diagnostic
      split <;> exact ⟨rfl, rfl⟩
    refine ⟨place.unmoved files ?_ ?_, rfl⟩ <;> simp [Context.invoke, same]
  | openFile pointer length flags =>
    refine ⟨?_, rfl⟩
    obtain ⟨answer, same, -⟩ | ⟨path, name, -, -, -, -, -, same⟩ :=
      openFile_spec context reach pointer length flags
    · exact place.unmoved files (by rw [Context.invoke, same]) (by rw [Context.invoke, same])
    · have issued := place.issued
      apply place.unmoved files
      · simp [Context.invoke, same]
      · rw [Context.invoke, same]
        exact AList.lookup_insert_ne (by omega)
  | closeFile other =>
    refine ⟨place.unmoved files (le_refl _) ?_, rfl⟩
    apply AList.lookup_erase_ne
    rintro rfl
    exact kept rfl
  | readFile other pointer length =>
    by_cases same : fd = other
    · subst same
      by_cases room : reach.writable pointer length = true
      · obtain ⟨after, served, moved⟩ := readFile_of_at place room
        have count : ((content.drop offset).take length).length =
            min length (content.length - offset) := by
          rw [List.length_take, List.length_drop]
        simp only [Context.invoke, served, Exchange.received, Exchange.requested, if_pos, count]
        exact ⟨moved, trivial⟩
      · have failed : context.readFile reach fd pointer length = (context, .fault) := by
          simp [Context.readFile, room]
        simp only [Context.invoke, failed, Exchange.received, Exchange.requested, List.take_zero]
        exact ⟨place, trivial⟩
    · obtain ⟨opened, next⟩ := readFile_opened context reach same pointer length
      have nothing : ∀ answer, Exchange.received fd ⟨.readFile other pointer length, answer⟩ = [] ∧
          Exchange.requested fd ⟨.readFile other pointer length, answer⟩ = 0 := by
        intro answer
        cases answer <;> simp [Exchange.received, Exchange.requested, Ne.symm same]
      rw [(nothing _).1, (nothing _).2]
      exact ⟨place.unmoved files (le_of_eq next.symm) opened, rfl⟩

/-- What a step does: one call, after which the program goes on or has failed. -/
theorem step_eq_some {compilation next : Compilation} {action : Action} {events : List Exchange}
    (taken : step compilation action = some (next, events)) :
    compilation.running = true ∧
      next.context = (compilation.context.invoke action.reach action.call).1 ∧
      events = [⟨action.call, (compilation.context.invoke action.reach action.call).2⟩] := by
  unfold step at taken
  split_ifs at taken with running
  simp only [Option.some.injEq, Prod.mk.injEq] at taken
  obtain ⟨rfl, rfl⟩ := taken
  exact ⟨running, rfl, rfl⟩

/-- What is taken at once can be taken in two pieces. -/
theorem take_append_take_rest (bytes : List UInt8) (first second : Nat) :
    bytes.take first ++ (bytes.drop (bytes.take first).length).take second =
      bytes.take (first + second) := by
  rw [List.take_add, List.length_take]
  rcases le_total first bytes.length with short | long
  · rw [min_eq_left short]
  · rw [min_eq_right long, List.drop_length, List.drop_of_length_le long]

/-- The reads of a descriptor that stays open bring its file from front to back. -/
theorem Context.At.run {sdk : String} {request : Request} {compilation final : Compilation}
    {later : List (Transition Compilation Action Exchange)}
    (place : compilation.context.At fd content offset)
    (steps : (machine sdk request).Steps compilation later final)
    (kept : ∀ transition ∈ later, transition.action.call ≠ .closeFile fd) :
    final.context.At fd content (offset + (received fd (trace later)).length) ∧
      received fd (trace later) = (content.drop offset).take (requested fd (trace later)) := by
  induction steps generalizing offset with
  | refl => exact ⟨place, rfl⟩
  | @step compilation action next events later final taken _ ih =>
    obtain ⟨-, context, rfl⟩ := step_eq_some taken
    obtain ⟨first, brought⟩ := place.invoke action.reach (kept _ List.mem_cons_self)
    rw [← context] at first
    obtain ⟨last, others⟩ := ih first fun transition member =>
      kept transition (List.mem_cons_of_mem _ member)
    simp only [trace_cons, List.singleton_append, received, requested, List.flatMap_cons,
      List.map_cons, List.sum_cons] at last others ⊢
    refine ⟨by rwa [List.length_append, ← Nat.add_assoc], ?_⟩
    rw [others, brought, ← List.drop_drop, take_append_take_rest]

end Descriptors

/-- Memory that holds these bytes from address 0 on and may be written anywhere. -/
def Reach.holding (bytes : List UInt8) : Reach where
  memory pointer length :=
    if pointer + length ≤ bytes.length then some ((bytes.drop pointer).take length) else none
  writable _ _ := true
  sized := by
    intro pointer length taken found
    simp only [Option.ite_none_right_eq_some, Option.some.injEq] at found
    obtain ⟨inside, rfl⟩ := found
    rw [List.length_take, List.length_drop]
    omega

/-- A bundle of a single source file. -/
def single : Request where
  sdkVersion := 1
  files := (∅ : Map String String).insert "main.c" "int x;"
  entry := "main.c"

/-- The compilation of the single bundle before its first call. -/
def fresh : Compilation := ⟨Context.new "" single.files single.entry, true⟩

/-- A bundle of two files, one of them in a directory. -/
def nested : Request where
  sdkVersion := 1
  files := ((∅ : Map String String).insert "main.c" "int x;").insert "lib/a.h" "int y;"
  entry := "main.c"

/-- The compilation of the single bundle after a number of opens and closes. -/
def spent (count : Nat) : Compilation where
  context := { Context.new "" single.files single.entry with next := count }
  running := true

end Spinfoam.Build
