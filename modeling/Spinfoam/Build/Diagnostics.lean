import Spinfoam.Build.Files
import Spinfoam.Truncation

/-!
# Diagnostics

The compiler's messages are kept one after the other up to a limit. The flag
tells whether all of them were kept, and the text is a start of all messages as
long as nothing is kept behind a gap.
-/

namespace Spinfoam.Build

open Spinfoam.Guest Spinfoam.Semantics Spinfoam.Std
open String (utf8Len utf8Len_toList)

/-- The limit of the diagnostics, and of a message. -/
def maxDiagnostics : Nat := 16 * 1024

/-- The message that a call reports, with its newline. -/
def Action.message (action : Action) : Option String :=
  match action.call with
  | .diagnostic pointer length =>
    (action.reach.memory pointer (min length maxDiagnostics)).map fun bytes =>
      fromUtf8Lossy bytes ++ "\n"
  | _ => none

/-- The call reports a message that is longer than a message may be. -/
def Action.Overlong (action : Action) : Prop :=
  action.message.isSome ∧
    ∃ pointer length, action.call = .diagnostic pointer length ∧ maxDiagnostics < length

/-- The messages of a run. -/
def messages (history : List (Transition Compilation Action Exchange)) : List String :=
  history.filterMap fun transition => transition.action.message

/-- All the messages of a run, one behind the other. -/
def transcript (history : List (Transition Compilation Action Exchange)) : String :=
  String.join (messages history)

/-- How much of the diagnostics is still free. -/
def Context.room (context : Context) : Nat := maxDiagnostics - context.diagnostics.utf8ByteSize

/-- A message is reported that the free room cannot hold. -/
def Cuts (transition : Transition Compilation Action Exchange) : Prop :=
  ∃ message, transition.action.message = some message ∧
    transition.before.context.room < message.utf8ByteSize

/-- A message is reported the first character of which the free room can hold. -/
def Fits (transition : Transition Compilation Action Exchange) : Prop :=
  ∃ message first, transition.action.message = some message ∧
    message.toList.head? = some first ∧ first.utf8Size ≤ transition.before.context.room

@[simp] theorem toList_truncate (text : String) (max : Nat) :
    (truncate text max).toList = takeBytes text.toList max := by
  rw [truncate, String.toList_ofList, takeBytes_boundaryBelow]
  rcases le_total max text.utf8ByteSize with short | long
  · rw [min_eq_left short]
  · rw [min_eq_right long, takeBytes_of_le (utf8Len_toList text).le,
      takeBytes_of_le ((utf8Len_toList text).le.trans long)]

section Calls

variable {context : Context} {action : Action} {message : String}

/-- Only a message changes the diagnostics. -/
theorem invoke_quiet (silent : action.message = none) :
    (context.invoke action.reach action.call).1.diagnostics = context.diagnostics ∧
      (context.invoke action.reach action.call).1.truncated = context.truncated := by
  obtain ⟨reach, call⟩ := action
  cases call with
  | diagnostic pointer length =>
    have unread : reach.memory pointer (min length maxDiagnostics) = none := by
      simpa [Action.message] using silent
    simp only [maxDiagnostics] at unread
    simp only [Context.invoke, Context.diagnostic, unread]
    exact ⟨trivial, trivial⟩
  | openFile pointer length flags =>
    obtain ⟨answer, served, -⟩ | ⟨path, name, -, -, -, -, -, served⟩ :=
      openFile_spec context reach pointer length flags
    · rw [Context.invoke, served]
      exact ⟨rfl, rfl⟩
    · rw [Context.invoke, served]
      exact ⟨rfl, rfl⟩
  | closeFile fd => exact ⟨rfl, rfl⟩
  | inputCopy | write | fatal | readFile =>
    simp only [Context.invoke, Context.inputCopy, Context.write, Context.fatal, Context.readFile]
    repeat' split
    all_goals exact ⟨rfl, rfl⟩

/-- A message is kept as far as there is room. -/
theorem invoke_message (reported : action.message = some message) :
    (context.invoke action.reach action.call).1.diagnostics.toList =
        context.diagnostics.toList ++ takeBytes message.toList context.room ∧
      ((context.invoke action.reach action.call).1.truncated = true ↔
        context.truncated = true ∨ action.Overlong ∨ context.room < message.utf8ByteSize) := by
  obtain ⟨reach, call⟩ := action
  cases call with
  | diagnostic pointer length =>
    have long : Action.Overlong ⟨reach, .diagnostic pointer length⟩ ↔ maxDiagnostics < length := by
      simp [Action.Overlong, reported]
    obtain ⟨bytes, read, rfl⟩ := Option.map_eq_some_iff.mp reported
    simp only [maxDiagnostics] at read long
    rw [long]
    simp only [Context.invoke, Context.diagnostic, read, String.toList_append, toList_truncate,
      Bool.or_eq_true, decide_eq_true_eq, Context.room, maxDiagnostics, or_assoc, gt_iff_lt]
    exact ⟨trivial, trivial⟩
  | inputCopy | write | fatal | openFile | readFile | closeFile => cases reported

end Calls

/-- What a run has kept of its messages. -/
inductive Kept (history : List (Transition Compilation Action Exchange)) (context : Context) :
    Prop where
  | whole (uncut : ∀ transition ∈ history, ¬ Cuts transition)
      (same : context.diagnostics.toList = (transcript history).toList)
  /-- The next character of the messages does not fit any more. -/
  | gap {next : Char} {rest : List Char} (cut : ∃ transition ∈ history, Cuts transition)
      (calm : history.Pairwise fun earlier later => Cuts earlier → ¬ Fits later)
      (split : (transcript history).toList = context.diagnostics.toList ++ next :: rest)
      (full : context.room < next.utf8Size)
  /-- Something else stands where the next character of the messages should. -/
  | broken {common kept missing : List Char} {here there : Char}
      (cut : ∃ transition ∈ history, Cuts transition)
      (behind : ¬ history.Pairwise fun earlier later => Cuts earlier → ¬ Fits later)
      (text : context.diagnostics.toList = common ++ here :: kept)
      (split : (transcript history).toList = common ++ there :: missing) (apart : here ≠ there)

section Runs

variable {history : List (Transition Compilation Action Exchange)} {context : Context}

/-- What is kept is a start of the messages unless something is kept behind a gap. -/
theorem Kept.isPrefix_iff (kept : Kept history context) :
    context.diagnostics.toList <+: (transcript history).toList ↔
      history.Pairwise fun earlier later => Cuts earlier → ¬ Fits later := by
  cases kept with
  | whole uncut same =>
    rw [same]
    refine iff_of_true (List.prefix_refl _) ?_
    exact List.Pairwise.imp_of_mem (fun {earlier _} member _ _ cuts => absurd cuts (uncut earlier member))
      (List.pairwise_of_forall fun _ _ => trivial)
  | gap cut calm split full =>
    rw [split]
    exact iff_of_true (List.prefix_append _ _) calm
  | broken cut behind text split apart =>
    rw [text, split]
    refine iff_of_false ?_ behind
    intro initial
    have first := List.cons_prefix_cons.mp ((List.prefix_append_right_inj _).mp initial)
    exact apart first.1

/-- All was kept exactly when nothing was cut. -/
theorem Kept.eq_iff (kept : Kept history context) :
    context.diagnostics = transcript history ↔ ∀ transition ∈ history, ¬ Cuts transition := by
  rw [← String.toList_inj]
  cases kept with
  | whole uncut same => exact iff_of_true same uncut
  | gap cut calm split full =>
    rw [split]
    refine iff_of_false (by simp) ?_
    obtain ⟨transition, member, cuts⟩ := cut
    exact fun uncut => uncut transition member cuts
  | broken cut behind text split apart =>
    rw [text, split]
    refine iff_of_false (by simp [apart]) ?_
    obtain ⟨transition, member, cuts⟩ := cut
    exact fun uncut => uncut transition member cuts

variable {transition : Transition Compilation Action Exchange} {message : String}

theorem messages_append (first second : List (Transition Compilation Action Exchange)) :
    messages (first ++ second) = messages first ++ messages second :=
  List.filterMap_append

theorem transcript_quiet (silent : transition.action.message = none) :
    transcript (history ++ [transition]) = transcript history := by
  rw [transcript, messages_append, transcript]
  simp [messages, silent]

theorem transcript_message (reported : transition.action.message = some message) :
    (transcript (history ++ [transition])).toList =
      (transcript history).toList ++ message.toList := by
  rw [transcript, messages_append, String.join_append, transcript]
  simp [messages, reported]

/-- A run is calm when it was before and the last step keeps nothing behind a cut. -/
theorem calm_append :
    (history ++ [transition]).Pairwise (fun earlier later => Cuts earlier → ¬ Fits later) ↔
      (history.Pairwise fun earlier later => Cuts earlier → ¬ Fits later) ∧
        ((∃ earlier ∈ history, Cuts earlier) → ¬ Fits transition) := by
  rw [List.pairwise_append]
  simp

theorem exists_cut_append (cut : ∃ earlier ∈ history, Cuts earlier) :
    ∃ earlier ∈ history ++ [transition], Cuts earlier := by
  obtain ⟨earlier, member, cuts⟩ := cut
  exact ⟨earlier, List.mem_append_left _ member, cuts⟩

/-- A step without a message. -/
theorem Kept.quiet {after : Context} (kept : Kept history context)
    (silent : transition.action.message = none) (same : after.diagnostics = context.diagnostics) :
    Kept (history ++ [transition]) after := by
  have uncut : ¬ Cuts transition := by
    rintro ⟨message, reported, -⟩
    rw [silent] at reported
    cases reported
  have unfit : ¬ Fits transition := by
    rintro ⟨message, first, reported, -⟩
    rw [silent] at reported
    cases reported
  have room : after.room = context.room := by rw [Context.room, same, Context.room]
  cases kept with
  | whole before equal =>
    refine .whole ?_ (by rw [same, transcript_quiet silent, equal])
    intro earlier member
    rcases List.mem_append.mp member with old | new
    · exact before earlier old
    · rwa [List.mem_singleton.mp new]
  | gap cut calm split full =>
    exact .gap (exists_cut_append cut) (calm_append.mpr ⟨calm, fun _ => unfit⟩)
      (by rw [transcript_quiet silent, same, split]) (by rwa [room])
  | broken cut behind text split apart =>
    exact .broken (exists_cut_append cut) (fun calm => behind (calm_append.mp calm).1)
      (by rw [same, text]) (by rw [transcript_quiet silent, split]) apart

/-- Either a message is kept whole, or the character behind what is kept does not fit. -/
theorem takeBytes_cases (text : String) (room : Nat) :
    takeBytes text.toList room = text.toList ∧ text.utf8ByteSize ≤ room ∨
      room < text.utf8ByteSize ∧ ∃ next rest, text.toList = takeBytes text.toList room ++ next :: rest ∧
        room < utf8Len (takeBytes text.toList room) + next.utf8Size := by
  by_cases fits : text.utf8ByteSize ≤ room
  · exact Or.inl ⟨takeBytes_of_le ((utf8Len_toList text).le.trans fits), fits⟩
  · refine Or.inr ⟨not_le.mp fits, ?_⟩
    obtain ⟨rest, whole⟩ := takeBytes_isPrefix text.toList room
    cases rest with
    | nil =>
      have bound := utf8Len_takeBytes_le text.toList room
      rw [List.append_nil] at whole
      rw [whole, utf8Len_toList] at bound
      exact absurd bound fits
    | cons next rest => exact ⟨next, rest, whole.symm, takeBytes_maximal whole.symm⟩

/-- Nothing of a message is kept when its first character does not fit. -/
theorem takeBytes_of_not_fits (reported : transition.action.message = some message)
    (unfit : ¬ Fits transition) :
    takeBytes message.toList transition.before.context.room = [] := by
  cases chars : message.toList with
  | nil => rfl
  | cons first more =>
    rw [takeBytes, if_neg]
    exact fun fits => unfit ⟨message, first, reported, by rw [chars]; rfl, fits⟩

/-- A step with a message. -/
theorem Kept.extend {after : Context} (kept : Kept history transition.before.context)
    (reported : transition.action.message = some message)
    (text : after.diagnostics.toList = transition.before.context.diagnostics.toList ++
      takeBytes message.toList transition.before.context.room) :
    Kept (history ++ [transition]) after := by
  have before := kept.isPrefix_iff
  have grown := @transcript_message history transition message reported
  cases kept with
  | whole uncut same =>
    obtain ⟨whole, fits⟩ | ⟨long, next, rest, split, full⟩ :=
      takeBytes_cases message transition.before.context.room
    · refine .whole ?_ (by rw [text, whole, same, grown])
      intro earlier member
      rcases List.mem_append.mp member with old | new
      · exact uncut earlier old
      · rw [List.mem_singleton.mp new]
        rintro ⟨other, again, cuts⟩
        obtain rfl := Option.some.inj (reported.symm.trans again)
        exact absurd fits (not_le.mpr cuts)
    · have calm := before.mp (by rw [same])
      refine .gap ⟨transition, List.mem_append_right _ List.mem_cons_self, message, reported, long⟩
        (calm_append.mpr ⟨calm, ?_⟩) (by rw [grown, text, ← same, List.append_assoc, ← split]) ?_
      · rintro ⟨earlier, member, cuts⟩
        exact absurd cuts (uncut earlier member)
      · have size := congrArg utf8Len text
        rw [String.utf8Len_append, utf8Len_toList, utf8Len_toList] at size
        have positive := next.utf8Size_pos
        unfold Context.room at full size ⊢
        omega
  | @gap next rest cut calm split full =>
    by_cases fits : Fits transition
    · obtain ⟨other, first, again, head, small⟩ := id fits
      obtain rfl := Option.some.inj (reported.symm.trans again)
      obtain ⟨more, chars⟩ := List.head?_eq_some_iff.mp head
      refine .broken (exists_cut_append cut) (fun both => (calm_append.mp both).2 cut fits)
        (by rw [text, chars, takeBytes, if_pos small]) (by rw [grown, split, List.append_assoc]; rfl) ?_
      rintro rfl
      omega
    · have still : after.diagnostics.toList = transition.before.context.diagnostics.toList := by
        rw [text, takeBytes_of_not_fits reported fits, List.append_nil]
      refine .gap (exists_cut_append cut) (calm_append.mpr ⟨calm, fun _ => fits⟩)
        (by rw [grown, split, still, List.append_assoc]; rfl) ?_
      rw [Context.room, String.toList_inj.mp still]
      exact full
  | broken cut behind old split apart =>
    exact .broken (exists_cut_append cut) (fun both => behind (calm_append.mp both).1)
      (by rw [text, old, List.append_assoc]; rfl) (by rw [grown, split, List.append_assoc]; rfl)
      apart

/-- What a run has done to the diagnostics. -/
structure Reported (history : List (Transition Compilation Action Exchange)) (context : Context) :
    Prop where
  bounded : context.diagnostics.utf8ByteSize ≤ maxDiagnostics
  flag : context.truncated = true ↔
    (∃ transition ∈ history, transition.action.Overlong) ∨ ∃ transition ∈ history, Cuts transition
  kept : Kept history context

/-- One more in a list that is asked for one. -/
theorem exists_mem_concat {property : Transition Compilation Action Exchange → Prop} :
    (∃ earlier ∈ history ++ [transition], property earlier) ↔
      (∃ earlier ∈ history, property earlier) ∨ property transition := by
  simp [or_and_right, exists_or]

theorem Reported.step {compilation next : Compilation} {action : Action} {events : List Exchange}
    (reported : Reported history compilation.context)
    (taken : Build.step compilation action = some (next, events)) :
    Reported (history ++ [⟨compilation, action, events, next⟩]) next.context := by
  obtain ⟨bounded, flag, kept⟩ := reported
  obtain ⟨-, context, rfl⟩ := step_eq_some taken
  rw [context]
  cases told : action.message with
  | none =>
    obtain ⟨text, same⟩ := @invoke_quiet compilation.context action told
    refine ⟨by rwa [text], ?_, kept.quiet told text⟩
    rw [same, flag, exists_mem_concat, exists_mem_concat]
    simp [Action.Overlong, Cuts, told]
  | some message =>
    obtain ⟨text, raised⟩ := @invoke_message compilation.context action message told
    refine ⟨?_, ?_, kept.extend told text⟩
    · have size := congrArg utf8Len text
      have room := utf8Len_takeBytes_le message.toList compilation.context.room
      rw [String.utf8Len_append, utf8Len_toList, utf8Len_toList] at size
      unfold Context.room at size room
      omega
    · rw [raised, flag, exists_mem_concat, exists_mem_concat]
      simp only [Cuts, told, Option.some.injEq, exists_eq_left']
      exact or_or_or_comm

theorem reported_of_execution {sdk : String} {request : Request} {compilation : Compilation}
    (execution : (machine sdk request).Execution history compilation) :
    Reported history compilation.context := by
  refine execution.historyInvariant (fun history compilation =>
    Reported history compilation.context) ?_ ?_
  · rintro compilation rfl
    exact ⟨Nat.zero_le _, by simp [Context.new], .whole (by simp) rfl⟩
  · intro history compilation action next events prior reported taken
    exact reported.step taken

/-- Letters, and a byte that begins no character. -/
def flood (count : Nat) : List UInt8 := List.replicate count 0x61 ++ [0xE2]

theorem length_flood (count : Nat) : (flood count).length = count + 1 := by simp [flood]

/-- Letters are decoded one by one. -/
theorem lossyChars_letters (count fuel : Nat) (rest : List UInt8) :
    lossyChars (count + fuel) (List.replicate count 0x61 ++ rest) =
      List.replicate count 'a' ++ lossyChars fuel rest := by
  induction count with
  | zero => simp
  | succ count ih =>
    have letter : nextChunk (0x61 :: (List.replicate count 0x61 ++ rest)) = (1, true) := rfl
    rw [List.replicate_succ, List.cons_append, Nat.succ_add, lossyChars, letter]
    · simp only [List.drop_one, List.tail_cons, ih, if_true, List.replicate_succ, List.cons_append]
      rfl
    · exact List.cons_ne_nil _ _

theorem utf8Len_letters (count : Nat) : utf8Len (List.replicate count 'a') = count := by
  induction count with
  | zero => rfl
  | succ count ih =>
    rw [List.replicate_succ, String.utf8Len_cons, ih]
    rfl

theorem fromUtf8Lossy_flood (count : Nat) :
    fromUtf8Lossy (flood count) =
      String.ofList (List.replicate count 'a' ++ [Char.ofNat 0xFFFD]) := by
  rw [fromUtf8Lossy, length_flood, flood, lossyChars_letters]
  rfl

/-- All of what is held is read from its first address on. -/
theorem holding_memory (bytes : List UInt8) :
    (Reach.holding bytes).memory 0 bytes.length = some bytes := by
  simp [Reach.holding]

theorem message_flood {count : Nat} (short : count + 1 ≤ maxDiagnostics) :
    Action.message ⟨.holding (flood count), .diagnostic 0 (flood count).length⟩ =
      some (String.ofList (List.replicate count 'a' ++ [Char.ofNat 0xFFFD, '\n'])) := by
  have newline : "\n" = String.ofList ['\n'] := by decide
  have all : min (flood count).length maxDiagnostics = (flood count).length := by
    rw [length_flood, min_eq_left short]
  simp only [Action.message, all, holding_memory, Option.map_some, fromUtf8Lossy_flood]
  rw [newline, ← String.ofList_append, List.append_assoc]
  rfl

theorem message_empty (bytes : List UInt8) :
    Action.message ⟨.holding bytes, .diagnostic 0 0⟩ = some "\n" := by
  simp [Action.message, Reach.holding, fromUtf8Lossy, lossyChars]

theorem step_machine (sdk : String) (request : Request) : (machine sdk request).step = Build.step :=
  rfl

/-- A report that can be read is no end of the compilation. -/
theorem step_message {compilation : Compilation} {action : Action} {message : String}
    (running : compilation.running = true) (told : action.message = some message) :
    Build.step compilation action =
      some (⟨(compilation.context.invoke action.reach action.call).1, true⟩,
        [⟨action.call, (compilation.context.invoke action.reach action.call).2⟩]) := by
  obtain ⟨reach, call⟩ := action
  cases call with
  | diagnostic pointer length =>
    obtain ⟨bytes, read, -⟩ := Option.map_eq_some_iff.mp told
    simp only [maxDiagnostics] at read
    simp only [Build.step, running, if_true, Context.invoke, Context.diagnostic, read,
      Answer.continues]
  | inputCopy | write | fatal | openFile | readFile | closeFile => cases told

/-- The first message leaves a single byte free. -/
theorem step_flood {count : Nat} (full : count + 1 = maxDiagnostics) :
    ∃ middle events,
      Build.step fresh ⟨.holding (flood count), .diagnostic 0 (flood count).length⟩ =
        some (⟨middle, true⟩, events) ∧
      middle.diagnostics.toList = List.replicate count 'a' ∧ middle.room = 1 := by
  have first := message_flood (le_of_eq full)
  have taken := @step_message fresh _ _ rfl first
  have text := (@invoke_message fresh.context _ _ first).1
  have letters := utf8Len_letters count
  have room : fresh.context.room = maxDiagnostics := rfl
  have fits : utf8Len (List.replicate count 'a') ≤ maxDiagnostics := by omega
  have one : maxDiagnostics - utf8Len (List.replicate count 'a') = 1 := by omega
  have none : takeBytes [Char.ofNat 0xFFFD, '\n'] 1 = [] := by decide
  refine ⟨_, _, taken, ?_⟩
  generalize (fresh.context.invoke (.holding (flood count))
    (.diagnostic 0 (flood count).length)).1 = middle at text ⊢
  have kept : middle.diagnostics.toList = List.replicate count 'a' := by
    rw [text, room, String.toList_ofList, takeBytes_append fits, one, none, List.append_nil]
    rfl
  exact ⟨kept, by rw [Context.room, ← utf8Len_toList, kept, one]⟩

/-- The diagnostics of a run. They are bounded, the flag is clear exactly when all
messages were kept and none was too long, and they are a start of the messages
exactly when no message whose first character still fits is reported after one
that did not fit. -/
theorem diagnostics_honest {sdk : String} {request : Request} {compilation : Compilation}
    (execution : (machine sdk request).Execution history compilation) :
    (compilation.context.diagnostics.utf8ByteSize ≤ maxDiagnostics ∧
      compilation.context.diagnostics.toList <+: (transcript history).toList ∧
      (compilation.context.truncated = false ↔
        compilation.context.diagnostics = transcript history ∧
          ∀ transition ∈ history, ¬ transition.action.Overlong)) ↔
      history.Pairwise fun earlier later => Cuts earlier → ¬ Fits later := by
  have reported := reported_of_execution execution
  have flag : compilation.context.truncated = false ↔
      compilation.context.diagnostics = transcript history ∧
        ∀ transition ∈ history, ¬ transition.action.Overlong := by
    rw [reported.kept.eq_iff, ← Bool.not_eq_true, reported.flag, not_or, and_comm]
    simp only [not_exists, not_and]
  rw [and_iff_right reported.bounded, and_iff_left flag]
  exact reported.kept.isPrefix_iff

/-- A message is cut, and nothing of the next one fits behind it. -/
theorem cut_of_flood {count : Nat} (full : count + 1 = maxDiagnostics) :
    ∃ history compilation, (machine "" single).Execution history compilation ∧
      compilation.context.diagnostics.toList = List.replicate count 'a' ∧
      (transcript history).toList =
        List.replicate count 'a' ++ [Char.ofNat 0xFFFD, '\n', Char.ofNat 0xFFFD, '\n'] ∧
      (∃ transition ∈ history, Cuts transition) ∧
      history.Pairwise fun earlier later => Cuts earlier → ¬ Fits later := by
  have first := message_flood (le_of_eq full)
  have second := @message_flood 0 (by decide)
  obtain ⟨middle, events, taken, kept, free⟩ := step_flood full
  have later := @step_message ⟨middle, true⟩ _ _ rfl second
  have after := (@invoke_message middle _ _ second).1
  rw [← step_machine "" single] at taken later
  have begun : (machine "" single).Execution [] fresh := .initial rfl
  refine ⟨_, _, (begun.step taken).step later, ?_, ?_, ⟨_, List.mem_concat_self, ?_⟩, ?_⟩
  · have none : takeBytes [Char.ofNat 0xFFFD, '\n'] 1 = [] := by decide
    rw [after, kept, free, String.toList_ofList, List.replicate_zero, List.nil_append, none,
      List.append_nil]
  · rw [transcript_message second, transcript_message first, String.toList_ofList]
    simp [transcript, messages]
  · exact ⟨_, second, by rw [free]; decide⟩
  · rw [List.nil_append, List.singleton_append, List.pairwise_pair]
    rintro - ⟨message, character, told, starts, fits⟩
    obtain rfl := Option.some.inj (told.symm.trans second)
    obtain rfl : Char.ofNat 0xFFFD = character := by simpa using starts
    have wide : (Char.ofNat 0xFFFD).utf8Size = 3 := by decide
    dsimp only at fits
    omega

/-- What is kept of two messages that did not fit is a start of them, and the flag is set. -/
theorem diagnostics_honest_cut :
    ∃ history compilation, (machine "" single).Execution history compilation ∧
      (∃ transition ∈ history, Cuts transition) ∧
      compilation.context.diagnostics.toList <+: (transcript history).toList ∧
      compilation.context.truncated = true := by
  obtain ⟨history, compilation, execution, text, told, cut, apart⟩ := @cut_of_flood 16383 rfl
  obtain ⟨-, begins, flag⟩ := (diagnostics_honest execution).mpr apart
  refine ⟨history, compilation, execution, cut, begins, ?_⟩
  rw [← Bool.not_eq_false, flag]
  rintro ⟨whole, -⟩
  have sizes := congrArg List.length (told.symm.trans (whole ▸ text))
  rw [List.length_append, List.length_replicate] at sizes
  cases sizes

/-- The newline of the second message stands where a character of the first one should. -/
theorem gap_of_flood {count : Nat} (full : count + 1 = maxDiagnostics) :
    ∃ history compilation, (machine "" single).Execution history compilation ∧
      compilation.context.diagnostics.toList = List.replicate count 'a' ++ ['\n'] ∧
      (transcript history).toList =
        List.replicate count 'a' ++ [Char.ofNat 0xFFFD, '\n', '\n'] := by
  have first := message_flood (le_of_eq full)
  have second := message_empty []
  obtain ⟨middle, events, taken, kept, free⟩ := step_flood full
  have later := @step_message ⟨middle, true⟩ _ _ rfl second
  have after := (@invoke_message middle _ _ second).1
  rw [← step_machine "" single] at taken later
  have begun : (machine "" single).Execution [] fresh := .initial rfl
  refine ⟨_, _, (begun.step taken).step later, ?_, ?_⟩
  · rw [after, kept, free]
    rfl
  · rw [transcript_message second, transcript_message first, String.toList_ofList]
    simp [transcript, messages]

/-- A message whose last character is cut off leaves room for the newline of the
next one, which then stands where the character should. -/
theorem newline_kept_behind_gap :
    ∃ history compilation, (machine "" single).Execution history compilation ∧
      compilation.context.diagnostics.toList = List.replicate 16383 'a' ++ ['\n'] ∧
      (transcript history).toList =
        List.replicate 16383 'a' ++ [Char.ofNat 0xFFFD, '\n', '\n'] ∧
      ¬ compilation.context.diagnostics.toList <+: (transcript history).toList := by
  obtain ⟨history, compilation, execution, text, told⟩ := @gap_of_flood 16383 rfl
  refine ⟨history, compilation, execution, text, told, ?_⟩
  rw [text, told, List.prefix_append_right_inj]
  decide

end Runs

end Spinfoam.Build
