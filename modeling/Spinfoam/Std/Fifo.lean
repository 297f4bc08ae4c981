import Mathlib

/-!
# Queues with removals

The history of a first-in first-out queue from which items may also be removed in
the middle. A ledger lists everything that was ever accepted, in order, each item
with its one fate; the laws follow the ledger through the operations.
-/

namespace Spinfoam.Std

universe u

/-- What has become of an accepted item. -/
inductive Fate where
  | returned
  | removed
  | queued
deriving DecidableEq

namespace Fate

variable {α : Type u}

/-- The items of a ledger with this fate. -/
def pick (fate : Fate) (ledger : List (α × Fate)) : List α :=
  (ledger.filter fun item => item.2 = fate).map Prod.fst

@[simp] theorem pick_nil (fate : Fate) : fate.pick ([] : List (α × Fate)) = [] := rfl

@[simp] theorem pick_append (fate : Fate) (first second : List (α × Fate)) :
    fate.pick (first ++ second) = fate.pick first ++ fate.pick second := by
  simp [pick]

@[simp] theorem pick_cons (fate : Fate) (item : α × Fate) (rest : List (α × Fate)) :
    fate.pick (item :: rest) = (if item.2 = fate then [item.1] else []) ++ fate.pick rest := by
  by_cases same : item.2 = fate <;> simp [pick, same]

/-- Nothing is picked exactly if nothing has this fate. -/
theorem pick_eq_nil {fate : Fate} {ledger : List (α × Fate)} :
    fate.pick ledger = [] ↔ ∀ item ∈ ledger, item.2 ≠ fate := by
  simp [pick]

end Fate

/-- The ledger of a queue: every accepted item has one fate, what was returned and
what is still queued keep the order of acceptance, and nothing was returned ahead
of an item that is still queued. -/
structure Settled {α : Type u} (ledger : List (α × Fate))
    (accepted returned removed queued : List α) : Prop where
  accepted : ledger.map Prod.fst = accepted
  returned : Fate.returned.pick ledger = returned
  removed : (Fate.removed.pick ledger).Perm removed
  queued : Fate.queued.pick ledger = queued
  fifo : ledger.Pairwise fun first second => ¬ (first.2 = .queued ∧ second.2 = .returned)

namespace Settled

variable {α : Type u} {ledger : List (α × Fate)} {accepted returned removed queued : List α}

/-- An empty ledger is settled. -/
theorem start : Settled ([] : List (α × Fate)) [] [] [] [] :=
  ⟨rfl, rfl, .nil, rfl, .nil⟩

/-- An item joins the end of the queue. -/
theorem accept (settled : Settled ledger accepted returned removed queued) (item : α) :
    Settled (ledger ++ [(item, .queued)]) (accepted ++ [item]) returned removed
      (queued ++ [item]) where
  accepted := by simp [settled.accepted]
  returned := by simp [settled.returned]
  removed := by simpa using settled.removed
  queued := by simp [settled.queued]
  fifo := by
    rw [List.pairwise_append]
    refine ⟨settled.fifo, List.pairwise_singleton .., ?_⟩
    rintro first - second member ⟨-, returned⟩
    obtain rfl := List.mem_singleton.mp member
    cases returned

/-- The first item still queued stands in the ledger behind items that are not. -/
private theorem split_queued {item : α} {rest : List α}
    (picked : Fate.queued.pick ledger = item :: rest) :
    ∃ front back, ledger = front ++ (item, .queued) :: back ∧ Fate.queued.pick front = [] ∧
      Fate.queued.pick back = rest := by
  induction ledger with
  | nil => cases picked
  | cons head tail ih =>
    obtain ⟨value, fate⟩ := head
    by_cases queued : fate = .queued
    · subst queued
      simp only [Fate.pick_cons, if_true, List.singleton_append, List.cons.injEq] at picked
      obtain ⟨rfl, rest⟩ := picked
      exact ⟨[], tail, rfl, rfl, rest⟩
    · simp only [Fate.pick_cons, if_neg queued, List.nil_append] at picked
      obtain ⟨front, back, rfl, none, rest⟩ := ih picked
      exact ⟨(value, fate) :: front, back, rfl, by simp [queued, none], rest⟩

/-- The head of the queue is returned. -/
theorem take {item : α} (settled : Settled ledger accepted returned removed (item :: queued)) :
    ∃ ledger, Settled ledger accepted (returned ++ [item]) removed queued := by
  obtain ⟨front, back, rfl, none, rest⟩ := split_queued settled.queued
  obtain ⟨first, second, across⟩ := List.pairwise_append.mp settled.fifo
  obtain ⟨behind, later⟩ := List.pairwise_cons.mp second
  have unreturned : Fate.returned.pick back = [] := by
    rw [Fate.pick_eq_nil]
    intro other member returned
    exact behind other member ⟨rfl, returned⟩
  refine ⟨front ++ (item, .returned) :: back, ?_, ?_, ?_, ?_, ?_⟩
  · simpa using settled.accepted
  · simpa [unreturned] using settled.returned
  · simpa using settled.removed
  · simp [none, rest]
  · rw [List.pairwise_append, List.pairwise_cons]
    refine ⟨first, ⟨?_, later⟩, ?_⟩
    · rintro other - ⟨queued, -⟩
      cases queued
    · rintro one member other - ⟨queued, -⟩
      exact Fate.pick_eq_nil.mp none one member queued

/-- The ledger after the queued items that pass a test have been removed. -/
private def strike (test : α → Bool) (entry : α × Fate) : α × Fate :=
  if entry.2 = .queued ∧ test entry.1 = true then (entry.1, .removed) else entry

private theorem pick_strike (test : α → Bool) (ledger : List (α × Fate)) :
    Fate.returned.pick (ledger.map (strike test)) = Fate.returned.pick ledger ∧
      Fate.queued.pick (ledger.map (strike test)) =
        (Fate.queued.pick ledger).filter (fun item => !test item) ∧
      (Fate.removed.pick (ledger.map (strike test))).Perm
        (Fate.removed.pick ledger ++ (Fate.queued.pick ledger).filter test) := by
  induction ledger with
  | nil => simp
  | cons head tail ih =>
    obtain ⟨item, fate⟩ := head
    obtain ⟨returned, queued, removed⟩ := ih
    cases fate with
    | returned => simp [strike, returned, queued, removed]
    | removed => simp [strike, returned, queued, removed]
    | queued =>
      cases passes : test item with
      | true =>
        refine ⟨by simp [strike, passes, returned], by simp [strike, passes, queued], ?_⟩
        simpa [strike, passes] using (removed.cons item).trans List.perm_middle.symm
      | false => simp [strike, passes, returned, queued, removed]

/-- The queued items that pass a test are removed, wherever they stand. -/
theorem remove (settled : Settled ledger accepted returned removed queued) (test : α → Bool) :
    ∃ ledger, Settled ledger accepted returned (removed ++ queued.filter test)
      (queued.filter fun item => !test item) := by
  obtain ⟨returned, queued, removed⟩ := pick_strike test ledger
  have kept : ∀ entry : α × Fate, (strike test entry).2 = .queued → entry.2 = .queued := by
    intro entry left
    unfold strike at left
    split_ifs at left
    exact left
  have same : ∀ entry : α × Fate, (strike test entry).2 = .returned → entry.2 = .returned := by
    intro entry left
    unfold strike at left
    split_ifs at left
    exact left
  refine ⟨ledger.map (strike test), ?_, ?_, ?_, ?_, ?_⟩
  · rw [← settled.accepted, List.map_map]
    apply List.map_congr_left
    intro entry _
    simp only [Function.comp_apply, strike]
    split_ifs <;> rfl
  · rw [returned, settled.returned]
  · rw [← settled.queued]
    exact removed.trans (settled.removed.append_right _)
  · rw [queued, settled.queued]
  · rw [List.pairwise_map]
    refine settled.fifo.imp ?_
    rintro first second apart ⟨queued, returned⟩
    exact apart ⟨kept first queued, same second returned⟩

end Settled

end Spinfoam.Std
