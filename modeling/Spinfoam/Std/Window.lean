import Mathlib.Algebra.Order.Ring.Nat
import Mathlib.Tactic.Ring

/-!
# Windows

A counter with a limit that is set back when its window is a period old. Whatever the
moments are at which something is asked of it, what it grants between two moments is
bounded by their distance: `credit` is what it may still grant, and every request is
paid from it.
-/

namespace Spinfoam.Std

structure Window where
  start : Nat
  used : Nat
deriving DecidableEq

namespace Window

variable (period limit : Nat)

/-- A window that is a period old is followed by a new one. -/
def renew (window : Window) (now : Nat) : Window :=
  if period ≤ now - window.start then { start := now, used := 0 } else window

/-- Ask for one more, and whether it is granted. -/
def take (window : Window) (now : Nat) : Window × Bool :=
  let window := window.renew period now
  if limit ≤ window.used then (window, false)
  else ({ window with used := window.used + 1 }, true)

/-- The most that can be granted between two moments. -/
def allowance (first last : Nat) : Nat := limit * ((last - first) / period + 2)

/-- What the window and those that follow it can still grant between two moments. -/
def credit (first last : Nat) (window : Window) : Nat :=
  limit - window.used +
    limit * (if first ≤ window.start then (last - window.start) / period
      else (last - first) / period + 1)

variable {period limit : Nat} {first last now : Nat}

/-- No window can grant more than that. -/
theorem credit_le_allowance (window : Window) :
    window.credit period limit first last ≤ allowance period limit first last := by
  have left : limit - window.used ≤ limit := Nat.sub_le ..
  have rounds : (if first ≤ window.start then (last - window.start) / period
      else (last - first) / period + 1) ≤ (last - first) / period + 1 := by
    split_ifs with begun
    · exact Nat.le_succ_of_le (Nat.div_le_div_right (Nat.sub_le_sub_left begun last))
    · exact le_rfl
  calc window.credit period limit first last
      ≤ limit + limit * ((last - first) / period + 1) :=
        Nat.add_le_add left (Nat.mul_le_mul_left limit rounds)
    _ = allowance period limit first last := by
        rw [allowance]
        ring

/-- A new window is paid by the period that has passed. -/
theorem credit_renew (positive : 0 < period) (after : first ≤ now) (before : now ≤ last)
    (window : Window) : (window.renew period now).credit period limit first last ≤
      window.credit period limit first last := by
  unfold renew
  split_ifs with old
  · have rounds : (last - now) / period + 1 ≤
        (if first ≤ window.start then (last - window.start) / period
          else (last - first) / period + 1) := by
      split_ifs with begun
      · have apart : last - now + period ≤ last - window.start := by omega
        calc (last - now) / period + 1 = (last - now + period) / period :=
              (Nat.add_div_right _ positive).symm
          _ ≤ (last - window.start) / period := Nat.div_le_div_right apart
      · exact Nat.succ_le_succ (Nat.div_le_div_right (Nat.sub_le_sub_left after last))
    calc credit period limit first last { start := now, used := 0 }
        = limit * ((last - now) / period + 1) := by
          rw [credit, if_pos after, Nat.sub_zero]
          ring
      _ ≤ limit - window.used + limit * (if first ≤ window.start
            then (last - window.start) / period else (last - first) / period + 1) :=
          le_add_left (Nat.mul_le_mul_left limit rounds)
  · exact le_rfl

/-- What is granted is paid for. -/
theorem credit_take (positive : 0 < period) (after : first ≤ now) (before : now ≤ last)
    (window : Window) :
    (window.take period limit now).2.toNat +
      (window.take period limit now).1.credit period limit first last ≤
        window.credit period limit first last := by
  refine le_trans ?_ (credit_renew positive after before window)
  simp only [take]
  generalize window.renew period now = renewed
  split_ifs with spent
  · simp
  · simp only [credit, Bool.toNat_true]
    omega

end Window

end Spinfoam.Std
