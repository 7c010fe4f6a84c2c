import Mathlib.Data.List.Basic

/-!
# Buffered channels

A channel holds at most `cap` values.  A send to a full channel and a receive from an empty one
block; a send to a closed channel and a second close end the program.
-/

namespace DnsGateway.Reasoning

/-- What ends a program that misuses a channel. -/
inductive ChanPanic where
  | sendOnClosed
  | closeOfClosed
  deriving DecidableEq, Repr

structure Chan (α : Type*) where
  cap : Nat
  buf : List α
  closed : Bool
  bounded : buf.length ≤ cap

namespace Chan

variable {α : Type*}

def make (α : Type*) (cap : Nat) : Chan α := ⟨cap, [], false, Nat.zero_le cap⟩

/-- A send; `none` if it blocks. -/
def send (c : Chan α) (x : α) : Option (Except ChanPanic (Chan α)) :=
  if c.closed then some (.error .sendOnClosed)
  else if h : c.buf.length < c.cap then
    some (.ok { c with
      buf := c.buf ++ [x]
      bounded := by rw [List.length_append]; exact h })
  else none

def close (c : Chan α) : Except ChanPanic (Chan α) :=
  if c.closed then .error .closeOfClosed else .ok { c with closed := true }

def tail (c : Chan α) : Chan α :=
  { c with
    buf := c.buf.tail
    bounded := by
      rw [List.length_tail]
      exact Nat.le_trans (Nat.sub_le c.buf.length 1) c.bounded }

/-- A receive; `none` if it blocks.  A closed channel gives no value once it is empty. -/
def receive (c : Chan α) : Option (Option α × Chan α) :=
  match c.buf with
  | [] => if c.closed then some (none, c) else none
  | x :: _ => some (some x, c.tail)

theorem close_of_open {c : Chan α} (h : c.closed = false) :
    c.close = .ok { c with closed := true } := by
  rw [close, h]
  rfl

-- A send to an open channel that does not block.
theorem send_of_open {c : Chan α} (h : c.closed = false) {x : α} {r : Except ChanPanic (Chan α)}
    (hsend : c.send x = some r) :
    ∃ c', r = .ok c' ∧ c'.buf = c.buf ++ [x] ∧ c'.closed = false := by
  rw [send, h, if_neg Bool.false_ne_true] at hsend
  split at hsend
  · cases hsend
    exact ⟨_, rfl, rfl, rfl⟩
  · cases hsend

theorem receive_eq_some {c c' : Chan α} {v : Option α} (h : c.receive = some (v, c')) :
    c.buf = v.toList ++ c'.buf ∧ c'.closed = c.closed := by
  rw [receive] at h
  split at h
  · rcases Option.ite_none_right_eq_some.mp h with ⟨-, h⟩
    cases h
    exact ⟨rfl, rfl⟩
  · rename_i x buf hbuf
    cases h
    refine ⟨?_, rfl⟩
    show c.buf = x :: c.buf.tail
    rw [hbuf, List.tail_cons]

end Chan

end DnsGateway.Reasoning
