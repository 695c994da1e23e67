import Mathlib.Data.List.Basic

/-!
# Bounded queues

A first-in first-out queue of at most `n` elements, to which lists of elements are appended
and from which lists are taken, whole or not at all. `Queue.exec` performs a call, and a call
that is refused leaves the queue as it is.
-/

/-- A call of a queue: append a list, look at the first elements, take the first elements, or
drop all. -/
inductive Queue.Call (α : Type*) where
  | push (data : List α)
  | read (len : ℕ)
  | pop (len : ℕ)
  | drop
deriving DecidableEq

/-- What a call gives back: whether it was done, and the elements read. -/
structure Queue.Answer (α : Type*) where
  done : Bool
  data : List α
deriving DecidableEq

/-- A queue of at most `n` elements, the first one at the head of the list. -/
structure Queue (α : Type*) (n : ℕ) where
  elems : List α
  length_le : elems.length ≤ n

namespace Queue

variable {α : Type*} {n : ℕ}

/-- The empty queue. -/
def empty : Queue α n := ⟨[], Nat.zero_le n⟩

/-- The number of elements that still fit. -/
def room (q : Queue α n) : ℕ := n - q.elems.length

/-- Perform a call. -/
def exec (q : Queue α n) : Call α → Queue α n × Answer α
  | .push data =>
      if h : data.length ≤ n - q.elems.length then
        (⟨q.elems ++ data, by
          have := q.length_le
          rw [List.length_append]
          omega⟩, ⟨true, []⟩)
      else (q, ⟨false, []⟩)
  | .read len =>
      if len ≤ q.elems.length then (q, ⟨true, q.elems.take len⟩) else (q, ⟨false, []⟩)
  | .pop len =>
      if len ≤ q.elems.length then
        (⟨q.elems.drop len, by
          have := q.length_le
          rw [List.length_drop]
          omega⟩, ⟨true, q.elems.take len⟩)
      else (q, ⟨false, []⟩)
  | .drop => (empty, ⟨true, []⟩)

/-- Perform calls one after the other. -/
def execAll (q : Queue α n) : List (Call α) → Queue α n × List (Answer α)
  | [] => (q, [])
  | call :: calls =>
      let next := (q.exec call).1.execAll calls
      (next.1, (q.exec call).2 :: next.2)

end Queue
