/-
The queue of register writes that wait for the chip, oldest first.

It holds up to 64 writes. `push` does not look at the limit: whoever pushes empties a full queue first.
-/

namespace Accel3D

/-- a register write: dword offset with the chip select bits, and the data -/
structure RegisterWrite where
  offset : UInt32
  data : UInt32
deriving DecidableEq, Repr, Inhabited

structure WriteQueue where
  writes : List RegisterWrite
deriving DecidableEq, Repr, Inhabited

namespace WriteQueue

def capacity : Nat := 64

def empty : WriteQueue := ⟨[]⟩

def length (q : WriteQueue) : Nat := q.writes.length

def isEmpty (q : WriteQueue) : Bool := q.writes.isEmpty

def isFull (q : WriteQueue) : Bool := capacity ≤ q.length

/-- places left; a queue that was restored longer than the limit has none -/
def freeSpace (q : WriteQueue) : Nat := capacity - q.length

def push (q : WriteQueue) (w : RegisterWrite) : WriteQueue := ⟨q.writes ++ [w]⟩

/-- the oldest write and the rest -/
def pop (q : WriteQueue) : Option (RegisterWrite × WriteQueue) :=
  match q.writes with
  | [] => none
  | w :: rest => some (w, ⟨rest⟩)

theorem length_push (q : WriteQueue) (w : RegisterWrite) : (q.push w).length = q.length + 1 := by
  simp [push, length]

/-- what leaves first is what came first -/
theorem pop_push (q : WriteQueue) (w : RegisterWrite) :
    (q.push w).pop = some (match q.pop with
      | none => (w, empty)
      | some (first, rest) => (first, rest.push w)) := by
  obtain ⟨ws⟩ := q
  cases ws <;> rfl

end WriteQueue
end Accel3D
