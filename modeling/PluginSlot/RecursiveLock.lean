/-!
A lock that its holder may take again. Every acquisition gives a guard, guards are given up in any
order, and the lock is free again when the last of them is gone.
-/
namespace PluginSlot

structure Owner where
  val : Nat
deriving DecidableEq, Repr

structure RecursiveLock (α : Type) where
  holder : Option Owner
  /-- Guards not yet given up. -/
  depth : UInt32
  value : α
deriving DecidableEq, Repr

namespace RecursiveLock
variable {α : Type}

def free (value : α) : RecursiveLock α := ⟨none, 0, value⟩

/-- Take the lock, or take it again, unless somebody else holds it. -/
def tryLock (l : RecursiveLock α) (o : Owner) : Option (RecursiveLock α) :=
  match l.holder with
  | none => some { l with holder := some o, depth := 1 }
  | some h => if h = o then some { l with depth := l.depth + 1 } else none

def release (l : RecursiveLock α) : RecursiveLock α :=
  { l with
    holder := if l.depth = 1 then none else l.holder
    depth := l.depth - 1 }

theorem tryLock_isSome_iff (l : RecursiveLock α) (o : Owner) :
    (l.tryLock o).isSome = true ↔ l.holder = none ∨ l.holder = some o := by
  unfold tryLock
  split
  · simp_all
  · rename_i h hh
    by_cases he : h = o <;> simp [he, hh]

def text : String := "RecursiveLock \x7b owner: None, .. \x7d"

end RecursiveLock

/-- A lock and all guards it ever gave, in order of acquisition: who took each, until it is given
up. -/
structure GuardedLock (α : Type) where
  lock : RecursiveLock α
  guards : List (Option Owner)
deriving DecidableEq, Repr

namespace GuardedLock
variable {α : Type}

def free (value : α) : GuardedLock α := ⟨.free value, []⟩

/-- The number of the new guard, unless the lock is refused. -/
def tryLock (g : GuardedLock α) (o : Owner) : Option Nat × GuardedLock α :=
  match g.lock.tryLock o with
  | none => (none, g)
  | some lock => (some g.guards.length, ⟨lock, g.guards ++ [some o]⟩)

/-- Take the lock. A caller who finds it held by somebody else waits, and nothing happens. -/
def acquire (g : GuardedLock α) (o : Owner) : Option (Nat × GuardedLock α) :=
  match g.tryLock o with
  | (some guard, g) => some (guard, g)
  | (none, _) => none

def isLive (g : GuardedLock α) (guard : Nat) : Bool := (g.guards[guard]?).join.isSome

/-- Give a guard up, if it is live. -/
def release (g : GuardedLock α) (guard : Nat) : Bool × GuardedLock α :=
  if g.isLive guard then (true, ⟨g.lock.release, g.guards.set guard none⟩) else (false, g)

/-- Change the value through a live guard, and give the new value. -/
def modify (g : GuardedLock α) (guard : Nat) (f : α → α) : Option α × GuardedLock α :=
  if g.isLive guard then
    (some (f g.lock.value), { g with lock := { g.lock with value := f g.lock.value } })
  else (none, g)

/-- Guards not yet given up. -/
def live (g : GuardedLock α) : List Owner := g.guards.filterMap id

theorem live_tryLock {g : GuardedLock α} {o : Owner} {n : Nat} (h : (g.tryLock o).1 = some n) :
    (g.tryLock o).2.live = g.live ++ [o] := by
  unfold tryLock at h ⊢
  split at h
  · cases h
  · simp [live]

end GuardedLock
end PluginSlot
