import PluginSlot.Kernel.Ident
/-!
Work put off until a notification has been answered. A task that is already queued is not queued
again.
-/
namespace PluginSlot.Loader
open Kernel

inductive Task where
  | teardown (target : Handle)
deriving DecidableEq, Repr

structure TaskQueue where
  /-- Oldest first. -/
  entries : List Task
deriving DecidableEq, Repr

namespace TaskQueue

def empty : TaskQueue := ⟨[]⟩

def push (q : TaskQueue) (t : Task) : Bool × TaskQueue :=
  if t ∈ q.entries then (false, q) else (true, ⟨q.entries ++ [t]⟩)

def drain (q : TaskQueue) : List Task × TaskQueue := (q.entries, empty)

def size (q : TaskQueue) : Nat := q.entries.length
def isEmpty (q : TaskQueue) : Bool := q.entries.isEmpty

end TaskQueue
end PluginSlot.Loader
