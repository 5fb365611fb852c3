import PluginSlot.Proofs.Loader.Lifecycle

/-!
What becomes of an event that the kernel posts. It stays in the status word until a notification
consumes it, but for a load: the slot then runs a plugin, and the transition that publishes this
replaces the word as a whole.
-/
namespace PluginSlot
open Platform Loader Wire

namespace Loader

theorem SlotState.eventOf_statusBits (s : SlotState) : Status.eventOf s.statusBits = 0 := by
  cases s <;> decide

namespace Standing
variable {v w : Standing} {r : Except Error Unit}

/-- A notification takes the event out of the status word, whatever it was. -/
theorem Notified.eventOf (h : v.Notified r w) : Status.eventOf w.status = 0 := by
  cases h with
  | exited | swappedOut | swappedIn => exact SlotState.eventOf_statusBits _
  | _ => exact Status.eventOf_stateOf v.status

/-- Nothing happened to the slot, or a plugin was loaded into it. -/
inductive Kept (v w : Standing) : Prop where
  | same (hs : w.state = v.state) (h : w.status = v.status)
  | loaded (hs : v.state = .empty) (hw : w.state = .running)
      (h : w.status = SlotState.running.statusBits)

end Standing
end Loader

namespace Service
variable {v w : Standing} {op : Operation}

theorem Operation.Loads.kept {u : Standing} (h : op.Loads v w) (hv : u.Kept v) : u.Kept w := by
  obtain rfl | ⟨hempty, target, -, rfl⟩ := h
  · exact hv
  · cases hv with
    | same hs => exact .loaded (hs.symm.trans hempty) rfl rfl
    | loaded _ hrunning => cases hempty.symm.trans hrunning

variable {σ : Type} (p : Platform σ) (config : Config) (s : σ)

theorem kept_career (ops : List Operation) {between : List Operation}
    (hbetween : ∀ op ∈ between, op.isQuiet = true) :
    (standing (career p config s ops)).Kept (standing (career p config s (ops ++ between))) := by
  induction between using List.reverseRecOn with
  | nil => exact .same (by rw [List.append_nil]) (by rw [List.append_nil])
  | append_singleton between op ih =>
    have hop : op.isQuiet = true := hbetween op (by simp)
    have hrest := ih fun op hop => hbetween op (by simp [hop])
    rw [← List.append_assoc]
    exact ((effect_career p config s (ops ++ between) op).of_quiet hop).kept hrest

/-- A career in which an event is posted, and more happens before it is looked at. -/
def awaiting (ops : List Operation) (event : UInt32) (between : List Operation) :
    Machine Loader (σ × List Sighting) :=
  career p config s (ops ++ [.post event false] ++ between)

/-- An event that is posted stays in the status word until the next notification, unless a plugin is
loaded into the empty slot meanwhile: then it is gone. Whatever the notification finds, it takes out of
the word, and answers it as expected or unexpected. -/
theorem event_of_posted (ops : List Operation) {event : UInt32} (hevent : Status.stateOf event = 0)
    {between : List Operation} (hbetween : ∀ op ∈ between, op.isQuiet = true) :
    ((awaiting p config s ops event between).client.state = (career p config s ops).client.state ∧
        Status.eventOf (awaiting p config s ops event between).status = event ∨
      (career p config s ops).client.state = .empty ∧
        (awaiting p config s ops event between).client.state = .running ∧
        Status.eventOf (awaiting p config s ops event between).status = 0) ∧
    ∃ r, (follow p .handleNotification (awaiting p config s ops event between)).1 = .ofResult r ∧
      (standing (awaiting p config s ops event between)).Notified r
        (standing (follow p .handleNotification (awaiting p config s ops event between)).2) ∧
      Status.eventOf
        (follow p .handleNotification (awaiting p config s ops event between)).2.status = 0 := by
  have hpost : standing (career p config s (ops ++ [.post event false])) =
      { standing (career p config s ops) with
        status := Status.post (career p config s ops).status event } :=
    effect_career p config s ops (.post event false)
  have hstate : (career p config s (ops ++ [.post event false])).client.state =
      (career p config s ops).client.state := congrArg Standing.state hpost
  have hposted : Status.eventOf (career p config s (ops ++ [.post event false])).status = event :=
    (congrArg (Status.eventOf ·.status) hpost).trans (Status.eventOf_post hevent _)
  constructor
  · cases kept_career p config s (ops ++ [.post event false]) hbetween with
    | same hs h => exact .inl ⟨hs.trans hstate, (congrArg Status.eventOf h).trans hposted⟩
    | loaded hs hw h =>
      exact .inr ⟨hstate.symm.trans hs, hw, (congrArg Status.eventOf h).trans (by decide)⟩
  · obtain ⟨hfiled, hidle⟩ := filed_idle_career p config s (ops ++ [.post event false] ++ between)
    obtain ⟨r, hr, hnotified⟩ := (effect_follow hfiled hidle .handleNotification).2
    exact ⟨r, hr, hnotified, hnotified.eventOf⟩

/-- A second load does not disturb the word. -/
theorem event_of_posted_swap :
    (∀ op ∈ [Operation.load ⟨0x103⟩, .runPendingTasks], op.isQuiet = true) ∧
      Status.stateOf Status.swapEvent = 0 ∧
      Status.eventOf (awaiting Stub.platform .default .initial [.setEnabled true, .load ⟨0x102⟩]
        Status.swapEvent [.load ⟨0x103⟩, .runPendingTasks]).status = Status.swapEvent := by
  have hkept := event_of_posted Stub.platform .default .initial [.setEnabled true, .load ⟨0x102⟩]
    (show Status.stateOf Status.swapEvent = 0 by decide)
    (show ∀ op ∈ [Operation.load ⟨0x103⟩, .runPendingTasks], op.isQuiet = true by decide)
  exact ⟨by decide, by decide, (hkept.1.resolve_right (by decide +kernel)).2⟩

/-- The kernel announces that a host exits while the slot is empty. A load takes the announcement away,
and the notification that follows finds nothing. -/
theorem posted_exit_lost :
    Status.eventOf (awaiting Stub.platform .default .initial [.setEnabled true]
        Status.exitEvent []).status = Status.exitEvent ∧
      Status.eventOf (awaiting Stub.platform .default .initial [.setEnabled true]
        Status.exitEvent [.load ⟨0x102⟩]).status = 0 ∧
      (follow Stub.platform .handleNotification (awaiting Stub.platform .default .initial
        [.setEnabled true] Status.exitEvent [.load ⟨0x102⟩])).1 = .done := by
  decide +kernel

end Service
end PluginSlot
