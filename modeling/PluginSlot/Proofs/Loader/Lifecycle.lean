import PluginSlot.Loader.Invariant
import PluginSlot.Platform.SwapStore
import PluginSlot.Platform.Stub
import PluginSlot.Proofs.Loader.Standing
import Mathlib.Data.List.Induction

/-!
The lifecycle of the slot over all that ever happens to a loader: which states follow each other,
and when the status word shows the state.
-/
namespace PluginSlot
open Platform Loader Wire

namespace Service
variable {σ : Type} {p : Platform σ} {v w : Standing}

/-- Only the event half of the status word is written from outside. -/
def Operation.sparesState : Operation → Bool
  | .post event _ => Status.stateOf event = 0
  | .setStatus _ => false
  | _ => true

/-- The operation makes a target run in an empty slot, or changes nothing. -/
def Operation.Loads (op : Operation) (v w : Standing) : Prop :=
  w = v ∨ v.state = .empty ∧ ∃ target, op.loads? = some target ∧ w = v.occupy target

/-- What an operation makes of the standing, and its outcome where that is about a notification. -/
def Operation.Effect (op : Operation) (v : Standing) (outcome : Outcome) (w : Standing) : Prop :=
  match op with
  | .handleNotification => ∃ r, outcome = .ofResult r ∧ v.Notified r w
  | .post event notify =>
    let posted := { v with status := Status.post v.status event }
    if notify then ∃ r, outcome = .ofResult r ∧ posted.Notified r w else w = posted
  | .setStatus value => w = { v with status := value }
  | .shutdown => w = if v.target = .null then v else v.vacate
  | op => op.Loads v w

theorem Operation.Effect.of_quiet {op : Operation} {outcome : Outcome}
    (h : op.Effect v outcome w) (hop : op.isQuiet = true) : op.Loads v w := by
  cases op with
  | handleNotification | post _ _ | setStatus _ | shutdown => cases hop
  | _ => exact h

/-- What is true after an operation is true after what it consists of: a write of the status word, a
notification, and the slot being vacated or occupied. -/
theorem Operation.Effect.preserves {op : Operation} {outcome : Outcome} {P : Standing → Prop}
    (h : op.Effect v outcome w)
    (hstatus : ∀ status, (op.sparesState = true → Status.stateOf status = Status.stateOf v.status) →
      P { v with status := status })
    (hnotified : ∀ u r w, Standing.Notified u r w → P u → P w)
    (hvacate : v.target ≠ .null → P v.vacate)
    (hoccupy : ∀ target, v.state = .empty → op.loads? = some target → w = v.occupy target → P w) :
    P w := by
  have hsame : P v := hstatus v.status fun _ => rfl
  have hquiet (h : op.Loads v w) : P w := by
    obtain rfl | ⟨hs, target, htarget, hw⟩ := h
    · exact hsame
    · exact hoccupy target hs htarget hw
  cases op with
  | handleNotification =>
    obtain ⟨r, -, h⟩ := h
    exact hnotified v r w h hsame
  | post event notify =>
    have hposted : P { v with status := Status.post v.status event } :=
      hstatus _ fun hevent => Status.stateOf_post (of_decide_eq_true hevent) v.status
    cases notify with
    | false => exact h ▸ hposted
    | true =>
      obtain ⟨r, -, h⟩ := h
      exact hnotified _ r w h hposted
  | setStatus value => exact h ▸ hstatus value nofun
  | shutdown =>
    rw [h]
    split
    · exact hsame
    case isFalse htarget => exact hvacate htarget
  | _ => exact hquiet h

/-- Between two operations nothing is put off. -/
theorem Operation.Effect.idle {op : Operation} {outcome : Outcome} (h : op.Effect v outcome w)
    (hv : v.Idle) : w.Idle := by
  refine h.preserves ?_ ?_ ?_ ?_
  · exact fun _ _ => ⟨hv.exitPending, hv.tasks, hv.target⟩
  · exact fun _ _ _ hr hu => hr.idle hu
  · exact fun _ => hv.vacate
  · exact fun target _ _ hw => hw ▸ hv.occupy target

theorem turns_shutdown (hv : v.Idle) :
    Turns p (· = v) shutdown fun _ w => w = if v.target = .null then v else v.vacate := by
  have hclose {P : Standing → Prop} : Turns p P _ fun _ => P := marginal_closeHandles.still P
  refine .bind (turns_runPendingTasks_of_idle fun w hw => hw ▸ hv) fun _ => Turns.client fun l => ?_
  refine .of_fact (fun w hw => hw.1 ▸ hw.2.target.symm) fun hl : l.target = v.target => ?_
  refine .weaken (P := (· = v)) ?_ fun w hw => hw.1
  dsimp only
  rw [hl]
  split
  case isTrue htarget =>
    have hloaded : v.target ≠ .null := mt v.target.isNull_iff.mpr (by simpa using htarget)
    rw [if_neg hloaded]
    refine .bind ((turns_teardown (P := (· = v.vacate)) v.target).weaken ?_) fun _ => hclose
    rintro w rfl
    exact if_pos rfl
  case isFalse htarget =>
    rw [if_pos (v.target.isNull_iff.mp (by simpa using htarget))]
    exact hclose

/-- Every operation has its effect. -/
theorem turns_operation (hv : v.Idle) (op : Operation) : Turns p (· = v) op.run (op.Effect v) := by
  have hnotify {u : Standing} (hu : u.Idle) : Turns p (· = u)
      (do return Outcome.ofResult (← handleNotification)) fun o w => ∃ r, o = .ofResult r ∧ u.Notified r w :=
    .bind (turns_handleNotification hu) fun r => .pure fun w hw => ⟨r, rfl, hw⟩
  have hquiet (hop : op.isQuiet = true) : Turns p (· = v) op.run fun _ => op.Loads v := by
    have hafter (w : Standing) (hw : op.Loads v w) : w.Idle := by
      obtain rfl | ⟨-, target, -, rfl⟩ := hw
      · exact hv
      · exact hv.occupy target
    refine ensures_quiet (central_standing (· = v)) (central_standing (op.Loads v))
      (fun m hm => hm.imp id .inl) (turns_runPendingTasks_of_idle hafter) op ?_ ?_ hop
    · intro target htarget
      exact (turns_load hv).imp fun _ w hw => hw.imp id fun ⟨hs, hw⟩ => ⟨hs, target, htarget, hw⟩
    · rintro change rfl
      show Turns p (· = v) (Operation.editMemory change).run fun _ =>
        Operation.Loads (.editMemory change) v
      refine (still_onBlock _).then fun edited => ?_
      cases edited <;> exact .pure fun w hw => .inl hw
  cases op with
  | handleNotification => exact hnotify hv
  | post event notify =>
    have hpost : Turns p (· = v) (Act.setStatus (Status.post v.status event))
        fun _ => (· = { v with status := Status.post v.status event }) := turns_setStatus_eq _
    refine Turns.status (.bind hpost fun _ => ?_)
    cases notify with
    | false => exact .pure fun w hw => hw
    | true => exact hnotify ⟨hv.exitPending, hv.tasks, hv.target⟩
  | setStatus value => exact .bind (turns_setStatus_eq value) fun _ => .pure fun w hw => hw
  | shutdown => exact .bind (turns_shutdown hv) fun _ => .pure fun w hw => hw
  | _ => exact hquiet rfl

end Service

namespace Loader

/-- The slot before anything happened. -/
def Standing.initial : Standing := ⟨.empty, .null, false, .empty, Status.slotEmpty, []⟩

end Loader

namespace Service
variable {σ : Type} (p : Platform σ) (config : Config) (s : σ)

theorem filed_machine : Filed (machine config (s, [])) := by
  refine ⟨?_, ?_, rfl, rfl⟩
  · show 0 < max config.journalCapacity.toNat 1
    omega
  · exact List.drop_nil.symm

/-- A loader that has started stands as it did before. -/
theorem career_nil : Filed (career p config s []) ∧ standing (career p config s []) = .initial := by
  have hset : Turns p (· = .initial) (Act.setStatus Status.slotEmpty) fun _ => (· = .initial) :=
    turns_setStatus_eq _
  exact ensures_start (central_standing (· = .initial)) hset (machine config (s, []))
    ⟨filed_machine config s, rfl⟩

variable {p} in
theorem effect_follow {m : Machine Loader (σ × List Sighting)} (hfiled : Filed m)
    (hidle : (standing m).Idle) (op : Operation) : Filed (follow p op m).2 ∧
      op.Effect (standing m) (follow p op m).1 (standing (follow p op m).2) :=
  turns_operation hidle op { m with platform := (m.platform.1, .begun op :: m.platform.2) }
    ⟨hfiled, rfl⟩

theorem filed_idle_career (ops : List Operation) :
    Filed (career p config s ops) ∧ (standing (career p config s ops)).Idle := by
  induction ops using List.reverseRecOn with
  | nil =>
    obtain ⟨hfiled, hinitial⟩ := career_nil p config s
    rw [hinitial]
    exact ⟨hfiled, rfl, rfl, fun _ => rfl⟩
  | append_singleton ops op ih =>
    rw [career_concat]
    exact (effect_follow ih.1 ih.2 op).imp id fun h => h.idle ih.2

/-- Every step of a career has its effect. -/
theorem effect_career (ops : List Operation) (op : Operation) :
    op.Effect (standing (career p config s ops)) (follow p op (career p config s ops)).1
      (standing (career p config s (ops ++ [op]))) := by
  rw [career_concat]
  obtain ⟨hfiled, hidle⟩ := filed_idle_career p config s ops
  exact (effect_follow hfiled hidle op).2

end Service

namespace Loader

/-- The transitions that there are. -/
def SlotState.mayBecome : SlotState → SlotState → Bool
  | .empty, .running | .running, .swapped | .swapped, .running => true
  | .running, .empty | .swapped, .empty => true
  | _, _ => false

/-- The moves lead from one state to another, each from where the one before it ended. -/
def SlotState.Path : SlotState → List (SlotState × SlotState) → SlotState → Prop
  | s, [], t => s = t
  | s, move :: moves, t => move.1 = s ∧ Path move.2 moves t

theorem SlotState.Path.concat {s t : SlotState} (u : SlotState)
    {moves : List (SlotState × SlotState)} (h : Path s moves t) : Path s (moves ++ [(t, u)]) u := by
  induction moves generalizing s with
  | nil => exact ⟨h.symm, rfl⟩
  | cons move moves ih => exact ⟨h.1, ih h.2⟩

namespace Standing

/-- The moves are lawful, and led from the empty slot to the state. -/
structure Charted (v : Standing) : Prop where
  lawful : ∀ move ∈ v.moves, move.1.mayBecome move.2 = true
  path : SlotState.Path .empty v.moves v.state

/-- The status word shows the state. -/
def Shown (v : Standing) : Prop := Status.stateOf v.status = v.state.statusBits

variable {v w : Standing}

theorem Charted.move (hv : v.Charted) {state : SlotState}
    (h : v.state.mayBecome state = true) : (v.move state).Charted := by
  refine ⟨fun move hmove => ?_, hv.path.concat state⟩
  obtain hmove | hmove := List.mem_append.mp hmove
  · exact hv.lawful move hmove
  · rwa [List.mem_singleton.mp hmove]

theorem Charted.vacate (hv : v.Charted) (hs : v.state ≠ .empty) : v.vacate.Charted := by
  have hgone : { v with target := .null, exitPending := false }.Charted := ⟨hv.lawful, hv.path⟩
  apply hgone.move
  show v.state.mayBecome .empty = true
  revert hs
  cases v.state <;> decide

theorem Charted.occupy (hv : v.Charted) (hs : v.state = .empty) (target : Kernel.Handle) :
    (v.occupy target).Charted := by
  have haimed : { v with target := target }.Charted := ⟨hv.lawful, hv.path⟩
  apply haimed.move
  show v.state.mayBecome .running = true
  rw [hs]
  rfl

theorem shown_move (v : Standing) (state : SlotState) : (v.move state).Shown :=
  state.stateOf_statusBits

theorem Shown.consume (hv : v.Shown) : v.consume.Shown :=
  (Status.stateOf_stateOf v.status).trans hv

theorem Notified.charted {r : Except Error Unit} (h : v.Notified r w) (hv : v.Charted) :
    w.Charted := by
  have hconsumed : v.consume.Charted := ⟨hv.lawful, hv.path⟩
  cases h with
  | exited _ hs => exact hconsumed.vacate hs
  | swappedOut _ hs | swappedIn _ hs =>
    apply hconsumed.move
    show v.state.mayBecome _ = true
    rw [hs]
    rfl
  | _ => exact hconsumed

theorem Notified.shown {r : Except Error Unit} (h : v.Notified r w) (hv : v.Shown) : w.Shown := by
  cases h with
  | exited | swappedOut | swappedIn => exact shown_move _ _
  | _ => exact hv.consume

end Standing
end Loader

namespace Service
variable {v w : Standing} {op : Operation} {outcome : Outcome}

theorem Operation.Effect.charted (h : op.Effect v outcome w) (hv : v.Idle) (hc : v.Charted) :
    w.Charted := by
  refine h.preserves ?_ ?_ ?_ ?_
  · exact fun _ _ => ⟨hc.lawful, hc.path⟩
  · exact fun _ _ _ hr hu => hr.charted hu
  · exact fun htarget => hc.vacate (mt hv.target htarget)
  · exact fun target hs _ hw => hw ▸ hc.occupy hs target

theorem Operation.Effect.shown (h : op.Effect v outcome w) (hop : op.sparesState = true)
    (hs : v.Shown) : w.Shown := by
  refine h.preserves ?_ ?_ ?_ ?_
  · exact fun _ hstatus => (hstatus hop).trans hs
  · exact fun _ _ _ hr hu => hr.shown hu
  · exact fun _ => Standing.shown_move _ _
  · exact fun target _ _ hw => hw ▸ Standing.shown_move _ _

variable {σ : Type} (p : Platform σ) (config : Config) (s : σ)

theorem charted_career (ops : List Operation) : (standing (career p config s ops)).Charted := by
  induction ops using List.reverseRecOn with
  | nil =>
    rw [(career_nil p config s).2]
    exact ⟨nofun, rfl⟩
  | append_singleton ops op ih =>
    exact (effect_career p config s ops op).charted (filed_idle_career p config s ops).2 ih

theorem shown_career (ops : List Operation) (hops : ∀ op ∈ ops, op.sparesState = true) :
    (standing (career p config s ops)).Shown := by
  induction ops using List.reverseRecOn with
  | nil =>
    rw [(career_nil p config s).2]
    rfl
  | append_singleton ops op ih =>
    have hop : op.sparesState = true := hops op (by simp)
    exact (effect_career p config s ops op).shown hop (ih fun op hop => hops op (by simp [hop]))

/-- The lifecycle of the slot. The journal is the end of all that was ever recorded; all transitions
are lawful, and lead from the empty slot to its state without a gap. The status word shows this state
as long as nobody else writes its half of the word. -/
theorem career_lifecycle (ops : List Operation) :
    (career p config s ops).client.journal.EndOf (fullJournal (career p config s ops)) ∧
    (∀ move ∈ (fullJournal (career p config s ops)).transitions,
      move.1.mayBecome move.2 = true) ∧
    SlotState.Path .empty (fullJournal (career p config s ops)).transitions
      (career p config s ops).client.state ∧
    ((∀ op ∈ ops, op.sparesState = true) →
      (career p config s ops).client.statusFits (career p config s ops).status = true) := by
  have hcharted := charted_career p config s ops
  refine ⟨(filed_idle_career p config s ops).1, hcharted.lawful, hcharted.path, fun hops => ?_⟩
  exact decide_eq_true (shown_career p config s ops hops)

/-- A plugin is loaded, swapped out and swapped in again. -/
def swapTrip : List Operation :=
  [.setEnabled true, .load ⟨0x102⟩, .post Status.swapEvent true, .post Status.swapEvent true]

/-- The full journal tells of the trip, although the journal has room for one record only. -/
theorem career_lifecycle_swapTrip :
    (∀ op ∈ swapTrip, op.sparesState = true) ∧
    (career Stub.platform { Config.default with journalCapacity := 1 } .initial
      swapTrip).client.statusFits
        (career Stub.platform { Config.default with journalCapacity := 1 } .initial
          swapTrip).status = true ∧
    (fullJournal (career Stub.platform { Config.default with journalCapacity := 1 } .initial
      swapTrip)).transitions = [(.empty, .running), (.running, .swapped), (.swapped, .running)] :=
  ⟨by decide, (career_lifecycle _ _ _ _).2.2.2 (by decide), by decide +kernel⟩

end Service
end PluginSlot
