import PluginSlot.Proofs.Loader.Lifecycle
import PluginSlot.Proofs.Loader.Trail

/-!
Every handle that is passed to the loader is released exactly once, or is the host that is still there.
The balance is kept by each operation, whatever fails.
-/
namespace PluginSlot
open Platform Loader Wire

namespace Loader

/-- The host, if there is a plugin. -/
def host? (l : Loader) : Option Kernel.Handle := if l.state = .empty then none else some l.target

/-- All handles that were released, with repetitions. -/
def releases (trace : List Sighting) : List Kernel.Handle := (deeds trace).filterMap Deed.released?

def Standing.host? (v : Standing) : Option Kernel.Handle :=
  if v.state = .empty then none else some v.target

/-- What was passed to the loader: what it released, and what it has. -/
def Trail.balance (t : Trail) (v : Standing) : List Kernel.Handle :=
  t.deeds.filterMap Deed.released? ++ v.host?.toList

section
variable {v w : Standing} {t u : Trail} {done : List Deed} {filed : List Event}

theorem Trail.balance_extend : (t.extend done filed).balance v =
    t.deeds.filterMap Deed.released? ++ done.filterMap Deed.released? ++ v.host?.toList := by
  simp [balance, extend]

theorem filterMap_released?_eq_nil (h : ∀ d ∈ done, d.concern ≠ .close) :
    done.filterMap Deed.released? = [] := by
  refine List.filterMap_eq_nil_iff.mpr fun d hd => ?_
  have hconcern := h d hd
  cases d with
  | released h => exact absurd rfl hconcern
  | _ => rfl

theorem Released.filterMap_released? {target : Kernel.Handle} (h : Released target done) :
    done.filterMap Deed.released? = [target] := by
  obtain ⟨unmaps, hunmaps, rfl⟩ := h
  rw [List.filterMap_append, filterMap_released?_eq_nil fun d hd => by simp [hunmaps d hd]]
  rfl

theorem Trail.Grows.balance {cs : List Concern} (h : t.Grows cs u) (hcs : .close ∉ cs)
    (hw : w.host? = v.host?) : u.balance w = t.balance v := by
  obtain ⟨done, hdone, rfl⟩ := h
  rw [balance_extend, filterMap_released?_eq_nil fun d hd hclose => hcs (hclose ▸ hdone d hd), hw,
    List.append_nil]
  rfl

/-- A host that goes is released at this moment. -/
theorem Released.balance (h : Released v.target done) (hs : v.state ≠ .empty) :
    (t.extend done filed).balance v.vacate = t.balance v := by
  have hhost : v.host? = some v.target := if_neg hs
  rw [Trail.balance_extend, h.filterMap_released?, Trail.balance, hhost]
  exact List.append_nil _

theorem Standing.Notified.host?_eq {r : Except Error Unit} (h : v.Notified r w)
    (hv : v.state = .empty ∨ Status.eventOf v.status ≠ Status.exitEvent) : w.host? = v.host? := by
  cases h with
  | exited h hs => exact absurd h (hv.resolve_left hs)
  | swappedOut h hs | swappedIn h hs =>
    simp only [Standing.host?, Standing.move, Standing.consume, hs]
    rfl
  | _ => rfl

/-- A notification releases the host that exits, and nothing else. -/
theorem Standing.Notified.balance {r : Except Error Unit} (h : v.Notified r w) (hu : t.Answered v u) :
    u.balance w = t.balance v := by
  cases hu with
  | @exited hexit hs done hdone =>
    obtain ⟨-, -, rfl⟩ | ⟨hempty, -⟩ := h.of_exit hexit
    · have hfarewell : (farewell v.state).filterMap Deed.released? = [] := by
        rw [farewell]
        split <;> rfl
      have hsame : (farewell v.state ++ .published lifecycleHandled :: done).filterMap Deed.released? =
          done.filterMap Deed.released? := by
        rw [List.filterMap_append, hfarewell]
        rfl
      have hreleased : (t.extend done []).balance v.consume.vacate = t.balance v := hdone.balance hs
      rw [← hreleased, Trail.balance_extend, Trail.balance_extend, hsame]
    · exact absurd hempty hs
  | @swapped hswap done hdone =>
    have hgrows : t.Grows [.signal, .unmap, .publish]
        (t.extend (done ++ [.published lifecycleHandled]) []) := by
      refine ⟨_, fun d hd => ?_, rfl⟩
      obtain hd | hd := List.mem_append.mp hd
      · obtain hconcern | hconcern := hdone d hd <;> simp [hconcern]
      · rw [List.mem_singleton.mp hd]
        decide
    exact hgrows.balance (by decide) (h.host?_eq (.inr (by rw [hswap]; decide)))
  | nothing hnone =>
    have hgrows : t.Grows [.publish] (t.extend [.published lifecycleHandled] []) :=
      ⟨_, by decide, rfl⟩
    exact hgrows.balance (by decide) (h.host?_eq hnone)

end
end Loader

namespace Service
variable {σ : Type} {p : Platform σ} {v : Standing} {t : Trail} {op : Operation}

section
variable (hop : t.op = some op) (hv : v.Idle)
include hop hv

theorem balances_load (hload : op ≠ .shutdown) (target : Kernel.Handle) :
    Traces p v t (load target) fun _ w u =>
      w.Idle ∧ (target :: t.balance v).Perm (u.balance w) := by
  refine (traces_load hop hv hload).imp ?_
  rintro r w u (⟨rfl, rfl⟩ | ⟨hempty, rfl, rfl⟩)
  · refine ⟨hv, ?_⟩
    rw [Trail.balance_extend, Trail.balance, List.append_assoc]
    exact List.perm_middle.symm
  · refine ⟨hv.occupy target, ?_⟩
    have hnone : v.host? = none := if_pos hempty
    rw [Trail.balance, Trail.balance, hnone, show (v.occupy target).host? = some target from rfl]
    exact List.perm_middle.symm

theorem balances_respond (hload : op ≠ .shutdown) (r : Request) :
    Traces p v t (respond r) fun _ w u =>
      w.Idle ∧ (r.loads?.toList ++ t.balance v).Perm (u.balance w) := by
  cases hloads : r.loads? with
  | none =>
    refine ((within_respond r hloads).silent (by decide)).imp ?_
    rintro _ _ _ ⟨rfl, rfl⟩
    exact ⟨hv, .refl _⟩
  | some target =>
    rw [respond_of_loads r hloads]
    refine .bind (balances_load hop hv hload target) fun answer _ _ h => ?_
    cases answer <;> exact .pure h

theorem balances_handle (hload : op ≠ .shutdown) (r : Request) :
    Traces p v t (handle r) fun _ w u => (r.loads?.toList ++ t.balance v).Perm (u.balance w) := by
  refine .bind (balances_respond hop hv hload r) fun response w u h => ?_
  refine (within_record rfl).first (List.nil_subset _) fun _ => ?_
  refine within_showPendingError.first (by decide) fun _ => ?_
  exact .then (traces_runPendingTasks_of_idle h.1) fun _ => .pure h.2

/-- Whatever an operation is given is released or kept. -/
theorem balances_operation :
    Traces p v t op.run fun _ w u => (op.loads?.toList ++ t.balance v).Perm (u.balance w) := by
  have hsilent {α : Type} {x : Act Loader (σ × List Sighting) α} {cs : List Concern}
      (hx : Within cs x) (hcs : cs ⊆ Concern.silent) (f : α → Outcome) :
      Traces p v t (do return f (← x)) fun _ w u => (t.balance v).Perm (u.balance w) :=
    hx.first hcs fun _ => .pure (.refl _)
  have hnotify {v : Standing} (hv : v.Idle) :
      Traces p v t (do return Outcome.ofResult (← handleNotification)) fun _ w u =>
        (t.balance v).Perm (u.balance w) :=
    .bind (traces_handleNotification hop hv) fun _ _ _ h => .pure (.of_eq (h.1.balance h.2).symm)
  have hset (status : UInt32) : Traces p v t (Act.setStatus status) fun _ w u =>
      w = { v with status := status } ∧ u = t :=
    (turns_setStatus_eq status).unseen (within_setStatus (List.mem_singleton_self _) status) (by decide)
  cases op with
  | request r =>
    exact .bind (balances_handle hop hv nofun r) fun _ _ _ h => .pure h
  | load target => exact .bind (balances_load hop hv nofun target) fun _ _ _ h => .pure h.2
  | handleNotification => exact hnotify hv
  | post event notify =>
    refine Traces.status (.then (hset _) fun _ => ?_)
    cases notify with
    | false => exact .pure (.refl _)
    | true => exact hnotify ⟨hv.exitPending, hv.tasks, hv.target⟩
  | setStatus value => exact .then (hset value) fun _ => .pure (.refl _)
  | shutdown =>
    refine .bind (traces_shutdown hop hv) ?_
    rintro r w u (⟨-, rfl, rfl⟩ | ⟨htarget, rfl, done, hdone, rfl⟩)
    · exact .pure (.refl _)
    · exact .pure (.of_eq (hdone.balance (mt hv.target htarget)).symm)
  | setEnabled enabled => exact hsilent (within_setEnabled _) (by decide) _
  | toggleEnabled => exact hsilent within_toggleEnabled (by decide) _
  | setUiBlocked blocked => exact hsilent (within_setUiBlocked _) (by decide) _
  | showPendingError => exact hsilent within_showPendingError (by decide) _
  | runPendingTasks => exact .then (traces_runPendingTasks_of_idle hv) fun _ => .pure (.refl _)
  | editMemory change =>
    refine (within_edit change).first (by decide) fun edited => ?_
    cases edited <;> exact .pure (.refl _)
  | setEvent event => exact hsilent (within_setWord _ _) (List.nil_subset _) _
  | pluginWait timeout =>
    refine within_client.first (List.nil_subset _) fun l => ?_
    refine (within_pluginWait _ _).first (List.nil_subset _) fun answer => ?_
    cases answer <;> exact .pure (.refl _)
  | pluginReply =>
    refine within_client.first (List.nil_subset _) fun l => ?_
    have hreply : Within [.signal]
        (Handshake.pluginReply l.arbiter : Act Loader (σ × List Sighting) _) :=
      within_pluginReply l.arbiter
    refine .bind ((hreply.still (by decide) (· = v)).traces hreply (by decide)) ?_
    rintro answer w u ⟨hw, hu⟩
    have hsame : u.balance w = t.balance v := hu.balance (by decide) (congrArg Standing.host? hw)
    cases answer <;> exact .pure (.of_eq hsame.symm)

end

theorem balance_follow {m : Machine Loader (σ × List Sighting)} (hfiled : Filed m)
    (hidle : (standing m).Idle) (op : Operation) :
    (op.loads?.toList ++ (trail m).balance (standing m)).Perm
      ((trail (follow p op m).2).balance (standing (follow p op m).2)) :=
  (balances_operation rfl hidle { m with platform := (m.platform.1, .begun op :: m.platform.2) }
    ⟨hfiled, rfl, rfl⟩).2

variable (p) (config : Config) (s : σ)

/-- A loader that has started has done nothing yet for others to notice. -/
theorem trail_career_nil : trail (career p config s []) = ⟨none, [], []⟩ := by
  have hnew : trail (machine config (s, [])) = ⟨none, [], []⟩ := rfl
  have hstart : Within [.close, .status, .handles, .settings] (start : Act Loader (σ × List Sighting) _) :=
    within_start
  obtain ⟨-, done, -, htrail⟩ := hstart _ _ (bears_grows (p := p) (by decide) ⟨none, [], []⟩)
    (machine config (s, [])) ⟨filed_machine config s, hnew ▸ .refl _ _⟩
  have hdeeds : (trail (career p config s [])).deeds = [] :=
    deeds_of_underway (congrArg Trail.op htrail)
  have hdone : done = [] := (congrArg Trail.deeds htrail).symm.trans hdeeds
  rw [hdone] at htrail
  exact htrail

/-- Every handle that was ever passed to a load has been released, or is the host that is still there:
as often as it was loaded, neither more often nor less, whatever the platform answers. -/
theorem career_releases (ops : List Operation) :
    (ops.filterMap Operation.loads?).Perm (releases (career p config s ops).platform.2 ++
      (career p config s ops).client.host?.toList) := by
  show List.Perm _ ((trail (career p config s ops)).balance (standing (career p config s ops)))
  induction ops using List.reverseRecOn with
  | nil =>
    rw [trail_career_nil, (career_nil p config s).2]
    exact .refl _
  | append_singleton ops op ih =>
    obtain ⟨hfiled, hidle⟩ := filed_idle_career p config s ops
    have hgiven : (ops ++ [op]).filterMap Operation.loads? =
        ops.filterMap Operation.loads? ++ op.loads?.toList := by
      rw [List.filterMap_append, List.filterMap_cons, List.filterMap_nil]
      cases op.loads? <;> rfl
    rw [career_concat, hgiven]
    have hswap : (ops.filterMap Operation.loads? ++ op.loads?.toList).Perm
        (op.loads?.toList ++ ops.filterMap Operation.loads?) := List.perm_append_comm
    exact (hswap.trans (ih.append_left _)).trans (balance_follow hfiled hidle op)

/-- A second plugin is refused and released at once, the first one when its host exits. -/
example : releases (career Stub.platform Config.default .initial [.setEnabled true, .load ⟨0x102⟩,
    .load ⟨0x103⟩, .post Status.exitEvent true]).platform.2 = [⟨0x103⟩, ⟨0x102⟩] := by decide +kernel

end Service
end PluginSlot
