import PluginSlot.Proofs.Loader.Lifecycle
import PluginSlot.Proofs.Loader.Trail

/-!
The exit of a host, from outside. The plugin is told if it can hear it, the notification is published as
handled, and only then the plugin is torn down, once. A second exit finds nothing to tear down.
-/
namespace PluginSlot
open Platform Loader Wire

namespace Loader
variable {v : Standing} {t u : Trail} {done : List Deed}

theorem filterMap_published?_eq_nil (h : ∀ d ∈ done, d.concern ≠ .publish) :
    done.filterMap Deed.published? = [] := by
  refine List.filterMap_eq_nil_iff.mpr fun d hd => ?_
  have hconcern := h d hd
  cases d with
  | published id => exact absurd rfl hconcern
  | _ => rfl

/-- Whatever event is handled, the answer to it is published once. -/
theorem Trail.Answered.published (h : t.Answered v u) : ∃ done, u.deeds = t.deeds ++ done ∧
    done.filterMap Deed.published? = [lifecycleHandled] := by
  cases h with
  | @exited _ _ done hdone =>
    refine ⟨_, rfl, ?_⟩
    obtain ⟨unmaps, hunmaps, rfl⟩ := hdone
    have hfarewell : (farewell v.state).filterMap Deed.published? = [] := by
      rw [farewell]
      split <;> rfl
    have hafter : (unmaps ++ [Deed.released v.target]).filterMap Deed.published? = [] := by
      rw [List.filterMap_append, filterMap_published?_eq_nil fun d hd => by simp [hunmaps d hd]]
      rfl
    rw [List.filterMap_append, hfarewell]
    exact congrArg (lifecycleHandled :: ·) hafter
  | @swapped _ done hdone =>
    refine ⟨_, rfl, ?_⟩
    have hbefore : done.filterMap Deed.published? = [] :=
      filterMap_published?_eq_nil fun d hd => by obtain h | h := hdone d hd <;> simp [h]
    rw [List.filterMap_append, hbefore]
    rfl
  | nothing => exact ⟨_, rfl, rfl⟩

end Loader

namespace Service
variable {σ : Type} {p : Platform σ}

section views
variable (before after : Machine Loader (σ × List Sighting)) (outcome : Outcome)

/-- Among all that is done, the answer to the kernel is published once. -/
def AnsweredOnce : Prop :=
  ∃ done, deeds after.platform.2 = deeds before.platform.2 ++ done ∧
    done.filterMap Deed.published? = [lifecycleHandled]

/-- The host that was there has exited. -/
structure Exited : Prop where
  outcome : outcome = .done
  /-- Nothing is unmapped or released before the answer is published. -/
  deeds : ∃ unmaps : List Deed, (∀ d ∈ unmaps, d.concern = .unmap) ∧
    deeds after.platform.2 = deeds before.platform.2 ++ farewell before.client.state ++
      .published lifecycleHandled :: unmaps ++ [.released before.client.target]
  teardowns : (fullJournal after).teardowns = (fullJournal before).teardowns ++
    [.teardownQueued before.client.target, .teardownDone before.client.target]
  state : after.client.state = .empty
  tasks : after.client.tasks = .empty
  exitPending : after.client.exitPending = false

/-- No host was there that could exit. -/
structure Unexpected : Prop where
  outcome : outcome = .failed .unexpectedNotification
  deeds : deeds after.platform.2 = deeds before.platform.2 ++ [.published lifecycleHandled]
  teardowns : (fullJournal after).teardowns = (fullJournal before).teardowns
  state : after.client.state = .empty

end views

section notification
variable {v : Standing} {t : Trail} {op : Operation} {word : UInt32}

theorem traces_notified (hop : t.op = some op) (hv : v.Idle)
    (hword : op.notified? v.status = some word) :
    Traces p v t op.run fun outcome w u => ∃ r, outcome = .ofResult r ∧
      { v with status := word }.Notified r w ∧ t.Answered { v with status := word } u := by
  have hnotify {v : Standing} (hv : v.Idle) : Traces p v t
      (do return Outcome.ofResult (← handleNotification)) fun outcome w u =>
        ∃ r, outcome = .ofResult r ∧ v.Notified r w ∧ t.Answered v u :=
    .bind (traces_handleNotification hop hv) fun r _ _ h => .pure ⟨r, rfl, h⟩
  cases op with
  | handleNotification =>
    cases hword
    exact hnotify hv
  | post event notify =>
    cases notify with
    | false => cases hword
    | true =>
      cases hword
      have hpost : Traces p v t (Act.setStatus (Status.post v.status event)) fun _ w u =>
          w = { v with status := Status.post v.status event } ∧ u = t :=
        (turns_setStatus_eq _).unseen (within_setStatus (List.mem_singleton_self _) _) (by decide)
      exact Traces.status (.then hpost fun _ => hnotify ⟨hv.exitPending, hv.tasks, hv.target⟩)
  | _ => cases hword

variable {m : Machine Loader (σ × List Sighting)} (hfiled : Filed m) (hidle : (standing m).Idle)
  (hword : op.notified? m.status = some word)
include hfiled hidle hword

theorem notified_follow : ∃ r, (follow p op m).1 = .ofResult r ∧
    { standing m with status := word }.Notified r (standing (follow p op m).2) ∧
    { trail m with op := some op }.Answered { standing m with status := word }
      (trail (follow p op m).2) :=
  (traces_notified rfl hidle hword { m with platform := (m.platform.1, .begun op :: m.platform.2) }
    ⟨hfiled, rfl, rfl⟩).2

theorem answeredOnce_follow : AnsweredOnce m (follow p op m).2 := by
  obtain ⟨r, -, -, hanswered⟩ := notified_follow (p := p) hfiled hidle hword
  exact hanswered.published

variable (hexit : Status.eventOf word = Status.exitEvent)
include hexit

theorem exited_follow (hs : m.client.state ≠ .empty) :
    Exited m (follow p op m).2 (follow p op m).1 := by
  obtain ⟨r, houtcome, hnotified, hanswered⟩ := notified_follow (p := p) hfiled hidle hword
  obtain ⟨-, rfl, hafter⟩ | ⟨hempty, -⟩ := hnotified.of_exit hexit
  · generalize htrail : trail (follow p op m).2 = u at hanswered
    cases hanswered with
    | @exited _ _ done hdone =>
      obtain ⟨unmaps, hunmaps, rfl⟩ := hdone
      constructor
      · exact houtcome
      · refine ⟨unmaps, hunmaps, (congrArg Trail.deeds htrail).trans ?_⟩
        show deeds m.platform.2 ++ (farewell m.client.state ++
          .published lifecycleHandled :: (unmaps ++ [.released m.client.target])) = _
        simp
      · exact congrArg Trail.teardowns htrail
      · exact congrArg Standing.state hafter
      · exact (congrArg Standing.tasks hafter).trans hidle.tasks
      · exact congrArg Standing.exitPending hafter
    | swapped hswap => exact absurd (hswap.symm.trans hexit) (by decide)
    | nothing h => exact absurd hexit (h.resolve_left hs)
  · exact absurd hempty hs

theorem unexpected_follow (hs : m.client.state = .empty) :
    Unexpected m (follow p op m).2 (follow p op m).1 := by
  obtain ⟨r, houtcome, hnotified, hanswered⟩ := notified_follow (p := p) hfiled hidle hword
  obtain ⟨hloaded, -⟩ | ⟨-, rfl, hafter⟩ := hnotified.of_exit hexit
  · exact absurd hs hloaded
  · generalize htrail : trail (follow p op m).2 = u at hanswered
    cases hanswered with
    | exited _ hloaded => exact absurd hs hloaded
    | swapped hswap => exact absurd (hswap.symm.trans hexit) (by decide)
    | nothing =>
      constructor
      · exact houtcome
      · exact congrArg Trail.deeds htrail
      · exact (congrArg Trail.teardowns htrail).trans (List.append_nil _)
      · exact (congrArg Standing.state hafter).trans hs

end notification

/-- No load among the operations succeeds: the slot is empty after each of them. -/
def LoadsNothing (p : Platform σ) : Machine Loader (σ × List Sighting) → List Operation → Prop
  | _, [] => True
  | m, op :: ops =>
    (op.loads?.isSome = true → (follow p op m).2.client.state = .empty) ∧
      LoadsNothing p (follow p op m).2 ops

/-- Only a load that succeeds fills an empty slot. -/
theorem empty_follow {m : Machine Loader (σ × List Sighting)} {op : Operation} (hfiled : Filed m)
    (hidle : (standing m).Idle) (hs : m.client.state = .empty)
    (hload : op.loads?.isSome = true → (follow p op m).2.client.state = .empty) :
    (follow p op m).2.client.state = .empty := by
  show (standing (follow p op m).2).state = .empty
  refine (effect_follow hfiled hidle op).2.preserves (P := fun w => w.state = .empty) ?_ ?_ ?_ ?_
  · exact fun _ _ => hs
  · intro u r w hnotified hu
    cases hnotified with
    | exited => rfl
    | swappedOut _ h | swappedIn _ h => exact absurd (hu.symm.trans h) (by decide)
    | _ => exact hu
  · exact fun _ => rfl
  · exact fun target _ htarget _ => hload (by rw [htarget]; rfl)

section career
variable (p) (config : Config) (s : σ)

theorem empty_career {ops more : List Operation}
    (hs : (career p config s ops).client.state = .empty)
    (hmore : LoadsNothing p (career p config s ops) more) :
    (career p config s (ops ++ more)).client.state = .empty := by
  induction more generalizing ops with
  | nil => rwa [List.append_nil]
  | cons op more ih =>
    obtain ⟨hload, hrest⟩ := hmore
    obtain ⟨hfiled, hidle⟩ := filed_idle_career p config s ops
    have hempty := empty_follow hfiled hidle hs hload
    rw [← career_concat] at hempty hrest
    rw [← List.singleton_append, ← List.append_assoc]
    exact ih hempty hrest

/-- The exit of a host. Each notification is answered once; one that tells of an exit has the plugin
torn down, after the answer, and the next such notification finds no plugin, unless one was loaded
meanwhile. Between two operations nothing is put off. -/
theorem career_exit (ops : List Operation) :
    (career p config s ops).client.tasks = .empty ∧
    (career p config s ops).client.exitPending = false ∧
    ∀ op word, op.notified? (career p config s ops).status = some word →
      AnsweredOnce (career p config s ops) (career p config s (ops ++ [op])) ∧
      (Status.eventOf word = Status.exitEvent → (career p config s ops).client.state ≠ .empty →
        Exited (career p config s ops) (career p config s (ops ++ [op]))
          (follow p op (career p config s ops)).1 ∧
        ∀ more again word', LoadsNothing p (career p config s (ops ++ [op])) more →
          again.notified? (career p config s (ops ++ [op] ++ more)).status = some word' →
          Status.eventOf word' = Status.exitEvent →
          Unexpected (career p config s (ops ++ [op] ++ more))
            (career p config s (ops ++ [op] ++ more ++ [again]))
            (follow p again (career p config s (ops ++ [op] ++ more))).1) := by
  obtain ⟨hfiled, hidle⟩ := filed_idle_career p config s ops
  refine ⟨hidle.tasks, hidle.exitPending, fun op word hword => ⟨?_, fun hexit hs => ⟨?_, ?_⟩⟩⟩
  · rw [career_concat]
    exact answeredOnce_follow hfiled hidle hword
  · rw [career_concat]
    exact exited_follow hfiled hidle hword hexit hs
  · intro more again word' hmore hagain hexit'
    have hgone : (career p config s (ops ++ [op])).client.state = .empty := by
      rw [career_concat]
      exact (exited_follow hfiled hidle hword hexit hs).state
    obtain ⟨hfiled', hidle'⟩ := filed_idle_career p config s (ops ++ [op] ++ more)
    rw [career_concat p config s _ again]
    exact unexpected_follow hfiled' hidle' hagain hexit' (empty_career p config s hgone hmore)

end career

/-- The host of a plugin exits twice; the load in between comes while the loader is disabled. -/
theorem career_exit_twice :
    Exited (career Stub.platform .default .initial [.setEnabled true, .load ⟨0x102⟩])
      (career Stub.platform .default .initial
        ([.setEnabled true, .load ⟨0x102⟩] ++ [.post Status.exitEvent true]))
      (follow Stub.platform (.post Status.exitEvent true)
        (career Stub.platform .default .initial [.setEnabled true, .load ⟨0x102⟩])).1 ∧
    Unexpected
      (career Stub.platform .default .initial ([.setEnabled true, .load ⟨0x102⟩] ++
        [.post Status.exitEvent true] ++ [.setEnabled false, .load ⟨0x103⟩]))
      (career Stub.platform .default .initial ([.setEnabled true, .load ⟨0x102⟩] ++
        [.post Status.exitEvent true] ++ [.setEnabled false, .load ⟨0x103⟩] ++
        [.post Status.exitEvent true]))
      (follow Stub.platform (.post Status.exitEvent true)
        (career Stub.platform .default .initial ([.setEnabled true, .load ⟨0x102⟩] ++
          [.post Status.exitEvent true] ++ [.setEnabled false, .load ⟨0x103⟩]))).1 := by
  obtain ⟨-, -, hnotified⟩ := career_exit Stub.platform .default .initial
    [.setEnabled true, .load ⟨0x102⟩]
  obtain ⟨-, hexit⟩ := hnotified (.post Status.exitEvent true) _ rfl
  obtain ⟨hexited, hagain⟩ := hexit (Status.eventOf_post (by decide) _) (by decide +kernel)
  refine ⟨hexited, hagain _ _ _ ⟨nofun, fun _ => ?_, trivial⟩ rfl (Status.eventOf_post (by decide) _)⟩
  decide +kernel

end Service
end PluginSlot
