import PluginSlot.Platform.Stub
import PluginSlot.Proofs.History
import PluginSlot.Proofs.Loader.Trail
import PluginSlot.Proofs.Service.Refusal

/-!
What the loader makes for itself: its arbiter and its lifecycle event. Each of them is closed once or is
still recorded, unless a shutdown gave up before it came to the event.
-/
namespace PluginSlot
open Platform Loader

namespace Loader

/-- The handles of its own that the loader has recorded. -/
def belongings (l : Loader) : List Kernel.Handle := [l.arbiter, l.lifecycleEvent].filter (!·.isNull)

/-- A handle that the platform makes for the loader. -/
def made? : (c : Call) → c.Answer → Option Kernel.Handle
  | .createArbiter, .ok h | .createLifecycleEvent, .ok h => if h.isNull then none else some h
  | _, _ => none

/-- A closing on the loader's own account. There is none but at the start and at a shutdown, and what is
closed there is not the host. -/
def ownClosing? (op? : Option Service.Operation) (host : Kernel.Handle) :
    (c : Call) → c.Answer → Option (Kernel.Handle × Except Platform.Error Unit)
  | .close h, a => if op?.all (· = .shutdown) ∧ h ≠ host then some (h, a) else none
  | _, _ => none

/-- All that was ever made for the loader, oldest first. -/
def made : List Sighting → List Kernel.Handle
  | [] => []
  | .begun _ :: earlier => made earlier
  | .called _ c a :: earlier => made earlier ++ (made? c a).toList

/-- All closings on the loader's own account, oldest first. -/
def ownClosings : List Sighting → List (Kernel.Handle × Except Platform.Error Unit)
  | [] => []
  | .begun _ :: earlier => ownClosings earlier
  | .called l c a :: earlier => ownClosings earlier ++ (ownClosing? (underway earlier) l.target c a).toList

/-- What comes of closing these handles one after the other: the first failure ends it. -/
inductive Closes : List Kernel.Handle → List (Kernel.Handle × Except Platform.Error Unit) → Prop where
  | nil : Closes [] []
  | failed (h : Kernel.Handle) (hs : List Kernel.Handle) (e : Platform.Error) :
      Closes (h :: hs) [(h, .error e)]
  | closed (h : Kernel.Handle) {hs : List Kernel.Handle}
      {done : List (Kernel.Handle × Except Platform.Error Unit)} (hdone : Closes hs done) :
      Closes (h :: hs) ((h, .ok ()) :: done)

namespace Closes
variable {first second : Kernel.Handle} {hs : List Kernel.Handle}
  {done : List (Kernel.Handle × Except Platform.Error Unit)}

theorem map_fst_of_length_le (hdone : Closes hs done) (hhs : hs.length ≤ 1) :
    done.map Prod.fst = hs := by
  cases hdone with
  | nil => rfl
  | failed h hs e => simp_all
  | closed h hdone =>
    cases hdone with
    | nil => rfl
    | failed => simp at hhs
    | closed => simp at hhs

/-- Of two handles, one is left over exactly if the other could not be closed. -/
theorem exists_rest (hdone : Closes ([first, second].filter (!·.isNull)) done) :
    ∃ rest, [first, second].filter (!·.isNull) = done.map Prod.fst ++ rest ∧
      (rest = [] ↔ ¬(first ≠ .null ∧ second ≠ .null ∧ ∃ e, done = [(first, .error e)])) := by
  by_cases hboth : first ≠ .null ∧ second ≠ .null
  · have htwo : [first, second].filter (!·.isNull) = [first, second] := by
      simp [← Kernel.Handle.isNull_iff] at hboth
      simp [hboth]
    rw [htwo] at hdone ⊢
    cases hdone with
    | failed _ _ e => exact ⟨[second], by simp [hboth]⟩
    | closed _ hdone =>
      have hrest := hdone.map_fst_of_length_le (Nat.le_refl 1)
      refine ⟨[], by simp [hrest], by simp⟩
  · have hone : ([first, second].filter (!·.isNull)).length ≤ 1 := by
      simp only [ne_eq, ← Kernel.Handle.isNull_iff] at hboth
      cases hfirst : first.isNull <;> cases hsecond : second.isNull <;> simp_all
    rw [hdone.map_fst_of_length_le hone]
    exact ⟨[], by simp, by simpa using fun h h' => absurd ⟨h, h'⟩ hboth⟩

end Closes

/-- What was made for the loader, and what has become of it. -/
structure Estate where
  op : Option Service.Operation
  made : List Kernel.Handle
  closings : List (Kernel.Handle × Except Platform.Error Unit)
  arbiter : Kernel.Handle
  event : Kernel.Handle

namespace Estate

def belongings (v : Estate) : List Kernel.Handle := [v.arbiter, v.event].filter (!·.isNull)

/-- Nothing is recorded any more; what was recorded has been closed up to the first failure. -/
def Settled (v w : Estate) : Prop :=
  ∃ done, Closes v.belongings done ∧
    w = { v with closings := v.closings ++ done, arbiter := .null, event := .null }

/-- All that was made is closed or recorded, but for these. -/
def Lacks (v : Estate) (lost : List Kernel.Handle) : Prop :=
  v.made.Perm (v.closings.map Prod.fst ++ v.belongings ++ lost)

theorem Lacks.perm_iff {v : Estate} {lost : List Kernel.Handle} (hv : v.Lacks lost) :
    v.made.Perm (v.closings.map Prod.fst ++ v.belongings) ↔ lost = [] := by
  constructor
  · intro hall
    have hlength := (hall.symm.trans hv).length_eq
    simpa using hlength
  · intro hnone
    simpa [Lacks, hnone] using hv

/-- What is left over when the recorded handles are closed is lost. -/
theorem Lacks.settle {v : Estate} {lost rest : List Kernel.Handle}
    {done : List (Kernel.Handle × Except Platform.Error Unit)} (hv : v.Lacks lost)
    (hrest : v.belongings = done.map Prod.fst ++ rest) :
    Lacks { v with closings := v.closings ++ done, arbiter := .null, event := .null } (rest ++ lost) := by
  have hnone : [Kernel.Handle.null, Kernel.Handle.null].filter (!·.isNull) = [] := rfl
  rw [Lacks, hrest] at hv
  simpa [Lacks, belongings, hnone] using hv

end Estate

variable {σ α : Type} {p : Platform σ} {cs : List Concern}

def estate (m : Machine Loader (σ × List Sighting)) : Estate :=
  ⟨underway m.platform.2, made m.platform.2, ownClosings m.platform.2, m.client.arbiter,
    m.client.lifecycleEvent⟩

section frame

theorem made?_of_within {c : Call} (hcs : .handles ∉ cs) (hk : Concern.within cs c.concern? = true)
    (a : c.Answer) : made? c a = none := by
  cases c with
  | createArbiter | createLifecycleEvent => exact absurd (Concern.within_some.mp hk) hcs
  | _ => rfl

theorem ownClosing?_of_within {c : Call} {op? : Option Service.Operation} (host : Kernel.Handle)
    (hclose : .close ∈ cs → op?.all (· = .shutdown) = false)
    (hk : Concern.within cs c.concern? = true) (a : c.Answer) : ownClosing? op? host c a = none := by
  cases c with
  | close h =>
    have hother := hclose (Concern.within_some.mp hk)
    simp [ownClosing?, hother]
  | _ => rfl

theorem estate_call (c : Call) (m : Machine Loader (σ × List Sighting)) :
    estate (watch p c m).2 = { estate m with
      made := made m.platform.2 ++ (made? c (watch p c m).1).toList
      closings := ownClosings m.platform.2 ++
        (ownClosing? (underway m.platform.2) m.client.target c (watch p c m).1).toList } := rfl

theorem estate_call_of_within {c : Call} {m : Machine Loader (σ × List Sighting)}
    (hcs : .handles ∉ cs) (hclose : .close ∈ cs → (underway m.platform.2).all (· = .shutdown) = false)
    (hk : Concern.within cs c.concern? = true) : estate (watch p c m).2 = estate m := by
  rw [estate_call, made?_of_within hcs hk, ownClosing?_of_within _ hclose hk]
  simp [estate]

/-- Only what is about the loader's own handles, and a closing in the wrong place, shows here. -/
theorem bears_estate {v : Estate} (hcs : .handles ∉ cs)
    (hclose : .close ∈ cs → v.op.all (· = .shutdown) = false) :
    Bears (watch p) cs fun m => estate m = v where
  call c _ hk m hm := by
    subst hm
    exact estate_call_of_within hcs hclose hk
  words _ _ hm := hm
  record event _ m hm := by
    subst hm
    exact estate_call_of_within (c := .now) hcs hclose rfl
  status hk value m hm := by
    subst hm
    exact estate_call_of_within (c := .writeStatus value) hcs hclose (Concern.within_some.mpr hk)
  settings _ m l _ _ _ _ _ _ hfixtures hm :=
    (congrArg (fun f => { estate m with arbiter := f.2.1.1, event := f.2.1.2 }) hfixtures).trans hm
  parameters _ _ _ _ hm := hm
  handles hk := absurd hk hcs
  block _ _ _ _ _ _ hm := hm
  slot _ m l _ hfixtures hm :=
    (congrArg (fun f => { estate m with arbiter := f.2.1.1, event := f.2.1.2 }) hfixtures).trans hm

/-- What shows, while a certain host is there. -/
def Hosted (v : Estate) (host : Kernel.Handle) (m : Machine Loader (σ × List Sighting)) : Prop :=
  estate m = v ∧ m.client.target = host

theorem bears_hosted {v : Estate} {host : Kernel.Handle} (hcs : .handles ∉ cs) (hclose : .close ∉ cs)
    (hslot : .slot ∉ cs) : Bears (watch p) cs (Hosted v host) := by
  have hestate : Bears (watch p) cs fun m => estate m = v :=
    bears_estate hcs fun h => absurd h hclose
  exact {
    call := fun c hc hk m hm => ⟨hestate.call c hc hk m hm.1, hm.2⟩
    words := fun _ _ hm => hm
    record := fun event hk m hm => ⟨hestate.record event hk m hm.1, hm.2⟩
    status := fun hk value m hm => ⟨hestate.status hk value m hm.1, hm.2⟩
    settings := fun hk m l hstate htarget hplacement hexit htasks hjournal hfixtures hm =>
      ⟨hestate.settings hk m l hstate htarget hplacement hexit htasks hjournal hfixtures hm.1,
        htarget.trans hm.2⟩
    parameters := fun _ _ _ _ hm => hm
    handles := fun hk => absurd hk hcs
    block := fun _ _ _ _ _ _ hm => hm
    slot := fun hk => absurd hk hslot }

end frame

section shutdown
variable {v : Estate} {host : Kernel.Handle} {x : Act Loader (σ × List Sighting) α}

/-- The concerns of which nothing shows, as long as the host stays where it is. -/
def Concern.indoors : List Concern := [.unmap, .block, .transition, .teardown, .status]

theorem hosted_of_within (hx : Within Concern.indoors x) :
    x.Ensures (watch p) (Hosted v host) fun _ => Hosted v host :=
  hx _ _ (bears_hosted (by decide) (by decide) (by decide))

theorem hosted_call (v : Estate) (host : Kernel.Handle) (c : Call) :
    (Act.call c).Ensures (watch p) (Hosted v host) fun a =>
      Hosted { v with
        made := v.made ++ (made? c a).toList
        closings := v.closings ++ (ownClosing? v.op host c a).toList } host := by
  rintro m ⟨rfl, rfl⟩
  exact ⟨rfl, rfl⟩

theorem hosted_transition (state : SlotState) :
    (transition state).Ensures (watch p) (Hosted v host) fun _ => Hosted v host := by
  refine .client fun l => .bind (Q := fun _ => Hosted v host) (fun m hm => hm.1) fun _ => ?_
  refine .bind (hosted_of_within (within_setStatus (by decide) _)) fun _ => ?_
  exact hosted_of_within (within_record rfl)

/-- A teardown closes the host, and nothing of the loader's own. -/
theorem hosted_teardown :
    (teardown host).Ensures (watch p) (Hosted v host) fun _ => Hosted v .null := by
  have hempty : Act.Ensures (watch p) (Hosted v host) (do
      debugRegion "[plgldr] free on exit failed: " (← onBlock (·.discard))
      debugPlatform "[plgldr] close target failed: " (← Act.call (.close host))
      Act.modifyClient fun l =>
        { l with
          target := .null
          exitPending := false
          exeLoad := .unset
          block := l.block.resetSwap
          uiBlocked := false }
      Act.setWord .event Handshake.ok
      transition .empty
      record (.teardownDone host)) fun _ => Hosted v .null := by
    refine .bind (hosted_of_within (within_discard.mono (by decide))) fun r => ?_
    refine .bind (hosted_of_within (within_debugRegion _ r)) fun _ => ?_
    have hclose : (Act.call (.close host)).Ensures (watch p) (Hosted v host) fun _ => Hosted v host := by
      simpa [made?, ownClosing?] using hosted_call (p := p) v host (.close host)
    refine .bind hclose fun closed => ?_
    refine .bind (hosted_of_within (within_debugPlatform _ closed)) fun _ => ?_
    refine .bind (Q := fun _ => Hosted v .null) (fun m hm => ⟨hm.1, rfl⟩) fun _ => ?_
    refine .bind (hosted_of_within (within_setWord _ _)) fun _ => ?_
    refine .bind (hosted_transition .empty) fun _ => ?_
    exact hosted_of_within (within_record rfl)
  refine .client fun l => ?_
  split
  case isTrue hstale => exact fun m hm => absurd (hm.2 ▸ hm.1.2) hstale
  case isFalse =>
    dsimp only
    split
    · refine .bind (Q := fun _ => Hosted v host) (fun m hm => ?_) fun r => ?_
      · exact hosted_of_within ((within_unmount host).mono (by decide)) m hm.1
      · exact .bind (hosted_of_within (within_debugRegion _ r)) fun _ => hempty
    · exact fun m hm => hempty m hm.1

/-- What is closed of these handles is the loader's own. -/
theorem hosted_closeEach (hop : v.op.all (· = .shutdown) = true) (hs : List Kernel.Handle) :
    (closeEach hs).Ensures (watch p) (Hosted v .null) fun _ m =>
      ∃ done, Closes (hs.filter (!·.isNull)) done ∧
        estate m = { v with closings := v.closings ++ done } := by
  induction hs generalizing v with
  | nil =>
    intro m hm
    exact ⟨[], .nil, hm.1.trans (by simp)⟩
  | cons h hs ih =>
    rw [closeEach]
    cases hnull : h.isNull with
    | true => simpa [hnull] using ih hop
    | false =>
      have hown : h ≠ .null := by simp [← Kernel.Handle.isNull_iff, hnull]
      have hcall : (Act.call (.close h)).Ensures (watch p) (Hosted v .null)
          fun a => Hosted { v with closings := v.closings ++ [(h, a)] } .null := by
        simpa [made?, ownClosing?, hop, hown] using hosted_call (p := p) v .null (.close h)
      simp only [hnull, List.filter_cons, Bool.not_false, if_true]
      refine .bind hcall fun a => ?_
      cases a with
      | error e => exact .pure fun m hm => ⟨[(h, .error e)], .failed h _ e, hm.1⟩
      | ok _ =>
        refine (ih (v := { v with closings := v.closings ++ [(h, .ok ())] }) hop).mono (fun _ hm => hm) ?_
        rintro _ m ⟨done, hdone, hm⟩
        exact ⟨(h, .ok ()) :: done, .closed h hdone, by simpa using hm⟩

theorem estate_closeHandles (hop : v.op.all (· = .shutdown) = true) :
    Act.Ensures (watch p) (Hosted v .null) (do
      let l ← Act.client
      Act.modifyClient ({ · with arbiter := .null, lifecycleEvent := .null })
      match ← closeEach [l.arbiter, l.lifecycleEvent] with
      | .error e => pure (.error e)
      | .ok _ =>
        Act.debug "[plgldr] shutdown"
        pure (.ok ()) : Act Loader (σ × List Sighting) (Except Error Unit))
      fun _ m => v.Settled (estate m) := by
  rintro m ⟨rfl, hhost⟩
  have hclose := hosted_closeEach (p := p) (v := { estate m with arbiter := .null, event := .null }) hop
    [m.client.arbiter, m.client.lifecycleEvent]
  rw [Act.bind_run, Act.bind_run]
  refine Act.Ensures.bind (S := fun _ w => (estate m).Settled (estate w)) hclose (fun answer => ?_)
    _ ⟨rfl, hhost⟩
  cases answer with
  | error e => exact .pure fun _ hw => hw
  | ok _ =>
    have hdebug : (Act.debug "[plgldr] shutdown").Keeps (watch p) estate := fun w =>
      (hosted_of_within (within_debug _) w ⟨rfl, rfl⟩).1
    exact .bind (.of_keeps hdebug (estate m).Settled) fun _ => .pure fun _ hw => hw

theorem estate_shutdown (hop : v.op.all (· = .shutdown) = true) : shutdown.Ensures (watch p)
    (fun m => estate m = v ∧ m.client.tasks = .empty) fun _ m => v.Settled (estate m) := by
  have hrun : runPendingTasks.Ensures (watch p) (fun m => estate m = v ∧ m.client.tasks = .empty)
      fun _ m => estate m = v := by
    intro m hm
    rw [Service.runPendingTasks_of_idle hm.2]
    exact hm.1
  refine .bind hrun fun _ => .client fun l => ?_
  dsimp only
  split
  · refine .bind (Q := fun _ => Hosted v .null) (fun m hm => ?_) fun _ => estate_closeHandles hop
    exact hosted_teardown m ⟨hm.1, congrArg Loader.target hm.2⟩
  case isFalse hhost =>
    have hnull : l.target = .null := by simpa [Kernel.Handle.isNull_iff] using hhost
    intro m hm
    exact estate_closeHandles hop m ⟨hm.1, (congrArg Loader.target hm.2).trans hnull⟩

end shutdown

/-- What was made for a loader is recorded, unless it failed to start; then it has been closed. -/
theorem estate_start : start.Ensures (watch p) (Hosted ⟨none, [], [], .null, .null⟩ .null) fun r m =>
    (estate m).Lacks [] ∧ ∀ e, r = .error e → (estate m).belongings = [] := by
  refine .bind (hosted_call _ _ .createArbiter) fun answer => ?_
  cases answer with
  | error e =>
    refine .pure fun m hm => ?_
    simp [hm.1, Estate.Lacks, Estate.belongings, made?, ownClosing?, Kernel.Handle.isNull_iff]
  | ok arbiter =>
    refine .bind (hosted_call _ _ .createLifecycleEvent) fun answer => ?_
    cases answer with
    | error e =>
      refine .bind (hosted_call _ _ (.close arbiter)) fun closed => .pure fun m hm => ?_
      by_cases harbiter : arbiter = .null <;>
        simp [hm.1, Estate.Lacks, Estate.belongings, made?, ownClosing?, Kernel.Handle.isNull_iff, harbiter]
    | ok event =>
      refine .bind (hosted_call _ _ .enabledAtBoot) fun enabled => ?_
      let v : Estate := ⟨none, [arbiter, event].filter (!·.isNull), [], arbiter, event⟩
      refine .bind (Q := fun _ => Hosted v .null) (fun m hm => ⟨?_, hm.2⟩) fun _ => ?_
      · refine (congrArg (fun w : Estate => { w with arbiter := arbiter, event := event }) hm.1).trans ?_
        cases harbiter : arbiter.isNull <;> cases hevent : event.isNull <;>
          simp [v, made?, ownClosing?, harbiter, hevent]
      refine .bind (hosted_of_within (within_setStatus (by decide) _)) fun _ => ?_
      refine .bind (hosted_of_within (within_debug _)) fun _ => .pure fun m hm => ?_
      exact ⟨by simp [hm.1, v, Estate.Lacks, Estate.belongings], nofun⟩

end Loader

namespace Service
variable {σ : Type} (p : Platform σ) (config : Config) (s : σ)

/-- A shutdown that cannot close the arbiter does not go on to the lifecycle event. -/
structure Forgets (done : List Operation) (op : Operation) : Prop where
  shutdown : op = .shutdown
  arbiter : (career p config s done).client.arbiter ≠ .null
  event : (career p config s done).client.lifecycleEvent ≠ .null
  failed : ∃ e, ownClosings (career p config s (done ++ [op])).platform.2 =
    ownClosings (career p config s done).platform.2 ++ [((career p config s done).client.arbiter, .error e)]

theorem estate_career_of_ne_shutdown (ops : List Operation) {op : Operation} (hop : op ≠ .shutdown) :
    estate (career p config s (ops ++ [op])) = { estate (career p config s ops) with op := some op } := by
  rw [career_concat]
  have hbears : Bears (watch p) Concern.besidesHandles fun m : Machine Loader (σ × List Sighting) =>
      estate m = { estate (career p config s ops) with op := some op } :=
    bears_estate (by decide) fun _ => by simpa using hop
  exact within_operation_of_ne_shutdown hop _ _ hbears _ rfl

theorem settled_career (ops : List Operation) :
    Estate.Settled { estate (career p config s ops) with op := some .shutdown }
      (estate (career p config s (ops ++ [.shutdown]))) := by
  rw [career_concat]
  have hidle := (filed_idle_career p config s ops).2.tasks
  have hshutdown := estate_shutdown (p := p)
    (v := { estate (career p config s ops) with op := some .shutdown }) rfl
  exact hshutdown { career p config s ops with
    platform := ((career p config s ops).platform.1, .begun .shutdown :: (career p config s ops).platform.2) }
    ⟨rfl, hidle⟩

/-- In any run, what was made and is neither closed nor recorded was forgotten by a shutdown. -/
theorem lacks_career (ops : List Operation) : ∃ lost, (estate (career p config s ops)).Lacks lost ∧
    (lost = [] ↔ ∀ done op, done ++ [op] <+: ops → ¬Forgets p config s done op) := by
  induction ops using List.reverseRecOn with
  | nil => exact ⟨[], (estate_start _ ⟨rfl, rfl⟩).1, by simp⟩
  | append_singleton ops op ih =>
    obtain ⟨lost, hlost, hnone⟩ := ih
    rw [forall_step_concat, ← hnone]
    by_cases hop : op = .shutdown
    · subst hop
      obtain ⟨done, hdone, hsettled⟩ := settled_career p config s ops
      obtain ⟨rest, hall, hrest⟩ := hdone.exists_rest
      refine ⟨rest ++ lost, ?_, ?_⟩
      · rw [hsettled]
        exact hlost.settle hall
      · have hclosings := congrArg Estate.closings hsettled
        have hforgets : Forgets p config s ops .shutdown ↔
            (career p config s ops).client.arbiter ≠ .null ∧
              (career p config s ops).client.lifecycleEvent ≠ .null ∧
              ∃ e, done = [((career p config s ops).client.arbiter, .error e)] := by
          constructor
          · rintro ⟨-, harbiter, hevent, e, hfailed⟩
            exact ⟨harbiter, hevent, e, List.append_cancel_left (hclosings.symm.trans hfailed)⟩
          · rintro ⟨harbiter, hevent, e, rfl⟩
            exact ⟨rfl, harbiter, hevent, e, hclosings⟩
        rw [List.append_eq_nil_iff, hrest, hforgets]
        rfl
    · refine ⟨lost, ?_, ?_⟩
      · rwa [estate_career_of_ne_shutdown p config s ops hop]
      · have hkept : ¬Forgets p config s ops op := fun h => hop h.shutdown
        simp [hkept]

/-- Each handle that was made for the loader has been closed once or is still recorded, exactly if no
shutdown forgot its event. A shutdown leaves none recorded, and a loader that failed to start has closed
what was made for it. -/
theorem career_belongings_iff (ops : List Operation) :
    ((made (career p config s ops).platform.2).Perm
        ((ownClosings (career p config s ops).platform.2).map Prod.fst ++
          (career p config s ops).client.belongings) ↔
      ∀ done op, done ++ [op] <+: ops → ¬Forgets p config s done op) ∧
    (career p config s (ops ++ [.shutdown])).client.belongings = [] ∧
    ∀ e, (start (watch p) (machine config (s, []))).1 = .error e →
      (made (career p config s []).platform.2).Perm
        ((ownClosings (career p config s []).platform.2).map Prod.fst) := by
  obtain ⟨lost, hlost, hnone⟩ := lacks_career p config s ops
  refine ⟨hlost.perm_iff.trans hnone, ?_, ?_⟩
  · obtain ⟨done, -, hsettled⟩ := settled_career p config s ops
    exact congrArg Estate.belongings hsettled
  · intro e he
    obtain ⟨hstart, hfailed⟩ := estate_start (p := p) (machine config (s, [])) ⟨rfl, rfl⟩
    have hall := hstart.perm_iff.mpr rfl
    rw [hfailed e he, List.append_nil] at hall
    exact hall

end Service

/-- The smallest platform, but that it has no events. -/
def Platform.Stub.eventless : Platform Stub where
  answer
    | .createLifecycleEvent, s => (.error .notSupported, s)
    | c, s => Stub.answer c s

/-- The smallest platform, but that it refuses to close handles. -/
def Platform.Stub.grasping : Platform Stub where
  answer
    | .close _, s => (.error .invalidArgument, s)
    | c, s => Stub.answer c s

namespace Service

/-- Without an event the loader does not start, and its arbiter is closed. -/
theorem career_belongings_iff_eventless :
    made (career Stub.eventless .default .initial []).platform.2 = [⟨0x100⟩] ∧
      (made (career Stub.eventless .default .initial []).platform.2).Perm
        ((ownClosings (career Stub.eventless .default .initial []).platform.2).map Prod.fst) :=
  ⟨by decide +kernel, (career_belongings_iff Stub.eventless .default .initial []).2.2
    (.ofPlatform .notSupported) (by decide +kernel)⟩

/-- The lifecycle event is neither closed nor recorded any more, and a second shutdown does not help. -/
theorem forgotten_of_refused_close :
    (career Stub.grasping .default .initial []).client.belongings = [⟨0x100⟩, ⟨0x101⟩] ∧
      (career Stub.grasping .default .initial [.shutdown]).client.belongings = [] ∧
      ownClosings (career Stub.grasping .default .initial [.shutdown, .shutdown]).platform.2 =
        [(⟨0x100⟩, .error .invalidArgument)] := by
  decide +kernel

end Service
end PluginSlot
