import PluginSlot.Proofs.Loader.Standing

/-!
The trail that the loader leaves: what it tells the plugin, what it publishes, unmaps and releases, in
this order, and which teardowns it records. The trail is followed together with the standing, because
what is released depends on whose host is there.
-/
namespace PluginSlot
open Platform Loader

namespace Loader

/-- What others notice of an operation. -/
inductive Deed where
  | told (event : Int32)
  | published (id : UInt32)
  | unmapped (target : Kernel.Handle)
  /-- A handle that was passed to the loader is closed. -/
  | released (h : Kernel.Handle)
deriving DecidableEq

namespace Deed

def concern : Deed → Concern
  | told _ => .signal
  | published _ => .publish
  | unmapped _ => .unmap
  | released _ => .close

theorem concern_mem (d : Deed) : d.concern ∈ [.signal, .publish, .unmap, .close] := by
  cases d <;> simp [concern]

def published? : Deed → Option UInt32
  | published id => some id
  | _ => none

def released? : Deed → Option Kernel.Handle
  | released h => some h
  | _ => none

end Deed

def Event.isTeardown : Event → Bool
  | .teardownQueued _ | .teardownDone _ => true
  | _ => false

def Journal.teardowns (j : Journal) : List Event := (j.records.map (·.event)).filter Event.isTeardown

/-- What a call comes to in the course of an operation. A shutdown also closes the loader's own
handles, which nobody passed to it. -/
def deed? (op : Service.Operation) (target : Kernel.Handle) : Call → Option Deed
  | .signal _ .event value => some (.told value)
  | .publish id => some (.published id)
  | .unmap target _ => some (.unmapped target)
  | .close h => if op ≠ .shutdown ∨ h = target then some (.released h) else none
  | _ => none

/-- The operation that began last. -/
def underway : List Sighting → Option Service.Operation
  | [] => none
  | .begun op :: _ => some op
  | .called _ _ _ :: earlier => underway earlier

/-- The deeds of all operations, oldest first. -/
def deeds : List Sighting → List Deed
  | [] => []
  | .begun _ :: earlier => deeds earlier
  | .called l c _ :: earlier =>
    deeds earlier ++ ((underway earlier).bind fun op => deed? op l.target c).toList

/-- There is nothing to show before the first operation. -/
theorem deeds_of_underway {trace : List Sighting} (h : underway trace = none) : deeds trace = [] := by
  induction trace with
  | nil => rfl
  | cons sighting earlier ih =>
    cases sighting with
    | begun op => cases h
    | called l c a =>
      have hnone : underway earlier = none := h
      rw [deeds, ih hnone, hnone]
      rfl

structure Trail where
  op : Option Service.Operation
  deeds : List Deed
  /-- The events of teardowns in the full journal. -/
  teardowns : List Event

namespace Trail

def extend (t : Trail) (done : List Deed) (filed : List Event) : Trail :=
  { t with deeds := t.deeds ++ done, teardowns := t.teardowns ++ filed }

@[simp]
theorem extend_nil (t : Trail) : t.extend [] [] = t := by simp [extend]

@[simp]
theorem extend_extend (t : Trail) (done done' : List Deed) (filed filed' : List Event) :
    (t.extend done filed).extend done' filed' = t.extend (done ++ done') (filed ++ filed') := by
  simp [extend]

/-- Only deeds about these concerns are added. -/
def Grows (cs : List Concern) (t u : Trail) : Prop :=
  ∃ done, (∀ d ∈ done, d.concern ∈ cs) ∧ u = t.extend done []

theorem Grows.refl (cs : List Concern) (t : Trail) : t.Grows cs t := ⟨[], nofun, t.extend_nil.symm⟩

theorem Grows.trans {cs : List Concern} {t u w : Trail} (htu : t.Grows cs u) (huw : u.Grows cs w) :
    t.Grows cs w := by
  obtain ⟨done, hdone, rfl⟩ := htu
  obtain ⟨done', hdone', rfl⟩ := huw
  refine ⟨done ++ done', fun d hd => ?_, by rw [extend_extend, List.nil_append]⟩
  exact (List.mem_append.mp hd).elim (hdone d) (hdone' d)

end Trail

/-- The memory of a plugin is unmapped, if at all, before its host is released. -/
def Released (target : Kernel.Handle) (done : List Deed) : Prop :=
  ∃ unmaps : List Deed, (∀ d ∈ unmaps, d.concern = .unmap) ∧ done = unmaps ++ [.released target]

/-- A plugin that runs is told that its host exits; one that is swapped out could not answer. -/
def farewell (state : SlotState) : List Deed :=
  if state = .running then [.told Handshake.aboutToExit] else []

/-- What a notification adds to the trail. Whatever it does, it publishes once that it was handled. -/
inductive Trail.Answered (v : Standing) (t : Trail) : Trail → Prop where
  | exited (h : Wire.Status.eventOf v.status = Wire.Status.exitEvent) (hs : v.state ≠ .empty)
      {done : List Deed} (hdone : Released v.target done) :
      Answered v t (t.extend (farewell v.state ++ .published lifecycleHandled :: done)
        [.teardownQueued v.target, .teardownDone v.target])
  | swapped (h : Wire.Status.eventOf v.status = Wire.Status.swapEvent)
      {done : List Deed} (hdone : ∀ d ∈ done, d.concern = .signal ∨ d.concern = .unmap) :
      Answered v t (t.extend (done ++ [.published lifecycleHandled]) [])
  | nothing (h : v.state = .empty ∨ Wire.Status.eventOf v.status ≠ Wire.Status.exitEvent) :
      Answered v t (t.extend [.published lifecycleHandled] [])

variable {σ α β : Type} {p : Platform σ}

def trail (m : Machine Loader (σ × List Sighting)) : Trail :=
  ⟨underway m.platform.2, deeds m.platform.2, (fullJournal m).teardowns⟩

section trail
variable (m : Machine Loader (σ × List Sighting))

theorem trail_call {c : Call} (hc : c ≠ .now) : trail (watch p c m).2 = (trail m).extend
    ((trail m).op.bind fun op => deed? op m.client.target c).toList [] := by
  have hfull := congrArg Journal.teardowns (fullJournal_call (p := p) hc m)
  simp only [trail, Trail.extend, hfull, List.append_nil]
  rfl

theorem trail_record (event : Event) (hm : 0 < m.client.journal.capacity) :
    trail (record event (watch p) m).2 =
      (trail m).extend [] (if event.isTeardown then [event] else []) := by
  have hfull := records_fullJournal_record (p := p) m event hm
  have hdeeds : deeds (record event (watch p) m).2.platform.2 = deeds m.platform.2 := by
    show deeds m.platform.2 ++ ((underway m.platform.2).bind fun _ => none).toList = _
    cases underway m.platform.2 <;> exact List.append_nil _
  simp only [trail, Trail.extend, Journal.teardowns, hfull, hdeeds, List.map_append, List.append_nil,
    List.filter_append]
  cases event <;> rfl

/-- Of the loader only the journal counts. -/
theorem trail_client {l : Loader} (hl : l.journal = m.client.journal) :
    trail { m with client := l } = trail m := by
  simp only [trail, fullJournal_client hl]

end trail

theorem concern?_of_deed? {op : Service.Operation} {target : Kernel.Handle} {c : Call} {d : Deed}
    (hd : deed? op target c = some d) : c.concern? = some d.concern := by
  unfold deed? at hd
  split at hd
  case h_4 =>
    split at hd
    · cases hd
      rfl
    · cases hd
  all_goals
    cases hd
    try rfl

/-- What a computation is about tells what it adds to the trail. -/
theorem bears_grows {cs : List Concern} (hcs : .teardown ∉ cs) (t : Trail) :
    Bears (watch p) cs fun m => Filed m ∧ t.Grows cs (trail m) where
  call c hc hk := by
    intro m ⟨hfiled, hm⟩
    refine ⟨filed_call hc hfiled, ?_⟩
    show t.Grows cs (trail (watch p c m).2)
    rw [trail_call m hc]
    refine hm.trans ⟨_, fun d hd => ?_, rfl⟩
    obtain ⟨op, -, hd⟩ := Option.bind_eq_some_iff.mp (Option.mem_toList.mp hd)
    exact Concern.within_some.mp (concern?_of_deed? hd ▸ hk)
  words _ _ hm := hm
  record event hk := by
    intro m ⟨hfiled, hm⟩
    refine ⟨filed_record m event hfiled, ?_⟩
    have hother : event.isTeardown = false := by
      cases event with
      | teardownQueued | teardownDone => exact absurd (Concern.within_some.mp hk) hcs
      | _ => rfl
    rw [trail_record m event hfiled.capacity, hother]
    simpa using hm
  status _ value m hm := by
    refine ⟨filed_call (p := p) (c := .writeStatus value) nofun hm.1, ?_⟩
    show t.Grows cs (trail (watch p (.writeStatus value) m).2)
    rw [trail_call (c := .writeStatus value) m nofun]
    cases (trail m).op <;> simpa [deed?] using hm.2
  settings _ m l _ _ _ _ _ hjournal _ hm :=
    ⟨filed_client hjournal hm.1, (trail_client m hjournal).symm ▸ hm.2⟩
  parameters _ _ _ _ hm := hm
  handles _ _ _ _ hm := hm
  block _ _ _ _ _ _ hm := hm
  slot _ m l hjournal _ hm := ⟨filed_client hjournal hm.1, (trail_client m hjournal).symm ▸ hm.2⟩

/-- Where a computation leads from a standing and a trail, while the journal is kept in order. -/
def Traces (p : Platform σ) (v : Standing) (t : Trail) (x : Act Loader (σ × List Sighting) α)
    (Q : α → Standing → Trail → Prop) : Prop :=
  x.Ensures (watch p) (fun m => Filed m ∧ standing m = v ∧ trail m = t)
    fun a m => Filed m ∧ Q a (standing m) (trail m)

/-- The concerns that show neither in the standing nor in the trail. -/
def Concern.silent : List Concern :=
  [.schedule, .inject, .map, .writeSwap, .readSwap, .title, .flash, .parameters, .handles, .settings,
    .block]

section
variable {v : Standing} {t : Trail} {cs : List Concern} {x : Act Loader (σ × List Sighting) α}
  {g : α → Act Loader (σ × List Sighting) β} {Q Q' : α → Standing → Trail → Prop}
  {R : α → Standing → Prop} {S : β → Standing → Trail → Prop}

theorem Traces.pure {a : α} (hQ : Q a v t) : Traces p v t (Pure.pure a) Q := by
  rintro m ⟨hfiled, rfl, rfl⟩
  exact ⟨hfiled, hQ⟩

theorem Traces.bind (hx : Traces p v t x Q) (hg : ∀ a w u, Q a w u → Traces p w u (g a) S) :
    Traces p v t (x >>= g) S := by
  intro m hm
  obtain ⟨hfiled, hQ⟩ := hx m hm
  exact hg _ _ _ hQ _ ⟨hfiled, rfl, rfl⟩

/-- The point to which the first computation leads is known. -/
theorem Traces.then {v' : Standing} {t' : Trail} (hx : Traces p v t x fun _ w u => w = v' ∧ u = t')
    (hg : ∀ a, Traces p v' t' (g a) S) : Traces p v t (x >>= g) S := by
  refine .bind hx ?_
  rintro a w u ⟨rfl, rfl⟩
  exact hg a

/-- What is known of the standing anyway. -/
theorem Traces.with (hx : Traces p v t x Q) (hR : Turns p (· = v) x R) :
    Traces p v t x fun a w u => R a w ∧ Q a w u :=
  fun m hm => ⟨(hx m hm).1, (hR m ⟨hm.1, hm.2.1⟩).2, (hx m hm).2⟩

theorem Traces.imp (hx : Traces p v t x Q) (hQ : ∀ a w u, Q a w u → Q' a w u) : Traces p v t x Q' :=
  fun m hm => (hx m hm).imp id (hQ _ _ _)

theorem Traces.client {g : Loader → Act Loader (σ × List Sighting) β}
    (hg : ∀ l, v.Fits l → Traces p v t (g l) S) : Traces p v t (Act.client >>= g) S := by
  rintro m ⟨hfiled, rfl, rfl⟩
  exact hg m.client ⟨rfl, rfl, rfl, rfl⟩ m ⟨hfiled, rfl, rfl⟩

theorem Traces.status {g : UInt32 → Act Loader (σ × List Sighting) β}
    (hg : Traces p v t (g v.status) S) : Traces p v t (Act.status >>= g) S := by
  rintro m ⟨hfiled, rfl, rfl⟩
  exact hg m ⟨hfiled, rfl, rfl⟩

/-- What is known of the standing holds along the trail. -/
theorem Turns.traces (hx : Turns p (· = v) x R) (hw : Within cs x) (hcs : .teardown ∉ cs) :
    Traces p v t x fun a w u => R a w ∧ t.Grows cs u := by
  rintro m ⟨hfiled, hv, rfl⟩
  obtain ⟨hfiled', hR⟩ := hx m ⟨hfiled, hv⟩
  exact ⟨hfiled', hR, (hw _ _ (bears_grows hcs _) m ⟨hfiled, .refl cs _⟩).2⟩

/-- Concerns of which no deed is lead nowhere. -/
theorem Trail.Grows.eq {t u : Trail} (h : t.Grows cs u) (hcs : ∀ k ∈ cs,
    k ∉ [.signal, .publish, .unmap, .close]) : u = t := by
  obtain ⟨done, hdone, rfl⟩ := h
  have hnone : done = [] := by
    exact List.eq_nil_iff_forall_not_mem.mpr fun d hd => hcs _ (hdone d hd) d.concern_mem
  rw [hnone, extend_nil]

/-- The standing changes, and nobody notices. -/
theorem Turns.unseen (hx : Turns p (· = v) x R) (hw : Within cs x)
    (hcs : ∀ k ∈ cs, k ∉ [.signal, .publish, .unmap, .close, .teardown]) :
    Traces p v t x fun a w u => R a w ∧ u = t := by
  have hteardown : .teardown ∉ cs := fun h => hcs _ h (by decide)
  refine (hx.traces hw hteardown).imp fun a w u ⟨hR, hu⟩ => ⟨hR, hu.eq fun k hk hdeed => hcs k hk ?_⟩
  exact List.mem_append_left [.teardown] hdeed

theorem Within.silent (hx : Within cs x) (hcs : cs ⊆ Concern.silent) :
    Traces p v t x fun _ w u => w = v ∧ u = t := by
  have hstill : Still p x := (hx.mono hcs).still (by decide)
  exact (hstill (· = v)).unseen (hx.mono hcs) (by decide)

/-- Something comes first that shows nowhere. -/
theorem Within.first (hx : Within cs x) (hcs : cs ⊆ Concern.silent)
    (hg : ∀ a, Traces p v t (g a) S) : Traces p v t (x >>= g) S := .then (hx.silent hcs) hg

theorem traces_modify {e : Loader → Loader} (w : Standing)
    (he : ∀ l, (e l).journal = l.journal ∧ (e l).fixtures = l.fixtures)
    (hw : ∀ m : Machine Loader (σ × List Sighting), standing m = v →
      standing { m with client := e m.client } = w) :
    Traces p v t (Act.modifyClient e) fun _ w' u => w' = w ∧ u = t :=
  (turns_modify (fun l => (he l).1) hw).unseen (within_modify (List.mem_singleton_self _) he) (by decide)

/-- A teardown is recorded. -/
theorem traces_record {event : Event} (he : event.isTeardown = true) :
    Traces p v t (record event) fun _ w u => w = v ∧ u = t.extend [] [event] := by
  have hother : event.isTransition = false := by
    cases event <;> first | rfl | cases he
  rintro m ⟨hfiled, hv, rfl⟩
  obtain ⟨hfiled', hstill⟩ := (peripheral_record hother).still (p := p) (· = v) m ⟨hfiled, hv⟩
  refine ⟨hfiled', hstill, ?_⟩
  rw [trail_record m event hfiled.capacity, he]
  rfl

/-- What a call comes to is added to the trail. -/
theorem traces_call {c : Call} (hc : c ≠ .now) {op : Service.Operation} (hop : t.op = some op) :
    Traces p v t (Act.call c) fun _ w u => w = v ∧ u = t.extend (deed? op v.target c).toList [] := by
  rintro m ⟨hfiled, rfl, rfl⟩
  obtain ⟨hfiled', hstill⟩ := still_call (p := p) hc (· = standing m) m ⟨hfiled, rfl⟩
  refine ⟨hfiled', hstill, ?_⟩
  show trail (watch p c m).2 = _
  rw [trail_call m hc, hop]
  rfl

end

section steps
variable {v : Standing} {t : Trail} {target : Kernel.Handle} {op : Service.Operation}

theorem traces_unmount (target : Kernel.Handle) :
    Traces p v t (onBlockAct (·.unmount target)) fun _ w u =>
      w = v ∧ ∃ unmaps : List Deed, (∀ d ∈ unmaps, d.concern = .unmap) ∧ u = t.extend unmaps [] := by
  refine ((still_unmount target (· = v)).traces (within_unmount target) (by decide)).imp ?_
  rintro r _ _ ⟨rfl, unmaps, hunmaps, rfl⟩
  refine ⟨rfl, unmaps, fun d hd => ?_, rfl⟩
  have hconcern := hunmaps d hd
  cases d <;> simp [Deed.concern] at hconcern ⊢

variable (hop : t.op = some op)

section
include hop

theorem traces_release {h : Kernel.Handle} (hh : op ≠ .shutdown ∨ h = v.target) :
    Traces p v t (Act.call (.close h)) fun _ w u => w = v ∧ u = t.extend [.released h] [] := by
  refine (traces_call (by nofun) hop).imp fun _ w u ⟨hw, hu⟩ => ⟨hw, ?_⟩
  rw [hu, deed?, if_pos hh]
  rfl

theorem traces_publish (id : UInt32) :
    Traces p v t (Act.call (.publish id)) fun _ w u => w = v ∧ u = t.extend [.published id] [] :=
  traces_call (by nofun) hop

/-- The plugin is told of the event that was just written. -/
theorem traces_notify (arbiter : Kernel.Handle) (event : Int32) :
    Traces p v t (Handshake.notify arbiter event) fun _ w u => w = v ∧ u = t.extend [.told event] [] :=
  fun m hm => traces_call (c := .signal arbiter .event event) (by nofun) hop
    { m with words := (m.words.set .reply Handshake.awaiting).set .event event } hm

theorem traces_shakeHands (arbiter : Kernel.Handle) (event : Int32) (kind : HandshakeKind) :
    Traces p v t (shakeHands arbiter event kind) fun _ w u =>
      w = v ∧ u = t.extend [.told event] [] := by
  have hask : Traces p v t (askPlugin arbiter event) fun _ w u =>
      w = v ∧ u = t.extend [.told event] [] := by
    refine .then (traces_notify hop arbiter event) fun answer => ?_
    cases answer with
    | error e => exact .pure ⟨rfl, rfl⟩
    | ok _ =>
      exact within_client.first (List.nil_subset _) fun l =>
        (within_waitForReply arbiter _).silent (List.nil_subset _)
  refine .then hask fun answer => ?_
  split
  · exact .pure ⟨rfl, rfl⟩
  all_goals
    exact (within_debug _).first (List.nil_subset _) fun _ =>
      (within_record rfl).silent (List.nil_subset _)

/-- The host is released at the end of a teardown, whatever fails, and the teardown is recorded. -/
theorem traces_teardown : Traces p v t (teardown v.target) fun _ w u => w = v.vacate ∧
    ∃ done, Released v.target done ∧ u = t.extend done [.teardownDone v.target] := by
  have hempty {u : Trail} : Traces p v u (do
      Act.modifyClient fun l =>
        { l with
          target := .null
          exitPending := false
          exeLoad := .unset
          block := l.block.resetSwap
          uiBlocked := false }
      Act.setWord .event Handshake.ok
      transition .empty
      record (.teardownDone v.target)) fun _ w u' =>
        w = v.vacate ∧ u' = u.extend [] [.teardownDone v.target] := by
    have hgone : Turns p (· = { v with target := .null, exitPending := false }) (transition .empty)
        fun _ => (· = v.vacate) := (turns_transition .empty).weaken fun _ hw => hw ▸ rfl
    refine .then (traces_modify { v with target := .null, exitPending := false } (fun _ => ⟨rfl, rfl⟩)
      fun m hm => hm ▸ rfl) fun _ => ?_
    refine (within_setWord _ _).first (List.nil_subset _) fun _ => ?_
    exact .then (hgone.unseen (within_transition .empty) (by decide)) fun _ => traces_record rfl
  have hclose {u : Trail} {unmaps : List Deed} (hu : u = t.extend unmaps [])
      (hunmaps : ∀ d ∈ unmaps, d.concern = .unmap) {rest : Act Loader (σ × List Sighting) Unit}
      (hrest : ∀ {u}, Traces p v u rest fun _ w u' =>
        w = v.vacate ∧ u' = u.extend [] [.teardownDone v.target]) : Traces p v u (do
      debugRegion "[plgldr] free on exit failed: " (← onBlock (·.discard))
      debugPlatform "[plgldr] close target failed: " (← Act.call (.close v.target))
      rest) fun _ w u' => w = v.vacate ∧
        ∃ done, Released v.target done ∧ u' = t.extend done [.teardownDone v.target] := by
    refine within_discard.first (by decide) fun r => ?_
    refine (within_debugRegion _ r).first (List.nil_subset _) fun _ => ?_
    have huop : u.op = some op := hu ▸ hop
    refine .then (traces_release huop (.inr rfl)) fun closed => ?_
    refine (within_debugPlatform _ closed).first (List.nil_subset _) fun _ => ?_
    refine hrest.imp fun _ w u' ⟨hw, hu'⟩ => ⟨hw, _, ⟨unmaps, hunmaps, rfl⟩, ?_⟩
    simp [hu', hu]
  refine Traces.client fun l hl => ?_
  rw [if_neg fun hne => hne hl.target.symm]
  dsimp only
  split
  · refine .bind (traces_unmount v.target) ?_
    rintro r w u ⟨rfl, unmaps, hunmaps, hu⟩
    exact (within_debugRegion _ r).first (List.nil_subset _) fun _ => hclose hu hunmaps hempty
  · exact hclose t.extend_nil.symm (by nofun) hempty

end

theorem traces_runPendingTasks {S : Standing → Trail → Prop}
    (hrun : Traces p { v with tasks := .empty } t (runTasks v.tasks.entries) fun _ => S) :
    Traces p v t runPendingTasks fun _ => S := by
  refine Traces.client fun l hl => ?_
  rw [← hl.tasks]
  refine .then (traces_modify { v with tasks := .empty } (fun _ => ⟨rfl, rfl⟩) fun m hm => hm ▸ rfl) ?_
  intro _
  exact .bind hrun fun _ _ _ h => .pure h

theorem traces_runPendingTasks_of_idle (hv : v.Idle) :
    Traces p v t runPendingTasks fun _ w u => w = v ∧ u = t := by
  have hnone : v.tasks.entries = [] := congrArg TaskQueue.entries hv.tasks
  apply traces_runPendingTasks
  rw [hnone, ← hv.tasks]
  exact .pure ⟨rfl, rfl⟩

/-- Whatever handles of its own the loader closes when it shuts down, it releases none. -/
theorem traces_closeEach (hshutdown : t.op = some .shutdown) (hv : v.target = .null)
    (hs : List Kernel.Handle) : Traces p v t (closeEach hs) fun _ w u => w = v ∧ u = t := by
  induction hs with
  | nil => exact .pure ⟨rfl, rfl⟩
  | cons h hs ih =>
    rw [closeEach]
    split
    · exact ih
    case isFalse hh =>
      have hown : Traces p v t (Act.call (.close h)) fun _ w u => w = v ∧ u = t := by
        refine (traces_call (fun h => by cases h) hshutdown).imp fun _ w u hcall => ⟨hcall.1, ?_⟩
        have hother : ¬(Service.Operation.shutdown ≠ .shutdown ∨ h = v.target) := by
          rintro (hne | heq)
          · exact hne rfl
          · exact hh (h.isNull_iff.mpr (heq.trans hv))
        rw [hcall.2, deed?, if_neg hother]
        exact t.extend_nil
      refine .then hown fun answer => ?_
      cases answer with
      | error e => exact .pure ⟨rfl, rfl⟩
      | ok _ => exact ih

/-- The loader's own handles are no deed. -/
theorem traces_closeHandles (hshutdown : t.op = some .shutdown) (hv : v.target = .null) :
    Traces p v t (do
      let l ← Act.client
      Act.modifyClient ({ · with arbiter := .null, lifecycleEvent := .null })
      match ← closeEach [l.arbiter, l.lifecycleEvent] with
      | .error e => pure (.error e)
      | .ok _ =>
        Act.debug "[plgldr] shutdown"
        pure (.ok ()) : Act Loader (σ × List Sighting) (Except Error Unit))
      fun _ w u => w = v ∧ u = t := by
  refine within_client.first (List.nil_subset _) fun l => ?_
  refine (within_handles (List.mem_singleton_self _) _ _).first (by decide) fun _ => ?_
  refine .then (traces_closeEach hshutdown hv _) fun answer => ?_
  cases answer with
  | error e => exact .pure ⟨rfl, rfl⟩
  | ok _ => exact (within_debug _).first (List.nil_subset _) fun _ => .pure ⟨rfl, rfl⟩

/-- A shutdown tears the plugin down, if its host is known. -/
theorem traces_shutdown (hshutdown : t.op = some .shutdown) (hv : v.Idle) :
    Traces p v t shutdown fun _ w u => v.target = .null ∧ w = v ∧ u = t ∨ v.target ≠ .null ∧
      w = v.vacate ∧ ∃ done, Released v.target done ∧ u = t.extend done [.teardownDone v.target] := by
  refine .then (traces_runPendingTasks_of_idle hv) fun _ => Traces.client fun l hl => ?_
  dsimp only
  rw [← hl.target]
  split
  case isTrue hhost =>
    have hloaded : v.target ≠ .null := mt v.target.isNull_iff.mpr (by simpa using hhost)
    refine .bind (traces_teardown hshutdown) ?_
    rintro _ _ _ ⟨rfl, done, hdone, rfl⟩
    refine (traces_closeHandles (by exact hshutdown) rfl).imp ?_
    rintro _ _ _ ⟨rfl, rfl⟩
    exact .inr ⟨hloaded, rfl, done, hdone, rfl⟩
  case isFalse hhost =>
    have hnull : v.target = .null := v.target.isNull_iff.mp (by simpa using hhost)
    exact (traces_closeHandles hshutdown hnull).imp fun _ _ _ h => .inl ⟨hnull, h⟩

include hop

theorem traces_runPendingTasks_of_leaving (hv : v.Idle) :
    Traces p { v with exitPending := true, tasks := ⟨[.teardown v.target]⟩ } t runPendingTasks
      fun _ w u => w = v.vacate ∧
        ∃ done, Released v.target done ∧ u = t.extend done [.teardownDone v.target] := by
  have hleft : { v with exitPending := true, tasks := .empty }.vacate = v.vacate := by
    rw [← hv.tasks]
    rfl
  apply traces_runPendingTasks
  refine .bind ((traces_teardown hop).imp fun _ w u h => ?_) fun _ _ _ h => .pure h
  rwa [← hleft]

/-- Every load that does not end with a running plugin releases its target at once. -/
theorem traces_load (hv : v.Idle) (hload : op ≠ .shutdown) :
    Traces p v t (load target) fun _ w u => w = v ∧ u = t.extend [.released target] [] ∨
      v.state = .empty ∧ w = v.occupy target ∧ u = t := by
  refine .then (traces_runPendingTasks_of_idle hv) fun _ => Traces.client fun l hl => ?_
  split
  case isTrue =>
    refine (within_debug _).first (List.nil_subset _) fun _ => ?_
    exact .bind (traces_release hop (.inl hload)) fun _ _ _ h => .pure (.inl h)
  case isFalse hstate =>
    have hempty : v.state = .empty := hl.state.trans (Decidable.of_not_not hstate)
    split
    · refine .bind (traces_release hop (.inl hload)) fun closed _ _ h => ?_
      cases closed <;> exact .pure (.inl h)
    · refine (within_setWord _ _).first (List.nil_subset _) fun _ => ?_
      refine .then (traces_modify { v with target := target } (fun _ => ⟨rfl, rfl⟩) fun m hm => hm ▸ rfl) ?_
      intro _
      refine (within_inject target).first (by decide) fun answer => ?_
      cases answer with
      | ok noFlash =>
        have hrun : Turns p (· = { v with target := target }) (finishLoad target noFlash)
            fun _ => (· = v.occupy target) := (turns_finishLoad noFlash).weaken fun _ hw => hw ▸ rfl
        refine .then (hrun.unseen (within_finishLoad target noFlash) (by decide)) fun _ => ?_
        exact .pure (.inr ⟨hempty, rfl, rfl⟩)
      | error e =>
        have habandon : Traces p { v with target := target } t (abandonLoad target e) fun _ w u =>
            w = v ∧ u = t.extend [.released target] [] := by
          refine within_discard.first (by decide) fun _ => ?_
          refine within_client.first (List.nil_subset _) fun l => ?_
          have hback : { v with target := Kernel.Handle.null } = v := by rw [← hv.target hempty]
          refine .then (traces_modify v (fun _ => ⟨rfl, rfl⟩) fun m hm => ?_) fun _ => ?_
          · exact .trans (congrArg (fun w : Standing => { w with target := .null }) hm) hback
          refine .then (traces_release hop (.inl hload)) fun _ => ?_
          exact (within_debug _).first (List.nil_subset _) fun _ =>
            (within_record rfl).silent (List.nil_subset _)
        exact .then habandon fun _ => .pure (.inl ⟨rfl, rfl⟩)

/-- The farewell comes first; then the teardown is put off, and this is recorded. -/
theorem traces_onExit (hv : v.Idle) (hs : v.state ≠ .empty) (word : UInt32) :
    Traces p v t (onExit word) fun r w u => r = .ok () ∧
      w = { v with exitPending := true, tasks := ⟨[.teardown v.target]⟩ } ∧
      u = t.extend (farewell v.state) [.teardownQueued v.target] := by
  have hqueue {l : Loader} (hl : v.Fits l) {u : Trail} (hu : u = t.extend (farewell v.state) []) :
      Traces p v u (do
        Act.modifyClient fun now =>
          { now with exitPending := true, tasks := (now.tasks.push (.teardown l.target)).2 }
        record (.teardownQueued l.target)
        pure (.ok ()) : Act Loader (σ × List Sighting) (Except Error Unit)) fun r w u' => r = .ok () ∧
          w = { v with exitPending := true, tasks := ⟨[.teardown v.target]⟩ } ∧
          u' = t.extend (farewell v.state) [.teardownQueued v.target] := by
    rw [← hl.target]
    refine .then (traces_modify { v with exitPending := true, tasks := ⟨[.teardown v.target]⟩ }
      (fun _ => ⟨rfl, rfl⟩) fun m hm => ?_) fun _ => .then (traces_record rfl) fun _ => ?_
    · have htasks : m.client.tasks = .empty := (congrArg Standing.tasks hm).trans hv.tasks
      show { standing m with
        exitPending := true, tasks := (m.client.tasks.push (.teardown v.target)).2 } = _
      rw [htasks, hm]
      rfl
    · exact .pure ⟨rfl, rfl, by simp [hu]⟩
  refine Traces.client fun l hl => ?_
  rw [if_neg (hl.state ▸ hs), if_neg (Bool.eq_false_iff.mp (hl.exitPending.symm.trans hv.exitPending))]
  dsimp only
  split
  case isTrue hrunning =>
    refine .then (traces_shakeHands hop _ _ _) fun _ => hqueue hl ?_
    rw [farewell, if_pos (hl.state.trans hrunning)]
  case isFalse hheld =>
    refine hqueue hl ?_
    rw [farewell, if_neg (hl.state ▸ hheld), t.extend_nil]

theorem traces_handleNotification (hv : v.Idle) :
    Traces p v t handleNotification fun r w u => v.Notified r w ∧ t.Answered v u := by
  have hidle := hv.consume
  have hrest (result : Except Error Unit) {w : Standing} (hw : w.Idle) (done : List Deed) :
      Traces p w (t.extend done []) (do
        Act.call (.publish lifecycleHandled)
        let _ ← runPendingTasks
        pure result) fun _ _ u => u = t.extend (done ++ [.published lifecycleHandled]) [] := by
    refine .then (traces_publish (by exact hop) _) fun _ => .then (traces_runPendingTasks_of_idle hw) ?_
    exact fun _ => .pure (by simp)
  have hnothing (result : Except Error Unit)
      (h : v.state = .empty ∨ Wire.Status.eventOf v.status ≠ Wire.Status.exitEvent) :
      Traces p v.consume t (do
        Act.call (.publish lifecycleHandled)
        let _ ← runPendingTasks
        pure result) fun _ _ u => t.Answered v u := by
    have hpublished := hrest result hidle []
    rw [t.extend_nil] at hpublished
    exact hpublished.imp fun _ _ u hu => hu ▸ .nothing h
  have hconsume : Turns p (· = v) (Act.setStatus (Wire.Status.stateOf v.status))
      fun _ => (· = v.consume) := turns_setStatus_eq _
  have hstatus := hconsume.unseen (within_setStatus (List.mem_singleton_self _) _) (t := t) (by decide)
  refine Traces.with (Traces.status (.then hstatus fun _ => ?_)) (turns_handleNotification hv)
  dsimp only
  split
  case isTrue hnone =>
    exact .then (.pure ⟨rfl, rfl⟩) fun _ => hnothing _ (.inr (by rw [hnone]; decide))
  case isFalse hsome =>
    split
    case isTrue hexit =>
      by_cases hs : v.state = .empty
      · have hrefused : Traces p v.consume t (onExit v.status) fun _ w u => w = v.consume ∧ u = t := by
          refine Traces.client fun l hl => ?_
          rw [if_pos (hl.state.symm.trans hs)]
          exact (within_unexpected _).silent (List.nil_subset _)
        exact .then hrefused fun r => hnothing r (.inl hs)
      · refine .bind (traces_onExit hop hidle hs v.status) ?_
        rintro r _ _ ⟨rfl, rfl, rfl⟩
        refine .then (traces_publish (by exact hop) _) fun _ => ?_
        refine .bind (traces_runPendingTasks_of_leaving (by exact hop) hidle) ?_
        rintro _ _ _ ⟨-, done, hdone, rfl⟩
        have hexited := Trail.Answered.exited (t := t) hexit hs hdone
        refine .pure ?_
        show t.Answered v (((t.extend (farewell v.state) [.teardownQueued v.target]).extend
          [.published lifecycleHandled] []).extend done [.teardownDone v.target])
        simpa using hexited
    case isFalse hexit =>
      split
      case isTrue hswap =>
        refine .bind ((turns_onSwap hidle v.status).traces (within_onSwap _) (by decide)) ?_
        rintro r w _ ⟨hw, done, hdone, rfl⟩
        have hafter : w.Idle := by
          obtain ⟨-, -, rfl⟩ | ⟨-, -, rfl⟩ | ⟨-, -, rfl | rfl⟩ := hw
          · exact hidle
          · exact hidle.move .swapped nofun
          · exact hidle
          · exact hidle.move .running nofun
        refine (hrest r hafter _).imp fun _ _ u hu => hu ▸ .swapped hswap fun d hd => ?_
        have hconcern := hdone d hd
        cases d <;> simp [Deed.concern] at hconcern ⊢
      case isFalse hswap =>
        exact (within_unexpected _).first (List.nil_subset _) fun r => hnothing r (.inr hexit)

end steps
end Loader
end PluginSlot
