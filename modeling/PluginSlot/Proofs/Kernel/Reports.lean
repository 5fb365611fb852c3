import PluginSlot.Proofs.Kernel.Schedule

/-!
What process control reports: the handles of a listing, and how many threads a schedule operation
passed over because they are terminating. A token that names no class lists every handle, and threads
that the filter would have left out are counted as well.
-/
namespace PluginSlot.Kernel.State

section
variable {s : State} {process : Process} {p : ProcessId} {o : ObjectId} {h : Handle}

/-- A listing asked for this token is about the handle: the token is zero, or the class of the object
that the handle names has it. -/
def Listed (s : State) (process : Process) (token : UInt32) (h : Handle) : Prop :=
  ∃ o, process.handles.slots.get? h = some o ∧
    (token = 0 ∨ ∃ object, s.object? o = some object ∧ object.body.classOf.token.toUInt32 = token)

theorem mem_handlesOf {class? : Option ObjectClass} : h ∈ s.handlesOf process class? ↔
    ∃ o, process.handles.slots.get? h = some o ∧
      ∀ c, class? = some c → ∃ object, s.object? o = some object ∧ object.body.classOf = c := by
  simp only [handlesOf, List.mem_map, List.mem_filter]
  constructor
  · rintro ⟨⟨h, o⟩, ⟨hm, hclass⟩, rfl⟩
    refine ⟨o, (Table.get?_eq_some_iff _ h o).mpr hm, ?_⟩
    rintro c rfl
    obtain ⟨object, ho, hc⟩ := (Option.any_eq_true _ _).mp hclass
    exact ⟨object, ho, of_decide_eq_true hc⟩
  · rintro ⟨o, hg, hclass⟩
    refine ⟨(h, o), ⟨(Table.get?_eq_some_iff _ h o).mp hg, ?_⟩, rfl⟩
    cases class? with
    | none => rfl
    | some c =>
      obtain ⟨object, ho, hc⟩ := hclass c rfl
      exact (Option.any_eq_true _ _).mpr ⟨object, ho, decide_eq_true hc⟩

/-- Handles are listed in ascending order. -/
theorem ascending_handlesOf (class? : Option ObjectClass) :
    (s.handlesOf process class?).Pairwise fun a b => a.val < b.val := by
  refine List.pairwise_map.mpr ((process.handles.slots.ascending.filter _).imp fun hlt => ?_)
  exact UInt32.lt_iff_toNat_lt.mpr hlt

theorem handlesOf_addReference (class? : Option ObjectClass) :
    (s.addReference o).handlesOf process class? = s.handlesOf process class? := by
  have hbody (q : ObjectId) : ((s.addReference o).object? q).map (·.body) =
      (s.object? q).map (·.body) := by
    by_cases he : q = o
    · subst he
      simp [addReference, Option.map_map, Function.comp_def]
    · rw [object?_addReference_ne s he]
  have hclass (q : ObjectId) (c : ObjectClass) :
      ((s.addReference o).object? q).any (fun object => object.body.classOf = c) =
        (s.object? q).any fun object => object.body.classOf = c := by
    have hmap (found : Option Object) : found.any (fun object => object.body.classOf = c) =
        (found.map (·.body)).any fun body => body.classOf = c := by
      cases found <;> rfl
    rw [hmap, hbody, ← hmap]
  simp only [handlesOf, hclass]

/-- A byte names a class exactly if the word does. -/
theorem ofToken?_toUInt8 {arg : UInt32} (harg : arg ≤ 0xFF) (c : ObjectClass) :
    ObjectClass.ofToken? arg.toUInt8 = some c ↔ c.token.toUInt32 = arg := by
  have hback : arg.toUInt8.toUInt32 = arg := by
    apply UInt32.toNat_inj.mp
    have hle := UInt32.le_iff_toNat_le.mp harg
    have hmax : (0xFF : UInt32).toNat = 255 := rfl
    simp only [UInt8.toNat_toUInt32, UInt32.toNat_toUInt8]
    omega
  rw [ObjectClass.ofToken?_eq_some_iff]
  constructor
  · intro hc
    rw [hc, hback]
  · rintro rfl
    simp

/-- What a listing answers, once the target is found. -/
theorem controlRaw_listHandles_eq {caller : Caller} {target : Handle}
    (hr : s.resolveProcess caller.process target = .ok (p, o)) (hp : s.process? p = some process)
    {arg : UInt32} (harg : arg ≤ 0xFF) :
    (s.controlRaw caller target ControlCode.listHandles arg).1 =
      .ok (.handles (s.handlesOf process (ObjectClass.ofToken? arg.toUInt8))) := by
  have hdecode : ControlOp.decode ControlCode.listHandles arg none =
      .ok (.listHandles (ObjectClass.ofToken? arg.toUInt8)) := by
    rw [ControlOp.decode, if_pos rfl, if_neg (UInt32.not_lt.mpr harg)]
  have htaken : (s.addReference o).process? p = some process := hp
  simp only [controlRaw, hdecode, control, withProcess, acquireProcess, hr, controlTarget, htaken,
    handlesOf_addReference]

/-- A listing, in any state, of any target that a handle names. An argument above a byte is refused.
Otherwise all that is listed is live and in ascending order, and it is what was asked for exactly if
the argument is zero or the token of a class, or there is nothing to list: a token that names no class
lists every handle. -/
theorem controlRaw_listHandles (s : State) (caller : Caller) (target : Handle) {p : ProcessId}
    {o : ObjectId} (hr : s.resolveProcess caller.process target = .ok (p, o)) (arg : UInt32) :
    (0xFF < arg → s.controlRaw caller target ControlCode.listHandles arg =
      (.error .invalidEnumValue, s)) ∧
    (arg ≤ 0xFF → ∃ process handles, s.process? p = some process ∧
      (s.controlRaw caller target ControlCode.listHandles arg).1 = .ok (.handles handles) ∧
      (handles.Pairwise fun a b => a.val < b.val) ∧
      ((∀ h, h ∈ handles ↔ s.Listed process arg h) ↔
        arg = 0 ∨ (∃ c : ObjectClass, c.token.toUInt32 = arg) ∨ process.handles.isEmpty = true) ∧
      ((∀ c : ObjectClass, c.token.toUInt32 ≠ arg) →
        ∀ h, h ∈ handles ↔ ∃ o, process.handles.slots.get? h = some o)) := by
  constructor
  · intro harg
    rw [controlRaw, ControlOp.decode, if_pos rfl, if_pos harg]
  intro harg
  obtain ⟨process, hp⟩ := process?_of_resolveProcess hr
  have hunnamed (hnone : ∀ c : ObjectClass, c.token.toUInt32 ≠ arg) (h : Handle) :
      h ∈ s.handlesOf process (ObjectClass.ofToken? arg.toUInt8) ↔
        ∃ o, process.handles.slots.get? h = some o := by
    rw [mem_handlesOf]
    refine exists_congr fun o => and_iff_left ?_
    intro c hc
    exact absurd ((ofToken?_toUInt8 harg c).mp hc) (hnone c)
  refine ⟨process, _, hp, controlRaw_listHandles_eq hr hp harg, ascending_handlesOf _, ?_, hunnamed⟩
  by_cases hnamed : ∃ c : ObjectClass, c.token.toUInt32 = arg
  · obtain ⟨c, hc⟩ := hnamed
    have hclass : ObjectClass.ofToken? arg.toUInt8 = some c := (ofToken?_toUInt8 harg c).mpr hc
    have hzero : arg ≠ 0 := by
      rintro rfl
      cases c <;> cases hc
    have htoken (d : ObjectClass) : d.token.toUInt32 = arg ↔ d = c := by
      rw [← ofToken?_toUInt8 harg, hclass, Option.some.injEq, eq_comm]
    refine iff_of_true (fun h => ?_) (.inr (.inl ⟨c, hc⟩))
    simp [mem_handlesOf, Listed, hclass, hzero, htoken]
  · have hnone : ∀ c : ObjectClass, c.token.toUInt32 ≠ arg := fun c hc => hnamed ⟨c, hc⟩
    have hlisted (h : Handle) : s.Listed process arg h ↔
        arg = 0 ∧ ∃ o, process.handles.slots.get? h = some o := by
      rw [Listed]
      constructor
      · rintro ⟨o, hg, hzero | ⟨object, -, hc⟩⟩
        · exact ⟨hzero, o, hg⟩
        · exact absurd hc (hnone _)
      · rintro ⟨hzero, o, hg⟩
        exact ⟨o, hg, .inl hzero⟩
    have hempty : process.handles.isEmpty = true ↔
        ∀ h, ¬∃ o, process.handles.slots.get? h = some o := by
      simp only [HandleTable.isEmpty_iff, Option.eq_none_iff_forall_ne_some, not_exists, ne_eq]
    simp only [hunnamed hnone, hlisted, hempty, hnamed, false_or]
    by_cases hzero : arg = 0
    · simp [hzero]
    · simp [hzero]

end

/-- A process has an event and an address arbiter. Asked for a token that no class has, the listing
still names both. -/
theorem listed_of_unnamed_token :
    let s := (boot 1).runAll [.createProcess "host" 1, .createObject ⟨1⟩ .event,
      .createObject ⟨1⟩ .addressArbiter]
    s.resolveProcess ⟨1⟩ .currentProcess = .ok (⟨1⟩, ⟨1⟩) ∧
      (s.controlRaw ⟨⟨1⟩, ⟨1⟩, ⟨0⟩⟩ .currentProcess ControlCode.listHandles 1).1 =
        .ok (.handles [⟨0x100⟩, ⟨0x101⟩]) ∧
      ∀ process, ¬s.Listed process 1 ⟨0x100⟩ := by
  intro s
  refine ⟨rfl, rfl, fun process => ?_⟩
  rintro ⟨o, -, hzero | ⟨object, -, htoken⟩⟩
  · cases hzero
  · cases hclass : object.body.classOf <;> rw [hclass] at htoken <;> cases htoken

/-- Asked for the token of events, the listing names the event alone. -/
theorem controlRaw_listHandles_events :
    let s := (boot 1).runAll [.createProcess "host" 1, .createObject ⟨1⟩ .event,
      .createObject ⟨1⟩ .addressArbiter]
    s.resolveProcess ⟨1⟩ .currentProcess = .ok (⟨1⟩, ⟨1⟩) ∧
      ∃ process, s.process? ⟨1⟩ = some process ∧
        (s.controlRaw ⟨⟨1⟩, ⟨1⟩, ⟨0⟩⟩ .currentProcess ControlCode.listHandles 0x95).1 =
          .ok (.handles [⟨0x100⟩]) ∧
        ∀ h, h ∈ [(⟨0x100⟩ : Handle)] ↔ s.Listed process 0x95 h := by
  intro s
  obtain ⟨process, handles, hp, hanswer, -, hlisted, -⟩ :=
    (controlRaw_listHandles s ⟨⟨1⟩, ⟨1⟩, ⟨0⟩⟩ .currentProcess (p := ⟨1⟩) (o := ⟨1⟩) rfl 0x95).2
      (by decide)
  have hevent : (s.controlRaw ⟨⟨1⟩, ⟨1⟩, ⟨0⟩⟩ .currentProcess ControlCode.listHandles 0x95).1 =
      .ok (.handles [⟨0x100⟩]) := rfl
  cases hanswer.symm.trans hevent
  exact ⟨rfl, process, hp, hevent, hlisted.mpr (.inr (.inl ⟨.event, rfl⟩))⟩

section
variable {s : State} {p : ProcessId} {o : ObjectId}

/-- Terminating threads of the process that pass the filter. -/
def skippedCount (s : State) (p : ProcessId) (filter : Option ThreadFilter) : Nat :=
  s.threads.entries.countP fun (t, thread) =>
    thread.owner = p && thread.mask.isTerminating && matchesFilter filter t thread

/-- All terminating threads are counted; those that pass the filter are all of them exactly if none
fails it. -/
theorem terminatingCount_eq_iff (filter : Option ThreadFilter) :
    s.terminatingCount p = s.skippedCount p filter ↔
      ∀ t thread, s.thread? t = some thread → thread.owner = p → thread.mask.isTerminating = true →
        matchesFilter filter t thread = true := by
  let ends (e : ThreadId × Thread) : Bool := e.2.owner = p && e.2.mask.isTerminating
  let passes (e : ThreadId × Thread) : Bool := matchesFilter filter e.1 e.2
  have hsplit : s.terminatingCount p =
      s.skippedCount p filter + s.threads.entries.countP fun e => ends e && !passes e := by
    have hall := List.countP_eq_countP_filter_add s.threads.entries ends passes
    simp only [List.countP_filter] at hall
    exact hall
  have hnone : (s.threads.entries.countP fun e => ends e && !passes e) = 0 ↔
      ∀ t thread, s.thread? t = some thread → thread.owner = p → thread.mask.isTerminating = true →
        matchesFilter filter t thread = true := by
    simp only [List.countP_eq_zero, Prod.forall, ← Table.get?_eq_some_iff]
    simp [ends, passes, thread?]
  rw [← hnone]
  omega

theorem skipped_lockThreads (s : State) (caller : CoreId) (p : ProcessId)
    (filter : Option ThreadFilter) : (s.lockThreads caller p filter).1.skipped = s.terminatingCount p := by
  rw [lockThreads]
  dsimp only
  split <;> rfl

end

/-- A schedule operation, in any state, on any target that a handle names, reports how many threads of
the target are terminating. These are the ones that it skipped for that reason exactly if they all
pass the filter. -/
theorem control_schedule_skipped (s : State) (caller : Caller) (handle : Handle) {p : ProcessId}
    {o : ObjectId} (hr : s.resolveProcess caller.process handle = .ok (p, o)) (mode : ScheduleMode)
    (filter : Option ThreadFilter) :
    ∃ report s', s.control caller handle (.schedule mode filter) = (.ok (.schedule report), s') ∧
      report.skipped = s.terminatingCount p ∧
      (report.skipped = s.skippedCount p filter ↔
        ∀ t thread, s.thread? t = some thread → thread.owner = p →
          thread.mask.isTerminating = true → matchesFilter filter t thread = true) := by
  have hrun : ∃ report s', s.control caller handle (.schedule mode filter) =
      (.ok (.schedule report), s') ∧ report.skipped = s.terminatingCount p := by
    rw [control, withProcess, acquireProcess, hr]
    cases mode with
    | lock => exact ⟨_, _, rfl, skipped_lockThreads (s.addReference o) caller.core p filter⟩
    | unlock => exact ⟨_, _, rfl, rfl⟩
  obtain ⟨report, s', hcontrol, hskipped⟩ := hrun
  refine ⟨report, s', hcontrol, hskipped, ?_⟩
  rw [hskipped]
  exact terminatingCount_eq_iff filter

/-- A thread without the plugin's tag is terminating. A lock of the plugin's threads counts it as
skipped, although no terminating thread passes the filter. -/
theorem skipped_of_unmatched :
    let s := (boot 1).runAll [.createProcess "host" 1, .createThread ⟨1⟩ ⟨0⟩,
      .setThreadState ⟨1⟩ .terminating]
    s.resolveProcess ⟨1⟩ .currentProcess = .ok (⟨1⟩, ⟨1⟩) ∧
      (s.control ⟨⟨1⟩, ⟨1⟩, ⟨0⟩⟩ .currentProcess (.schedule .lock (some .plugin))).1 =
        .ok (.schedule ⟨[], [], [], 1⟩) ∧
      s.skippedCount ⟨1⟩ (some .plugin) = 0 := by
  intro s
  exact ⟨rfl, rfl, by decide⟩

/-- With the tag, the thread is rightly counted. -/
theorem control_schedule_skipped_tagged :
    let s := (boot 1).runAll [.createProcess "host" 1, .createThread ⟨1⟩ ⟨0⟩,
      .setTls ⟨1⟩ 0 ThreadFilter.pluginTag, .setThreadState ⟨1⟩ .terminating]
    s.resolveProcess ⟨1⟩ .currentProcess = .ok (⟨1⟩, ⟨1⟩) ∧
      ∃ report s', s.control ⟨⟨1⟩, ⟨1⟩, ⟨0⟩⟩ .currentProcess (.schedule .lock (some .plugin)) =
          (.ok (.schedule report), s') ∧
        report.skipped = 1 ∧ s.skippedCount ⟨1⟩ (some .plugin) = 1 := by
  intro s
  obtain ⟨report, s', hcontrol, hskipped, -⟩ :=
    control_schedule_skipped s ⟨⟨1⟩, ⟨1⟩, ⟨0⟩⟩ .currentProcess (p := ⟨1⟩) (o := ⟨1⟩) rfl .lock
      (some .plugin)
  exact ⟨rfl, report, s', hcontrol, hskipped.trans (by decide), by decide⟩

end PluginSlot.Kernel.State
