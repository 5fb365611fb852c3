import PluginSlot.Proofs.Kernel.Lineage
import PluginSlot.Proofs.Kernel.Registration

/-!
What a control operation leaves of the references. The target is held by a reference meanwhile, which
is given back; a failed operation leaves everything as it was, and an operation that succeeds refers
to nothing new, but for a handle to the memory-change event of its caller.
-/
namespace PluginSlot.Kernel

/-- A record with the same references: only what was asked about the process, and its pages, may
differ. -/
def Process.SameTies (old now : Process) : Prop :=
  now = { old with flags := now.flags, pages := now.pages }

/-- The process that asks by this operation for a handle to its memory-change event. -/
def Operation.asker : Operation → Option ProcessId
  | .control caller _ .memoryChangeEvent => some caller.process
  | .controlRaw caller _ code _ =>
    if code = ControlCode.memoryChangeEvent then some caller.process else none
  | _ => none

namespace State

/-- No object and no record came or went, and none is referred to more or less than before. -/
structure Neutral (s s' : State) : Prop where
  objects : s'.objects = s.objects
  records : ∀ p, Option.Rel Process.SameTies (s.process? p) (s'.process? p)

/-- The process got one handle more, to its memory-change event, and the event a reference for it. The
event was there, or it was made with a reference that its record holds. -/
structure HandsOut (s s' : State) (p : ProcessId) (h : Handle) (e : ObjectId) : Prop where
  otherRecords : ∀ q, q ≠ p → s'.process? q = s.process? q
  otherObjects : ∀ o, o ≠ e → s'.object? o = s.object? o
  own : ∃ old now, s.process? p = some old ∧ s'.process? p = some now ∧
    now = { old with
      flags := now.flags
      handles := now.handles
      memoryChangeEvent := some e } ∧
    old.handles.slots.get? h = none ∧
    (∀ j, now.handles.slots.get? j = if h = j then some e else old.handles.slots.get? j) ∧
    ((∃ event, old.memoryChangeEvent = some e ∧ s.object? e = some event ∧
        event.body.classOf = .event ∧ s'.object? e = some event.taken ∧
        event.taken.references = event.references + 1) ∨
      old.memoryChangeEvent = none ∧ s.object? e = none ∧
        s'.object? e = some ⟨.event false true, 2⟩)

section
variable {s s' : State} {caller : Caller} {target : Handle} {op : ControlOp}
variable {p : ProcessId} {o e : ObjectId} {process : Process} {object : Object}

theorem Neutral.refl (s : State) : s.Neutral s := by
  refine ⟨rfl, fun p => ?_⟩
  cases s.process? p with
  | none => exact .none
  | some process => exact .some rfl

theorem Neutral.of_books (h : s'.books = s.books) : s.Neutral s' := by
  refine ⟨congrArg Books.objects h, fun p => ?_⟩
  rw [process?_of_books h]
  exact (Neutral.refl s).records p

theorem neutral_modifyProcess (s : State) (p : ProcessId) {f : Process → Process}
    (hf : ∀ process : Process, process.SameTies (f process)) : s.Neutral (s.modifyProcess p f) := by
  refine ⟨rfl, fun q => ?_⟩
  by_cases he : p = q
  · subst he
    rw [process?_modifyProcess_self]
    cases s.process? p with
    | none => exact .none
    | some process => exact .some (hf process)
  · rw [process?_modifyProcess_ne s he]
    exact (Neutral.refl s).records q

theorem Neutral.exists_record (h : s.Neutral s') (hp : s.process? p = some process) :
    ∃ now, s'.process? p = some now ∧ process.SameTies now := by
  have hrel := h.records p
  rw [hp] at hrel
  cases hnow : s'.process? p with
  | none =>
    rw [hnow] at hrel
    cases hrel
  | some now =>
    rw [hnow] at hrel
    cases hrel with
    | some hsame => exact ⟨now, rfl, hsame⟩

/-- But for the request for its event, an operation on a process that is held refers to nothing new,
and changes nothing at all if it fails. -/
theorem neutral_controlTarget (s : State) (caller : Caller) (p : ProcessId) {op : ControlOp}
    (hop : op ≠ .memoryChangeEvent) :
    s.Neutral (s.controlTarget caller p op).2 ∧
      ∀ error, (s.controlTarget caller p op).1 = .error error →
        (s.controlTarget caller p op).2 = s := by
  cases op with
  | listHandles c =>
    rw [controlTarget]
    split <;> exact ⟨.refl s, fun _ _ => rfl⟩
  | forceRwx =>
    rw [controlTarget]
    split
    · exact ⟨neutral_modifyProcess s p fun _ => rfl, fun _ he => by cases he⟩
    · exact ⟨.refl s, fun _ _ => rfl⟩
  | memoryChangeEvent => exact absurd rfl hop
  | signalOnExit =>
    rw [controlTarget]
    split
    · exact ⟨neutral_modifyProcess s p fun _ => rfl, fun _ he => by cases he⟩
    · exact ⟨.refl s, fun _ _ => rfl⟩
  | physicalAddress virtual => exact ⟨.refl s, fun _ _ => rfl⟩
  | schedule mode filter =>
    cases mode with
    | lock =>
      have hbooks := books_of_holdings (holdings_lockThreads (s := s) caller.core p filter)
      exact ⟨.of_books hbooks, fun _ he => by cases he⟩
    | unlock =>
      have hbooks := books_of_holdings (holdings_unlockThreads (s := s) p filter)
      exact ⟨.of_books hbooks, fun _ he => by cases he⟩

/-- The record of a resolved process names the object through which it was found. -/
theorem Rooted.resolved (h : s.Rooted) (hr : s.resolveProcess caller.process target = .ok (p, o)) :
    ∃ process object, s.process? p = some process ∧ process.object = o ∧
      s.object? o = some object ∧ object.body = .process p := by
  obtain ⟨object, ho, hbody⟩ := resolveProcess_eq_ok hr
  obtain ⟨process, hp⟩ := process?_of_resolveProcess hr
  exact ⟨process, object, hp, h.own o object p process ho hbody hp, ho, hbody⟩

theorem Lendable.releaseProcess_addReference (hlend : s.Lendable o) (hp : s.process? p = some process)
    (hown : process.object = o) (ho : s.object? o = some object) :
    (s.addReference o).releaseProcess p = s := by
  rw [hlend.giveBack ho rfl hp hown]
  rfl

/-- A control operation other than the request for the event. -/
theorem Rooted.neutral_control (h : s.Rooted) (caller : Caller) (target : Handle) {op : ControlOp}
    (hlend : ∀ p o, s.resolveProcess caller.process target = .ok (p, o) → s.Lendable o)
    (hop : op ≠ .memoryChangeEvent) :
    s.Neutral (s.control caller target op).2 ∧
      ∀ error, (s.control caller target op).1 = .error error →
        (s.control caller target op).2 = s := by
  cases hr : s.resolveProcess caller.process target with
  | error error =>
    rw [control_of_error hr]
    exact ⟨.refl s, fun _ _ => rfl⟩
  | ok found =>
    obtain ⟨p, o⟩ := found
    obtain ⟨process, object, hp, hown, ho, -⟩ := h.resolved hr
    obtain ⟨hneutral, hfailed⟩ := neutral_controlTarget (s.addReference o) caller p hop
    obtain ⟨now, hnow, hsame⟩ := hneutral.exists_record (p := p) hp
    have hobject : now.object = o := by
      rw [hsame]
      exact hown
    rw [control_of_ok hr, (hlend p o hr).giveBack ho hneutral.objects hnow hobject]
    refine ⟨⟨rfl, hneutral.records⟩, fun error he => ?_⟩
    rw [hfailed error he]
    rfl

theorem modifyProcess_of_fixed {f : Process → Process} (hp : s.process? p = some process)
    (hf : f process = process) : s.modifyProcess p f = s := by
  have hsame : s.processes.modify p f = s.processes := by
    refine Table.modify_of_fixed fun other hother => ?_
    cases hp.symm.trans hother
    exact hf
  rw [modifyProcess, hsame]

/-- The memory-change event of a process is there, and its signal asked for. It was there before, and
nothing changed, or it is new. -/
structure Prepares (s ready : State) (p : ProcessId) (e : ObjectId) (old now : Process) : Prop where
  record : ready.process? p = some now
  same : now = { old with flags := now.flags, memoryChangeEvent := some e }
  otherRecords : ∀ q, q ≠ p → ready.process? q = s.process? q
  otherObjects : ∀ o, o ≠ e → ready.object? o = s.object? o
  event : old.memoryChangeEvent = some e ∧ ready = s ∨
    old.memoryChangeEvent = none ∧ s.object? e = none ∧ ready.object? e = some ⟨.event false true, 1⟩

theorem Registered.fresh (h : s.Registered) : s.object? ⟨s.nextObject⟩ = none := by
  cases ho : s.object? ⟨s.nextObject⟩ with
  | none => rfl
  | some object => exact absurd (h.objectBelow _ object ho) (Nat.lt_irrefl _)

/-- A request by the process for its event opens a handle to it, once it is there. -/
theorem Registered.prepares (h : s.Registered) (hp : s.process? caller.process = some process) :
    ∃ e ready now, s.Prepares ready caller.process e process now ∧
      s.controlTarget caller caller.process .memoryChangeEvent =
        ((ready.openHandle caller.process e).1.map .handle,
          (ready.openHandle caller.process e).2) := by
  cases hevent : process.memoryChangeEvent with
  | some e =>
    -- the request for its signal was made before
    have hasked : (s.modifyProcess caller.process fun process =>
        { process with flags := { process.flags with signalOnLayoutChange := true } }) = s := by
      apply modifyProcess_of_fixed hp
      rw [← h.announced _ process e hp hevent]
    refine ⟨e, s, process, ⟨hp, ?_, fun _ _ => rfl, fun _ _ => rfl, .inl ⟨hevent, rfl⟩⟩, ?_⟩
    · rw [← hevent]
    · simp only [controlTarget, memoryChangeEvent, hp, hevent, ne_eq, not_true_eq_false, if_false,
        hasked]
  | none =>
    let made := (s.allocate (.event false true)).2
    have hrecord : made.process? caller.process = some process := hp
    have hmade : (made.announce caller.process ⟨s.nextObject⟩).process? caller.process =
        some { process with
          memoryChangeEvent := some ⟨s.nextObject⟩
          flags := { process.flags with signalOnLayoutChange := true } } := by
      simp [announce, hrecord]
    refine ⟨⟨s.nextObject⟩, _, _,
      ⟨hmade, rfl, fun q hq => ?_, fun o ho => ?_, .inr ⟨hevent, h.fresh, ?_⟩⟩, ?_⟩
    · exact process?_modifyProcess_ne made (Ne.symm hq) _
    · exact object?_allocate_ne _ ho
    · exact object?_allocate s _
    · have hfirst : s.memoryChangeEvent caller.process =
          (.ok ⟨s.nextObject⟩, (s.memoryChangeEvent caller.process).2) := by
        simp only [memoryChangeEvent, hp, hevent, allocate]
      rw [controlTarget, if_neg (not_not.mpr rfl), hfirst]
      dsimp only
      rw [announce_memoryChangeEvent s caller.process hp hevent]
      rfl

/-- A handle is given out, and then the reference to the record's own object that was held meanwhile is
given back. -/
theorem openHandle_releaseProcess {event : Object} {h : Handle} {handles : HandleTable}
    (hp : s.process? p = some process) (hinsert : process.handles.insert e = some (h, handles))
    (he : s.object? e = some event) (hne : e ≠ process.object)
    (ho : s.object? process.object = some object) (hmore : 1 < object.references) :
    (s.openHandle p e).1 = .ok h ∧
      (s.openHandle p e).2.releaseProcess p =
        ((s.addReference e).modifyProcess p ({ · with handles := handles })).modifyObject
          process.object Object.dropped := by
  have hexists : s.objects.contains e = true := Option.isSome_iff_exists.mpr ⟨event, he⟩
  have hopen : s.openHandle p e =
      (.ok h, (s.addReference e).modifyProcess p ({ · with handles := handles })) := by
    simp [openHandle, hp, hexists, hinsert]
  have hrecord : ((s.addReference e).modifyProcess p ({ · with handles := handles })).process? p =
      some { process with handles := handles } := by
    have hold : (s.addReference e).process? p = some process := hp
    simp [hold]
  have hown : ((s.addReference e).modifyProcess p ({ · with handles := handles })).object?
      process.object = some object :=
    (object?_modifyObject_ne s hne _).trans ho
  rw [hopen]
  refine ⟨rfl, ?_⟩
  rw [releaseProcess, hrecord]
  exact release_of_shared hown hmore

section
variable {ready : State} {old now : Process} {event : Object} {h : Handle} {handles : HandleTable}

/-- A process is not held through its event. -/
theorem Prepares.event_ne (hprep : (s.addReference o).Prepares ready p e old now)
    (hreg : s.Registered) (hp : s.process? p = some old) (ho : s.object? o = some object)
    (hbody : object.body = .process p) : e ≠ o := by
  rintro rfl
  obtain ⟨he, -⟩ | ⟨-, hnone, -⟩ := hprep.event
  · have hclass := hreg.event p old e object hp he ho
    rw [hbody] at hclass
    cases hclass
  · cases hnone.symm.trans (object?_addReference_self ho)

/-- When the process is no longer held, every reference is what it was but for the one to the event. -/
theorem Prepares.references (hprep : (s.addReference o).Prepares ready p e old now) (hne : e ≠ o)
    (ho : s.object? o = some object) (hroom : s.Room o) (he : ready.object? e = some event)
    (handles : HandleTable) :
    let after := ((ready.addReference e).modifyProcess p ({ · with handles := handles })).modifyObject o
      Object.dropped
    after.object? e = some event.taken ∧ ∀ q, q ≠ e → after.object? q = s.object? q := by
  intro after
  constructor
  · calc
      after.object? e = (ready.addReference e).object? e :=
        object?_modifyObject_ne _ (Ne.symm hne) _
      _ = some event.taken := object?_addReference_self he
  · intro q hq
    have hready : (ready.addReference e).object? q = (s.addReference o).object? q :=
      (object?_addReference_ne ready hq).trans (hprep.otherObjects q hq)
    by_cases hqo : q = o
    · subst hqo
      calc
        after.object? q = ((ready.addReference e).object? q).map Object.dropped :=
          object?_modifyObject_self ..
        _ = some object.taken.dropped := by
          rw [hready, object?_addReference_self ho]
          rfl
        _ = s.object? q := by
          rw [Object.dropped_taken (hroom object ho), ho]
    · calc
        after.object? q = (ready.addReference e).object? q :=
          object?_modifyObject_ne _ (Ne.symm hqo) _
        _ = s.object? q := hready.trans (object?_addReference_ne s hqo)

/-- The handle is given out, and every reference is what it was but for the one to the event. -/
theorem Prepares.handsOut (hprep : (s.addReference o).Prepares ready p e old now) (hlend : s.Lendable o)
    (hroom : old.memoryChangeEvent = some e → s.Room e)
    (hreg : s.Registered) (hp : s.process? p = some old) (ho : s.object? o = some object)
    (hbody : object.body = .process p) (hown : old.object = o)
    (hexists : ready.objects.contains e = true)
    (hinsert : old.handles.insert e = some (h, handles)) :
    (ready.openHandle p e).1 = .ok h ∧
      s.HandsOut ((ready.openHandle p e).2.releaseProcess p) p h e := by
  have hne : e ≠ o := hprep.event_ne hreg hp ho hbody
  have hsame : now.object = o := by rw [hprep.same, hown]
  have hhandles : now.handles = old.handles := by rw [hprep.same]
  have htaken : ready.object? o = some object.taken :=
    (hprep.otherObjects o (Ne.symm hne)).trans (object?_addReference_self ho)
  have hshared : 1 < object.taken.references := by
    rw [Object.references_taken (hlend object ho).2]
    exact Nat.succ_lt_succ (hlend object ho).1
  obtain ⟨event, he⟩ := Option.isSome_iff_exists.mp hexists
  obtain ⟨hok, hback⟩ := openHandle_releaseProcess hprep.record (hhandles ▸ hinsert) he
    (hsame.symm ▸ hne) (hsame.symm ▸ htaken) hshared
  obtain ⟨hgiven, hothers⟩ := hprep.references hne ho hlend.room he handles
  refine ⟨hok, ?_⟩
  rw [hback, hsame]
  refine ⟨fun q hq => ?_, hothers, old, { now with handles := handles }, hp, ?_, ?_, ?_,
    HandleTable.slots_insert hinsert, ?_⟩
  · have hkept := process?_modifyProcess_ne (ready.addReference e) (Ne.symm hq)
      ({ · with handles := handles })
    exact hkept.trans (hprep.otherRecords q hq)
  · have hrecord : (ready.addReference e).process? p = some now := hprep.record
    have hchanged := process?_modifyProcess_self (ready.addReference e) p ({ · with handles := handles })
    rw [hrecord] at hchanged
    exact hchanged
  · rw [hprep.same]
  · obtain ⟨-, rfl, -⟩ := HandleTable.insert_eq_some_iff.mp hinsert
    exact (hreg.numbered p old hp).get?_next
  · have hheld : (s.addReference o).object? e = s.object? e := object?_addReference_ne s hne
    obtain ⟨hold, rfl⟩ | ⟨hnone, hnew, hmade⟩ := hprep.event
    · have hwas : s.object? e = some event := hheld.symm.trans he
      exact .inl ⟨event, hold, hwas, hreg.event p old e event hp hold hwas, hgiven,
        Object.references_taken (hroom hold event hwas)⟩
    · cases he.symm.trans hmade
      exact .inr ⟨hnone, hheld.symm.trans hnew, hgiven⟩

end

/-- A request for the event of the caller. -/
theorem Rooted.control_event (hs : s.Rooted) (hreg : s.Registered) (caller : Caller) (target : Handle)
    (hlend : ∀ p o, s.resolveProcess caller.process target = .ok (p, o) → s.Lendable o)
    (hroom : ∀ process e, s.process? caller.process = some process →
      process.memoryChangeEvent = some e → s.Room e) :
    (∀ error, (s.control caller target .memoryChangeEvent).1 = .error error →
      (∀ process, s.process? caller.process = some process →
        process.handles.next < HandleTable.pseudoHandleBase) →
      (s.control caller target .memoryChangeEvent).2 = s) ∧
    ∀ output, (s.control caller target .memoryChangeEvent).1 = .ok output →
      ∃ h e, output = .handle h ∧
        s.HandsOut (s.control caller target .memoryChangeEvent).2 caller.process h e := by
  cases hr : s.resolveProcess caller.process target with
  | error error =>
    rw [control_of_error hr]
    exact ⟨fun _ _ _ => rfl, fun _ he => by cases he⟩
  | ok found =>
    obtain ⟨p, o⟩ := found
    obtain ⟨process, object, hp, hown, ho, hbody⟩ := hs.resolved hr
    have hback : (s.addReference o).releaseProcess p = s :=
      (hlend p o hr).releaseProcess_addReference hp hown ho
    rw [control_of_ok hr]
    by_cases hcaller : p = caller.process
    · subst hcaller
      have htaken : (s.addReference o).Registered := hreg.steps (steps_addReference s o)
      obtain ⟨e, ready, now, hprep, heq⟩ := htaken.prepares hp
      have hhandles : now.handles = process.handles := by rw [hprep.same]
      rw [heq]
      by_cases hexists : ready.objects.contains e = true
      · cases hinsert : process.handles.insert e with
        | none =>
          have hfull : (ready.openHandle caller.process e).1 = .error .outOfResource := by
            simp [openHandle, hprep.record, hexists, hhandles, hinsert]
          rw [hfull]
          refine ⟨fun _ _ hleft => ?_, fun _ he => by cases he⟩
          have hnext := hleft process hp
          simp [HandleTable.insert, UInt32.not_le.mpr hnext] at hinsert
        | some given =>
          obtain ⟨h, handles⟩ := given
          obtain ⟨hok, hout⟩ := hprep.handsOut (hlend _ o hr) (hroom process e hp) hreg hp ho hbody
            hown hexists hinsert
          rw [hok]
          refine ⟨fun _ he => (by cases he), fun output houtput => ?_⟩
          cases houtput
          exact ⟨h, e, rfl, hout⟩
      · -- a dangling event is refused; that was not made now, so its signal was asked for
        have hrefused : ready.openHandle caller.process e = (.error .invalidHandle, ready) := by
          simp [openHandle, hprep.record, hexists]
        rw [hrefused]
        refine ⟨fun _ _ _ => ?_, fun _ he => by cases he⟩
        obtain ⟨-, rfl⟩ | ⟨-, -, hmade⟩ := hprep.event
        · exact hback
        · exact absurd (Option.isSome_iff_exists.mpr ⟨_, hmade⟩) hexists
    · have hrefused : (s.addReference o).controlTarget caller p .memoryChangeEvent =
          (.error .invalidHandle, s.addReference o) := by
        rw [controlTarget, if_pos hcaller]
      rw [hrefused]
      exact ⟨fun _ _ _ => hback, fun _ he => by cases he⟩

theorem run_of_asker (s : State) {next : Operation} (hasks : next.asker = some p) :
    ∃ caller target, caller.process = p ∧
      next.run s = (Operation.control caller target .memoryChangeEvent).run s := by
  cases next with
  | control caller target op =>
    cases op with
    | memoryChangeEvent => exact ⟨caller, target, Option.some.inj hasks, rfl⟩
    | _ => cases hasks
  | controlRaw caller target code arg =>
    simp only [Operation.asker, Option.ite_none_right_eq_some] at hasks
    obtain ⟨rfl, hcaller⟩ := hasks
    exact ⟨caller, target, Option.some.inj hcaller, rfl⟩
  | _ => cases hasks

/-- A release ends records and changes none. -/
theorem process?_of_release {q : ProcessId} {now : Process}
    (h : (s.release o).process? q = some now) : s.process? q = some now := by
  refine release_keeps (P := fun s' => ∀ now, s'.process? q = some now → s.process? q = some now)
    (fun s' o hs now hnow => hs now ?_) (fun s' r hs now hnow => hs now (Table.of_get?_erase hnow).2)
    (fun _ => id) o now h
  obtain ⟨-, hsame⟩ | ⟨_, -, -, hsame⟩ | ⟨_, -, -, hsame⟩ := dropReference_cases s' o
  all_goals
    rw [hsame] at hnow
    exact hnow

theorem process?_of_releaseProcess {q : ProcessId} {now : Process}
    (h : (s.releaseProcess p).process? q = some now) : s.process? q = some now := by
  rw [releaseProcess] at h
  split at h
  · exact h
  · exact process?_of_release h

/-- A request for the event that succeeds puts a handle into the record of the caller, before the
process is released again. -/
theorem Registered.grants (hreg : s.Registered) {output : ControlOutput}
    (h : (s.control caller target .memoryChangeEvent).1 = .ok output) :
    ∃ held record handle e, output = .handle handle ∧ s.BookSteps 2 held ∧
      (s.control caller target .memoryChangeEvent).2 = held.releaseProcess caller.process ∧
      held.process? caller.process = some record ∧ record.memoryChangeEvent = some e ∧
      record.handles.slots.get? handle = some e := by
  cases hr : s.resolveProcess caller.process target with
  | error error =>
    rw [control_of_error hr] at h
    cases h
  | ok found =>
    obtain ⟨p, o⟩ := found
    rw [control_of_ok hr] at h ⊢
    by_cases hcaller : p = caller.process
    · subst hcaller
      obtain ⟨process, hp⟩ := process?_of_resolveProcess hr
      have htaken : (s.addReference o).Registered := hreg.steps (steps_addReference s o)
      have hheld : (s.addReference o).process? caller.process = some process := hp
      obtain ⟨e, ready, now, hprep, heq⟩ := htaken.prepares hheld
      have hsteps : s.BookSteps 2 ((s.addReference o).controlTarget caller caller.process
          .memoryChangeEvent).2 :=
        (steps_addReference s o).trans (steps_controlTarget _ _ caller _)
      rw [heq] at h hsteps ⊢
      by_cases hexists : ready.objects.contains e = true
      · cases hinsert : now.handles.insert e with
        | none => simp [openHandle, hprep.record, hexists, hinsert, Except.map] at h
        | some given =>
          obtain ⟨handle, handles⟩ := given
          have hopen : ready.openHandle caller.process e = (.ok handle,
              (ready.addReference e).modifyProcess caller.process ({ · with handles := handles })) := by
            simp [openHandle, hprep.record, hexists, hinsert]
          have hrecord : (ready.addReference e).process? caller.process = some now := hprep.record
          rw [hopen] at h hsteps ⊢
          cases h
          refine ⟨_, { now with handles := handles }, handle, e, rfl, hsteps, rfl, ?_, ?_, ?_⟩
          · exact (process?_modifyProcess_self ..).trans (congrArg (Option.map _) hrecord)
          · rw [hprep.same]
          · exact (HandleTable.slots_insert hinsert handle).trans (if_pos rfl)
      · simp [openHandle, hprep.record, hexists, Except.map] at h
    · rw [controlTarget, if_pos hcaller] at h
      cases h

/-- A request that succeeds leaves the process with an event. -/
theorem Registered.failed_or_hasEvent (hreg : s.Registered) {next : Operation}
    (hasks : next.asker = some p) :
    (∃ error, (next.run s).1 = .failed error) ∨ (next.run s).2.HasEvent p := by
  obtain ⟨caller, target, rfl, hrun⟩ := run_of_asker s hasks
  rw [hrun]
  cases hanswer : (s.control caller target .memoryChangeEvent).1 with
  | error error => exact .inl ⟨error, congrArg (Outcome.ofExcept .control) hanswer⟩
  | ok output =>
    obtain ⟨held, record, h, e, -, hsteps, hafter, hrecord, hevent, -⟩ := hreg.grants hanswer
    have hheld : held.HasEvent caller.process := by
      refine ⟨(hreg.steps hsteps).processBelow _ record hrecord, fun process hp => ?_⟩
      cases hrecord.symm.trans hp
      rw [hevent]
      exact Option.some_ne_none e
    refine .inr ?_
    show (s.control caller target .memoryChangeEvent).2.HasEvent caller.process
    rw [hafter]
    exact (steps_releaseProcess held _).keeps (fun _ _ _ hstep hs => hs.follow hstep.follows) hheld

/-- In every run, references taken and dropped by hand included, as long as the count of the target is
neither zero nor as high as it can be, and one more reference to the event of the caller can be counted:
a control operation that fails leaves the kernel as it was, unless it was to give a handle and its caller
has no handle values left. One that succeeds refers to nothing more and nothing less, but for the request
for the event of its caller: it gives a handle to the event, and makes the event only if no request
succeeded before. -/
theorem runAll_control (cores : Nat) (ops : List Operation) (caller : Caller) (target : Handle)
    (op : ControlOp)
    (hlend : ∀ p o, ((boot cores).runAll ops).resolveProcess caller.process target = .ok (p, o) →
      ((boot cores).runAll ops).Lendable o)
    (hroom : op = .memoryChangeEvent → ∀ process e,
      ((boot cores).runAll ops).process? caller.process = some process →
        process.memoryChangeEvent = some e → ((boot cores).runAll ops).Room e) :
    let s := (boot cores).runAll ops
    let r := s.control caller target op
    (∀ error, r.1 = .error error →
      (∀ process, s.process? caller.process = some process →
        process.handles.next < HandleTable.pseudoHandleBase) → r.2 = s) ∧
    (∀ output, r.1 = .ok output → op ≠ .memoryChangeEvent → s.Neutral r.2) ∧
    ∀ output, r.1 = .ok output → op = .memoryChangeEvent →
      ∃ h e, output = .handle h ∧ s.HandsOut r.2 caller.process h e ∧
        (s.object? e = none → ∀ done next, done ++ [next] <+: ops →
          next.asker = some caller.process →
            ∃ error, (next.run ((boot cores).runAll done)).1 = .failed error) := by
  intro s r
  have hs : s.Rooted := (rooted_boot cores).runAll ops
  have hreg : s.Registered := (registered_boot cores).runAll ops
  by_cases hop : op = .memoryChangeEvent
  · subst hop
    obtain ⟨hfailed, hok⟩ := hs.control_event hreg caller target hlend (hroom rfl)
    refine ⟨hfailed, fun _ _ hne => absurd rfl hne, fun output houtput _ => ?_⟩
    obtain ⟨h, e, hhandle, hout⟩ := hok output houtput
    refine ⟨h, e, hhandle, hout, fun hnew done next hprefix hasks => ?_⟩
    obtain ⟨rest, rfl⟩ := hprefix
    obtain hfailed | hgiven := ((registered_boot cores).runAll done).failed_or_hasEvent hasks
    · exact hfailed
    · -- the event of the earlier request is still there, so this one is not new
      have hrun : s = (next.run ((boot cores).runAll done)).2.runAll rest := by
        rw [← runAll_concat, ← runAll_append]
      have hstill : s.HasEvent caller.process := hrun ▸ hgiven.runAll rest
      obtain ⟨old, -, hold, -, -, -, -, hevent⟩ := hout.own
      obtain ⟨event, -, hevent, -⟩ | ⟨hnone, -⟩ := hevent
      · cases hnew.symm.trans hevent
      · exact absurd hnone (hstill.2 old hold)
  · obtain ⟨hneutral, hfailed⟩ := hs.neutral_control caller target hlend hop
    exact ⟨fun error he _ => hfailed error he, fun _ _ _ => hneutral, fun _ _ he => absurd he hop⟩

/-- A process is retained by hand until its count wraps around to zero. The reference that a control
operation takes is the only one that is counted then, and the process goes when it is given back. -/
theorem not_neutral_of_wrapped_count :
    let s := (boot 1).runAll
      (.createProcess "host" 1 :: List.replicate (UInt32.size - 1) (.retain ⟨1⟩))
    let r := s.control ⟨⟨1⟩, ⟨1⟩, ⟨0⟩⟩ .currentProcess .signalOnExit
    s.object? ⟨1⟩ = some ⟨.process ⟨1⟩, 0⟩ ∧ (s.process? ⟨1⟩).isSome = true ∧ r.1 = .ok .done ∧
      r.2.object? ⟨1⟩ = none ∧ r.2.process? ⟨1⟩ = none ∧ ¬s.Neutral r.2 := by
  rw [runAll_cons, runAll_replicate_retain]
  intro s r
  have hbefore : s.object? ⟨1⟩ = some ⟨.process ⟨1⟩, 0⟩ := by decide
  have hgone : r.2.object? ⟨1⟩ = none := by decide
  have hended : (r.2.process? ⟨1⟩).isNone = true := by decide
  refine ⟨hbefore, by decide, by decide, hgone, Option.isNone_iff_eq_none.mp hended, fun h => ?_⟩
  have hsame : r.2.object? ⟨1⟩ = s.object? ⟨1⟩ :=
    congrArg (fun objects : Table ObjectId Object => objects.get? ⟨1⟩) h.objects
  cases hgone.symm.trans (hsame.trans hbefore)

/-- A process reads an address that is not mapped, asks to be signaled, and gets its event, which is
new. -/
theorem runAll_control_host :
    let s := (boot 1).runAll [.createProcess "host" 1]
    let caller : Caller := ⟨⟨1⟩, ⟨1⟩, ⟨0⟩⟩
    (∀ p o, s.resolveProcess caller.process .currentProcess = .ok (p, o) → s.Lendable o) ∧
      (s.control caller .currentProcess (.physicalAddress 0)).1 = .error .invalidAddress ∧
      (s.control caller .currentProcess (.physicalAddress 0)).2 = s ∧
      (s.control caller .currentProcess .signalOnExit).1 = .ok .done ∧
      s.Neutral (s.control caller .currentProcess .signalOnExit).2 ∧
      (s.control caller .currentProcess .memoryChangeEvent).1 = .ok (.handle ⟨0x100⟩) ∧
      ∃ e, s.HandsOut (s.control caller .currentProcess .memoryChangeEvent).2 ⟨1⟩ ⟨0x100⟩ e := by
  intro s caller
  have hlend : ∀ p o, s.resolveProcess caller.process .currentProcess = .ok (p, o) →
      s.Lendable o := by
    intro p o hr object ho
    cases hr
    cases ho
    decide
  have hunmapped : (s.control caller .currentProcess (.physicalAddress 0)).1 =
      .error .invalidAddress := by decide
  have hleft : ∀ process, s.process? ⟨1⟩ = some process →
      process.handles.next < HandleTable.pseudoHandleBase := by
    intro process hp
    cases hp
    decide
  have hroom : ∀ process e, s.process? caller.process = some process →
      process.memoryChangeEvent = some e → s.Room e := by
    intro process e hp he
    cases hp
    cases he
  have hasked : (s.control caller .currentProcess .signalOnExit).1 = .ok .done := by decide
  have hevent : (s.control caller .currentProcess .memoryChangeEvent).1 = .ok (.handle ⟨0x100⟩) := by
    decide
  have hrun (op : ControlOp) :=
    runAll_control 1 [.createProcess "host" 1] caller .currentProcess op hlend fun _ => hroom
  obtain ⟨h, e, hhandle, hout, -⟩ := (hrun .memoryChangeEvent).2.2 _ hevent rfl
  cases hhandle
  exact ⟨hlend, hunmapped, (hrun (.physicalAddress 0)).1 _ hunmapped hleft, hasked,
    (hrun .signalOnExit).2.1 _ hasked nofun, hevent, e, hout⟩

end
end State
end PluginSlot.Kernel
