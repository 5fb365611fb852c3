import PluginSlot.Proofs.Kernel.Coverage

/-!
What the kernel does to memory-change events. A process keeps the event it has; and but for pages that
are mapped or unmapped, and for events that are cleared, no event changes its state.
-/
namespace PluginSlot.Kernel.State

/-- The memory-change event of a process, if it has a record and the event was asked for. -/
def eventOf (s : State) (p : ProcessId) : Option ObjectId :=
  (s.process? p).bind (·.memoryChangeEvent)

def Signaled (s : State) (e : ObjectId) : Prop :=
  ∃ oneShot count, s.object? e = some ⟨.event true oneShot, count⟩

/-- A process keeps the event it has, and an event that it gets is new. -/
structure KeepsEvents (s s' : State) : Prop where
  record : ∀ p now, s'.process? p = some now →
    (∃ old, s.process? p = some old ∧
        (∀ e, old.memoryChangeEvent = some e → now.memoryChangeEvent = some e) ∧
        ∀ e, now.memoryChangeEvent = some e →
          old.memoryChangeEvent = some e ∨ s.nextObject ≤ e.val) ∨
      s.nextProcess ≤ p.val ∧ ∀ e, now.memoryChangeEvent = some e → s.nextObject ≤ e.val
  nextProcess : s.nextProcess ≤ s'.nextProcess
  nextObject : s.nextObject ≤ s'.nextObject

/-- The process was given the event, and still has it if it still has a record. -/
def Owns (s : State) (p : ProcessId) (e : ObjectId) : Prop :=
  p.val < s.nextProcess ∧ ∀ process, s.process? p = some process → process.memoryChangeEvent = some e

/-- No event is signaled or cleared, and one that is made is not signaled. -/
structure KeepsSignals (s s' : State) : Prop where
  object : ∀ o now, s'.object? o = some now →
    (∃ old, s.object? o = some old ∧ now.body = old.body) ∨
      s.nextObject ≤ o.val ∧ ∀ oneShot, now.body ≠ .event true oneShot
  nextObject : s.nextObject ≤ s'.nextObject

section
variable {s s' s'' : State} {p q : ProcessId} {e o : ObjectId} {process : Process} {object : Object}

theorem eventOf_eq_some : s.eventOf p = some e ↔
    ∃ process, s.process? p = some process ∧ process.memoryChangeEvent = some e :=
  Option.bind_eq_some_iff

theorem KeepsEvents.refl (s : State) : s.KeepsEvents s :=
  ⟨fun _ now hp => .inl ⟨now, hp, fun _ he => he, fun _ he => .inl he⟩, Nat.le_refl _, Nat.le_refl _⟩

theorem KeepsEvents.trans (h : s.KeepsEvents s') (h' : s'.KeepsEvents s'') : s.KeepsEvents s'' := by
  refine ⟨fun p now hp => ?_, h.nextProcess.trans h'.nextProcess, h.nextObject.trans h'.nextObject⟩
  obtain ⟨mid, hmid, hkept, hfresh⟩ | ⟨hnew, hfresh⟩ := h'.record p now hp
  · obtain ⟨old, hold, hkept', hfresh'⟩ | ⟨hnew, hfresh'⟩ := h.record p mid hmid
    · refine .inl ⟨old, hold, fun e he => hkept e (hkept' e he), fun e he => ?_⟩
      obtain hwas | hlate := hfresh e he
      · exact hfresh' e hwas
      · exact .inr (h.nextObject.trans hlate)
    · refine .inr ⟨hnew, fun e he => ?_⟩
      obtain hwas | hlate := hfresh e he
      · exact hfresh' e hwas
      · exact h.nextObject.trans hlate
  · exact .inr ⟨h.nextProcess.trans hnew, fun e he => h.nextObject.trans (hfresh e he)⟩

/-- Records that are left are as they were. -/
theorem KeepsEvents.shrink
    (hprocess : ∀ p process, s'.process? p = some process → s.process? p = some process)
    (hnextProcess : s.nextProcess = s'.nextProcess) (hnextObject : s.nextObject ≤ s'.nextObject) :
    s.KeepsEvents s' :=
  ⟨fun p now hp => .inl ⟨now, hprocess p now hp, fun _ he => he, fun _ he => .inl he⟩,
    Nat.le_of_eq hnextProcess, hnextObject⟩

theorem keepsEvents_modifyProcess (s : State) (p : ProcessId) {f : Process → Process}
    (hf : ∀ process, s.process? p = some process →
      (f process).memoryChangeEvent = process.memoryChangeEvent) :
    s.KeepsEvents (s.modifyProcess p f) := by
  refine ⟨fun q now hq => ?_, Nat.le_refl _, Nat.le_refl _⟩
  obtain ⟨old, hold, ⟨rfl, rfl⟩ | ⟨-, rfl⟩⟩ := exists_of_modifyProcess hq
  · rw [hf old hold]
    exact .inl ⟨old, hold, fun _ he => he, fun _ he => .inl he⟩
  · exact .inl ⟨now, hold, fun _ he => he, fun _ he => .inl he⟩

theorem keepsEvents_dropReference (s : State) (o : ObjectId) :
    s.KeepsEvents (s.dropReference o).2 := by
  obtain ⟨-, h⟩ | ⟨_, -, -, h⟩ | ⟨_, -, -, h⟩ := dropReference_cases s o <;> rw [h]
  · exact .refl s
  · exact .shrink (fun _ _ hp => hp) rfl (Nat.le_refl _)
  · exact .shrink (fun _ _ hp => hp) rfl (Nat.le_refl _)

theorem keepsEvents_eraseProcess (s : State) (p : ProcessId) :
    s.KeepsEvents { s with processes := s.processes.erase p } :=
  .shrink (fun _ _ hq => (Table.of_get?_erase hq).2) rfl (Nat.le_refl _)

theorem keepsEvents_repage (s : State) (p : ProcessId) (pages : Table UInt32 Page) :
    s.KeepsEvents (s.repage p pages) := by
  have hpages := keepsEvents_modifyProcess s p (f := ({ · with pages := pages })) fun _ _ => rfl
  have htold (s : State) : s.KeepsEvents (s.notifyLayoutChange p) := by
    rw [notifyLayoutChange]
    split
    · exact .refl s
    · split
      · exact .refl s
      · split
        · exact .shrink (fun _ _ hq => hq) rfl (Nat.le_refl _)
        · exact .refl s
  exact hpages.trans (htold _)

theorem Transfer.keepsEvents {roomy : Prop} {a b : List ObjectId × State} (h : Transfer roomy a b) :
    a.2.KeepsEvents b.2 := by
  cases h with
  | frame loose hbooks =>
    exact .shrink (fun p process hp => (process?_of_books hbooks p).symm.trans hp)
      (congrArg Books.nextProcess hbooks).symm (Nat.le_of_eq (congrArg Books.nextObject hbooks).symm)
  | amend hp hf =>
    refine keepsEvents_modifyProcess _ _ fun other hother => ?_
    cases hp.symm.trans hother
    exact hf.event
  | take loose ho => exact .shrink (fun _ _ hp => hp) rfl (Nat.le_refl _)
  | borrow loose hp => exact .refl _
  | forget loose s o => exact .refl s
  | drop loose s o => exact keepsEvents_dropReference s o
  | eraseProcess loose s p => exact keepsEvents_eraseProcess s p
  | createProcess loose s name titleId =>
    refine ⟨fun p now hp => ?_, Nat.le_succ _, Nat.le_succ _⟩
    obtain ⟨rfl, rfl⟩ | hold := process?_of_createProcess name titleId hp
    · exact .inr ⟨Nat.le_refl _, fun e he => by cases he⟩
    · exact .inl ⟨now, hold, fun _ he => he, fun _ he => .inl he⟩
  | allocate loose s hbody => exact .shrink (fun _ _ hp => hp) rfl (Nat.le_succ _)
  | @enroll loose s p process hp hnone =>
    refine ⟨fun q now hq => ?_, Nat.le_refl _, Nat.le_succ _⟩
    obtain ⟨old, hold, ⟨rfl, rfl⟩ | ⟨-, rfl⟩⟩ := exists_of_modifyProcess hq
    · cases hp.symm.trans hold
      refine .inl ⟨process, hp, fun e he => ?_, fun e he => ?_⟩
      · cases hnone.symm.trans he
      · cases he
        exact .inr (Nat.le_refl _)
    · exact .inl ⟨now, hold, fun _ he => he, fun _ he => .inl he⟩

theorem KeepsSignals.refl (s : State) : s.KeepsSignals s :=
  ⟨fun _ now ho => .inl ⟨now, ho, rfl⟩, Nat.le_refl _⟩

theorem KeepsSignals.trans (h : s.KeepsSignals s') (h' : s'.KeepsSignals s'') :
    s.KeepsSignals s'' := by
  refine ⟨fun o now ho => ?_, h.nextObject.trans h'.nextObject⟩
  obtain ⟨mid, hmid, hbody⟩ | ⟨hnew, hquiet⟩ := h'.object o now ho
  · rw [hbody]
    exact h.object o mid hmid
  · exact .inr ⟨h.nextObject.trans hnew, hquiet⟩

theorem KeepsSignals.shrink
    (hobject : ∀ o object, s'.object? o = some object → s.object? o = some object)
    (hnextObject : s.nextObject = s'.nextObject) : s.KeepsSignals s' :=
  ⟨fun o now ho => .inl ⟨now, hobject o now ho, rfl⟩, Nat.le_of_eq hnextObject⟩

theorem keepsSignals_modifyObject (s : State) (o : ObjectId) {f : Object → Object}
    (hf : ∀ object, (f object).body = object.body) : s.KeepsSignals (s.modifyObject o f) := by
  refine ⟨fun q now hq => ?_, Nat.le_refl _⟩
  obtain ⟨old, hold, ⟨rfl, rfl⟩ | ⟨-, rfl⟩⟩ := exists_of_modifyObject hq
  · exact .inl ⟨old, hold, hf old⟩
  · exact .inl ⟨now, hold, rfl⟩

theorem keepsSignals_allocate (s : State) {body : ObjectBody}
    (hbody : ∀ oneShot, body ≠ .event true oneShot) : s.KeepsSignals (s.allocate body).2 := by
  refine ⟨fun o now ho => ?_, Nat.le_succ _⟩
  obtain ⟨rfl, rfl⟩ | hold := object?_of_allocate ho
  · exact .inr ⟨Nat.le_refl _, hbody⟩
  · exact .inl ⟨now, hold, rfl⟩

theorem Transfer.keepsSignals {roomy : Prop} {a b : List ObjectId × State} (h : Transfer roomy a b) :
    a.2.KeepsSignals b.2 := by
  cases h with
  | frame loose hbooks =>
    exact .shrink (fun o object ho => (object?_of_books hbooks o).symm.trans ho)
      (congrArg Books.nextObject hbooks).symm
  | amend hp hf => exact .shrink (fun _ _ ho => ho) rfl
  | take loose ho => exact keepsSignals_modifyObject _ _ fun _ => rfl
  | borrow loose hp => exact .refl _
  | forget loose s o => exact .refl s
  | drop loose s o =>
    obtain ⟨-, h⟩ | ⟨_, -, -, h⟩ | ⟨_, -, -, h⟩ := dropReference_cases s o <;> rw [h]
    · exact .refl s
    · exact keepsSignals_modifyObject s o fun _ => rfl
    · exact .shrink (fun _ _ hq => (Table.of_get?_erase hq).2) rfl
  | eraseProcess loose s p => exact .shrink (fun _ _ ho => ho) rfl
  | createProcess loose s name titleId =>
    refine ⟨fun o now ho => ?_, Nat.le_succ _⟩
    obtain ⟨rfl, rfl⟩ | hold := object?_of_createProcess name titleId ho
    · exact .inr ⟨Nat.le_refl _, fun _ => nofun⟩
    · exact .inl ⟨now, hold, rfl⟩
  | allocate loose s hbody =>
    refine keepsSignals_allocate s fun oneShot he => ?_
    obtain rfl | rfl := hbody <;> cases he
  | @enroll loose s p process hp hnone =>
    have hmade : s.KeepsSignals (s.allocate (.event false true)).2 :=
      keepsSignals_allocate s fun oneShot he => by cases he
    exact hmade.trans (.shrink (fun _ _ ho => ho) rfl)

@[simp] theorem eventOf_modifyObject (f : Object → Object) :
    (s.modifyObject o f).eventOf p = s.eventOf p := rfl

theorem eventOf_modifyProcess (q : ProcessId) {f : Process → Process}
    (hf : ∀ process, (f process).memoryChangeEvent = process.memoryChangeEvent) :
    (s.modifyProcess q f).eventOf p = s.eventOf p := by
  by_cases h : q = p
  · subst h
    rw [eventOf, process?_modifyProcess_self, eventOf]
    cases s.process? q with
    | none => rfl
    | some process => exact hf process
  · rw [eventOf, process?_modifyProcess_ne s h, eventOf]

@[simp] theorem eventOf_repage (q : ProcessId) (pages : Table UInt32 Page) :
    (s.repage q pages).eventOf p = s.eventOf p := by
  have hpages : (s.modifyProcess q ({ · with pages := pages })).eventOf p = s.eventOf p :=
    eventOf_modifyProcess q fun _ => rfl
  rw [← hpages, eventOf, repage, process?_notifyLayoutChange]
  rfl

/-- Objects other than its event do not notice that a process gets other pages. -/
theorem object?_repage_of_ne (pages : Table UInt32 Page) (h : s.eventOf q ≠ some e) :
    (s.repage q pages).object? e = s.object? e := by
  rw [repage, notifyLayoutChange]
  split
  · rfl
  next process hp =>
    split
    · rfl
    next o ho =>
      split
      · refine object?_modifyObject_ne _ ?_ _
        rintro rfl
        apply h
        rw [← eventOf_modifyProcess q (f := ({ · with pages := pages })) fun _ => rfl]
        exact eventOf_eq_some.mpr ⟨process, hp, ho⟩
      · rfl

theorem body_of_classOf_event (hclass : object.body.classOf = .event) :
    ∃ signaled oneShot, object = ⟨.event signaled oneShot, object.count⟩ := by
  obtain ⟨body, count⟩ := object
  cases body with
  | event signaled oneShot => exact ⟨signaled, oneShot, rfl⟩
  | process p => cases hclass
  | addressArbiter => cases hclass

theorem body_setSignaled (signaled : Bool) (hclass : object.body.classOf = .event) :
    ∃ oneShot, State.setSignaled signaled object = ⟨.event signaled oneShot, object.count⟩ := by
  obtain ⟨was, oneShot, hbody⟩ := body_of_classOf_event hclass
  refine ⟨oneShot, ?_⟩
  rw [hbody]
  rfl

/-- Its event is signaled when a process gets other pages, for the signal was asked for. -/
theorem Registered.signaled_repage (h : s.Registered) (he : s.eventOf q = some e)
    (ho : s.object? e = some object) (pages : Table UInt32 Page) : (s.repage q pages).Signaled e := by
  obtain ⟨process, hp, hevent⟩ := eventOf_eq_some.mp he
  have hasked := h.announced q process e hp hevent
  have hclass := h.event q process e object hp hevent ho
  have hrecord : (s.modifyProcess q ({ · with pages := pages })).process? q =
      some { process with pages := pages } := by
    rw [process?_modifyProcess_self, hp, Option.map_some]
  have hsignal : s.repage q pages =
      (s.modifyProcess q ({ · with pages := pages })).signalEvent e := by
    simp only [repage, notifyLayoutChange, hrecord, hevent, hasked, if_true]
  obtain ⟨oneShot, hset⟩ := body_setSignaled true hclass
  refine ⟨oneShot, object.count, ?_⟩
  have hsame : (s.modifyProcess q ({ · with pages := pages })).object? e = some object := ho
  rw [hsignal, signalEvent, object?_modifyObject_self, hsame, Option.map_some, hset]

/-- An event is cleared by a handle that names it. -/
theorem not_signaled_clearEvent {h : Handle} (hl : s.lookup q h = .ok e)
    (ho : s.object? e = some object) (hclass : object.body.classOf = .event) :
    ¬((Operation.clearEvent q h).run s).2.Signaled e := by
  obtain ⟨was, once, hbody⟩ := body_of_classOf_event hclass
  rw [hbody] at ho
  have hcleared : (s.clearEvent q h).2 = s.modifyObject e (State.setSignaled false) := by
    simp only [clearEvent, eventSignaled, hl, ho]
  show ¬(s.clearEvent q h).2.Signaled e
  rintro ⟨oneShot, count, hnow⟩
  rw [hcleared, object?_modifyObject_self, ho, Option.map_some] at hnow
  cases hnow

/-- The state of an event is what it was, if the object is. -/
theorem signaled_congr (h : s'.object? e = s.object? e) : s'.Signaled e ↔ s.Signaled e := by
  rw [Signaled, Signaled, h]

/-- An event that exists, before and after, is signaled as it was. -/
theorem KeepsSignals.signaled_iff (h : s.KeepsSignals s') (hbelow : e.val < s.nextObject)
    (ho : s'.object? e = some object) : s'.Signaled e ↔ s.Signaled e := by
  obtain ⟨old, hold, hbody⟩ | ⟨hnew, -⟩ := h.object e object ho
  · constructor
    · rintro ⟨oneShot, count, hnow⟩
      cases ho.symm.trans hnow
      refine ⟨oneShot, old.count, hold.trans (congrArg some ?_)⟩
      obtain ⟨body, count⟩ := old
      cases hbody
      rfl
    · rintro ⟨oneShot, count, hwas⟩
      cases hold.symm.trans hwas
      refine ⟨oneShot, object.count, ho.trans (congrArg some ?_)⟩
      obtain ⟨body, count⟩ := object
      cases hbody
      rfl
  · exact absurd hbelow (Nat.not_lt.mpr hnew)

/-- A new event is not signaled. -/
theorem KeepsSignals.not_signaled (h : s.KeepsSignals s') (hnone : s.object? e = none) :
    ¬s'.Signaled e := by
  rintro ⟨oneShot, count, hnow⟩
  obtain ⟨old, hold, -⟩ | ⟨-, hquiet⟩ := h.object e _ hnow
  · cases hnone.symm.trans hold
  · exact hquiet oneShot rfl

/-- The event of a process is the one that it had, or new. -/
theorem KeepsEvents.eventOf (h : s.KeepsEvents s') (he : s'.eventOf p = some e) :
    s.eventOf p = some e ∨ s.nextObject ≤ e.val := by
  obtain ⟨now, hnow, hevent⟩ := eventOf_eq_some.mp he
  obtain ⟨old, hold, -, hfresh⟩ | ⟨-, hfresh⟩ := h.record p now hnow
  · exact (hfresh e hevent).imp_left fun hwas => eventOf_eq_some.mpr ⟨old, hold, hwas⟩
  · exact .inr (hfresh e hevent)

theorem KeepsEvents.owns (h : s.KeepsEvents s') (ho : s.Owns p e) : s'.Owns p e := by
  refine ⟨Nat.lt_of_lt_of_le ho.1 h.nextProcess, fun now hnow => ?_⟩
  obtain ⟨old, hold, hkept, -⟩ | ⟨hnew, -⟩ := h.record p now hnow
  · exact hkept e (ho.2 old hold)
  · exact absurd ho.1 (Nat.not_lt.mpr hnew)

/-- Who was given an event, and still has a record, had it all the time. -/
theorem KeepsEvents.eventOf_of_owns (h : s.KeepsEvents s') (ho : s.Owns p e)
    (hp : s'.process? p = some process) : s.eventOf p = some e := by
  obtain ⟨old, hold, -⟩ | ⟨hnew, -⟩ := h.record p process hp
  · exact eventOf_eq_some.mpr ⟨old, hold, ho.2 old hold⟩
  · exact absurd ho.1 (Nat.not_lt.mpr hnew)

theorem Registered.owns (h : s.Registered) (he : s.eventOf p = some e) : s.Owns p e := by
  obtain ⟨process, hp, hevent⟩ := eventOf_eq_some.mp he
  refine ⟨h.processBelow p process hp, fun other hother => ?_⟩
  cases hp.symm.trans hother
  exact hevent

/-- No operation takes an event from its process or gives an old one to it. -/
theorem keepsEvents_run (s : State) (op : Operation) : s.KeepsEvents (op.run s).2 := by
  cases hpage : op.page with
  | some page =>
    obtain ⟨-, hsame⟩ | ⟨-, pages, hrepage⟩ := run_of_page s hpage
    · rw [hsame]
      exact .refl s
    · rw [hrepage]
      exact keepsEvents_repage s page.1 pages
  | none =>
    cases hforcing : op.forcing with
    | some asked =>
      have hforced (s' : State) (q : ProcessId) (h : s.KeepsEvents s') :
          s.KeepsEvents (s'.forceRwx q) := h.trans (keepsEvents_modifyProcess s' q fun _ _ => rfl)
      have hkeep (a b : List ObjectId × State) (hstep : Transfer False a b)
          (h : s.KeepsEvents a.2) : s.KeepsEvents b.2 := h.trans hstep.keepsEvents
      exact forcing_keeps (P := fun b => s.KeepsEvents b.2) hkeep hforced hforcing (.refl s)
    | none =>
      exact run_keeps (fun _ _ hstep h => h.trans hstep.keepsEvents)
        (fun _ _ _ h => h.trans (.shrink (fun _ _ hp => hp) rfl (Nat.le_refl _))) hpage hforcing
        (.refl s)

/-- No event is signaled or cleared, but by a page that is mapped or unmapped, or by hand. -/
theorem keepsSignals_run (s : State) {op : Operation} (hpage : op.page = none)
    (hclear : ∀ q h, op ≠ .clearEvent q h) : s.KeepsSignals (op.run s).2 := by
  have hkeep (a b : List ObjectId × State) (hstep : Transfer False a b)
      (h : s.KeepsSignals a.2) : s.KeepsSignals b.2 := h.trans hstep.keepsSignals
  cases hforcing : op.forcing with
  | some asked =>
    have hforced (s' : State) (q : ProcessId) (h : s.KeepsSignals s') :
        s.KeepsSignals (s'.forceRwx q) := h.trans (.shrink (fun _ _ ho => ho) rfl)
    exact forcing_keeps (P := fun b => s.KeepsSignals b.2) hkeep hforced hforcing (.refl s)
  | none =>
    obtain hplain | ⟨q, h, rfl⟩ | ⟨o, rfl⟩ | ⟨o, rfl⟩ := Operation.isPlain_or hpage hforcing
    · exact (transfers_run [] s False.elim hplain).keeps (P := fun b => s.KeepsSignals b.2) hkeep
        (.refl s)
    · exact absurd rfl (hclear q h)
    · show s.KeepsSignals (s.retain o).2
      rw [retain]
      split
      · exact keepsSignals_modifyObject s o fun _ => rfl
      · exact .refl s
    · exact release_keeps (fun s' o h => hkeep _ _ (.drop [] s' o) h)
        (fun s' p h => hkeep _ _ (.eraseProcess [] s' p) h) (.refl s) o

theorem keepsEvents_runAll (s : State) (ops : List Operation) : s.KeepsEvents (s.runAll ops) := by
  induction ops generalizing s with
  | nil => exact .refl s
  | cons op ops ih => exact (keepsEvents_run s op).trans (ih (op.run s).2)

end

end PluginSlot.Kernel.State
