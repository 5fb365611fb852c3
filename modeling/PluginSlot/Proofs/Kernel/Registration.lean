import PluginSlot.Proofs.Kernel.BookSteps

/-!
How records and objects come about. Ids are given out in order and never twice, handles likewise, and
a record that once has a memory-change event keeps it and has asked for its signal, whatever is done to
the kernel.
-/
namespace PluginSlot.Kernel.State

/-- Records, objects and handles were given out before the next ones, and a memory-change event is an
event, whose signal was asked for. -/
structure Registered (s : State) : Prop where
  objectBelow : ∀ o object, s.object? o = some object → o.val < s.nextObject
  processBelow : ∀ p process, s.process? p = some process → p.val < s.nextProcess
  numbered : ∀ p process, s.process? p = some process → process.handles.Numbered
  eventBelow : ∀ p process e, s.process? p = some process → process.memoryChangeEvent = some e →
    e.val < s.nextObject
  event : ∀ p process e object, s.process? p = some process → process.memoryChangeEvent = some e →
    s.object? e = some object → object.body.classOf = .event
  announced : ∀ p process e, s.process? p = some process → process.memoryChangeEvent = some e →
    process.flags.signalOnLayoutChange = true

/-- A record of the state comes of an older one in this way: it may be given a memory-change event. -/
structure Inherits (s : State) (old now : Process) : Prop where
  numbered : old.handles.Numbered → now.handles.Numbered
  kept : now.memoryChangeEvent = none → old.memoryChangeEvent = none
  event : ∀ e, now.memoryChangeEvent = some e →
    old.memoryChangeEvent = some e ∧
        (old.flags.signalOnLayoutChange = true → now.flags.signalOnLayoutChange = true) ∨
      now.flags.signalOnLayoutChange = true ∧
        ∃ object, s.object? e = some object ∧ object.body.classOf = .event

/-- Every record and every object comes of one that was there before, or is new and has a new id. -/
structure Follows (s s' : State) : Prop where
  object : ∀ o now, s'.object? o = some now →
    (∃ old, s.object? o = some old ∧ now.body.classOf = old.body.classOf) ∨
      s.nextObject ≤ o.val ∧ o.val < s'.nextObject
  process : ∀ p now, s'.process? p = some now →
    (∃ old, s.process? p = some old ∧ s'.Inherits old now) ∨
      now.memoryChangeEvent = none ∧ now.handles.Numbered ∧
        s.nextProcess ≤ p.val ∧ p.val < s'.nextProcess
  nextObject : s.nextObject ≤ s'.nextObject
  nextProcess : s.nextProcess ≤ s'.nextProcess

section
variable {s s' : State}

theorem Inherits.refl (s : State) (process : Process) : s.Inherits process process :=
  ⟨id, id, fun _ he => .inl ⟨he, id⟩⟩

theorem Inherits.of_amends {old now : Process} (h : old.Amends now) : s.Inherits old now :=
  ⟨h.numbered, fun hnone => h.event.symm.trans hnone,
    fun _ he => .inl ⟨h.event.symm.trans he, h.announced⟩⟩

theorem follows_modifyProcess (s : State) (p : ProcessId) {f : Process → Process}
    (hf : ∀ process, s.process? p = some process → (s.modifyProcess p f).Inherits process (f process)) :
    s.Follows (s.modifyProcess p f) where
  object _ now ho := .inl ⟨now, ho, rfl⟩
  process q now hq := by
    obtain ⟨old, hold, ⟨rfl, rfl⟩ | ⟨-, rfl⟩⟩ := exists_of_modifyProcess hq
    · exact .inl ⟨old, hold, hf old hold⟩
    · exact .inl ⟨now, hold, .refl _ now⟩
  nextObject := Nat.le_refl _
  nextProcess := Nat.le_refl _

theorem follows_modifyObject (s : State) (o : ObjectId) {f : Object → Object}
    (hf : ∀ object, s.object? o = some object → (f object).body.classOf = object.body.classOf) :
    s.Follows (s.modifyObject o f) where
  object q now hq := by
    obtain ⟨old, hold, ⟨rfl, rfl⟩ | ⟨-, rfl⟩⟩ := exists_of_modifyObject hq
    · exact .inl ⟨old, hold, hf old hold⟩
    · exact .inl ⟨now, hold, rfl⟩
  process _ now hp := .inl ⟨now, hp, .refl _ now⟩
  nextObject := Nat.le_refl _
  nextProcess := Nat.le_refl _

theorem Follows.shrink (hobject : ∀ o object, s'.object? o = some object → s.object? o = some object)
    (hprocess : ∀ p process, s'.process? p = some process → s.process? p = some process)
    (hnextObject : s'.nextObject = s.nextObject) (hnextProcess : s'.nextProcess = s.nextProcess) :
    s.Follows s' where
  object o now ho := .inl ⟨now, hobject o now ho, rfl⟩
  process p now hp := .inl ⟨now, hprocess p now hp, .refl s' now⟩
  nextObject := Nat.le_of_eq hnextObject.symm
  nextProcess := Nat.le_of_eq hnextProcess.symm

theorem follows_allocate (s : State) (body : ObjectBody) : s.Follows (s.allocate body).2 where
  object o now ho := by
    obtain ⟨rfl, -⟩ | hold := object?_of_allocate ho
    · exact .inr ⟨Nat.le_refl _, Nat.lt_succ_self _⟩
    · exact .inl ⟨now, hold, rfl⟩
  process _ now hp := .inl ⟨now, hp, .refl _ now⟩
  nextObject := Nat.le_succ _
  nextProcess := Nat.le_refl _

/-- A record is given a new event. -/
theorem follows_announce (s : State) (p : ProcessId) :
    s.Follows ((s.allocate (.event false true)).2.announce p ⟨s.nextObject⟩) where
  object := (follows_allocate s _).object
  process q now hq := by
    obtain ⟨old, hold, ⟨rfl, rfl⟩ | ⟨-, rfl⟩⟩ := exists_of_modifyProcess hq
    · refine .inl ⟨old, hold, id, fun hnone => ?_, fun e he => .inr ⟨rfl, ?_⟩⟩
      · cases hnone
      · obtain rfl := Option.some.inj he
        exact ⟨_, object?_allocate s _, rfl⟩
    · exact .inl ⟨now, hold, .refl _ now⟩
  nextObject := Nat.le_succ _
  nextProcess := Nat.le_refl _

theorem follows_createProcess (s : State) (name : String) (titleId : UInt64) :
    s.Follows (s.createProcess name titleId).2 where
  object o now ho := by
    obtain ⟨rfl, -⟩ | hold := object?_of_createProcess name titleId ho
    · exact .inr ⟨Nat.le_refl _, Nat.lt_succ_self _⟩
    · exact .inl ⟨now, hold, rfl⟩
  process p now hp := by
    obtain ⟨rfl, rfl⟩ | hold := process?_of_createProcess name titleId hp
    · exact .inr ⟨rfl, HandleTable.numbered_empty, Nat.le_refl _, Nat.lt_succ_self _⟩
    · exact .inl ⟨now, hold, .refl _ now⟩
  nextObject := Nat.le_succ _
  nextProcess := Nat.le_succ _

theorem BookStep.follows {taken : Nat} (h : s.BookStep taken s') : s.Follows s' := by
  cases h with
  | frame hbooks =>
    have hobjects : s'.objects = s.objects := congrArg Books.objects hbooks
    refine .shrink (fun o object ho => ?_) (fun p process hp => ?_)
      (congrArg Books.nextObject hbooks) (congrArg Books.nextProcess hbooks)
    · rwa [object?, hobjects] at ho
    · rwa [process?_of_books hbooks] at hp
  | amendProcess p f hf => exact follows_modifyProcess s p fun process hp => .of_amends (hf process hp)
  | amendObject _ o f hf => exact follows_modifyObject s o fun object ho => (hf object ho).classOf
  | announce p => exact follows_announce s p
  | createProcess name titleId => exact follows_createProcess s name titleId
  | allocate body _ => exact follows_allocate s body
  | eraseProcess p =>
    exact .shrink (fun _ _ ho => ho) (fun _ _ hq => (Table.of_get?_erase hq).2) rfl rfl
  | eraseObject o =>
    exact .shrink (fun _ _ hq => (Table.of_get?_erase hq).2) (fun _ _ hp => hp) rfl rfl

theorem Registered.follow (h : s.Registered) (hf : s.Follows s') : s'.Registered := by
  have hbelow (o : ObjectId) (now : Object) (ho : s'.object? o = some now) : o.val < s'.nextObject := by
    obtain ⟨old, hold, -⟩ | ⟨-, hnew⟩ := hf.object o now ho
    · exact Nat.lt_of_lt_of_le (h.objectBelow o old hold) hf.nextObject
    · exact hnew
  constructor
  · exact hbelow
  · intro p now hp
    obtain ⟨old, hold, -⟩ | ⟨-, -, -, hnew⟩ := hf.process p now hp
    · exact Nat.lt_of_lt_of_le (h.processBelow p old hold) hf.nextProcess
    · exact hnew
  · intro p now hp
    obtain ⟨old, hold, hinherits⟩ | ⟨-, hnumbered, -⟩ := hf.process p now hp
    · exact hinherits.numbered (h.numbered p old hold)
    · exact hnumbered
  · intro p now e hp he
    obtain ⟨old, hold, hinherits⟩ | ⟨hnone, -⟩ := hf.process p now hp
    · obtain ⟨hwas, -⟩ | ⟨-, object, hobject, -⟩ := hinherits.event e he
      · exact Nat.lt_of_lt_of_le (h.eventBelow p old e hold hwas) hf.nextObject
      · exact hbelow e object hobject
    · cases hnone.symm.trans he
  · intro p now e object hp he ho
    obtain ⟨old, hold, hinherits⟩ | ⟨hnone, -⟩ := hf.process p now hp
    · obtain ⟨hwas, -⟩ | ⟨-, first, hfirst, hclass⟩ := hinherits.event e he
      · -- an object that is new has another id than an event of old
        obtain ⟨before, hbefore, hsame⟩ | ⟨hnew, -⟩ := hf.object e object ho
        · exact hsame.trans (h.event p old e before hold hwas hbefore)
        · exact absurd (h.eventBelow p old e hold hwas) (Nat.not_lt.mpr hnew)
      · cases hfirst.symm.trans ho
        exact hclass
    · cases hnone.symm.trans he
  · intro p now e hp he
    obtain ⟨old, hold, hinherits⟩ | ⟨hnone, -⟩ := hf.process p now hp
    · obtain ⟨hwas, hkept⟩ | ⟨hasked, -⟩ := hinherits.event e he
      · exact hkept (h.announced p old e hold hwas)
      · exact hasked
    · cases hnone.symm.trans he

theorem registered_boot (cores : Nat) : (boot cores).Registered where
  objectBelow _ _ ho := by cases ho
  processBelow _ _ hp := by cases hp
  numbered _ _ hp := by cases hp
  eventBelow _ _ _ hp := by cases hp
  event _ _ _ _ hp := by cases hp
  announced _ _ _ hp := by cases hp

theorem Registered.steps {taken : Nat} (h : s.Registered) (hs : s.BookSteps taken s') : s'.Registered :=
  hs.keeps (fun _ _ _ hstep hs => hs.follow hstep.follows) h

theorem Registered.runAll (h : s.Registered) (ops : List Operation) : (s.runAll ops).Registered :=
  h.steps (steps_runAll s ops)

/-- No two records have the same memory-change event. -/
def OwnEvents (s : State) : Prop :=
  ∀ p q process other e, s.process? p = some process → s.process? q = some other →
    process.memoryChangeEvent = some e → other.memoryChangeEvent = some e → p = q

theorem OwnEvents.of_old (h : s.OwnEvents)
    (hold : ∀ p now e, s'.process? p = some now → now.memoryChangeEvent = some e →
      ∃ old, s.process? p = some old ∧ old.memoryChangeEvent = some e) : s'.OwnEvents := by
  intro p q now other e hp hq he he'
  obtain ⟨old, hold₁, hevent⟩ := hold p now e hp he
  obtain ⟨old', hold₂, hevent'⟩ := hold q other e hq he'
  exact h p q old old' e hold₁ hold₂ hevent hevent'

/-- A record is given a new event, which no other has. -/
theorem OwnEvents.announce (h : s.OwnEvents) (hs : s.Registered) (p : ProcessId) :
    ((s.allocate (.event false true)).2.announce p ⟨s.nextObject⟩).OwnEvents := by
  have hother (q : ProcessId) (other : Process) (hq : s.process? q = some other) :
      other.memoryChangeEvent ≠ some ⟨s.nextObject⟩ :=
    fun he => Nat.lt_irrefl _ (hs.eventBelow q other _ hq he)
  intro q r now other e hq hr he he'
  obtain ⟨old, hold, ⟨rfl, rfl⟩ | ⟨-, rfl⟩⟩ := exists_of_modifyProcess hq
  · obtain ⟨old', hold', ⟨rfl, rfl⟩ | ⟨-, rfl⟩⟩ := exists_of_modifyProcess hr
    · rfl
    · cases he
      exact absurd he' (hother r other hold')
  · obtain ⟨old', hold', ⟨rfl, rfl⟩ | ⟨-, rfl⟩⟩ := exists_of_modifyProcess hr
    · cases he'
      exact absurd he (hother q now hold)
    · exact h q r now other e hold hold' he he'

theorem OwnEvents.step {taken : Nat} (h : s.OwnEvents) (hs : s.Registered)
    (hstep : s.BookStep taken s') : s'.OwnEvents := by
  cases hstep with
  | frame hbooks =>
    refine h.of_old fun p now e hp he => ⟨now, ?_, he⟩
    rwa [process?_of_books hbooks] at hp
  | amendProcess p f hf =>
    refine h.of_old fun q now e hq he => ?_
    obtain ⟨old, hold, ⟨rfl, rfl⟩ | ⟨-, rfl⟩⟩ := exists_of_modifyProcess hq
    · exact ⟨old, hold, (hf old hold).event.symm.trans he⟩
    · exact ⟨now, hold, he⟩
  | announce p => exact h.announce hs p
  | createProcess name titleId =>
    refine h.of_old fun q now e hq he => ?_
    obtain ⟨-, rfl⟩ | hold := process?_of_createProcess name titleId hq
    · cases he
    · exact ⟨now, hold, he⟩
  | eraseProcess p =>
    exact h.of_old fun q now e hq he => ⟨now, (Table.of_get?_erase hq).2, he⟩
  | amendObject | allocate | eraseObject => exact h

theorem ownEvents_runAll (cores : Nat) (ops : List Operation) :
    ((boot cores).runAll ops).OwnEvents := by
  have hboth : ((boot cores).runAll ops).Registered ∧ ((boot cores).runAll ops).OwnEvents :=
    (steps_runAll (boot cores) ops).keeps (P := fun s => s.Registered ∧ s.OwnEvents)
      (fun _ _ _ hstep hs => ⟨hs.1.follow hstep.follows, hs.2.step hs.1 hstep⟩)
      ⟨registered_boot cores, fun _ _ _ _ _ hp => by cases hp⟩
  exact hboth.2

/-- The process was given a memory-change event, and has it as long as it has a record. -/
def HasEvent (p : ProcessId) (s : State) : Prop :=
  p.val < s.nextProcess ∧ ∀ process, s.process? p = some process → process.memoryChangeEvent ≠ none

theorem HasEvent.follow {p : ProcessId} (h : s.HasEvent p) (hf : s.Follows s') : s'.HasEvent p := by
  refine ⟨Nat.lt_of_lt_of_le h.1 hf.nextProcess, fun now hnow hnone => ?_⟩
  obtain ⟨old, hold, hinherits⟩ | ⟨-, -, hnew, -⟩ := hf.process p now hnow
  · exact h.2 old hold (hinherits.kept hnone)
  · exact absurd h.1 (Nat.not_lt.mpr hnew)

theorem HasEvent.runAll {p : ProcessId} (h : s.HasEvent p) (ops : List Operation) :
    (s.runAll ops).HasEvent p :=
  (steps_runAll s ops).keeps (P := HasEvent p) (fun _ _ _ hstep hs => hs.follow hstep.follows) h

end
end PluginSlot.Kernel.State
