import PluginSlot.Proofs.Kernel.BookSteps

/-!
Objects that stand for processes. Whatever is done to a kernel, references dropped by hand included,
an object that stands for a process is the one that the record of this process names.
-/
namespace PluginSlot.Kernel.State

/-- A process has no object but the one its record names. -/
structure Rooted (s : State) : Prop where
  below : ∀ o object p, s.object? o = some object → object.body = .process p → p.val < s.nextProcess
  own : ∀ o object p process, s.object? o = some object → object.body = .process p →
    s.process? p = some process → process.object = o

/-- All processes and their objects were there before. -/
structure Descends (s s' : State) : Prop where
  object : ∀ o now p, s'.object? o = some now → now.body = .process p →
    ∃ old, s.object? o = some old ∧ old.body = .process p
  process : ∀ p now, s'.process? p = some now →
    ∃ old, s.process? p = some old ∧ old.object = now.object
  nextProcess : s.nextProcess ≤ s'.nextProcess

section
variable {s s' s'' : State}

theorem Rooted.descend (h : s.Rooted) (hd : s.Descends s') : s'.Rooted where
  below o now p ho hbody := by
    obtain ⟨old, hold, hp⟩ := hd.object o now p ho hbody
    exact Nat.lt_of_lt_of_le (h.below o old p hold hp) hd.nextProcess
  own o now p process ho hbody hp := by
    obtain ⟨old, hold, hp'⟩ := hd.object o now p ho hbody
    obtain ⟨record, hrecord, hsame⟩ := hd.process p process hp
    exact hsame.symm.trans (h.own o old p record hold hp' hrecord)

theorem Descends.refl (s : State) : s.Descends s :=
  ⟨fun _ now _ ho hp => ⟨now, ho, hp⟩, fun _ now hp => ⟨now, hp, rfl⟩, Nat.le_refl _⟩

theorem Descends.of_books (h : s'.books = s.books) : s.Descends s' := by
  have hobjects : s'.objects = s.objects := congrArg Books.objects h
  have hprocesses : s'.processes = s.processes := congrArg Books.processes h
  have ho (o : ObjectId) : s'.object? o = s.object? o := by rw [object?, object?, hobjects]
  have hp (p : ProcessId) : s'.process? p = s.process? p := by rw [process?, process?, hprocesses]
  have hself := Descends.refl s
  constructor
  · simpa only [ho] using hself.object
  · simpa only [hp] using hself.process
  · exact Nat.le_of_eq (congrArg Books.nextProcess h).symm

/-- What is left was there before. -/
theorem Descends.shrink
    (hobject : ∀ o object, s'.object? o = some object → s.object? o = some object)
    (hprocess : ∀ p process, s'.process? p = some process → s.process? p = some process)
    (hnext : s'.nextProcess = s.nextProcess) : s.Descends s' where
  object o now _ ho hp := ⟨now, hobject o now ho, hp⟩
  process p now hp := ⟨now, hprocess p now hp, rfl⟩
  nextProcess := Nat.le_of_eq hnext.symm

end

section
variable (s : State) (p : ProcessId) (o : ObjectId)

theorem descends_modifyProcess {f : Process → Process}
    (hf : ∀ process, s.process? p = some process → (f process).object = process.object) :
    s.Descends (s.modifyProcess p f) where
  object _ now _ ho hp := ⟨now, ho, hp⟩
  process q now hq := by
    obtain ⟨old, hold, ⟨rfl, rfl⟩ | ⟨-, rfl⟩⟩ := exists_of_modifyProcess hq
    · exact ⟨old, hold, (hf old hold).symm⟩
    · exact ⟨now, hold, rfl⟩
  nextProcess := Nat.le_refl _

theorem descends_modifyObject {taken : Nat} {f : Object → Object}
    (hf : ∀ object, s.object? o = some object → object.Amends taken (f object)) :
    s.Descends (s.modifyObject o f) where
  object q now p hq hp := by
    obtain ⟨old, hold, ⟨rfl, rfl⟩ | ⟨-, rfl⟩⟩ := exists_of_modifyObject hq
    · exact ⟨old, hold, (hf old hold).body p hp⟩
    · exact ⟨now, hold, hp⟩
  process _ now hp := ⟨now, hp, rfl⟩
  nextProcess := Nat.le_refl _

theorem descends_allocate {body : ObjectBody} (hbody : ∀ p, body ≠ .process p) :
    s.Descends (s.allocate body).2 where
  object q now p hq hp := by
    obtain ⟨-, rfl⟩ | hold := object?_of_allocate hq
    · exact absurd hp (hbody p)
    · exact ⟨now, hold, hp⟩
  process _ now hp := ⟨now, hp, rfl⟩
  nextProcess := Nat.le_refl _

theorem descends_eraseProcess : s.Descends { s with processes := s.processes.erase p } :=
  .shrink (fun _ _ ho => ho) (fun _ _ hq => (Table.of_get?_erase hq).2) rfl

theorem descends_eraseObject : s.Descends { s with objects := s.objects.erase o } :=
  .shrink (fun _ _ hq => (Table.of_get?_erase hq).2) (fun _ _ hp => hp) rfl

end

section
variable {s : State}

/-- A new process comes with an object of its own. -/
theorem Rooted.createProcess (h : s.Rooted) (name : String) (titleId : UInt64) :
    (s.createProcess name titleId).2.Rooted := by
  constructor
  · intro o now p ho hp
    obtain ⟨-, rfl⟩ | hold := object?_of_createProcess name titleId ho
    · cases hp
      exact Nat.lt_succ_self _
    · exact Nat.lt_succ_of_lt (h.below o now p hold hp)
  · intro o now p process ho hp hprocess
    obtain ⟨rfl, rfl⟩ | hold := object?_of_createProcess name titleId ho
    · cases hp
      have hnew := Table.get?_insert_self s.processes (⟨s.nextProcess⟩ : ProcessId)
        ⟨name, titleId, ⟨s.nextObject⟩, .none, .empty, .empty, none, false, false⟩
      rw [← Option.some.inj (hnew.symm.trans hprocess)]
    · have hne : p ≠ ⟨s.nextProcess⟩ := by
        rintro rfl
        exact Nat.lt_irrefl _ (h.below o now _ hold hp)
      rw [process?_createProcess_ne name titleId hne] at hprocess
      exact h.own o now p process hold hp hprocess

theorem Rooted.step {s' : State} {taken : Nat} (h : s.Rooted) (hs : s.BookStep taken s') :
    s'.Rooted := by
  cases hs with
  | frame hbooks => exact h.descend (.of_books hbooks)
  | amendProcess p f hf =>
    exact h.descend (descends_modifyProcess s p fun process hp => (hf process hp).object)
  | amendObject _ o f hf => exact h.descend (descends_modifyObject s o hf)
  | announce p =>
    have hmade : s.Descends (s.allocate (.event false true)).2 :=
      descends_allocate s fun _ => ObjectBody.noConfusion
    exact (h.descend hmade).descend (descends_modifyProcess _ p fun _ _ => rfl)
  | createProcess name titleId => exact h.createProcess name titleId
  | allocate body hbody => exact h.descend (descends_allocate s hbody)
  | eraseProcess p => exact h.descend (descends_eraseProcess s p)
  | eraseObject o => exact h.descend (descends_eraseObject s o)

theorem Rooted.runAll (h : s.Rooted) (ops : List Operation) : (s.runAll ops).Rooted :=
  (steps_runAll s ops).keeps (fun _ _ _ hstep hs => hs.step hstep) h

theorem rooted_boot (cores : Nat) : (boot cores).Rooted where
  below _ _ _ ho := by cases ho
  own _ _ _ _ ho := by cases ho

theorem process?_of_resolveProcess {p q : ProcessId} {handle : Handle} {o : ObjectId}
    (hr : s.resolveProcess p handle = .ok (q, o)) : ∃ process, s.process? q = some process := by
  rw [resolveProcess] at hr
  split at hr
  · cases hr
  · split at hr
    · split at hr
      next hexists =>
        cases hr
        exact Option.isSome_iff_exists.mp hexists
      · cases hr
    · cases hr
    · cases hr

/-- A reference that is held for the time of a call is given back, if the call leaves the objects
alone. -/
theorem Lendable.giveBack {s' : State} {q : ProcessId} {now : Process} {o : ObjectId} {object : Object}
    (hlend : s.Lendable o) (ho : s.object? o = some object)
    (hobjects : s'.objects = (s.addReference o).objects) (hrecord : s'.process? q = some now)
    (hown : now.object = o) : s'.releaseProcess q = { s' with objects := s.objects } := by
  obtain ⟨hpos, hroom⟩ := hlend object ho
  have htaken : s'.object? o = some object.taken := by
    rw [object?, hobjects]
    exact object?_addReference_self ho
  have hshared : 1 < object.taken.references := by
    rw [Object.references_taken hroom]
    exact Nat.succ_lt_succ hpos
  simp only [releaseProcess, hrecord, hown]
  rw [release_of_shared htaken hshared, modifyObject, hobjects, addReference_dropped hlend.room]

/-- It is given back if the call leaves the books alone. -/
theorem Rooted.giveBack (h : s.Rooted) {s' : State} {p q : ProcessId} {handle : Handle} {o : ObjectId}
    (hr : s.resolveProcess p handle = .ok (q, o)) (hlend : s.Lendable o)
    (hbooks : s'.books = (s.addReference o).books) :
    s'.releaseProcess q = { s' with objects := s.objects } := by
  obtain ⟨object, ho, hbody⟩ := resolveProcess_eq_ok hr
  obtain ⟨process, hp⟩ := process?_of_resolveProcess hr
  have hrecord : s'.process? q = some process := (process?_of_books hbooks q).trans hp
  exact hlend.giveBack ho (congrArg Books.objects hbooks) hrecord (h.own o object q process ho hbody hp)

section
variable {caller : Caller} {target : Handle} {op : ControlOp} {p : ProcessId} {o : ObjectId}

theorem control_of_error {error : Error} (hr : s.resolveProcess caller.process target = .error error) :
    s.control caller target op = (.error error, s) := by
  rw [control, withProcess, acquireProcess, hr]

theorem control_of_ok (hr : s.resolveProcess caller.process target = .ok (p, o)) :
    s.control caller target op = (((s.addReference o).controlTarget caller p op).1,
      ((s.addReference o).controlTarget caller p op).2.releaseProcess p) := by
  rw [control, withProcess, acquireProcess, hr]

end

/-- References that are taken by hand add up, until the count wraps around. -/
theorem runAll_replicate_retain (s : State) (o : ObjectId) (n : Nat) :
    s.runAll (List.replicate n (.retain o)) =
      s.modifyObject o fun object => { object with count := object.count + .ofNat n } := by
  have hretain (s : State) : (s.retain o).2 = s.addReference o := by
    rw [retain]
    split
    next => rfl
    next habsent =>
      have hnone : s.objects.get? o = none := by simpa [Table.contains] using habsent
      rw [addReference, modifyObject, Table.modify_of_get?_eq_none hnone]
  induction n generalizing s with
  | zero =>
    have hsame : s.objects.modify o (fun object => { object with count := object.count + .ofNat 0 }) =
        s.objects :=
      Table.modify_of_fixed fun object _ =>
        congrArg (Object.mk object.body) (UInt32.add_zero object.count)
    exact (congrArg (fun objects => { s with objects := objects }) hsame).symm
  | succ n ih =>
    calc s.runAll (List.replicate (n + 1) (.retain o))
        = (s.retain o).2.runAll (List.replicate n (.retain o)) := rfl
      _ = (s.addReference o).modifyObject o
            fun object => { object with count := object.count + .ofNat n } := by rw [hretain, ih]
      _ = s.modifyObject o fun object => { object with count := object.count + .ofNat (n + 1) } := by
        rw [addReference, modifyObject_modifyObject]
        congr 1
        funext object
        rw [Object.taken, UInt32.ofNat_add, UInt32.add_assoc, UInt32.add_comm (.ofNat n)]
        rfl

end
end PluginSlot.Kernel.State
