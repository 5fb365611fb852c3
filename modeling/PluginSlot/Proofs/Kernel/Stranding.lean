import PluginSlot.Proofs.Kernel.Continuity

/-!
What a closed handle and a destroyed process can end. The record of a reaped process goes with the
last reference to it; the handles it still has go unreleased, and what they name keeps a reference
that nobody holds.
-/
namespace PluginSlot.Kernel

/-- References taken or dropped by hand, which no handle and no record stands for. -/
def Operation.isBare : Operation → Bool
  | retain _ | release _ | acquireProcess _ _ | releaseProcess _ => true
  | _ => false

/-- The operation ends the record of a reaped process that has a handle open, other than the one
that is being closed. -/
def Operation.Strands (op : Operation) (s : State) : Prop :=
  ∃ p process h o, s.process? p = some process ∧ process.reaped = true ∧
    (op.run s).2.process? p = none ∧ process.handles.slots.get? h = some o ∧ op ≠ .closeHandle p h

/-- The record without one handle. -/
def Process.close (h : Handle) (process : Process) : Process :=
  { process with handles := (process.handles.remove h).2 }

/-- The record of a reaped process: it has lost its handles. -/
def Process.corpse (process : Process) : Process :=
  { process with exiting := true, reaped := true, handles := process.handles.drain.2 }

namespace State

/-- The records of reaped processes may go; what their handles name is stranded then. -/
structure Sheds (stranded : List ObjectId) (s s' : State) : Prop where
  stays : ∀ p process, s.process? p = some process → s'.process? p = some process ∨
    s'.process? p = none ∧ process.reaped = true ∧
      ∀ o ∈ process.handles.slots.values, o ∈ stranded
  absent : ∀ p, s.process? p = none → s'.process? p = none
  source : ∀ o ∈ stranded, ∃ p process, s.process? p = some process ∧ s'.process? p = none ∧
    o ∈ process.handles.slots.values

section
variable {s s' s'' : State} {p : ProcessId} {process : Process} {o : ObjectId}
variable {loose stranded stranded' : List ObjectId}

theorem Sheds.of_processes (h : s'.processes = s.processes) : Sheds [] s s' := by
  have hsame (p : ProcessId) : s'.process? p = s.process? p := by rw [process?, process?, h]
  constructor
  · intro p process hp
    exact .inl ((hsame p).trans hp)
  · intro p hp
    exact (hsame p).trans hp
  · intro o ho
    cases ho

/-- A record that is left was there before, and the same. -/
theorem Sheds.before (h : Sheds stranded s s') (hp : s'.process? p = some process) :
    s.process? p = some process := by
  cases hold : s.process? p with
  | none => cases (h.absent p hold).symm.trans hp
  | some old =>
    obtain hstay | ⟨hgone, -⟩ := h.stays p old hold
    · exact hstay.symm.trans hp
    · cases hgone.symm.trans hp

theorem Sheds.trans (h : Sheds stranded s s') (h' : Sheds stranded' s' s'') :
    Sheds (stranded' ++ stranded) s s'' := by
  constructor
  · intro p process hp
    obtain hmid | ⟨hmid, hreaped, hall⟩ := h.stays p process hp
    · obtain hend | ⟨hend, hreaped, hall⟩ := h'.stays p process hmid
      · exact .inl hend
      · exact .inr ⟨hend, hreaped, fun o ho => List.mem_append_left _ (hall o ho)⟩
    · exact .inr ⟨h'.absent p hmid, hreaped, fun o ho => List.mem_append_right _ (hall o ho)⟩
  · intro p hp
    exact h'.absent p (h.absent p hp)
  · intro o ho
    cases List.mem_append.mp ho with
    | inl ho =>
      obtain ⟨p, process, hmid, hend, hmem⟩ := h'.source o ho
      exact ⟨p, process, h.before hmid, hend, hmem⟩
    | inr ho =>
      obtain ⟨p, process, hp, hmid, hmem⟩ := h.source o ho
      exact ⟨p, process, hp, h'.absent p hmid, hmem⟩

theorem mem_values_iff {t : HandleTable} :
    o ∈ t.slots.values ↔ ∃ h, t.slots.get? h = some o := by
  constructor
  · intro ho
    obtain ⟨⟨h, q⟩, hm, rfl⟩ := List.mem_map.mp ho
    exact ⟨h, (Table.get?_eq_some_iff _ h q).mpr hm⟩
  · rintro ⟨h, ho⟩
    exact List.mem_map.mpr ⟨(h, o), (Table.get?_eq_some_iff _ h o).mp ho, rfl⟩

theorem Sheds.reaped_of_gone (h : Sheds stranded s s') (hp : s.process? p = some process)
    (hgone : s'.process? p = none) : process.reaped = true := by
  obtain hstay | ⟨-, hreaped, -⟩ := h.stays p process hp
  · cases hgone.symm.trans hstay
  · exact hreaped

/-- Something is stranded exactly if a record goes that has a handle. -/
theorem Sheds.ne_nil_iff (h : Sheds stranded s s') :
    stranded ≠ [] ↔ ∃ p process j o, s.process? p = some process ∧ process.reaped = true ∧
      s'.process? p = none ∧ process.handles.slots.get? j = some o := by
  constructor
  · intro hne
    obtain ⟨o, ho⟩ := List.exists_mem_of_ne_nil _ hne
    obtain ⟨p, process, hp, hgone, hmem⟩ := h.source o ho
    obtain ⟨j, hj⟩ := mem_values_iff.mp hmem
    exact ⟨p, process, j, o, hp, h.reaped_of_gone hp hgone, hgone, hj⟩
  · rintro ⟨p, process, j, o, hp, -, hgone, hj⟩
    obtain hstay | ⟨-, -, hall⟩ := h.stays p process hp
    · cases hgone.symm.trans hstay
    · exact List.ne_nil_of_mem (hall o (mem_values_iff.mpr ⟨j, hj⟩))

/-- A released reference strands what the handles of a record name that goes with it. -/
theorem Accounted.shed (h : s.Accounted (o :: loose)) :
    ∃ stranded, (s.release o).Accounted (stranded ++ loose) ∧ Sheds stranded s (s.release o) := by
  obtain ⟨hafter, hsame⟩ | ⟨p, process, hp, hreaped, -, hafter, hrecords⟩ := h.release
  · exact ⟨[], hafter, .of_processes hsame⟩
  · refine ⟨process.handles.slots.values, hafter, ?_⟩
    have hgone : (s.release o).process? p = none := by
      rw [process?, hrecords, Table.get?_erase_self]
    have hkept (q : ProcessId) (hq : p ≠ q) : (s.release o).process? q = s.process? q := by
      rw [process?, hrecords, Table.get?_erase_ne _ hq, process?]
    constructor
    · intro q other hother
      by_cases hq : p = q
      · subst hq
        cases hp.symm.trans hother
        exact .inr ⟨hgone, hreaped, fun o ho => ho⟩
      · exact .inl ((hkept q hq).trans hother)
    · intro q hnone
      by_cases hq : p = q
      · exact hq ▸ hgone
      · exact (hkept q hq).trans hnone
    · intro o ho
      exact ⟨p, process, hp, hgone, ho⟩

/-- It does not matter in which order references are loose. -/
theorem Accounted.swap {os : List ObjectId} (h : s.Accounted (stranded ++ (os ++ loose))) :
    s.Accounted (os ++ (stranded ++ loose)) :=
  h.reorder fun q => by
    simp only [List.count_append]
    omega

theorem Accounted.shedAll {os : List ObjectId} (h : s.Accounted (os ++ loose)) :
    ∃ stranded, (os.foldl State.release s).Accounted (stranded ++ loose) ∧
      Sheds stranded s (os.foldl State.release s) := by
  induction os generalizing s loose with
  | nil => exact ⟨[], h, .of_processes rfl⟩
  | cons o os ih =>
    obtain ⟨first, hfirst, hshed⟩ := h.shed
    obtain ⟨rest, hrest, hshed'⟩ := ih hfirst.swap
    exact ⟨rest ++ first, by rwa [List.append_assoc], hshed.trans hshed'⟩

/-- Only the record of the process goes that the released object stands for. -/
theorem Accounted.object_eq_of_gone (h : s.Accounted (o :: loose)) (hp : s.process? p = some process)
    (hgone : (s.release o).process? p = none) : process.object = o := by
  obtain ⟨-, hsame⟩ | ⟨q, other, hq, -, hother, -, hrecords⟩ := h.release
  · rw [process?, hsame] at hgone
    cases hp.symm.trans hgone
  · by_cases he : q = p
    · subst he
      cases hp.symm.trans hq
      exact hother
    · rw [process?, hrecords, Table.get?_erase_ne _ he] at hgone
      cases hp.symm.trans hgone

theorem Accounted.object_mem_of_gone {os : List ObjectId} (h : s.Accounted (os ++ loose))
    (hp : s.process? p = some process) (hgone : (os.foldl State.release s).process? p = none) :
    process.object ∈ os := by
  induction os generalizing s loose with
  | nil => cases hp.symm.trans hgone
  | cons o os ih =>
    cases hnow : (s.release o).process? p with
    | none => exact List.mem_cons.mpr (.inl (h.object_eq_of_gone hp hnow))
    | some now =>
      obtain ⟨stranded, hfirst, hshed⟩ := h.shed
      cases hp.symm.trans (hshed.before hnow)
      exact List.mem_cons_of_mem o (ih hfirst.swap hnow hgone)

/-- An operation that first changes one record, and then only releases. -/
theorem Sheds.strands_iff {op : Operation} {now : Process} (h : Sheds stranded s' (op.run s).2)
    (hp : s.process? p = some process) (hnow : s'.process? p = some now)
    (hother : ∀ q, q ≠ p → s'.process? q = s.process? q)
    (hself : ∀ j o, now.reaped = true ∧ now.handles.slots.get? j = some o ↔
      process.reaped = true ∧ process.handles.slots.get? j = some o ∧ op ≠ .closeHandle p j)
    (hop : ∀ q j, q ≠ p → op ≠ .closeHandle q j) : stranded ≠ [] ↔ op.Strands s := by
  rw [h.ne_nil_iff]
  constructor
  · rintro ⟨q, record, j, o, hq, hreaped, hgone, hj⟩
    by_cases he : q = p
    · subst he
      cases hnow.symm.trans hq
      obtain ⟨hwas, hold, hne⟩ := (hself j o).mp ⟨hreaped, hj⟩
      exact ⟨q, process, j, o, hp, hwas, hgone, hold, hne⟩
    · exact ⟨q, record, j, o, (hother q he).symm.trans hq, hreaped, hgone, hj, hop q j he⟩
  · rintro ⟨q, record, j, o, hq, hreaped, hgone, hj, hne⟩
    by_cases he : q = p
    · subst he
      cases hp.symm.trans hq
      obtain ⟨hwas, hold⟩ := (hself j o).mpr ⟨hreaped, hj, hne⟩
      exact ⟨q, now, j, o, hnow, hwas, hgone, hold⟩
    · exact ⟨q, record, j, o, (hother q he).trans hq, hreaped, hgone, hj⟩

/-- What one operation does to the references: some are stranded, if and only if it strands them,
and only records of reaped processes end, or of the one that is destroyed. -/
structure Settles (loose : List ObjectId) (op : Operation) (s : State) : Prop where
  audited : ∃ stranded, (op.run s).2.Audited (stranded ++ loose) ∧ (stranded ≠ [] ↔ op.Strands s)
  ended : ∀ p process, s.process? p = some process → (op.run s).2.process? p = none →
    process.reaped = true ∨ op = .destroyProcess p

theorem Settles.of_continues {op : Operation} (h : s.Continues (op.run s).2) (hs : s.Audited loose) :
    Settles loose op s := by
  obtain ⟨hafter, hgrow⟩ := h loose hs
  have hkept (p : ProcessId) (process : Process) (hp : s.process? p = some process) :
      (op.run s).2.process? p ≠ none := by
    intro hgone
    obtain ⟨now, hnow, -⟩ := hgrow.record p process hp
    cases hgone.symm.trans hnow
  constructor
  · refine ⟨[], hafter, ?_⟩
    constructor
    · intro hne
      exact absurd rfl hne
    · rintro ⟨p, process, -, -, hp, -, hgone, -⟩
      exact absurd hgone (hkept p process hp)
  · intro p process hp hgone
    exact absurd hgone (hkept p process hp)

theorem closeHandle_eq {h : Handle} (hp : s.process? p = some process)
    (hg : process.handles.slots.get? h = some o) :
    s.closeHandle p h = (.ok (), (s.modifyProcess p (Process.close h)).release o) := by
  have ho : (process.handles.remove h).1 = some o := hg
  simp only [closeHandle, hp, Option.bind_some, ho]
  rfl

theorem Accounted.close {h : Handle} (hs : s.Accounted loose) (hp : s.process? p = some process)
    (hg : process.handles.slots.get? h = some o) :
    (s.modifyProcess p (Process.close h)).Accounted (o :: loose) := by
  apply hs.modifyProcess hp
  · rfl
  · exact (hs.numbered p process hp).remove h
  · exact fun e he => .inl he
  · intro q
    have hvalues := (HandleTable.values_remove hg).count_eq q
    have hclaims : (process.close h).claims = (process.handles.remove h).2.slots.values ++
        process.memoryChangeEvent.toList ++ if process.reaped then [] else [process.object] := rfl
    rw [hclaims, Process.claims]
    simp only [List.count_append, List.count_cons] at hvalues ⊢
    omega

/-- The reference of a closed handle is released. -/
theorem settles_closeHandle (hs : s.Audited loose) (p : ProcessId) (h : Handle) :
    Settles loose (.closeHandle p h) s := by
  let op : Operation := .closeHandle p h
  cases ho : (s.process? p).bind fun process => (process.handles.remove h).1 with
  | none =>
    have hsame : (op.run s).2 = s := by
      show (s.closeHandle p h).2 = s
      simp only [closeHandle, ho]
    apply Settles.of_continues _ hs
    show s.Continues (op.run s).2
    rw [hsame]
    exact .refl s
  | some o =>
    obtain ⟨process, hp, hg⟩ := Option.bind_eq_some_iff.mp ho
    have hrun : (op.run s).2 = (s.modifyProcess p (Process.close h)).release o :=
      congrArg Prod.snd (closeHandle_eq hp hg)
    have hnow : (s.modifyProcess p (Process.close h)).process? p = some (process.close h) := by
      simp [hp]
    have hother (q : ProcessId) (hq : q ≠ p) :
        (s.modifyProcess p (Process.close h)).process? q = s.process? q :=
      process?_modifyProcess_ne s (Ne.symm hq) _
    obtain ⟨stranded, hafter, hshed⟩ := (hs.close hp hg).shed
    have hclosed : (s.modifyProcess p (Process.close h)).Referred := hs.referred.of_objects rfl
    have hreferred := hclosed.release o
    rw [← hrun] at hafter hshed hreferred
    constructor
    · refine ⟨stranded, ⟨hafter, hreferred⟩, ?_⟩
      apply hshed.strands_iff hp hnow hother
      · intro j q
        rw [Process.close, HandleTable.slots_remove]
        by_cases hj : h = j
        · simp [hj, op]
        · have hne : op ≠ .closeHandle p j := fun he => hj (Operation.closeHandle.inj he).2
          simp [hj, hne]
      · intro q j hq he
        exact hq (Operation.closeHandle.inj he).1.symm
    · intro q other hq hgone
      by_cases he : q = p
      · subst he
        cases hp.symm.trans hq
        have hreaped : (process.close h).reaped = true := hshed.reaped_of_gone hnow hgone
        exact .inl hreaped
      · exact .inl (hshed.reaped_of_gone ((hother q he).trans hq) hgone)

/-- A process is reaped: its threads stop and go, and its handles are taken out of its record. The
references they held, and the kernel's own, are still to be dropped. -/
def bury (s : State) (p : ProcessId) : State :=
  (((s.beginExit p).2.threadsOf p).foldl removeThread (s.beginExit p).2).modifyProcess p
    fun process => { process with reaped := true, handles := process.handles.drain.2 }

theorem destroyProcess_eq (hp : s.process? p = some process) (hlive : process.reaped = false) :
    s.destroyProcess p = (.ok (),
      (process.handles.slots.values ++ [process.object]).foldl State.release (s.bury p)) := by
  rw [List.foldl_append]
  simp only [destroyProcess, hp, hlive]
  rfl

theorem books_bury (hp : s.process? p = some process) :
    (s.bury p).books = (s.modifyProcess p Process.corpse).books := by
  have hremoved (ts : List ThreadId) (s : State) : (ts.foldl removeThread s).books = s.books := by
    induction ts generalizing s with
    | nil => rfl
    | cons t ts ih => exact (ih _).trans (books_removeThread t)
  obtain hexit | ⟨hnone, -⟩ := holdings_beginExit (s := s) p
  · rw [bury, books_modifyProcess, hremoved, books_of_holdings hexit, ← books_modifyProcess,
      modifyProcess_modifyProcess]
    rfl
  · cases hnone.symm.trans hp

theorem process?_bury_self (hp : s.process? p = some process) :
    (s.bury p).process? p = some process.corpse := by
  rw [process?_of_books (books_bury hp), process?_modifyProcess_self, hp]
  rfl

theorem process?_bury_ne (hp : s.process? p = some process) {q : ProcessId} (hq : q ≠ p) :
    (s.bury p).process? q = s.process? q := by
  rw [process?_of_books (books_bury hp), process?_modifyProcess_ne _ (Ne.symm hq)]

/-- What a reaped process held is to be released. -/
theorem Accounted.bury (hs : s.Accounted loose) (hp : s.process? p = some process)
    (hlive : process.reaped = false) :
    (s.bury p).Accounted (process.handles.slots.values ++ [process.object] ++ loose) := by
  have hcorpse : (s.modifyProcess p Process.corpse).Accounted
      (process.handles.slots.values ++ [process.object] ++ loose) := by
    apply hs.modifyProcess hp
    · rfl
    · intro j o hj
      cases hj
    · exact fun e he => .inl he
    · intro q
      have hclaims : process.corpse.claims = process.memoryChangeEvent.toList := by
        show [] ++ process.memoryChangeEvent.toList ++ [] = _
        simp
      rw [hclaims, Process.claims]
      simp only [hlive, Bool.false_eq_true, if_false, List.count_append]
      omega
  exact hcorpse.frame (books_bury hp)

/-- The handles of a destroyed process are closed all at once, and then its own reference goes. -/
theorem settles_destroyProcess (hs : s.Audited loose) (p : ProcessId) :
    Settles loose (.destroyProcess p) s := by
  let op : Operation := .destroyProcess p
  have hidle (hsame : (op.run s).2 = s) : Settles loose op s := by
    apply Settles.of_continues _ hs
    rw [hsame]
    exact .refl s
  cases hp : s.process? p with
  | none =>
    apply hidle
    show (s.destroyProcess p).2 = s
    simp only [destroyProcess, hp]
  | some process =>
    cases hlive : process.reaped with
    | true =>
      apply hidle
      show (s.destroyProcess p).2 = s
      simp only [destroyProcess, hp, hlive, if_pos]
    | false =>
      have hrun : (op.run s).2 =
          (process.handles.slots.values ++ [process.object]).foldl State.release (s.bury p) :=
        congrArg Prod.snd (destroyProcess_eq hp hlive)
      obtain ⟨stranded, hafter, hshed⟩ := (hs.bury hp hlive).shedAll
      have hburied : (s.bury p).Referred :=
        hs.referred.of_objects (congrArg Books.objects (books_bury hp))
      have hreferred := hburied.foldl_release (process.handles.slots.values ++ [process.object])
      rw [← hrun] at hafter hshed hreferred
      constructor
      · refine ⟨stranded, ⟨hafter, hreferred⟩, ?_⟩
        apply hshed.strands_iff hp (process?_bury_self hp) fun q hq => process?_bury_ne hp hq
        · intro j o
          simp [Process.corpse, hlive]
        · simp [op]
      · intro q other hq hgone
        by_cases he : q = p
        · exact .inr (he ▸ rfl)
        · exact .inl (hshed.reaped_of_gone ((process?_bury_ne hp he).trans hq) hgone)

/-- What one operation does to the references of a state in which all are accounted for. -/
theorem settles (hs : s.Audited loose) (hroom : s.Roomy) (op : Operation)
    (hop : op.isBare = false) : Settles loose op s := by
  cases op with
  | control caller target op => exact .of_continues (continues_control s hroom caller target op) hs
  | controlRaw caller target code arg =>
    exact .of_continues (continues_controlRaw s hroom caller target code arg) hs
  | createProcess name titleId => exact .of_continues (continues_createProcess s name titleId) hs
  | createThread p c => exact .of_continues (.of_books (books_createThread p c)) hs
  | setTls t slot value => exact .of_continues (.of_holdings (holdings_setTls s t slot value)) hs
  | setThreadState t state => exact .of_continues (.of_holdings (holdings_setThreadState s t state)) hs
  | setDebugLock t locked => exact .of_continues (.of_holdings (holdings_setDebugLock s t locked)) hs
  | beginExit p => exact .of_continues (continues_beginExit s p) hs
  | destroyProcess p => exact settles_destroyProcess hs p
  | runOnCore t => exact .of_continues (.of_holdings (holdings_runOnCore s t)) hs
  | enqueue t => exact .of_continues (.of_holdings (holdings_enqueue s t)) hs
  | evict t => exact .of_continues (.of_holdings (holdings_evict s t)) hs
  | reschedule c => exact .of_continues (.of_holdings (holdings_reschedule s c)) hs
  | tick c => exact .of_continues (.of_holdings (holdings_tick s c)) hs
  | raiseIpi c => exact .of_continues (.of_holdings (holdings_raiseIpi s c)) hs
  | deliverIpis => exact .of_continues (.of_holdings holdings_deliverIpis) hs
  | setPluginLock t => exact .of_continues (.of_holdings (holdings_setPluginLock s t)) hs
  | clearPluginLock t => exact .of_continues (.of_holdings (holdings_clearPluginLock s t)) hs
  | setSyncOwner t => exact .of_continues (.of_books rfl) hs
  | openHandle p o => exact .of_continues (continues_openHandle s p o (hroom o)) hs
  | openProcess p target => exact .of_continues (continues_openProcess s p hroom target) hs
  | createObject p c => exact .of_continues (continues_createObject s p c) hs
  | closeHandle p h => exact settles_closeHandle hs p h
  | titleOf p h => exact .of_continues (continues_titleOf s p hroom h) hs
  | clearEvent p h => exact .of_continues (continues_clearEvent s p h) hs
  | mapPage p virtual physical permissions =>
    exact .of_continues (continues_mapPage s p virtual physical permissions) hs
  | unmapPage p virtual => exact .of_continues (continues_unmapPage s p virtual) hs
  | retain _ | release _ | acquireProcess _ _ | releaseProcess _ => cases hop

end
end State
end PluginSlot.Kernel
