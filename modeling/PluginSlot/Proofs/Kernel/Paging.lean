import Mathlib.Data.Nat.Bitwise
import PluginSlot.Proofs.Kernel.Balance
import PluginSlot.Proofs.Kernel.Neutrality
import PluginSlot.Proofs.Kernel.Transfers

/-!
What is done to the pages of a process: they are given to it anew when one of them is mapped or
unmapped, they get full access when that is asked for, and nothing else touches them.
-/
namespace PluginSlot.Kernel

section
variable (a b : UInt32)

theorem toNat_pageOffset : (pageOffset a).toNat = a.toNat % pageSize.toNat := by
  rw [pageOffset, UInt32.toNat_and]
  exact Nat.and_two_pow_sub_one_eq_mod a.toNat 12

theorem toNat_pageBase : (pageBase a).toNat = pageSize.toNat * (a.toNat / pageSize.toNat) := by
  have hmask : (~~~(pageSize - 1)).toNat = 2 ^ 12 * (2 ^ 20 - 1) := by decide
  have hsize : pageSize.toNat = 2 ^ 12 := by decide
  have hhigh (i : Nat) (hi : 32 ≤ i) : a.toNat.testBit i = false :=
    Nat.testBit_lt_two_pow (Nat.lt_of_lt_of_le a.toNat_lt (Nat.pow_le_pow_right (by decide) hi))
  rw [pageBase, UInt32.toNat_and, hmask, hsize]
  refine Nat.eq_of_testBit_eq fun i => ?_
  rw [Nat.testBit_and, Nat.testBit_two_pow_mul, Nat.testBit_two_pow_mul, Nat.testBit_two_pow_sub_one,
    Nat.testBit_div_two_pow]
  grind

/-- The two parts of an address share no bit, so joining them adds them. -/
theorem toNat_pageBase_or_pageOffset : (pageBase a ||| pageOffset b).toNat =
    pageSize.toNat * (a.toNat / pageSize.toNat) + b.toNat % pageSize.toNat := by
  rw [UInt32.toNat_or, toNat_pageBase, toNat_pageOffset]
  exact (Nat.two_pow_add_eq_or_of_lt (Nat.mod_lt _ (by decide : 0 < 2 ^ 12)) _).symm

theorem pageBase_div : (pageBase a).toNat / pageSize.toNat = a.toNat / pageSize.toNat := by
  rw [toNat_pageBase]
  exact Nat.mul_div_cancel_left _ (by decide)

theorem pageBase_mod : (pageBase a).toNat % pageSize.toNat = 0 := by
  rw [toNat_pageBase]
  exact Nat.mul_mod_right _ _

theorem eq_pageBase_iff :
    b = pageBase a ↔ b.toNat % pageSize.toNat = 0 ∧ b.toNat / pageSize.toNat = a.toNat / pageSize.toNat := by
  constructor
  · rintro rfl
    exact ⟨pageBase_mod a, pageBase_div a⟩
  · rintro ⟨hmod, hdiv⟩
    apply UInt32.toNat_inj.mp
    rw [toNat_pageBase, ← hdiv]
    exact (Nat.mul_div_cancel' (Nat.dvd_of_mod_eq_zero hmod)).symm

end

/-- The operation asks for full access to the pages of the process, and gets it. -/
def Operation.Forces (op : Operation) (p : ProcessId) (s : State) : Prop :=
  ∃ caller target o, op.forcing = some (caller, target) ∧
    s.resolveProcess caller.process target = .ok (p, o) ∧ (op.run s).1 = .control .done

namespace State

/-- No page comes, goes or gets other permissions, but that a new record has no pages. -/
structure KeepsPages (s s' : State) : Prop where
  record : ∀ p now, s'.process? p = some now →
    (∃ old, s.process? p = some old ∧ now.pages = old.pages ∧
        now.flags.forceRwx = old.flags.forceRwx) ∨
      s.nextProcess ≤ p.val ∧ now.pages = .empty ∧ now.flags.forceRwx = false
  nextProcess : s.nextProcess ≤ s'.nextProcess

section
variable {s s' s'' : State} {p q : ProcessId} {process : Process}

theorem KeepsPages.refl (s : State) : s.KeepsPages s :=
  ⟨fun _ now hp => .inl ⟨now, hp, rfl, rfl⟩, Nat.le_refl _⟩

theorem KeepsPages.trans (h : s.KeepsPages s') (h' : s'.KeepsPages s'') : s.KeepsPages s'' := by
  refine ⟨fun p now hp => ?_, Nat.le_trans h.nextProcess h'.nextProcess⟩
  obtain ⟨mid, hmid, hpages, hforce⟩ | ⟨hnew, hblank⟩ := h'.record p now hp
  · rw [hpages, hforce]
    exact h.record p mid hmid
  · exact .inr ⟨Nat.le_trans h.nextProcess hnew, hblank⟩

/-- Records that are left are as they were. -/
theorem KeepsPages.shrink
    (hprocess : ∀ p process, s'.process? p = some process → s.process? p = some process)
    (hnext : s.nextProcess = s'.nextProcess) : s.KeepsPages s' :=
  ⟨fun p now hp => .inl ⟨now, hprocess p now hp, rfl, rfl⟩, Nat.le_of_eq hnext⟩

theorem keepsPages_modifyProcess (s : State) (p : ProcessId) {f : Process → Process}
    (hf : ∀ process, s.process? p = some process → (f process).pages = process.pages ∧
      (f process).flags.forceRwx = process.flags.forceRwx) : s.KeepsPages (s.modifyProcess p f) := by
  refine ⟨fun q now hq => ?_, Nat.le_refl _⟩
  obtain ⟨old, hold, ⟨rfl, rfl⟩ | ⟨-, rfl⟩⟩ := exists_of_modifyProcess hq
  · exact .inl ⟨old, hold, hf old hold⟩
  · exact .inl ⟨now, hold, rfl, rfl⟩

theorem keepsPages_dropReference (s : State) (o : ObjectId) : s.KeepsPages (s.dropReference o).2 := by
  obtain ⟨-, h⟩ | ⟨_, -, -, h⟩ | ⟨_, -, -, h⟩ := dropReference_cases s o <;> rw [h]
  · exact .refl s
  · exact .shrink (fun _ _ hp => hp) rfl
  · exact .shrink (fun _ _ hp => hp) rfl

theorem keepsPages_eraseProcess (s : State) (p : ProcessId) :
    s.KeepsPages { s with processes := s.processes.erase p } :=
  .shrink (fun _ _ hq => (Table.of_get?_erase hq).2) rfl

theorem Transfer.keepsPages {roomy : Prop} {a b : List ObjectId × State} (h : Transfer roomy a b) :
    a.2.KeepsPages b.2 := by
  cases h with
  | frame loose hbooks =>
    exact .shrink (fun p process hp => (process?_of_books hbooks p).symm.trans hp)
      (congrArg Books.nextProcess hbooks).symm
  | amend hp hf =>
    refine keepsPages_modifyProcess _ _ fun other hother => ?_
    cases hp.symm.trans hother
    exact ⟨hf.pages, hf.forceRwx⟩
  | take loose ho => exact .shrink (fun _ _ hp => hp) rfl
  | borrow loose hp => exact .refl _
  | forget loose s o => exact .refl s
  | drop loose s o => exact keepsPages_dropReference s o
  | eraseProcess loose s p => exact keepsPages_eraseProcess s p
  | createProcess loose s name titleId =>
    refine ⟨fun p now hp => ?_, Nat.le_succ _⟩
    obtain ⟨rfl, rfl⟩ | hold := process?_of_createProcess name titleId hp
    · exact .inr ⟨Nat.le_refl _, rfl, rfl⟩
    · exact .inl ⟨now, hold, rfl, rfl⟩
  | allocate loose s hbody => exact .shrink (fun _ _ hp => hp) rfl
  | @enroll loose s p process hp hnone =>
    have hmade : s.KeepsPages (s.allocate (.event false true)).2 := .shrink (fun _ _ hp => hp) rfl
    exact hmade.trans (keepsPages_modifyProcess _ p fun _ _ => ⟨rfl, rfl⟩)

/-- To clear an event is to take back its signal, if the handle names one. -/
theorem clearEvent_cases (s : State) (p : ProcessId) (h : Handle) :
    ((Operation.clearEvent p h).run s).2 = s ∨ ∃ o, s.lookup p h = .ok o ∧
      ((Operation.clearEvent p h).run s).2 = s.modifyObject o (setSignaled false) := by
  show (s.clearEvent p h).2 = s ∨ ∃ o, s.lookup p h = .ok o ∧
    (s.clearEvent p h).2 = s.modifyObject o (setSignaled false)
  rw [clearEvent]
  split
  next ho => exact .inr ⟨_, ho, rfl⟩
  next => exact .inl rfl

/-- What transfers and changes of objects keep is kept by whatever neither maps nor unmaps a page, nor
asks for full access. -/
theorem run_keeps {P : State → Prop} (htransfer : ∀ a b, Transfer False a b → P a.2 → P b.2)
    (hobject : ∀ s o f, P s → P (s.modifyObject o f)) {op : Operation} (hpage : op.page = none)
    (hforcing : op.forcing = none) (hs : P s) : P (op.run s).2 := by
  obtain hplain | ⟨p, h, rfl⟩ | ⟨o, rfl⟩ | ⟨o, rfl⟩ := Operation.isPlain_or hpage hforcing
  · exact (transfers_run [] s False.elim hplain).keeps (P := fun b => P b.2) htransfer hs
  · obtain hsame | ⟨o, -, hcleared⟩ := clearEvent_cases s p h
    · rwa [hsame]
    · rw [hcleared]
      exact hobject s o _ hs
  · show P (s.retain o).2
    rw [retain]
    split
    · exact hobject s o _ hs
    · exact hs
  · exact release_keeps (fun s' o h => htransfer _ _ (.drop [] s' o) h)
      (fun s' p h => htransfer _ _ (.eraseProcess [] s' p) h) hs o

/-- Whatever neither maps nor unmaps a page, nor asks for full access, leaves all pages as they are. -/
theorem keepsPages_run (s : State) {op : Operation} (hpage : op.page = none)
    (hforcing : op.forcing = none) : s.KeepsPages (op.run s).2 :=
  run_keeps (fun _ _ hstep h => h.trans hstep.keepsPages)
    (fun _ _ _ h => h.trans (.shrink (fun _ _ hp => hp) rfl)) hpage hforcing (.refl s)

@[simp] theorem process?_notifyLayoutChange (s : State) (p q : ProcessId) :
    (s.notifyLayoutChange p).process? q = s.process? q := by
  rw [notifyLayoutChange]
  split
  · rfl
  · split
    · rfl
    · split <;> rfl

/-- Only the record of the process matters to a change of it. -/
theorem modifyProcess_congr {f g : Process → Process} (hp : s.process? p = some process)
    (h : f process = g process) : s.modifyProcess p f = s.modifyProcess p g := by
  have hsame : s.processes.modify p f = s.processes.modify p g := by
    refine Table.modify_congr fun other hother => ?_
    cases hp.symm.trans hother
    exact h
  rw [modifyProcess, modifyProcess, hsame]

/-- Give a process other pages, and tell whoever asked. -/
def repage (s : State) (p : ProcessId) (pages : Table UInt32 Page) : State :=
  (s.modifyProcess p ({ · with pages := pages })).notifyLayoutChange p

theorem process?_repage_self (pages : Table UInt32 Page) (hp : s.process? p = some process) :
    (s.repage p pages).process? p = some { process with pages := pages } := by
  rw [repage, process?_notifyLayoutChange, process?_modifyProcess_self, hp, Option.map_some]

theorem process?_repage_ne (s : State) (pages : Table UInt32 Page) (h : p ≠ q) :
    (s.repage p pages).process? q = s.process? q := by
  rw [repage, process?_notifyLayoutChange, process?_modifyProcess_ne s h]

section
variable (virtual physical : UInt32) (permissions : Permissions)

theorem mapPage_of_some (hp : s.process? p = some process) :
    s.mapPage p virtual physical permissions = (.ok (), s.repage p
      (process.pages.insert (pageBase virtual)
        ⟨pageBase physical, if process.flags.forceRwx then .all else permissions⟩)) := by
  simp only [mapPage, hp]
  rw [repage, modifyProcess_congr hp]
  rfl

theorem mapPage_of_none (hp : s.process? p = none) :
    s.mapPage p virtual physical permissions = (.error .invalidHandle, s) := by
  simp only [mapPage, hp]

theorem unmapPage_of_some (hp : s.process? p = some process) :
    s.unmapPage p virtual =
      if process.pages.contains (pageBase virtual) then
        (.ok (), s.repage p (process.pages.erase (pageBase virtual)))
      else (.error .invalidAddress, s) := by
  simp only [unmapPage, hp]
  cases process.pages.contains (pageBase virtual) with
  | false => rfl
  | true =>
    rw [repage, modifyProcess_congr hp]
    · rfl
    · rfl

theorem unmapPage_of_none (hp : s.process? p = none) :
    s.unmapPage p virtual = (.error .invalidHandle, s) := by
  simp only [unmapPage, hp]

theorem mapPage_done_iff :
    ((Operation.mapPage p virtual physical permissions).run s).1 = .done ↔
      ∃ process, s.process? p = some process := by
  show Outcome.ofExcept (fun _ => .done) (s.mapPage p virtual physical permissions).1 = .done ↔ _
  cases hp : s.process? p with
  | none => simp [mapPage_of_none virtual physical permissions hp, Outcome.ofExcept]
  | some process => simp [mapPage_of_some virtual physical permissions hp, Outcome.ofExcept]

end

/-- To map or unmap a page is to give its process other pages, if anything changes at all. -/
theorem run_of_page (s : State) {op : Operation} {page : ProcessId × Nat} (hop : op.page = some page) :
    ((op.run s).1 ≠ .done ∧ (op.run s).2 = s) ∨
      (op.run s).1 = .done ∧ ∃ pages, (op.run s).2 = s.repage page.1 pages := by
  cases op with
  | mapPage p virtual physical permissions =>
    cases hop
    have hrun : (Operation.mapPage p virtual physical permissions).run s =
        (.ofExcept (fun _ => .done) (s.mapPage p virtual physical permissions).1,
          (s.mapPage p virtual physical permissions).2) := rfl
    rw [hrun]
    cases hp : s.process? p with
    | none =>
      rw [mapPage_of_none _ _ _ hp]
      exact .inl ⟨nofun, rfl⟩
    | some process =>
      rw [mapPage_of_some _ _ _ hp]
      exact .inr ⟨rfl, _, rfl⟩
  | unmapPage p virtual =>
    cases hop
    have hrun : (Operation.unmapPage p virtual).run s =
        (.ofExcept (fun _ => .done) (s.unmapPage p virtual).1, (s.unmapPage p virtual).2) := rfl
    rw [hrun]
    cases hp : s.process? p with
    | none =>
      rw [unmapPage_of_none _ hp]
      exact .inl ⟨nofun, rfl⟩
    | some process =>
      rw [unmapPage_of_some _ hp]
      split
      · exact .inr ⟨rfl, _, rfl⟩
      · exact .inl ⟨nofun, rfl⟩
  | _ => cases hop

/-- To map or unmap a page of one process leaves the records of all others alone. -/
theorem process?_run_of_page (s : State) {op : Operation} {page : ProcessId × Nat}
    (hop : op.page = some page) (h : page.1 ≠ q) : (op.run s).2.process? q = s.process? q := by
  obtain ⟨-, hsame⟩ | ⟨-, pages, hrepage⟩ := run_of_page s hop
  · rw [hsame]
  · rw [hrepage, process?_repage_ne s _ h]

theorem not_forces_of_page {op : Operation} {page : ProcessId × Nat} (hop : op.page = some page) :
    ¬op.Forces p s := by
  rintro ⟨_, _, _, hforcing, -⟩
  cases op with
  | mapPage _ _ _ _ | unmapPage _ _ => cases hforcing
  | _ => cases hop

/-- Asked for full access, a kernel grants it. -/
theorem control_forceRwx {caller : Caller} {target : Handle} {o : ObjectId}
    (hr : s.resolveProcess caller.process target = .ok (p, o)) :
    s.control caller target .forceRwx =
      (.ok .done, ((s.addReference o).forceRwx p).releaseProcess p) := by
  obtain ⟨process, hp⟩ := process?_of_resolveProcess hr
  have hcontains : (s.addReference o).processes.contains p = true :=
    Option.isSome_iff_exists.mpr ⟨process, hp⟩
  rw [control_of_ok hr, controlTarget, if_pos hcontains]

theorem process?_forceRwx_self (hp : s.process? p = some process) :
    ∃ now, (s.forceRwx p).process? p = some now ∧ now.object = process.object :=
  ⟨_, (process?_modifyProcess_self ..).trans (congrArg (Option.map _) hp), rfl⟩

/-- The process that was given full access is released, and nothing else changes. -/
theorem Rooted.releaseProcess_forceRwx (h : s.Rooted) {caller : Caller} {target : Handle} {o : ObjectId}
    (hr : s.resolveProcess caller.process target = .ok (p, o)) (hlend : s.Lendable o) :
    ((s.addReference o).forceRwx p).releaseProcess p = s.forceRwx p := by
  obtain ⟨process, object, hp, hown, ho, -⟩ := h.resolved hr
  have hheld : (s.addReference o).process? p = some process := hp
  obtain ⟨now, hnow, hsame⟩ := process?_forceRwx_self hheld
  have hobjects : ((s.addReference o).forceRwx p).objects = (s.addReference o).objects := rfl
  rw [hlend.giveBack ho hobjects hnow (hsame.trans hown)]
  rfl

/-- A record goes only with the last reference to its object. -/
theorem process?_release {o : ObjectId} {object : Object} (ho : s.object? o = some object)
    (hbody : object.body = .process p) (r : ProcessId) :
    (s.release o).process? r = s.process? r ∨ r = p ∧ (s.release o).process? r = none := by
  obtain hmore | hlast := Nat.lt_or_ge 1 object.references
  · rw [release_of_shared ho hmore]
    exact .inl rfl
  · have hprocesses : (s.release o).processes = s.processes.erase p := by
      simp only [release, dropReference_of_last ho hlast, hbody]
      split
      · rfl
      next e _ =>
        have hdropped := dropReference_cases
          { s with objects := s.objects.erase o, processes := s.processes.erase p } e
        obtain ⟨-, hsame⟩ | ⟨_, -, -, hsame⟩ | ⟨_, -, -, hsame⟩ := hdropped
        all_goals rw [hsame]
        rfl
    by_cases hr : p = r
    · subst hr
      exact .inr ⟨rfl, by rw [process?, hprocesses, Table.get?_erase_self]⟩
    · exact .inl (by rw [process?, hprocesses, Table.get?_erase_ne _ hr, process?])

theorem run_of_forcing (s : State) {op : Operation} {caller : Caller} {target : Handle}
    (h : op.forcing = some (caller, target)) :
    op.run s = (Operation.control caller target .forceRwx).run s := by
  cases op with
  | control caller' target' op =>
    cases op <;> cases h
    rfl
  | controlRaw caller' target' code arg =>
    simp only [Operation.forcing, Option.ite_none_right_eq_some] at h
    obtain ⟨rfl, h⟩ := h
    cases h
    rfl
  | _ => cases h

/-- An operation that asks for full access either gets it or changes nothing. -/
theorem run_of_forcing_cases (s : State) {op : Operation} {caller : Caller} {target : Handle}
    (hop : op.forcing = some (caller, target)) :
    ((op.run s).2 = s ∧ ∀ q, ¬op.Forces q s) ∨
      ∃ q o, s.resolveProcess caller.process target = .ok (q, o) ∧ (∀ r, op.Forces r s ↔ r = q) ∧
        (op.run s).2 = ((s.addReference o).forceRwx q).releaseProcess q := by
  have hrun := run_of_forcing s hop
  cases hr : s.resolveProcess caller.process target with
  | error error =>
    refine .inl ⟨?_, ?_⟩
    · rw [hrun]
      exact congrArg Prod.snd (control_of_error hr)
    · rintro q ⟨_, _, o, hop', hr', -⟩
      cases hop.symm.trans hop'
      cases hr.symm.trans hr'
  | ok found =>
    obtain ⟨q, o⟩ := found
    have hgranted := control_forceRwx hr
    refine .inr ⟨q, o, rfl, fun r => ⟨?_, ?_⟩, ?_⟩
    · rintro ⟨_, _, o', hop', hr', -⟩
      cases hop.symm.trans hop'
      cases hr.symm.trans hr'
      rfl
    · rintro rfl
      refine ⟨caller, target, o, hop, hr, ?_⟩
      rw [hrun]
      exact congrArg (fun r => Outcome.ofExcept .control r.1) hgranted
    · rw [hrun]
      exact congrArg Prod.snd hgranted

/-- A process that gets full access keeps its record, but for the last reference to it; all others stay
as they were. -/
theorem Rooted.process?_of_forcing (h : s.Rooted) {op : Operation} {caller : Caller} {target : Handle}
    (hop : op.forcing = some (caller, target)) :
    ((op.run s).2 = s ∧ ∀ q, ¬op.Forces q s) ∨
      ∃ q, (∀ r, op.Forces r s ↔ r = q) ∧ ∀ r, (op.run s).2.process? r = (s.forceRwx q).process? r ∨
        r = q ∧ (op.run s).2.process? r = none := by
  obtain hsame | ⟨q, o, hr, hforces, hgiven⟩ := run_of_forcing_cases s hop
  · exact .inl hsame
  · refine .inr ⟨q, hforces, fun r => ?_⟩
    obtain ⟨process, object, hp, hown, ho, hbody⟩ := h.resolved hr
    have hheld : (s.addReference o).process? q = some process := hp
    obtain ⟨now, hnow, hsame⟩ := process?_forceRwx_self hheld
    have htaken : ((s.addReference o).forceRwx q).object? o = some object.taken :=
      object?_addReference_self ho
    have hreleased : ((s.addReference o).forceRwx q).releaseProcess q =
        ((s.addReference o).forceRwx q).release o := by
      simp only [releaseProcess, hnow, hsame, hown]
    rw [hgiven, hreleased]
    exact process?_release htaken hbody r

/-- What transfers of references keep, and full access to pages too, is kept by whatever asks for full
access. -/
theorem forcing_keeps {roomy : Prop} {P : List ObjectId × State → Prop}
    (htransfer : ∀ a b, Transfer roomy a b → P a → P b)
    (hforce : ∀ s q, P ([], s) → P ([], s.forceRwx q)) {op : Operation}
    {asked : Caller × Handle} (hop : op.forcing = some asked) (hs : P ([], s)) :
    P ([], (op.run s).2) := by
  obtain ⟨hsame, -⟩ | ⟨q, o, hr, -, hgiven⟩ := run_of_forcing_cases s hop
  · rwa [hsame]
  · obtain ⟨object, ho, hbody⟩ := resolveProcess_eq_ok hr
    have hplain : object.body.classOf ≠ .event := by simp [hbody, ObjectBody.classOf]
    have htake := htransfer _ _ (.take [] ho fun _ h => absurd h hplain) hs
    have hheld := hforce _ q (htransfer _ _ (.forget [] _ o) htake)
    rw [hgiven]
    exact (transfers_releaseProcess [] _ q).keeps htransfer hheld

end

end State
end PluginSlot.Kernel
