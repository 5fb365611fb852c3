import PluginSlot.Proofs.Kernel.Paging

/-!
The pages of a process. An address is translated by the operation that last mapped its page, if the
page was not unmapped since; and the permissions of a page are those of that operation, until full
access is asked for.
-/
namespace PluginSlot.Kernel

/-- The operation makes a process, maps or unmaps a page, or asks for full access. -/
def Operation.isPaging (op : Operation) : Bool :=
  match op with
  | createProcess _ _ => true
  | _ => op.page.isSome || op.forcing.isSome

theorem Operation.isPaging_cases {op : Operation} (h : op.isPaging = true) :
    (∃ name titleId, op = .createProcess name titleId) ∨ (∃ page, op.page = some page) ∨
      ∃ asked, op.forcing = some asked := by
  cases op with
  | createProcess name titleId => exact .inl ⟨name, titleId, rfl⟩
  | _ => exact .inr (by simpa [isPaging, Option.isSome_iff_exists] using h)

namespace State

/-- The page was last mapped by an operation that succeeded, and was neither mapped nor unmapped
since. -/
def MappedLast (cores : Nat) (ops : List Operation) (p : ProcessId) (page : Nat)
    (physical : UInt32) (permissions : Permissions) : Prop :=
  Since (fun done op =>
      (∃ virtual, op = .mapPage p virtual physical permissions ∧
        virtual.toNat / pageSize.toNat = page) ∧ (op.run ((boot cores).runAll done)).1 = .done)
    (fun _ op => op.page = some (p, page)) ops

/-- Full access to the pages of the process was asked for in a run, and given. -/
def Forced (cores : Nat) (ops : List Operation) (p : ProcessId) : Prop :=
  ∃ done op, done ++ [op] <+: ops ∧ op.Forces p ((boot cores).runAll done)

/-- The record of a process has the pages that a run gave it. -/
structure Laid (cores : Nat) (ops : List Operation) (p : ProcessId) (process : Process) : Prop where
  page : ∀ base page, process.pages.get? base = some page ↔
    base.toNat % pageSize.toNat = 0 ∧ ∃ physical permissions,
      MappedLast cores ops p (base.toNat / pageSize.toNat) physical permissions ∧
        page = ⟨pageBase physical, if process.flags.forceRwx then .all else permissions⟩
  forced : process.flags.forceRwx = true ↔ Forced cores ops p

section
variable {cores : Nat} {ops : List Operation} {op : Operation} {p : ProcessId} {page : Nat}
variable {virtual physical : UInt32} {permissions : Permissions} {process : Process}

/-- An operation on another page, or on none, does not matter. -/
theorem mappedLast_of_other (hop : op.page ≠ some (p, page)) :
    MappedLast cores (ops ++ [op]) p page physical permissions ↔
      MappedLast cores ops p page physical permissions := by
  refine since_of_other ?_ hop
  rintro ⟨⟨virtual, rfl, rfl⟩, -⟩
  exact hop rfl

/-- An operation that maps the page is the last that does. -/
theorem mappedLast_map {physical' : UInt32} {permissions' : Permissions}
    (hp : ((boot cores).runAll ops).process? p = some process)
    (hpage : virtual.toNat / pageSize.toNat = page) :
    MappedLast cores (ops ++ [.mapPage p virtual physical permissions]) p page physical' permissions' ↔
      physical' = physical ∧ permissions' = permissions := by
  rw [MappedLast, since_concat]
  constructor
  · rintro (⟨⟨virtual', heq, -⟩, -⟩ | ⟨-, hother⟩)
    · cases heq
      exact ⟨rfl, rfl⟩
    · exact absurd (by rw [Operation.page, hpage]) hother
  · rintro ⟨rfl, rfl⟩
    exact .inl ⟨⟨virtual, rfl, hpage⟩, (mapPage_done_iff ..).mpr ⟨process, hp⟩⟩

/-- A page that is unmapped was not mapped last. -/
theorem not_mappedLast_unmap (hpage : virtual.toNat / pageSize.toNat = page) :
    ¬MappedLast cores (ops ++ [.unmapPage p virtual]) p page physical permissions := by
  rw [MappedLast, since_concat]
  rintro (⟨⟨_, heq, -⟩, -⟩ | ⟨-, hother⟩)
  · cases heq
  · exact hother (by rw [Operation.page, hpage])

theorem forced_concat : Forced cores (ops ++ [op]) p ↔
    op.Forces p ((boot cores).runAll ops) ∨ Forced cores ops p := by
  have h := forall_step_concat (P := fun done next => ¬next.Forces p ((boot cores).runAll done)) ops op
  simpa [Forced, or_iff_not_imp_left] using not_congr h

theorem forced_of_page {page : ProcessId × Nat} (hop : op.page = some page) :
    Forced cores (ops ++ [op]) p ↔ Forced cores ops p := by
  rw [forced_concat]
  exact ⟨fun hor => hor.resolve_left (not_forces_of_page hop), .inr⟩

/-- An operation that does not concern the pages of the process. -/
theorem Laid.keep (h : Laid cores ops p process) {now : Process} (hpages : now.pages = process.pages)
    (hforce : now.flags.forceRwx = process.flags.forceRwx) (hpage : ∀ page, op.page ≠ some (p, page))
    (hforces : ¬op.Forces p ((boot cores).runAll ops)) : Laid cores (ops ++ [op]) p now where
  page base page := by
    simp only [hpages, hforce, h.page, mappedLast_of_other (hpage _)]
  forced := by
    rw [hforce, h.forced, forced_concat]
    exact ⟨.inr, fun hor => hor.resolve_left hforces⟩

theorem Laid.map (h : Laid cores ops p process)
    (hp : ((boot cores).runAll ops).process? p = some process) (virtual physical : UInt32)
    (permissions : Permissions) :
    Laid cores (ops ++ [.mapPage p virtual physical permissions]) p { process with
      pages := process.pages.insert (pageBase virtual)
        ⟨pageBase physical, if process.flags.forceRwx then .all else permissions⟩ } where
  page base page := by
    by_cases hbase : base = pageBase virtual
    · obtain ⟨haligned, hnumber⟩ := (eq_pageBase_iff virtual base).mp hbase
      simp only [mappedLast_map hp hnumber.symm, haligned, true_and]
      rw [hbase, Table.get?_insert_self, Option.some.injEq]
      constructor
      · rintro rfl
        exact ⟨physical, permissions, ⟨rfl, rfl⟩, rfl⟩
      · rintro ⟨_, _, ⟨rfl, rfl⟩, rfl⟩
        rfl
    · rw [Table.get?_insert_ne _ (Ne.symm hbase), h.page]
      refine and_congr_right fun haligned => ?_
      have hother : (Operation.mapPage p virtual physical permissions).page ≠
          some (p, base.toNat / pageSize.toNat) := fun he =>
        hbase ((eq_pageBase_iff virtual base).mpr ⟨haligned, (Prod.mk.inj (Option.some.inj he)).2.symm⟩)
      simp only [mappedLast_of_other hother]
  forced := h.forced.trans (forced_of_page rfl).symm

theorem Laid.unmap (h : Laid cores ops p process) {virtual : UInt32} {now : Process}
    (hgone : now.pages.get? (pageBase virtual) = none)
    (hkept : ∀ base, base ≠ pageBase virtual → now.pages.get? base = process.pages.get? base)
    (hforce : now.flags.forceRwx = process.flags.forceRwx) :
    Laid cores (ops ++ [.unmapPage p virtual]) p now where
  page base page := by
    by_cases hbase : base = pageBase virtual
    · obtain ⟨-, hnumber⟩ := (eq_pageBase_iff virtual base).mp hbase
      have hlast (physical : UInt32) (permissions : Permissions) :
          ¬MappedLast cores (ops ++ [.unmapPage p virtual]) p (base.toNat / pageSize.toNat) physical
            permissions := not_mappedLast_unmap hnumber.symm
      rw [hbase, hgone, ← hbase]
      simp [hlast]
    · rw [hkept base hbase, hforce, h.page]
      refine and_congr_right fun haligned => ?_
      have hother : (Operation.unmapPage p virtual).page ≠ some (p, base.toNat / pageSize.toNat) :=
        fun he => hbase ((eq_pageBase_iff virtual base).mpr
          ⟨haligned, (Prod.mk.inj (Option.some.inj he)).2.symm⟩)
      simp only [mappedLast_of_other hother]
  forced := by
    rw [hforce]
    exact h.forced.trans (forced_of_page rfl).symm

/-- Full access is given to the pages that are there, and to those to come. -/
theorem Laid.force (h : Laid cores ops p process) (hpage : op.page = none)
    (hop : op.Forces p ((boot cores).runAll ops)) : Laid cores (ops ++ [op]) p { process with
      flags := { process.flags with forceRwx := true }
      pages := process.pages.mapValues fun _ page => { page with permissions := .all } } where
  page base page := by
    have hother : op.page ≠ some (p, base.toNat / pageSize.toNat) := by simp [hpage]
    simp only [Table.get?_mapValues, Option.map_eq_some_iff, h.page, mappedLast_of_other hother,
      if_true]
    constructor
    · rintro ⟨_, ⟨haligned, physical, permissions, hlast, rfl⟩, rfl⟩
      exact ⟨haligned, physical, permissions, hlast, rfl⟩
    · rintro ⟨haligned, physical, permissions, hlast, rfl⟩
      exact ⟨_, ⟨haligned, physical, permissions, hlast, rfl⟩, rfl⟩
  forced := iff_of_true rfl (forced_concat.mpr (.inl hop))

theorem nextProcess_runAll (s : State) (ops : List Operation) :
    s.nextProcess ≤ (s.runAll ops).nextProcess :=
  (steps_runAll s ops).keeps (P := fun s' => s.nextProcess ≤ s'.nextProcess)
    (fun _ _ _ hstep h => h.trans hstep.follows.nextProcess) (Nat.le_refl _)

/-- A process that had a record in a run is older than those to come. -/
theorem lt_nextProcess_of_earlier {done : List Operation} (hdone : done <+: ops)
    (hp : ((boot cores).runAll done).process? p = some process) :
    p.val < ((boot cores).runAll ops).nextProcess := by
  obtain ⟨rest, rfl⟩ := hdone
  have hbelow := ((registered_boot cores).runAll done).processBelow p process hp
  rw [runAll_append]
  exact Nat.lt_of_lt_of_le hbelow (nextProcess_runAll _ rest)

/-- Nothing was done to the pages of a process that is still to come. -/
theorem laid_of_new (hnew : ((boot cores).runAll ops).nextProcess ≤ p.val)
    (hpages : process.pages = .empty) (hforce : process.flags.forceRwx = false) :
    Laid cores ops p process where
  page base page := by
    have hlast (physical : UInt32) (permissions : Permissions) :
        ¬MappedLast cores ops p (base.toNat / pageSize.toNat) physical permissions := by
      rintro ⟨done, _, rest, rfl, ⟨⟨virtual, rfl, -⟩, hdone⟩, -⟩
      obtain ⟨old, hold⟩ := (mapPage_done_iff ..).mp hdone
      exact Nat.not_lt.mpr hnew (lt_nextProcess_of_earlier (List.prefix_append done _) hold)
    rw [hpages]
    simp [hlast]
  forced := by
    rw [hforce]
    refine iff_of_false Bool.false_ne_true ?_
    rintro ⟨done, op, hprefix, _, _, o, -, hr, -⟩
    obtain ⟨old, hold⟩ := process?_of_resolveProcess hr
    have hdone := (List.prefix_append done [op]).trans hprefix
    exact Nat.not_lt.mpr hnew (lt_nextProcess_of_earlier hdone hold)

section
variable {now : Process}
variable (hlaid : ∀ process, ((boot cores).runAll ops).process? p = some process →
  Laid cores ops p process)
include hlaid

theorem laid_mapPage
    (hnow : (((boot cores).runAll ops).mapPage p virtual physical permissions).2.process? p = some now) :
    Laid cores (ops ++ [.mapPage p virtual physical permissions]) p now := by
  cases hp : ((boot cores).runAll ops).process? p with
  | none =>
    rw [mapPage_of_none _ _ _ hp, hp] at hnow
    cases hnow
  | some process =>
    rw [mapPage_of_some _ _ _ hp, process?_repage_self _ hp] at hnow
    cases hnow
    exact (hlaid process hp).map hp virtual physical permissions

theorem laid_unmapPage
    (hnow : (((boot cores).runAll ops).unmapPage p virtual).2.process? p = some now) :
    Laid cores (ops ++ [.unmapPage p virtual]) p now := by
  cases hp : ((boot cores).runAll ops).process? p with
  | none =>
    rw [unmapPage_of_none _ hp, hp] at hnow
    cases hnow
  | some process =>
    rw [unmapPage_of_some _ hp] at hnow
    split at hnow
    · rw [process?_repage_self _ hp] at hnow
      cases hnow
      exact (hlaid process hp).unmap (Table.get?_erase_self ..)
        (fun base hbase => Table.get?_erase_ne _ (Ne.symm hbase)) rfl
    next habsent =>
      cases hp.symm.trans hnow
      exact (hlaid _ hp).unmap (by simpa [Table.contains] using habsent) (fun _ _ => rfl) rfl

/-- What one operation does to the pages of a process. -/
theorem laid_run (hnow : (op.run ((boot cores).runAll ops)).2.process? p = some now) :
    Laid cores (ops ++ [op]) p now := by
  cases hpage : op.page with
  | none =>
    have hother (page : Nat) : op.page ≠ some (p, page) := by simp [hpage]
    cases hforcing : op.forcing with
    | none =>
      have hforces : ¬op.Forces p ((boot cores).runAll ops) := by
        rintro ⟨_, _, _, hsome, -⟩
        cases hforcing.symm.trans hsome
      obtain ⟨old, hold, hpages, hforce⟩ | ⟨hnew, hpages, hforce⟩ :=
        (keepsPages_run _ hpage hforcing).record p now hnow
      · exact (hlaid old hold).keep hpages hforce hother hforces
      · exact (laid_of_new hnew hpages hforce).keep rfl rfl hother hforces
    | some asked =>
      obtain ⟨hsame, hforces⟩ | ⟨q, hforces, hgiven⟩ :=
        ((rooted_boot cores).runAll ops).process?_of_forcing hforcing
      · rw [hsame] at hnow
        exact (hlaid now hnow).keep rfl rfl hother (hforces p)
      · obtain hkept | ⟨-, hgone⟩ := hgiven p
        · rw [hkept] at hnow
          obtain ⟨old, hold, ⟨rfl, rfl⟩ | ⟨hne, rfl⟩⟩ := exists_of_modifyProcess hnow
          · exact (hlaid old hold).force hpage ((hforces q).mpr rfl)
          · exact (hlaid now hold).keep rfl rfl hother fun h => hne ((hforces p).mp h).symm
        · cases hgone.symm.trans hnow
  | some page =>
    by_cases hp : page.1 = p
    · subst hp
      cases op with
      | mapPage q virtual physical permissions =>
        cases hpage
        exact laid_mapPage hlaid hnow
      | unmapPage q virtual =>
        cases hpage
        exact laid_unmapPage hlaid hnow
      | _ => cases hpage
    · rw [process?_run_of_page _ hpage hp] at hnow
      refine (hlaid now hnow).keep rfl rfl (fun n he => ?_) (not_forces_of_page hpage)
      cases hpage.symm.trans he
      exact hp rfl

end

/-- After a run, every process has the pages that the run gave it. -/
theorem laid_runAll (cores : Nat) (ops : List Operation) : ∀ p process,
    ((boot cores).runAll ops).process? p = some process → Laid cores ops p process := by
  induction ops using List.reverseRecOn with
  | nil =>
    intro p process hp
    cases hp
  | append_singleton ops op ih =>
    intro p now hnow
    rw [runAll_concat] at hnow
    exact laid_run (ih p) hnow

theorem Laid.get?_pageBase (h : Laid cores ops p process) (virtual : UInt32) (found : Page) :
    process.pages.get? (pageBase virtual) = some found ↔ ∃ physical permissions,
      MappedLast cores ops p (virtual.toNat / pageSize.toNat) physical permissions ∧
        found = ⟨pageBase physical, if process.flags.forceRwx then .all else permissions⟩ := by
  rw [h.page, pageBase_div]
  exact and_iff_right (pageBase_mod virtual)

theorem translate_of_some {s : State} (hp : s.process? p = some process) (virtual : UInt32) :
    s.translate p virtual = (process.pages.get? (pageBase virtual)).elim (.error .invalidAddress)
      fun page => .ok (page.physical ||| pageOffset virtual) := by
  simp only [translate, hp]
  cases process.pages.get? (pageBase virtual) <;> rfl

/-- An address translates to what its page was last mapped to, if it is mapped at all. -/
theorem Laid.translate (h : Laid cores ops p process)
    (hp : ((boot cores).runAll ops).process? p = some process) (virtual : UInt32) :
    (∀ a, ((boot cores).runAll ops).translate p virtual = .ok a ↔ ∃ physical permissions,
      MappedLast cores ops p (virtual.toNat / pageSize.toNat) physical permissions ∧
        a.toNat = pageSize.toNat * (physical.toNat / pageSize.toNat) +
          virtual.toNat % pageSize.toNat) ∧
    (((boot cores).runAll ops).translate p virtual = .error .invalidAddress ↔
      ¬∃ physical permissions,
        MappedLast cores ops p (virtual.toNat / pageSize.toNat) physical permissions) := by
  have hpage := h.get?_pageBase virtual
  rw [translate_of_some hp]
  cases hfound : process.pages.get? (pageBase virtual) with
  | none =>
    have hnone : ¬∃ physical permissions,
        MappedLast cores ops p (virtual.toNat / pageSize.toNat) physical permissions := by
      rintro ⟨physical, permissions, hlast⟩
      cases hfound.symm.trans ((hpage _).mpr ⟨physical, permissions, hlast, rfl⟩)
    refine ⟨fun a => iff_of_false nofun ?_, iff_of_true rfl hnone⟩
    rintro ⟨physical, permissions, hlast, -⟩
    exact hnone ⟨physical, permissions, hlast⟩
  | some found =>
    obtain ⟨physical, permissions, hlast, rfl⟩ := (hpage found).mp hfound
    refine ⟨fun a => ⟨?_, ?_⟩, iff_of_false nofun fun hnone => hnone ⟨physical, permissions, hlast⟩⟩
    · intro ha
      cases ha
      exact ⟨physical, permissions, hlast, toNat_pageBase_or_pageOffset physical virtual⟩
    · rintro ⟨physical', permissions', hlast', ha⟩
      have hsame := hfound.symm.trans ((hpage _).mpr ⟨physical', permissions', hlast', rfl⟩)
      have hbase : pageBase physical = pageBase physical' :=
        congrArg Page.physical (Option.some.inj hsame)
      refine congrArg Except.ok (UInt32.toNat_inj.mp ?_)
      rw [hbase, toNat_pageBase_or_pageOffset, ha]

/-- Where the page of an address is mapped to, if it is. -/
def frame? (process : Process) (virtual : UInt32) : Option UInt32 :=
  (process.pages.get? (pageBase virtual)).map Page.physical

theorem translate_congr {s s' : State} {virtual : UInt32}
    (h : (s'.process? p).map (frame? · virtual) = (s.process? p).map (frame? · virtual)) :
    s'.translate p virtual = s.translate p virtual := by
  have heq (s : State) : s.translate p virtual =
      ((s.process? p).map (frame? · virtual)).elim (.error .invalidHandle) fun found =>
        found.elim (.error .invalidAddress) fun base => .ok (base ||| pageOffset virtual) := by
    cases hp : s.process? p with
    | none => simp only [State.translate, hp]; rfl
    | some process =>
      rw [translate_of_some hp, Option.map_some, frame?]
      cases process.pages.get? (pageBase virtual) <;> rfl
  rw [heq, heq, h]

section
variable {s : State} {other : UInt32}

theorem map_frame?_repage (hp : s.process? p = some process) {pages : Table UInt32 Page}
    (hsame : pages.get? (pageBase virtual) = process.pages.get? (pageBase virtual)) :
    ((s.repage p pages).process? p).map (frame? · virtual) =
      (s.process? p).map (frame? · virtual) := by
  rw [process?_repage_self pages hp, hp, Option.map_some, Option.map_some, frame?, frame?, hsame]

theorem map_frame?_mapPage (h : pageBase other ≠ pageBase virtual) :
    ((s.mapPage p other physical permissions).2.process? p).map (frame? · virtual) =
      (s.process? p).map (frame? · virtual) := by
  cases hp : s.process? p with
  | none => rw [mapPage_of_none _ _ _ hp, hp]
  | some process =>
    rw [mapPage_of_some _ _ _ hp, ← hp]
    exact map_frame?_repage hp (Table.get?_insert_ne _ h _)

theorem map_frame?_unmapPage (h : pageBase other ≠ pageBase virtual) :
    ((s.unmapPage p other).2.process? p).map (frame? · virtual) =
      (s.process? p).map (frame? · virtual) := by
  cases hp : s.process? p with
  | none => rw [unmapPage_of_none _ hp, hp]
  | some process =>
    rw [unmapPage_of_some _ hp, ← hp]
    split
    · exact map_frame?_repage hp (Table.get?_erase_ne _ h)
    · rfl

theorem map_frame?_forceRwx (q : ProcessId) :
    ((s.forceRwx q).process? p).map (frame? · virtual) = (s.process? p).map (frame? · virtual) := by
  by_cases hq : q = p
  · subst hq
    rw [forceRwx, process?_modifyProcess_self, Option.map_map]
    congr 1
    funext process
    simp [frame?, Table.get?_mapValues, Function.comp_def]
  · rw [forceRwx, process?_modifyProcess_ne s hq]

/-- A process that is given full access keeps its record, if a reference to it can be taken and given
back. -/
theorem Rooted.process?_of_forces (h : s.Rooted) (hop : op.Forces p s)
    (hlend : ∀ process, s.process? p = some process → s.Lendable process.object) :
    (op.run s).2.process? p = (s.forceRwx p).process? p := by
  obtain ⟨caller, target, o, hforcing, hr, -⟩ := hop
  obtain ⟨process, -, hp, rfl, -⟩ := h.resolved hr
  have hgranted := control_forceRwx hr
  rw [h.releaseProcess_forceRwx hr (hlend process hp)] at hgranted
  rw [run_of_forcing s hforcing]
  exact congrArg (fun r => r.2.process? p) hgranted

/-- Mapping or unmapping a page, or giving full access, leaves the translation of every address alone
that lies in another page or belongs to another process. -/
theorem Rooted.translate_run (h : s.Rooted)
    (hop : op.page.isSome = true ∨ op.forcing.isSome = true)
    (hother : op.page ≠ some (p, virtual.toNat / pageSize.toNat))
    (hlend : op.Forces p s → ∀ process, s.process? p = some process → s.Lendable process.object) :
    (op.run s).2.translate p virtual = s.translate p virtual := by
  apply translate_congr
  cases hpage : op.page with
  | none =>
    obtain ⟨asked, hforcing⟩ := Option.isSome_iff_exists.mp (hop.resolve_left (by simp [hpage]))
    obtain ⟨hsame, -⟩ | ⟨q, hforces, hgiven⟩ := h.process?_of_forcing hforcing
    · rw [hsame]
    · have hkept : (op.run s).2.process? p = (s.forceRwx q).process? p := by
        obtain hkept | ⟨rfl, -⟩ := hgiven p
        · exact hkept
        · have hop := (hforces p).mpr rfl
          exact h.process?_of_forces hop (hlend hop)
      rw [hkept]
      exact map_frame?_forceRwx q
  | some page =>
    obtain ⟨q, n⟩ := page
    by_cases hq : q = p
    · subst hq
      have hbase (address : UInt32) (hn : address.toNat / pageSize.toNat = n) :
          pageBase address ≠ pageBase virtual := by
        intro he
        apply hother
        rw [hpage, ← hn, ← pageBase_div address, he, pageBase_div]
      cases op with
      | mapPage _ address _ _ =>
        cases hpage
        exact map_frame?_mapPage (hbase address rfl)
      | unmapPage _ address =>
        cases hpage
        exact map_frame?_unmapPage (hbase address rfl)
      | _ => cases hpage
    · rw [process?_run_of_page s hpage hq]

end

/-- A page can be unmapped exactly if it is mapped; otherwise nothing changes. -/
theorem unmapPage_iff (s : State) (p : ProcessId) (virtual : UInt32) :
    ((s.unmapPage p virtual).1 = .ok () ↔ ∃ a, s.translate p virtual = .ok a) ∧
      ((s.unmapPage p virtual).1 ≠ .ok () → (s.unmapPage p virtual).2 = s) := by
  cases hp : s.process? p with
  | none =>
    rw [unmapPage_of_none virtual hp]
    simp [State.translate, hp]
  | some process =>
    rw [unmapPage_of_some virtual hp, translate_of_some hp, Table.contains]
    cases process.pages.get? (pageBase virtual) <;> simp

/-- Before full access is given to a process, its pages have the permissions that they were last mapped
with; from then on they all have full access. -/
theorem Laid.permits (h : Laid cores ops p process) {base : UInt32} {found : Page}
    (hfound : process.pages.get? base = some found) :
    base.toNat % pageSize.toNat = 0 ∧ (Forced cores ops p → found.permissions = .all) ∧
      (¬Forced cores ops p → ∃ physical,
        MappedLast cores ops p (base.toNat / pageSize.toNat) physical found.permissions) := by
  obtain ⟨haligned, physical, permissions, hlast, rfl⟩ := (h.page base found).mp hfound
  refine ⟨haligned, fun hforced => ?_, fun hfree => ⟨physical, ?_⟩⟩
  · exact if_pos (h.forced.mpr hforced)
  · rwa [if_neg fun hflag => hfree (h.forced.mp hflag)]

end

/-- No object has a reference but the one that it was made with. -/
def Unshared (s : State) : Prop := ∀ o object, s.object? o = some object → object.references = 1

section
variable {s : State} {op : Operation}

theorem Unshared.lendable (h : s.Unshared) (o : ObjectId) : s.Lendable o := by
  intro object ho
  rw [h o object ho]
  decide

theorem Unshared.repage (h : s.Unshared) (pages : Table UInt32 Page) : (s.repage p pages).Unshared := by
  rw [State.repage, notifyLayoutChange]
  split
  · exact h
  · split
    · exact h
    · split
      · intro o object ho
        obtain ⟨old, hold, ⟨-, rfl⟩ | ⟨-, rfl⟩⟩ := exists_of_modifyObject ho
        · rw [references_setSignaled]
          exact h o old hold
        · exact h o object hold
      · exact h

/-- Full access is asked for by a reference that is given back. -/
theorem Unshared.run (h : s.Unshared) (hrooted : s.Rooted) (hop : op.isPaging = true) :
    (op.run s).2.Unshared := by
  obtain ⟨name, titleId, rfl⟩ | ⟨page, hpage⟩ | ⟨asked, hforcing⟩ := Operation.isPaging_cases hop
  · intro o object ho
    obtain ⟨-, rfl⟩ | hold := object?_of_createProcess name titleId ho
    · rfl
    · exact h o object hold
  · obtain ⟨-, hsame⟩ | ⟨-, pages, hrepage⟩ := run_of_page s hpage
    · rwa [hsame]
    · rw [hrepage]
      exact h.repage pages
  · obtain ⟨hsame, -⟩ | ⟨q, o, hr, -, hgiven⟩ := run_of_forcing_cases s hforcing
    · rwa [hsame]
    · rw [hgiven, hrooted.releaseProcess_forceRwx hr (h.lendable o)]
      exact h

theorem unshared_runAll (cores : Nat) {ops : List Operation} (hops : ∀ op ∈ ops, op.isPaging = true) :
    ((boot cores).runAll ops).Unshared := by
  induction ops using List.reverseRecOn with
  | nil =>
    intro o object ho
    cases ho
  | append_singleton ops op ih =>
    rw [runAll_concat]
    have hlast := hops op (List.mem_concat_self ..)
    have hrooted := (rooted_boot cores).runAll ops
    exact (ih fun _ hmem => hops _ (List.mem_append_left _ hmem)).run hrooted hlast

end

/-- In every run, an address of a process translates to the place in the physical page to which its
page was last mapped, unless the page was unmapped since or was never mapped; to map, to unmap or to
give full access changes the translation of no other page and of no other process; a page can be
unmapped exactly if it is mapped, and nothing changes otherwise; and all pages of a process have full
access once that was given, and before that the permissions they were last mapped with.

A process that asks for full access is referred to meanwhile. Its own translations stay if that
reference can be counted, which it can after every run that only makes processes, maps and unmaps pages
and gives full access. -/
theorem runAll_translate (cores : Nat) (ops : List Operation) {p : ProcessId} {process : Process}
    (hp : ((boot cores).runAll ops).process? p = some process) :
    let s := (boot cores).runAll ops
    (∀ virtual a, s.translate p virtual = .ok a ↔ ∃ physical permissions,
        MappedLast cores ops p (virtual.toNat / pageSize.toNat) physical permissions ∧
          a.toNat = pageSize.toNat * (physical.toNat / pageSize.toNat) +
            virtual.toNat % pageSize.toNat) ∧
      (∀ virtual, s.translate p virtual = .error .invalidAddress ↔ ¬∃ physical permissions,
        MappedLast cores ops p (virtual.toNat / pageSize.toNat) physical permissions) ∧
      (∀ (op : Operation) (q : ProcessId) (virtual : UInt32),
        op.page.isSome = true ∨ op.forcing.isSome = true →
        op.page ≠ some (q, virtual.toNat / pageSize.toNat) →
        (op.Forces q s → ∀ process, s.process? q = some process → s.Lendable process.object) →
          (op.run s).2.translate q virtual = s.translate q virtual) ∧
      (∀ q virtual, ((s.unmapPage q virtual).1 = .ok () ↔ ∃ a, s.translate q virtual = .ok a) ∧
        ((s.unmapPage q virtual).1 ≠ .ok () → (s.unmapPage q virtual).2 = s)) ∧
      (∀ base page, process.pages.get? base = some page →
        base.toNat % pageSize.toNat = 0 ∧ (Forced cores ops p → page.permissions = .all) ∧
          (¬Forced cores ops p → ∃ physical,
            MappedLast cores ops p (base.toNat / pageSize.toNat) physical page.permissions)) ∧
      ((∀ op ∈ ops, op.isPaging = true) → ∀ o, s.Lendable o) := by
  intro s
  have hlaid := laid_runAll cores ops p process hp
  exact ⟨fun virtual => (hlaid.translate hp virtual).1, fun virtual => (hlaid.translate hp virtual).2,
    fun _ _ _ hop hother hlend => ((rooted_boot cores).runAll ops).translate_run hop hother hlend,
    fun q virtual => unmapPage_iff s q virtual, fun _ _ hfound => hlaid.permits hfound,
    fun hops => (unshared_runAll cores hops).lendable⟩

/-- A process has one page that was mapped twice, read-only and by addresses that are not aligned, and
one that was unmapped; then it is given full access. -/
theorem runAll_translate_remapped :
    let ops : List Operation := [.createProcess "host" 1,
      .mapPage ⟨1⟩ 0x7000010 0x20001000 ⟨true, true, false⟩,
      .mapPage ⟨1⟩ 0x7000FFF 0x20005678 ⟨true, false, false⟩,
      .mapPage ⟨1⟩ 0x7001000 0x20002000 .all, .unmapPage ⟨1⟩ 0x7001234,
      .control ⟨⟨1⟩, ⟨1⟩, ⟨0⟩⟩ .currentProcess .forceRwx]
    let s := (boot 1).runAll ops
    s.translate ⟨1⟩ 0x7000123 = .ok 0x20005123 ∧
      (∃ physical permissions, MappedLast 1 ops ⟨1⟩ 0x7000 physical permissions ∧
        0x20005123 = 0x1000 * (physical.toNat / 0x1000) + 0x123) ∧
      ¬∃ physical permissions, MappedLast 1 ops ⟨1⟩ 0x7001 physical permissions := by
  intro ops s
  have hok : s.translate ⟨1⟩ 0x7000123 = .ok 0x20005123 := by decide
  have hnone : s.translate ⟨1⟩ 0x7001000 = .error .invalidAddress := by decide
  have hexists : (s.process? ⟨1⟩).isSome = true := by decide
  obtain ⟨process, hp⟩ := Option.isSome_iff_exists.mp hexists
  obtain ⟨htranslate, hmissing, -⟩ := runAll_translate 1 ops hp
  exact ⟨hok, (htranslate 0x7000123 0x20005123).mp hok, (hmissing 0x7001000).mp hnone⟩

end State
end PluginSlot.Kernel
