import Mathlib.Data.List.Nodup
import PluginSlot.Proofs.Kernel.Balance

/-!
What is left of a process that is reaped. While references balance and reaped processes have no
handles, its record stays exactly as long as somebody names it by a handle: handles are closed one by
one, and the last one takes the record along.
-/
namespace PluginSlot.Kernel

namespace State

/-- A process names an object by a handle. -/
def Names (s : State) (p : ProcessId) (h : Handle) (o : ObjectId) : Prop :=
  ∃ process, s.process? p = some process ∧ process.handles.slots.get? h = some o

/-- All handles that name an object, by process and value. -/
def namings (s : State) (o : ObjectId) : List (ProcessId × Handle) :=
  s.processes.entries.flatMap fun e =>
    (e.2.handles.entries.filter (·.2 = o)).map fun named => (e.1, named.1)

theorem mem_namings {s : State} {o : ObjectId} {p : ProcessId} {h : Handle} :
    (p, h) ∈ s.namings o ↔ s.Names p h o := by
  simp only [namings, List.mem_flatMap, List.mem_map, List.mem_filter, decide_eq_true_eq, Prod.mk.injEq]
  constructor
  · rintro ⟨⟨p, process⟩, hp, ⟨h, o⟩, ⟨hh, rfl⟩, rfl, rfl⟩
    exact ⟨process, (Table.get?_eq_some_iff _ p process).mpr hp, (Table.get?_eq_some_iff _ h o).mpr hh⟩
  · rintro ⟨process, hp, hh⟩
    exact ⟨(p, process), (Table.get?_eq_some_iff _ p process).mp hp, (h, o),
      ⟨(Table.get?_eq_some_iff _ h o).mp hh, rfl⟩, rfl, rfl⟩

theorem nodup_namings (s : State) (o : ObjectId) : (s.namings o).Nodup := by
  refine List.nodup_flatMap.mpr ⟨fun e _ => ?_, ?_⟩
  · have hkeys : (e.2.handles.entries.filter (·.2 = o)).Pairwise fun a b => a.1 ≠ b.1 :=
      (List.pairwise_map.mp e.2.handles.slots.nodup_keys).filter _
    exact List.pairwise_map.mpr (hkeys.imp fun hne he => hne (Prod.mk.inj he).2)
  · refine (List.pairwise_map.mp s.processes.nodup_keys).imp fun hne x hx hy => ?_
    obtain ⟨a, -, rfl⟩ := List.mem_map.mp hx
    obtain ⟨b, -, he⟩ := List.mem_map.mp hy
    exact hne (Prod.mk.inj he).1.symm

/-- Reaped processes have no handles. -/
def Tidy (s : State) : Prop :=
  ∀ p process, s.process? p = some process → process.reaped = true → process.handles.isEmpty = true

theorem tidy_iff_entries (s : State) : s.Tidy ↔
    ∀ e ∈ s.processes.entries, e.2.reaped = true → e.2.handles.isEmpty = true := by
  constructor
  · exact fun h e he => h e.1 e.2 ((Table.get?_eq_some_iff _ _ _).mpr he)
  · exact fun h p process hp => h (p, process) ((Table.get?_eq_some_iff _ _ _).mp hp)

instance (s : State) : Decidable s.Tidy := decidable_of_iff' _ s.tidy_iff_entries

/-- Whatever is left of a process, its record is that of a reaped process, and its object stands for
it and is referred to. -/
structure Remains (s : State) (p : ProcessId) (o : ObjectId) : Prop where
  record : ∀ process, s.process? p = some process → process.reaped = true ∧ process.object = o
  body : ∀ object, s.object? o = some object → object.body = .process p
  referred : ∀ object, s.object? o = some object → 0 < object.references

/-- The objects that are left were there before, stand for the same, and have not lost their last
reference. -/
def Thins (s s' : State) : Prop :=
  ∀ o now, s'.object? o = some now → ∃ old, s.object? o = some old ∧ now.body = old.body ∧
    (0 < old.references → 0 < now.references)

section
variable {s s' s'' : State} {p q : ProcessId} {h : Handle} {o : ObjectId} {process : Process}
variable {loose stranded : List ObjectId}

theorem Thins.refl (s : State) : s.Thins s := fun _ now ho => ⟨now, ho, rfl, id⟩

theorem Thins.trans (h : s.Thins s') (h' : s'.Thins s'') : s.Thins s'' := by
  intro o now ho
  obtain ⟨mid, hmid, hsame, hkept⟩ := h' o now ho
  obtain ⟨old, hold, hbody, hfirst⟩ := h o mid hmid
  exact ⟨old, hold, hsame.trans hbody, hkept ∘ hfirst⟩

theorem thins_dropReference (s : State) (o : ObjectId) : s.Thins (s.dropReference o).2 := by
  obtain ⟨-, h⟩ | ⟨object, ho, hmore, h⟩ | ⟨_, -, -, h⟩ := dropReference_cases s o
  · rw [h]
    exact .refl s
  · rw [h]
    intro x now hx
    obtain ⟨old, hold, ⟨rfl, rfl⟩ | ⟨-, rfl⟩⟩ := exists_of_modifyObject hx
    · cases ho.symm.trans hold
      refine ⟨object, hold, rfl, fun _ => ?_⟩
      rw [Object.references_dropped]
      omega
    · exact ⟨now, hold, rfl, id⟩
  · rw [h]
    exact fun x now hx => ⟨now, (Table.of_get?_erase hx).2, rfl, id⟩

theorem thins_release (s : State) (o : ObjectId) : s.Thins (s.release o) :=
  release_keeps (P := s.Thins) (fun s' o h => h.trans (thins_dropReference s' o)) (fun _ _ h => h)
    (.refl s) o

theorem thins_foldl_release (s : State) (os : List ObjectId) : s.Thins (os.foldl release s) := by
  induction os generalizing s with
  | nil => exact .refl s
  | cons o os ih => exact (thins_release s o).trans (ih (s.release o))

/-- Where reaped processes have no handles, nothing is stranded. -/
theorem Sheds.eq_nil (hs : Sheds stranded s s') (htidy : s.Tidy) : stranded = [] := by
  by_contra hne
  obtain ⟨p, process, j, o, hp, hreaped, -, hj⟩ := hs.ne_nil_iff.mp hne
  cases (HandleTable.isEmpty_iff.mp (htidy p process hp hreaped) j).symm.trans hj

theorem Sheds.tidy (hs : Sheds stranded s s') (htidy : s.Tidy) : s'.Tidy :=
  fun p process hp => htidy p process (hs.before hp)

theorem Sheds.names_iff (hs : Sheds stranded s s') (htidy : s.Tidy) :
    s'.Names q h o ↔ s.Names q h o := by
  constructor
  · rintro ⟨process, hq, hh⟩
    exact ⟨process, hs.before hq, hh⟩
  · rintro ⟨process, hq, hh⟩
    obtain hstay | ⟨-, hreaped, -⟩ := hs.stays q process hq
    · exact ⟨process, hstay, hh⟩
    · cases (HandleTable.isEmpty_iff.mp (htidy q process hq hreaped) h).symm.trans hh

theorem Names.mem_claims (hn : s.Names q h o) : o ∈ s.claims := by
  obtain ⟨process, hq, hh⟩ := hn
  have hm : o ∈ process.handles.slots.values := mem_values_iff.mpr ⟨h, hh⟩
  exact State.mem_claims hq (by simp [Process.claims, hm])

theorem Accounted.remains (hs : s.Accounted loose) (hp : s.process? p = some process)
    (hreaped : process.reaped = true) (hloose : process.object ∈ loose) :
    s.Remains p process.object := by
  constructor
  · intro now hnow
    cases hp.symm.trans hnow
    exact ⟨hreaped, rfl⟩
  · intro object ho
    obtain ⟨own, hown, hbody⟩ := hs.backed p process hp
    cases hown.symm.trans ho
    exact hbody
  · intro object ho
    exact referencesOf_eq ho ▸ hs.referencesOf_pos (.inr hloose)

theorem Remains.shed (hr : s.Remains p o) (hs : Sheds stranded s s') (ht : s.Thins s') :
    s'.Remains p o := by
  constructor
  · exact fun now hnow => hr.record now (hs.before hnow)
  · intro now hnow
    obtain ⟨old, hold, hsame, -⟩ := ht o now hnow
    exact hsame.trans (hr.body old hold)
  · intro now hnow
    obtain ⟨old, hold, -, hkept⟩ := ht o now hnow
    exact hkept (hr.referred old hold)

/-- A process has a record if somebody names its object. -/
theorem Accounted.exists_of_names (hs : s.Accounted loose)
    (hbody : ∀ object, s.object? o = some object → object.body = .process p) (hn : s.Names q h o) :
    ∃ process, s.process? p = some process := by
  obtain ⟨object, ho⟩ := hs.exists_of_mem (.inl hn.mem_claims)
  obtain ⟨process, hp, -⟩ := hs.backing o object p ho (hbody object ho)
  exact ⟨process, hp⟩

/-- The record of a reaped process is there exactly if somebody names its object. -/
theorem Accounted.remains_iff (hs : s.Accounted []) (hr : s.Remains p o) :
    (s.process? p).isSome = true ↔ ∃ q h, s.Names q h o := by
  rw [Option.isSome_iff_exists]
  constructor
  · rintro ⟨process, hp⟩
    obtain ⟨hreaped, rfl⟩ := hr.record process hp
    obtain ⟨object, ho, hbody⟩ := hs.backed p process hp
    have hbalance := hs.balance process.object
    have hpositive := hr.referred object ho
    rw [referencesOf_eq ho, List.count_nil] at hbalance
    have hclaimed : process.object ∈ s.claims := List.count_pos_iff.mp (by omega)
    obtain ⟨q, other, hq, hhandle | hevent | ⟨hlive, hsame⟩⟩ := exists_of_mem_claims hclaimed
    · obtain ⟨j, hj⟩ := mem_values_iff.mp hhandle
      exact ⟨q, j, other, hq, hj⟩
    · -- an event stands for no process
      obtain ⟨event, hevent, hclass⟩ := hs.event q other _ hq hevent
      cases ho.symm.trans hevent
      rw [hbody] at hclass
      cases hclass
    · -- a record that claims its own object is not reaped
      obtain ⟨now, hnow, hnowbody⟩ := hs.backed q other hq
      rw [hsame, ho] at hnow
      cases hnow
      cases hbody.symm.trans hnowbody
      cases hp.symm.trans hq
      cases hreaped.symm.trans hlive
  · rintro ⟨q, h, hn⟩
    exact hs.exists_of_names hr.body hn

theorem Tidy.close (htidy : s.Tidy) (q : ProcessId) (h : Handle) :
    (s.modifyProcess q (Process.close h)).Tidy := by
  intro r now hr hreaped
  obtain ⟨old, hold, ⟨rfl, rfl⟩ | ⟨-, rfl⟩⟩ := exists_of_modifyProcess hr
  · have hempty := HandleTable.isEmpty_iff.mp (htidy q old hold hreaped)
    refine HandleTable.isEmpty_iff.mpr fun j => ?_
    rw [Process.close, HandleTable.slots_remove, hempty, ite_self]
  · exact htidy r now hold hreaped

theorem Remains.close (hr : s.Remains p o) (q : ProcessId) (h : Handle) :
    (s.modifyProcess q (Process.close h)).Remains p o := by
  refine ⟨fun now hp => ?_, hr.body, hr.referred⟩
  obtain ⟨old, hold, ⟨-, rfl⟩ | ⟨-, rfl⟩⟩ := exists_of_modifyProcess hp
  · exact hr.record old hold
  · exact hr.record now hold

theorem names_close {r : ProcessId} {j : Handle} :
    (s.modifyProcess q (Process.close h)).Names r j o ↔ s.Names r j o ∧ (r, j) ≠ (q, h) := by
  constructor
  · rintro ⟨now, hr, hj⟩
    obtain ⟨old, hold, ⟨rfl, rfl⟩ | ⟨hne, rfl⟩⟩ := exists_of_modifyProcess hr
    · rw [Process.close, HandleTable.slots_remove] at hj
      split at hj
      · cases hj
      next hne => exact ⟨⟨old, hold, hj⟩, fun he => hne (Prod.mk.inj he).2.symm⟩
    · exact ⟨⟨now, hold, hj⟩, fun he => hne (Prod.mk.inj he).1.symm⟩
  · rintro ⟨⟨old, hold, hj⟩, hne⟩
    by_cases he : q = r
    · subst he
      have hh : h ≠ j := fun he => hne (he ▸ rfl)
      refine ⟨old.close h, by simp [hold], ?_⟩
      rwa [Process.close, HandleTable.slots_remove, if_neg hh]
    · exact ⟨old, by rwa [process?_modifyProcess_ne s he], hj⟩

/-- A handle is closed: it alone goes, and what remains of a reaped process still does. -/
theorem Accounted.closeHandle (hs : s.Accounted []) (htidy : s.Tidy) (hr : s.Remains p o)
    (hn : s.Names q h o) :
    (s.closeHandle q h).1 = .ok () ∧ (s.closeHandle q h).2.Accounted [] ∧
      (s.closeHandle q h).2.Tidy ∧ (s.closeHandle q h).2.Remains p o ∧
      ∀ r j, (s.closeHandle q h).2.Names r j o ↔ s.Names r j o ∧ (r, j) ≠ (q, h) := by
  obtain ⟨process, hq, hh⟩ := hn
  obtain ⟨stranded, hafter, hshed⟩ := (hs.close hq hh).shed
  obtain rfl := hshed.eq_nil (htidy.close q h)
  rw [closeHandle_eq hq hh]
  exact ⟨rfl, hafter, hshed.tidy (htidy.close q h), (hr.close q h).shed hshed (thins_release _ o),
    fun r j => (hshed.names_iff (htidy.close q h)).trans names_close⟩

/-- The handles to what remains of a reaped process are closed in any order: each is there to be closed,
and the record goes with the last one and not before. -/
theorem Accounted.closeEach (hs : s.Accounted []) (htidy : s.Tidy) (hr : s.Remains p o)
    {done rest : List (ProcessId × Handle)} (hnodup : (done ++ rest).Nodup)
    (hall : ∀ q h, (q, h) ∈ done ++ rest ↔ s.Names q h o) :
    let s' := s.runAll (done.map fun e => .closeHandle e.1 e.2)
    ((s'.process? p).isSome = true ↔ rest ≠ []) ∧
      ∀ q h, (q, h) ∈ rest → (s'.closeHandle q h).1 = .ok () := by
  induction done generalizing s with
  | nil =>
    constructor
    · refine (hs.remains_iff hr).trans ?_
      constructor
      · rintro ⟨q, h, hn⟩
        exact List.ne_nil_of_mem ((hall q h).mpr hn)
      · intro hne
        obtain ⟨⟨q, h⟩, hmem⟩ := List.exists_mem_of_ne_nil rest hne
        exact ⟨q, h, (hall q h).mp hmem⟩
    · intro q h hmem
      exact (hs.closeHandle htidy hr ((hall q h).mp hmem)).1
  | cons e done ih =>
    obtain ⟨q, h⟩ := e
    obtain ⟨hfirst, hrest⟩ := List.nodup_cons.mp hnodup
    have hn : s.Names q h o := (hall q h).mp (List.mem_cons_self ..)
    obtain ⟨-, hafter, htidy', hr', hnames⟩ := hs.closeHandle htidy hr hn
    refine ih hafter htidy' hr' hrest fun r j => .trans ?_ (hnames r j).symm
    rw [← hall r j, List.cons_append, List.mem_cons]
    constructor
    · intro hmem
      exact ⟨.inr hmem, fun he => hfirst (he ▸ hmem)⟩
    · rintro ⟨he | hmem, hne⟩
      · exact absurd he hne
      · exact hmem

end
end State
end PluginSlot.Kernel
