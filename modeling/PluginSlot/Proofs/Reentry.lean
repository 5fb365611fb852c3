import Mathlib.Algebra.Group.Nat.Defs
import Mathlib.Data.List.Induction
import Mathlib.Data.List.Infix
import PluginSlot.RecursiveLock

/-!
A lock that is taken again and again, with guards given up in any order. A guard does not know who
took it, and giving it up only counts down; all the same, the lock belongs to whoever took the guards
that are still live.
-/
namespace PluginSlot

theorem RecursiveLock.tryLock_cases {α : Type} {l l' : RecursiveLock α} {o : Owner}
    (h : l.tryLock o = some l') :
    (l.holder = none ∧ l' = { l with holder := some o, depth := 1 }) ∨
      (l.holder = some o ∧ l' = { l with depth := l.depth + 1 }) := by
  rw [tryLock] at h
  split at h
  case h_1 hfree => exact .inl ⟨hfree, (Option.some.inj h).symm⟩
  case h_2 holder hheld =>
    split at h
    case isTrue ho => exact .inr ⟨ho ▸ hheld, (Option.some.inj h).symm⟩
    case isFalse => cases h

namespace GuardedLock
variable {α : Type}

/-- Something done with a lock. -/
inductive Step where
  | acquire (o : Owner)
  | tryLock (o : Owner)
  | drop (guard : Nat)

/-- What it makes of the lock, unless somebody waits for ever. -/
def Step.run (g : GuardedLock α) : Step → Option (GuardedLock α)
  | acquire o => (g.acquire o).map (·.2)
  | tryLock o => some (g.tryLock o).2
  | drop guard => some (g.release guard).2

def run (value : α) (steps : List Step) : Option (GuardedLock α) := steps.foldlM Step.run (free value)

/-- What holds of a lock at any time. -/
structure Owned (g : GuardedLock α) : Prop where
  held : g.lock.holder.isSome = true ↔ g.live ≠ []
  holder : ∀ o ∈ g.live, g.lock.holder = some o
  depth : g.lock.depth.toNat = g.live.length
  tryLock : ∀ o, (g.tryLock o).1.isSome = true ↔ g.live = [] ∨ g.lock.holder = some o
  acquire : ∀ o, (g.acquire o).isSome = true ↔ g.live = [] ∨ g.lock.holder = some o
  /-- The lock becomes free with the last live guard, whichever it is. -/
  freed : ∀ step g', Step.run g step = some g' →
    (g.lock.holder.isSome = true ∧ g'.lock.holder = none ↔
      ∃ guard, step = .drop guard ∧ g.isLive guard = true ∧ g.live.length = 1)

/-- The lock is free, or held by the owner of all live guards, and it counts them. -/
structure Counted (g : GuardedLock α) : Prop where
  free : g.live = [] → g.lock.holder = none
  holder : ∀ o ∈ g.live, g.lock.holder = some o
  depth : g.lock.depth.toNat = g.live.length

/-- The guard that is given up is live no more, and all others are as they were. -/
theorem filterMap_set_perm {l : List (Option Owner)} {n : Nat} {o : Owner}
    (h : l[n]? = some (some o)) :
    (l.filterMap id).Perm (o :: (l.set n none).filterMap id) := by
  induction l generalizing n with
  | nil => cases h
  | cons guard rest ih =>
    cases n with
    | zero =>
      cases h
      exact .refl _
    | succ n =>
      have hrest := ih h
      cases guard with
      | none => exact hrest
      | some owner => exact (hrest.cons owner).trans (.swap o owner _)

section
variable {g : GuardedLock α} {o : Owner} {n : Nat}

theorem live_release (h : g.isLive n = true) :
    ∃ o, g.live.Perm (o :: (g.release n).2.live) := by
  rw [release, if_pos h]
  rw [isLive, Option.isSome_iff_exists] at h
  obtain ⟨o, ho⟩ := h
  exact ⟨o, filterMap_set_perm (Option.join_eq_some_iff.mp ho)⟩

theorem release_of_not_live (h : g.isLive n ≠ true) : (g.release n).2 = g := by
  rw [release, if_neg h]

theorem tryLock_isSome : (g.tryLock o).1.isSome = (g.lock.tryLock o).isSome := by
  rw [tryLock]
  cases g.lock.tryLock o <;> rfl

theorem acquire_isSome : (g.acquire o).isSome = (g.tryLock o).1.isSome := by
  rw [acquire]
  split
  case h_1 guard g' hg => rw [hg]; rfl
  case h_2 g' hg => rw [hg]; rfl

theorem tryLock_of_acquire {g' : GuardedLock α} (h : g.acquire o = some (n, g')) :
    g.tryLock o = (some n, g') := by
  rw [acquire] at h
  split at h
  case h_1 guard g'' hg =>
    cases h
    exact hg
  case h_2 => cases h

/-- Either the lock is refused and nothing happens, or the owner has one more guard. -/
theorem tryLock_cases : (g.lock.tryLock o = none ∧ g.tryLock o = (none, g)) ∨
    ∃ l, g.lock.tryLock o = some l ∧ g.tryLock o = (some g.guards.length, ⟨l, g.guards ++ [some o]⟩) := by
  rw [tryLock]
  cases h : g.lock.tryLock o with
  | none => exact .inl ⟨rfl, rfl⟩
  | some l => exact .inr ⟨l, rfl, rfl⟩

theorem counted_free (value : α) : Counted (free value) := ⟨fun _ => rfl, nofun, rfl⟩

theorem Counted.live_eq_nil (h : g.Counted) : g.live = [] ↔ g.lock.holder = none := by
  refine ⟨h.free, fun hnone => List.eq_nil_iff_forall_not_mem.mpr fun o ho => ?_⟩
  have hsome := h.holder o ho
  rw [hnone] at hsome
  cases hsome

/-- A guard more, of the owner who has all the others. -/
theorem Counted.granted (h : g.Counted) {g' : GuardedLock α} (hlock : g.lock.tryLock o = some g'.lock)
    (hlive : g'.live = g.live ++ [o]) (hfew : g'.live.length < 2 ^ 32) : g'.Counted := by
  have hlength : g'.live.length = g.live.length + 1 := by rw [hlive, List.length_append]; rfl
  have hfree (hnil : g'.live = []) : g'.lock.holder = none := by
    rw [hnil] at hlength
    cases hlength
  obtain ⟨hnone, hnew⟩ | ⟨hheld, hnew⟩ := RecursiveLock.tryLock_cases hlock
  · rw [h.live_eq_nil.mpr hnone, List.nil_append] at hlive
    refine ⟨hfree, fun o' ho' => ?_, ?_⟩
    · rw [hlive, List.mem_singleton] at ho'
      rw [hnew, ho']
    · rw [hnew, hlive]
      rfl
  · refine ⟨hfree, fun o' ho' => ?_, ?_⟩
    · rw [hlive, List.mem_append, List.mem_singleton] at ho'
      rw [hnew]
      obtain ho' | rfl := ho'
      · exact h.holder o' ho'
      · exact hheld
    · -- the count does not wrap
      rw [hlength] at hfew ⊢
      rw [hnew, UInt32.toNat_add, h.depth]
      exact Nat.mod_eq_of_lt hfew

/-- A guard less, and the lock is free if it was the last one. -/
theorem Counted.release (h : g.Counted) (n : Nat) : (g.release n).2.Counted := by
  by_cases hn : g.isLive n = true
  case neg => rwa [release_of_not_live hn]
  obtain ⟨o, hperm⟩ := live_release hn
  have hlock : (g.release n).2.lock = g.lock.release := by rw [GuardedLock.release, if_pos hn]
  have hlength : g.lock.depth.toNat = (g.release n).2.live.length + 1 :=
    h.depth.trans hperm.length_eq
  have hone : g.lock.depth = 1 ↔ (g.release n).2.live = [] := by
    rw [← UInt32.toNat_inj, hlength, ← List.length_eq_zero_iff]
    exact Nat.succ_inj
  refine ⟨fun hnil => ?_, fun o' ho' => ?_, ?_⟩
  · rw [hlock]
    exact if_pos (hone.mpr hnil)
  · have hheld := h.holder o' (hperm.mem_iff.mpr (List.mem_cons_of_mem o ho'))
    rw [hlock]
    exact (if_neg (mt hone.mp (List.ne_nil_of_mem ho'))).trans hheld
  · rw [hlock]
    show (g.lock.depth - 1).toNat = _
    have hle : (1 : UInt32) ≤ g.lock.depth := by
      rw [UInt32.le_iff_toNat_le, hlength]
      exact Nat.le_add_left 1 _
    rw [UInt32.toNat_sub_of_le _ _ hle, hlength]
    rfl

theorem Counted.tryLock (h : g.Counted) (hfew : (g.tryLock o).2.live.length < 2 ^ 32) :
    (g.tryLock o).2.Counted := by
  obtain ⟨-, heq⟩ | ⟨l, hl, heq⟩ := tryLock_cases (g := g) (o := o)
  · rwa [heq]
  · have hlive := live_tryLock (congrArg Prod.fst heq)
    have hlock : g.lock.tryLock o = some (g.tryLock o).2.lock := by rw [heq, hl]
    exact h.granted hlock hlive hfew

/-- What has taken the lock, waiting or not, holds it. -/
theorem holder_tryLock_ne_none (h : g.lock.holder.isSome = true) :
    (g.tryLock o).2.lock.holder ≠ none := by
  obtain ⟨-, heq⟩ | ⟨l, hl, heq⟩ := tryLock_cases (g := g) (o := o)
  · rw [heq]
    exact Option.isSome_iff_ne_none.mp h
  · rw [heq]
    obtain ⟨-, rfl⟩ | ⟨hheld, rfl⟩ := RecursiveLock.tryLock_cases hl
    · exact Option.some_ne_none o
    · exact Option.isSome_iff_ne_none.mp h

variable {g' : GuardedLock α} {next : Step}

theorem run_acquire (h : Step.run g (.acquire o) = some g') : g' = (g.tryLock o).2 := by
  obtain ⟨⟨n, g''⟩, hacquire, rfl⟩ := Option.map_eq_some_iff.mp h
  rw [tryLock_of_acquire hacquire]

theorem Counted.step (h : g.Counted) (hrun : Step.run g next = some g')
    (hfew : g'.live.length < 2 ^ 32) : g'.Counted := by
  cases next with
  | acquire o =>
    have hg' := run_acquire hrun
    subst hg'
    exact h.tryLock hfew
  | tryLock o =>
    cases hrun
    exact h.tryLock hfew
  | drop guard =>
    cases hrun
    exact h.release guard

theorem Counted.held (h : g.Counted) : g.lock.holder.isSome = true ↔ g.live ≠ [] := by
  rw [Option.isSome_iff_ne_none]
  exact (not_congr h.live_eq_nil).symm

theorem Counted.freed (h : g.Counted) (hrun : Step.run g next = some g') :
    g.lock.holder.isSome = true ∧ g'.lock.holder = none ↔
      ∃ guard, next = .drop guard ∧ g.isLive guard = true ∧ g.live.length = 1 := by
  cases next with
  | acquire o =>
    rw [run_acquire hrun]
    exact ⟨fun ⟨hheld, hfree⟩ => absurd hfree (holder_tryLock_ne_none hheld), nofun⟩
  | tryLock o =>
    cases hrun
    exact ⟨fun ⟨hheld, hfree⟩ => absurd hfree (holder_tryLock_ne_none hheld), nofun⟩
  | drop guard =>
    cases hrun
    have hafter := h.release guard
    constructor
    · rintro ⟨hheld, hfree⟩
      by_cases hlive : g.isLive guard = true
      · obtain ⟨o, hperm⟩ := live_release hlive
        rw [hafter.live_eq_nil.mpr hfree] at hperm
        exact ⟨guard, rfl, hlive, hperm.length_eq⟩
      · rw [release_of_not_live hlive] at hfree
        rw [hfree] at hheld
        cases hheld
    · rintro ⟨_, hdrop, hlive, hlength⟩
      cases hdrop
      obtain ⟨o, hperm⟩ := live_release hlive
      have hnil : (g.release guard).2.live = [] :=
        List.eq_nil_of_length_eq_zero (Nat.succ_inj.mp (hperm.length_eq.symm.trans hlength))
      refine ⟨h.held.mpr fun hnone => ?_, hafter.free hnil⟩
      rw [hnone] at hlength
      cases hlength

theorem Counted.owned (h : g.Counted) : g.Owned := by
  have hgranted (o : Owner) :
      (g.tryLock o).1.isSome = true ↔ g.live = [] ∨ g.lock.holder = some o := by
    rw [tryLock_isSome, RecursiveLock.tryLock_isSome_iff, h.live_eq_nil]
  exact {
    held := h.held
    holder := h.holder
    depth := h.depth
    tryLock := hgranted
    acquire := fun o => acquire_isSome ▸ hgranted o
    freed := fun _ _ => h.freed }

end

theorem run_concat (value : α) (steps : List Step) (step : Step) :
    run value (steps ++ [step]) = (run value steps).bind (Step.run · step) := by
  rw [run, List.foldlM_append]
  simp [run]

theorem counted_run (value : α) (steps : List Step) {g : GuardedLock α}
    (hrun : run value steps = some g)
    (hfew : ∀ done, done <+: steps → ∀ g, run value done = some g → g.live.length < 2 ^ 32) :
    g.Counted := by
  induction steps using List.reverseRecOn generalizing g with
  | nil =>
    cases hrun
    exact counted_free value
  | append_singleton steps step ih =>
    have hlast := hfew _ List.prefix_rfl g hrun
    rw [run_concat] at hrun
    obtain ⟨before, hbefore, hstep⟩ := Option.bind_eq_some_iff.mp hrun
    have hcounted := ih hbefore fun done hdone => hfew done (hdone.trans (List.prefix_append _ _))
    exact hcounted.step hstep hlast

/-- A lock belongs to whoever has live guards, after any acquisitions, attempts and guards given up, by
any owners and in any order. -/
theorem owned_run (value : α) (steps : List Step) (g : GuardedLock α)
    (hrun : run value steps = some g)
    (hfew : ∀ done, done <+: steps → ∀ g, run value done = some g → g.live.length < 2 ^ 32) :
    g.Owned :=
  (counted_run value steps hrun hfew).owned

/-- Guards are given up first come, first served, while somebody else tries to get the lock. -/
theorem owned_run_handedOver :
    let steps : List Step := [.acquire ⟨7⟩, .tryLock ⟨8⟩, .acquire ⟨7⟩, .drop 0, .tryLock ⟨8⟩, .drop 1,
      .acquire ⟨8⟩]
    let g : GuardedLock Unit := ⟨⟨some ⟨8⟩, 1, ()⟩, [none, none, some ⟨8⟩]⟩
    run () steps = some g ∧
      (∀ done, done <+: steps → ∀ g, run () done = some g → g.live.length < 2 ^ 32) ∧ g.Owned := by
  intro steps g
  have hrun : run () steps = some g := by decide
  have hfew : ∀ done, done <+: steps → ∀ g, run () done = some g → g.live.length < 2 ^ 32 := by
    intro done hdone g hg
    have hall : ∀ done ∈ steps.inits, ∀ g ∈ run () done, g.live.length < 2 ^ 32 := by decide
    exact hall done ((List.mem_inits done steps).mpr hdone) g hg
  exact ⟨hrun, hfew, owned_run () steps g hrun hfew⟩

end GuardedLock
end PluginSlot
