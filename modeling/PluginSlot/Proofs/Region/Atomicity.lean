import PluginSlot.Platform.Stub
import PluginSlot.Platform.SwapStore
import PluginSlot.Region.Block

/-!
Operations of a memory block that fail. Whatever the reason, the block is as it was before; and unless
the platform failed, it was not even called. Only one operation ever writes, and only what the settings
say.
-/
namespace PluginSlot

namespace Platform

/-- A platform whose calls are written down, oldest first. -/
def logged {σ : Type} (p : Platform σ) : Platform (σ × List Call) where
  answer c := fun (s, calls) => ((p.answer c s).1, (p.answer c s).2, calls ++ [c])

/-- A call on behalf of a block did not do what it should. A read has to give as many bytes as it was
asked for. -/
def Failed : (c : Call) → c.Answer → Prop
  | .map _ _, answer => answer ≠ .ok ()
  | .unmap _ _, answer => answer ≠ .ok ()
  | .writeSwap _ _ _, answer => answer ≠ .ok ()
  | .readSwap _ _ length, answer => ∀ data, answer = .ok data → data.length ≠ length
  | _, _ => False

end Platform

open Platform

namespace Region
variable {σ γ : Type}

/-- An operation of a block that can fail. -/
inductive Attempt where
  | allocate (data : List UInt8)
  | mount (target : Kernel.Handle)
  | unmount (target : Kernel.Handle)
  | writeOut
  | readBack
  | free
  | discard

/-- What an operation leaves, and the calls that it made. -/
structure Outcome (σ : Type) where
  result : Except Error Unit
  block : Block
  platform : σ
  calls : List Call

/-- A computation that works on a block, on a platform in this state. -/
def outcome (p : Platform σ) (b : Block) (s : σ)
    (x : Act Block (σ × List Call) (Except Error Unit × Block)) : Outcome σ :=
  let (r, m) := x (handler (logged p)) ⟨b, .initial, 0, (s, [])⟩
  ⟨r.1, r.2, m.platform.1, m.platform.2⟩

def Attempt.run (p : Platform σ) (b : Block) (s : σ) : Attempt → Outcome σ
  | allocate data => outcome p b s (pure (b.allocate data))
  | mount target => outcome p b s (b.mount target)
  | unmount target => outcome p b s (b.unmount target)
  | writeOut => outcome p b s b.writeOut
  | readBack => outcome p b s b.readBack
  | free => outcome p b s (pure b.free)
  | discard => outcome p b s (pure b.discard)

/-- The region is in memory, not mounted, and can be handled by the routines of the settings. -/
def Block.Writable (b : Block) : Prop :=
  (∃ saved, b.placement = .resident b.data false saved) ∧ b.swap.configured = true ∧
    b.data.length ≤ b.swap.bound.toNat

/-- What holds of an operation, with a view of the platform that failed calls do not change. -/
structure Atomic (view : σ → γ) (b : Block) (s : σ) (a : Attempt) (o : Outcome σ) : Prop where
  unchanged : ∀ e, o.result = .error e → o.block = b ∧ view o.platform = view s
  /-- A block that refuses does not call the platform. -/
  uncalled : ∀ e, o.result = .error e → (∀ e', e ≠ .platform e') → o.calls = []
  written : a = .writeOut →
    (b.Writable → o.calls = [.writeSwap b.swap.filename b.swap.saveAddress b.data]) ∧
    (¬b.Writable → o.calls = [])

/-- The ways in which an operation can end. -/
inductive Ends (p : Platform σ) (b : Block) (s : σ) : Outcome σ → Prop
  | refused (e : Error) (he : ∀ e', e ≠ .platform e') : Ends p b s ⟨.error e, b, s, []⟩
  | failed (c : Call) (e : Platform.Error) (hc : Failed c (p.answer c s).1) :
      Ends p b s ⟨.error (.platform e), b, (p.answer c s).2, [c]⟩
  | done (b' : Block) (s' : σ) (calls : List Call) : Ends p b s ⟨.ok (), b', s', calls⟩

section
variable {p : Platform σ} {b : Block} {s : σ}

section
variable {c : Call} {g : c.Answer → Act Block (σ × List Call) (Except Error Unit × Block)}

theorem outcome_call {r : Except Error Unit × Block} (hg : g (p.answer c s).1 = pure r) :
    outcome p b s (Act.call c >>= g) = ⟨r.1, r.2, (p.answer c s).2, [c]⟩ := by
  have hrun : outcome p b s (Act.call c >>= g) =
      let (r, m) := g (p.answer c s).1 (handler (logged p)) ⟨b, .initial, 0, ((p.answer c s).2, [c])⟩
      ⟨r.1, r.2, m.platform.1, m.platform.2⟩ := rfl
  rw [hrun, hg]
  rfl

/-- A single call decides. -/
theorem ends_call (hg : ∀ answer, (Failed c answer ∧ ∃ e, g answer = pure (.error (.platform e), b)) ∨
      ∃ b', g answer = pure (.ok (), b')) : Ends p b s (outcome p b s (Act.call c >>= g)) := by
  obtain ⟨hfailed, e, he⟩ | ⟨b', hb'⟩ := hg (p.answer c s).1
  · rw [outcome_call he]
    exact .failed c e hfailed
  · rw [outcome_call hb']
    exact .done b' _ _

end

theorem ends_mount (target : Kernel.Handle) : Ends p b s (outcome p b s (b.mount target)) := by
  rw [Block.mount]
  split
  case h_1 =>
    refine ends_call fun answer => ?_
    cases answer with
    | error e => exact .inl ⟨nofun, e, rfl⟩
    | ok _ => exact .inr ⟨_, rfl⟩
  case h_2 => exact .refused .invalidState nofun

theorem ends_unmount (target : Kernel.Handle) : Ends p b s (outcome p b s (b.unmount target)) := by
  rw [Block.unmount]
  split
  case h_1 =>
    refine ends_call fun answer => ?_
    cases answer with
    | error e => exact .inl ⟨nofun, e, rfl⟩
    | ok _ => exact .inr ⟨_, rfl⟩
  case h_2 => exact .refused .invalidState nofun

theorem ends_writeOut : Ends p b s (outcome p b s b.writeOut) := by
  rw [Block.writeOut]
  split
  case h_1 =>
    split
    · exact .refused .swapNotConfigured nofun
    · split
      · exact .refused (.swapRegionTooLarge _ _) nofun
      · refine ends_call fun answer => ?_
        cases answer with
        | error e => exact .inl ⟨nofun, e, rfl⟩
        | ok _ => exact .inr ⟨_, rfl⟩
  case h_2 => exact .refused .invalidState nofun

theorem ends_readBack : Ends p b s (outcome p b s b.readBack) := by
  rw [Block.readBack]
  split
  case h_1 length saved hplace =>
    refine ends_call fun answer => ?_
    cases answer with
    | error e => exact .inl ⟨nofun, e, rfl⟩
    | ok data =>
      by_cases hlength : data.length = length
      · exact .inr ⟨_, if_pos hlength⟩
      · refine .inl ⟨?_, .storageFailed, if_neg hlength⟩
        rintro _ ⟨⟩
        exact hlength
  case h_2 => exact .refused .invalidState nofun

theorem ends_allocate (data : List UInt8) : Ends p b s (outcome p b s (pure (b.allocate data))) := by
  rw [Block.allocate]
  split
  case h_1 => exact .done _ _ _
  case h_2 => exact .refused .invalidState nofun

theorem ends_free : Ends p b s (outcome p b s (pure b.free)) := by
  rw [Block.free]
  split
  case h_1 => exact .refused .invalidState nofun
  all_goals exact .done _ _ _

theorem ends_discard : Ends p b s (outcome p b s (pure b.discard)) := by
  rw [Block.discard]
  split
  · exact .refused .invalidState nofun
  · exact .done _ _ _

theorem ends_run (a : Attempt) : Ends p b s (a.run p b s) := by
  cases a with
  | allocate data => exact ends_allocate data
  | mount target => exact ends_mount target
  | unmount target => exact ends_unmount target
  | writeOut => exact ends_writeOut
  | readBack => exact ends_readBack
  | free => exact ends_free
  | discard => exact ends_discard

/-- What is written is the whole region, through the settings, if they allow it; else nothing is. -/
theorem calls_writeOut :
    (b.Writable → (outcome p b s b.writeOut).calls =
      [.writeSwap b.swap.filename b.swap.saveAddress b.data]) ∧
    (¬b.Writable → (outcome p b s b.writeOut).calls = []) := by
  rw [Block.writeOut]
  split
  case h_1 data saved hplace =>
    have hdata : b.data = data := by rw [Block.data, hplace]
    subst hdata
    split
    case isTrue hconfigured =>
      have hunset : b.swap.configured = false := by simpa using hconfigured
      refine ⟨fun h => ?_, fun _ => rfl⟩
      cases hunset.symm.trans h.2.1
    case isFalse hconfigured =>
      have hset : b.swap.configured = true := by simpa using hconfigured
      split
      case isTrue hlarge => exact ⟨fun h => absurd h.2.2 (Nat.not_le_of_gt hlarge), fun _ => rfl⟩
      case isFalse hlarge =>
        refine ⟨fun _ => ?_, fun h => ?_⟩
        · cases hanswer : (p.answer (.writeSwap b.swap.filename b.swap.saveAddress b.data) s).1 with
          | error e => rw [outcome_call (by rw [hanswer])]
          | ok _ => rw [outcome_call (by rw [hanswer])]
        · exact absurd ⟨⟨saved, hplace⟩, hset, Nat.le_of_not_gt hlarge⟩ h
  case h_2 hother =>
    refine ⟨fun h => ?_, fun _ => rfl⟩
    obtain ⟨⟨saved, hplace⟩, -⟩ := h
    exact absurd hplace (hother b.data saved)

theorem Ends.unchanged {o : Outcome σ} (h : Ends p b s o) {view : σ → γ}
    (hview : ∀ c s, Failed c (p.answer c s).1 → view (p.answer c s).2 = view s) {e : Error}
    (he : o.result = .error e) : o.block = b ∧ view o.platform = view s := by
  cases h with
  | refused => exact ⟨rfl, rfl⟩
  | failed c e hc => exact ⟨rfl, hview c s hc⟩
  | done => cases he

theorem Ends.uncalled {o : Outcome σ} (h : Ends p b s o) {e : Error} (he : o.result = .error e)
    (hown : ∀ e', e ≠ .platform e') : o.calls = [] := by
  cases h with
  | refused => rfl
  | failed c e' hc =>
    cases he
    exact absurd rfl (hown e')
  | done => cases he

end

/-- An operation of any block that fails, on any platform, changes nothing, as long as calls that fail
change nothing. -/
theorem atomic_run (p : Platform σ) (view : σ → γ)
    (hview : ∀ c s, Failed c (p.answer c s).1 → view (p.answer c s).2 = view s) (b : Block) (s : σ)
    (a : Attempt) : Atomic view b s a (a.run p b s) where
  unchanged _ he := (ends_run a).unchanged hview he
  uncalled _ he hown := (ends_run a).uncalled he hown
  written ha := by
    subst ha
    exact calls_writeOut

/-- Of swap files in memory, a call that fails leaves everything as it was. -/
theorem store_of_failed (p : Platform σ) (c : Call) (s : σ × SwapStore)
    (h : Failed c ((withStore p).answer c s).1) : ((withStore p).answer c s).2.2 = s.2 := by
  obtain ⟨s, store⟩ := s
  cases c with
  | writeSwap name address data =>
    obtain hfailed | ⟨-, hdone⟩ := store.write_cases name address data
    · show (store.write name address data).2 = store
      rw [hfailed]
    · exact absurd hdone h
  | readSwap name address length =>
    obtain ⟨e, he⟩ | ⟨image, -, hlength, hok⟩ := store.read_cases name length
    · show (store.read name length).2 = store
      rw [he]
    · exact absurd hlength (h image.data (congrArg Prod.fst hok))
  | _ => rfl

/-- A region that fits is written, and the write fails: the older file is still there. -/
theorem atomic_run_failedWrite :
    let p := withStore Stub.platform
    let b : Block := ⟨.resident [1, 2, 3] false none, ⟨0x80001000, 0x80002000, 3, "/swap", true⟩, "/swap"⟩
    let store : SwapStore := ⟨[("/swap", ⟨0x80001000, [4, 5]⟩)], true, false, 1, 0⟩
    let o := Attempt.writeOut.run p b (.initial, store)
    (∀ c s, Failed c (p.answer c s).1 → (p.answer c s).2.2 = s.2) ∧ b.Writable ∧
      o.result = .error (.platform .storageFailed) ∧
      Atomic (fun s : Stub × SwapStore => s.2) b (.initial, store) .writeOut o :=
  ⟨store_of_failed Stub.platform, ⟨⟨none, rfl⟩, rfl, by decide⟩, rfl,
    atomic_run _ _ (store_of_failed Stub.platform) _ _ _⟩

end Region
end PluginSlot
