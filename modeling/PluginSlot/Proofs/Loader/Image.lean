import PluginSlot.Proofs.Loader.Soundness
import PluginSlot.Platform.Stub

/-!
The image of a plugin that runs. Over every history, with every pattern of failures, its memory is
what was injected, with the edits made since and nothing else.
-/
namespace PluginSlot
open Platform Loader Custody

namespace Region.Block

theorem set_take_append_drop {contents data : List UInt8} (hlength : data.length = contents.length)
    {done : Nat} (hdone : done < contents.length) :
    (contents.take done ++ data.drop done).set done contents[done] =
      contents.take (done + 1) ++ data.drop (done + 1) := by
  have htake : (contents.take done).length = done := List.length_take_of_le (Nat.le_of_lt hdone)
  rw [List.set_append_right _ _ (Nat.le_of_eq htake), htake, Nat.sub_self,
    List.drop_eq_getElem_cons (by omega : done < data.length), List.set_cons_zero,
    List.take_add_one, List.getElem?_eq_getElem hdone, List.append_assoc]
  rfl

/-- Any contents of the same length are a list of one-byte changes away. -/
theorem exists_edits {b : Block} {data contents : List UInt8} {mounted : Bool}
    {saved : Option SwapSettings} (hplace : b.placement = .resident data mounted saved)
    (hlength : data.length = contents.length) :
    ∃ changes : List (Option (Nat × UInt8)),
      changes.foldl (fun b change => (b.edit change).2) b =
        { b with placement := .resident contents mounted none } := by
  -- Byte after byte: the induction is on how many are done.
  have hset : ∀ done ≤ contents.length, ∃ changes : List (Option (Nat × UInt8)),
      changes.foldl (fun b change => (b.edit change).2) b =
        { b with placement := .resident (contents.take done ++ data.drop done) mounted none } := by
    intro done
    induction done with
    | zero => exact fun _ => ⟨[none], by simp [edit, hplace]⟩
    | succ done ih =>
      intro hdone
      obtain ⟨changes, hchanges⟩ := ih (Nat.le_of_lt hdone)
      refine ⟨changes ++ [some (done, contents[done])], ?_⟩
      rw [List.foldl_append, hchanges, ← set_take_append_drop hlength hdone]
      rfl
  obtain ⟨changes, hchanges⟩ := hset contents.length (Nat.le_refl _)
  refine ⟨changes, hchanges.trans ?_⟩
  rw [List.take_length, ← hlength, List.drop_length, List.append_nil]

end Region.Block

namespace Custody

/-- A byte of the region was set through the access that the loader gives. -/
def edited (v : Custody) (index : Nat) (byte : UInt8) : Custody :=
  { v with latest := v.latest.map fun e => (e.1, e.2.set index byte) }

/-- Any change of a region in memory is a change of the image. What a swap file holds does not count
any more. -/
theorem Sound.rewrite {v : Custody} {data : List UInt8} {mounted : Bool}
    {saved : Option Region.SwapSettings} (hv : v.Sound)
    (hplace : v.placement = .resident data mounted saved) (change : List UInt8 → List UInt8) :
    Sound { v with
      placement := .resident (change data) mounted none
      latest := v.latest.map fun e => (e.1, change e.2) } := by
  intro hne
  obtain ⟨image, hguards, hmounted⟩ := hv hne
  have hholds := hguards.holds_at hplace
  refine ⟨change image, ⟨rfl, by simp [hguards.latest], congrArg change hholds.1, nofun⟩, fun hr => ?_⟩
  obtain ⟨found, kept, hm⟩ := hmounted hr
  cases hplace.symm.trans hm
  exact ⟨change data, none, rfl⟩

end Custody

namespace Service
variable {σ : Type} {p : Platform σ}

/-- An edit changes the region, if it is in memory, just as it changes the image. -/
theorem sound_editMemory (change : Option (Nat × UInt8)) :
    Assures p Sound (editMemory change) fun r v =>
      match change, r with
      | some (index, byte), some _ => (v.edited index byte).Sound
      | _, _ => v.Sound := by
  refine assures_onBlock fun b v hv hb => ?_
  have hkeep (h : (b.edit change).2 = b) :
      Sound { v with placement := (b.edit change).2.placement } := by
    rw [h, ← hb]
    exact hv
  cases hplace : b.placement with
  | resident data mounted saved =>
    rw [hplace] at hb
    cases change with
    | none => simpa [Region.Block.edit, hplace] using hv.rewrite hb id
    | some change =>
      simpa [Region.Block.edit, hplace, edited] using hv.rewrite hb (·.set change.1 change.2)
  | free =>
    have hnone : b.edit change = (none, b) := by simp [Region.Block.edit, hplace]
    cases change <;> simpa [hnone] using hkeep (by rw [hnone])
  | swappedOut length saved =>
    have hnone : b.edit change = (none, b) := by simp [Region.Block.edit, hplace]
    cases change <;> simpa [hnone] using hkeep (by rw [hnone])

/-- The edit that an operation made, going by its answer. -/
def Operation.edit? : Operation → Outcome → Option (Nat × UInt8)
  | .editMemory change, .memory _ => change
  | _, _ => none

theorem sound_operation (op : Operation) :
    Assures p Sound op.run fun outcome v =>
      match op.edit? outcome with
      | none => v.Sound
      | some (index, byte) => (v.edited index byte).Sound := by
  have hcentral : Central (observer p) fun m => (custody m).Sound := central_custody Sound
  cases op with
  | editMemory change =>
    refine .bind (sound_editMemory change) fun answer => ?_
    cases answer with
    | none => cases change <;> exact .pure fun _ hv => hv
    | some contents => cases change <;> exact .pure fun _ hv => hv
  | _ =>
    exact ensures_operation hcentral hcentral (fun _ hm => hm) sound_runPendingTasks _
      (fun _ _ => sound_load) nofun (internal_custody Sound).status sound_handleNotification
      fun _ => sound_shutdown

/-- Something that happens to a loader on a platform with a swap store: an operation, or the store
starts or stops to fail. -/
inductive Step where
  | operation (op : Operation)
  | storeFaults (failWrites failReads : Bool)

/-- One step, with the edits of the region written down. -/
def Step.run (p : Platform σ) (step : Step) (m : Machine Loader (Observed σ)) :
    Machine Loader (Observed σ) :=
  match step with
  | operation op =>
    let (outcome, m) := op.run (observer p) m
    match op.edit? outcome with
    | none => m
    | some (index, byte) => { m with platform := (m.platform.1, .edited index byte :: m.platform.2) }
  | storeFaults failWrites failReads =>
    let store := { m.platform.1.2 with failWrites := failWrites, failReads := failReads }
    { m with platform := ((m.platform.1.1, store), m.platform.2) }

/-- A loader that starts, and then what happens to it. -/
def history (p : Platform σ) (config : Config) (s : σ) (store : SwapStore) (steps : List Step) :
    Machine Loader (Observed σ) :=
  steps.foldl (fun m step => step.run p m) (start (observer p) (machine config ((s, store), []))).2

theorem Step.sound_run (step : Step) (m : Machine Loader (Observed σ)) (hm : (custody m).Sound) :
    (custody (step.run p m)).Sound := by
  cases step with
  | operation op =>
    have hop := sound_operation (p := p) op m hm
    dsimp only at hop
    simp only [Step.run]
    split at hop
    case h_1 => exact hop
    case h_2 => exact hop
  | storeFaults failWrites failReads => exact hm

theorem sound_history (config : Config) (s : σ) (store : SwapStore) (steps : List Step) :
    (custody (history p config s store steps)).Sound := by
  have hrun : ∀ m : Machine Loader (Observed σ), (custody m).Sound →
      (custody (steps.foldl (fun m step => step.run p m) m)).Sound := by
    induction steps with
    | nil => exact fun _ hm => hm
    | cons step steps ih => exact fun m hm => ih (step.run p m) (step.sound_run m hm)
  have hstart : start.Ensures (observer p) (fun m => (custody m).Sound) fun _ m => (custody m).Sound :=
    ensures_start (central_custody Sound) ((internal_custody Sound).status _)
  exact hrun _ (hstart (machine config ((s, store), [])) (sound_of_empty rfl))

/-- While a plugin runs, its region is mounted and has the image of the latest injection, which was
into the present target, with the edits made since. -/
theorem data_of_running (p : Platform σ) (config : Config) (s : σ) (store : SwapStore)
    (steps : List Step) (hrun : (history p config s store steps).client.state = .running) :
    (history p config s store steps).client.block.isMounted = true ∧
      latestImage (history p config s store steps).platform.2 =
        some ((history p config s store steps).client.target,
          (history p config s store steps).client.block.data) := by
  generalize hm : history p config s store steps = m at hrun ⊢
  have hsound := sound_history (p := p) config s store steps
  rw [hm] at hsound
  obtain ⟨image, hguards, hmounted⟩ := hsound (by simp [custody, hrun])
  obtain ⟨data, saved, hplace⟩ := hmounted hrun
  have hholds := hguards.holds_at hplace
  have hblock : m.client.block.placement = .resident data true saved := hplace
  refine ⟨by simp [Region.Block.isMounted, hblock], hguards.latest.trans ?_⟩
  rw [Region.Block.data, hblock, hholds.1]
  rfl

/-- A plugin that is loaded and edited, and goes to a swap file and back. -/
def roundTrip : List Step :=
  [.operation (.setEnabled true), .operation (.load ⟨5⟩),
    .operation (.request ⟨Wire.Command.setSwapParameters.requestHeader, [0x1000, 0x2000],
      [.buffer [0, 0, 1, 0], .buffer [0x61, 0]]⟩),
    .operation (.editMemory (some (3, 7))),
    .operation (.post Wire.Status.swapEvent true), .operation (.post Wire.Status.swapEvent true)]

theorem data_of_running_roundTrip :
    (history Stub.platform .default .initial .empty roundTrip).client.state = .running ∧
      (history Stub.platform .default .initial .empty roundTrip).client.block.isMounted = true ∧
      latestImage (history Stub.platform .default .initial .empty roundTrip).platform.2 =
        some ((history Stub.platform .default .initial .empty roundTrip).client.target,
          (history Stub.platform .default .initial .empty roundTrip).client.block.data) := by
  have hstate : (history Stub.platform .default .initial .empty roundTrip).client.state = .running := by
    decide +kernel
  exact ⟨hstate, data_of_running Stub.platform .default .initial .empty roundTrip hstate⟩

example : (history Stub.platform .default .initial .empty roundTrip).client.block.data.take 5 =
    [0, 0, 0, 7, 0] := by
  decide +kernel

end Service
end PluginSlot
