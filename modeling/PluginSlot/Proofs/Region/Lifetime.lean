import PluginSlot.Platform.Stub
import PluginSlot.Platform.SwapStore
import PluginSlot.Proofs.Platform.Ensures
import PluginSlot.Region.Block
import Mathlib.Data.List.Induction

/-!
The memory block under any operations in any order, on a platform where any call may fail and with a
swap store to which nobody else writes. What it wrote out comes back: the contents that it had last when
it was in memory.
-/
namespace PluginSlot
open Platform

namespace Region

/-- The region has these contents, and a swap file that it may come back from has them too. -/
def Placement.Holds (file? : String → Option SwapImage) (image : List UInt8) : Placement → Prop
  | .free => False
  | .resident data _ saved =>
    data = image ∧ ∀ s, saved = some s → (file? s.filename).map (·.data) = some image
  | .swappedOut length saved =>
    length = image.length ∧ (file? saved.filename).map (·.data) = some image

/-- The contents of a region in memory, or else those that it had last. -/
def Placement.recall (last : List UInt8) : Placement → List UInt8
  | .resident data _ _ => data
  | _ => last

/-- The settings of a swap file with the same contents, if there is one. -/
def Block.saved? (b : Block) : Option SwapSettings :=
  match b.placement with
  | .free => none
  | .resident _ _ saved => saved
  | .swappedOut _ saved => some saved

/-- Something that happens to a block: an operation, or the swap store starts or stops to fail. -/
inductive Step where
  | allocate (data : List UInt8)
  | mount (target : Kernel.Handle)
  | unmount (target : Kernel.Handle)
  | writeOut
  | readBack
  | free
  | discard
  | edit (change : Option (Nat × UInt8))
  | resetSwap
  | setSwap (settings : SwapSettings)
  | storeFaults (failWrites failReads : Bool)

variable {σ : Type} {p : Platform σ}

/-- A block with a swap store at its disposal. -/
abbrev Stored (σ : Type) := Machine Block (σ × SwapStore)

/-- The operation, done by the block itself. -/
def carryOut (op : Block → Act Block (σ × SwapStore) (Except Error Unit × Block)) :
    Act Block (σ × SwapStore) (Except Error Unit) := do
  let b ← Act.client
  let (r, b) ← op b
  Act.modifyClient fun _ => b
  pure r

def Step.run (p : Platform σ) (m : Stored σ) : Step → Except Error Unit × Stored σ
  | allocate data => carryOut (fun b => pure (b.allocate data)) (handler (withStore p)) m
  | mount target => carryOut (·.mount target) (handler (withStore p)) m
  | unmount target => carryOut (·.unmount target) (handler (withStore p)) m
  | writeOut => carryOut (·.writeOut) (handler (withStore p)) m
  | readBack => carryOut (·.readBack) (handler (withStore p)) m
  | free => carryOut (fun b => pure b.free) (handler (withStore p)) m
  | discard => carryOut (fun b => pure b.discard) (handler (withStore p)) m
  | edit change => (.ok (), { m with client := (m.client.edit change).2 })
  | resetSwap => (.ok (), { m with client := m.client.resetSwap })
  | setSwap settings => (.ok (), { m with client := m.client.setSwap settings })
  | storeFaults failWrites failReads =>
    let store := { m.platform.2 with failWrites := failWrites, failReads := failReads }
    (.ok (), { m with platform := (m.platform.1, store) })

/-- A new block, and then what happens to it; with it, the contents that it had last. -/
def lifetime (p : Platform σ) (defaultFilename : String) (s : σ) (store : SwapStore)
    (steps : List Step) : Stored σ × List UInt8 :=
  steps.foldl (fun (m, last) step => ((step.run p m).2, (step.run p m).2.client.placement.recall last))
    (⟨.new defaultFilename, .initial, 0, (s, store)⟩, [])

/-- What a step can make of the placement of a block and of the swap files. -/
inductive Moves (file? : String → Option SwapImage) :
    Placement → Placement → (String → Option SwapImage) → Prop where
  | stays (place : Placement) : Moves file? place place file?
  | allocated (data : List UInt8) : Moves file? .free (.resident data false none) file?
  | mounted (data : List UInt8) (saved : Option SwapSettings) :
      Moves file? (.resident data false saved) (.resident data true saved) file?
  | unmounted (data : List UInt8) (saved : Option SwapSettings) :
      Moves file? (.resident data true saved) (.resident data false saved) file?
  | written (data : List UInt8) (saved : Option SwapSettings) (settings : SwapSettings)
      {after : String → Option SwapImage}
      (h : after settings.filename = some ⟨settings.saveAddress, data⟩) :
      Moves file? (.resident data false saved) (.resident data false (some settings)) after
  | restored (image : SwapImage) (saved : SwapSettings) (h : file? saved.filename = some image) :
      Moves file? (.swappedOut image.data.length saved) (.resident image.data false (some saved)) file?
  | givenUp (data : List UInt8) (saved : SwapSettings) :
      Moves file? (.resident data false (some saved)) (.swappedOut data.length saved) file?
  | dropped (data : List UInt8) (saved : Option SwapSettings) :
      Moves file? (.resident data false saved) .free file?
  | forgotten (length : Nat) (saved : SwapSettings) :
      Moves file? (.swappedOut length saved) .free file?
  | edited (data data' : List UInt8) (mounted : Bool) (saved : Option SwapSettings) :
      Moves file? (.resident data mounted saved) (.resident data' mounted none) file?

section moves
variable {file? : String → Option SwapImage} (b : Block)

/-- What the operation makes of a block with this placement is a move. -/
def Makes (p : Platform σ) (b : Block)
    (op : Act Block (σ × SwapStore) (Except Error Unit × Block)) : Prop :=
  ∀ file?, op.Ensures (handler (withStore p)) (fun m => m.platform.2.file? = file?)
    fun r m => Moves file? b.placement r.2.placement m.platform.2.file?

variable {b} in
theorem makes_pure {r : Except Error Unit} {b' : Block}
    (h : ∀ file?, Moves file? b.placement b'.placement file?) :
    Makes p b (pure (r, b') : Act Block (σ × SwapStore) _) :=
  fun file? => .pure fun m (hm : m.platform.2.file? = file?) => hm.symm ▸ h file?

theorem ensures_writeSwap (name : String) (address : UInt32) (data : List UInt8) :
    (Act.call (.writeSwap name address data)).Ensures (handler (withStore p))
      (fun m : Stored σ => m.platform.2.file? = file?) fun answer m =>
        (∀ e, answer = .error e → m.platform.2.file? = file?) ∧
        (answer = .ok () → m.platform.2.file? name = some ⟨address, data⟩) := by
  rintro m rfl
  show (∀ e, (m.platform.2.write name address data).1 = .error e →
      (m.platform.2.write name address data).2.file? = m.platform.2.file?) ∧
    ((m.platform.2.write name address data).1 = .ok () →
      (m.platform.2.write name address data).2.file? name = some ⟨address, data⟩)
  obtain hfailed | ⟨hwrites, hdone⟩ := m.platform.2.write_cases name address data
  · rw [hfailed]
    exact ⟨fun _ _ => rfl, nofun⟩
  · rw [hdone]
    exact ⟨nofun, fun _ => m.platform.2.file?_write name address data hwrites⟩

/-- Only a file of the right length is read, and reading changes none. -/
theorem ensures_readSwap (name : String) (address : UInt32) (length : Nat) :
    (Act.call (.readSwap name address length)).Ensures (handler (withStore p))
      (fun m : Stored σ => m.platform.2.file? = file?) fun answer m => m.platform.2.file? = file? ∧
        ∀ data, answer = .ok data →
          ∃ image, file? name = some image ∧ image.data = data ∧ data.length = length := by
  rintro m rfl
  refine ⟨funext (m.platform.2.file?_read name length), fun data hanswer => ?_⟩
  have hread : (m.platform.2.read name length).1 = .ok data := hanswer
  obtain ⟨e, he⟩ | ⟨image, hfile, hlength, hok⟩ := m.platform.2.read_cases name length
  · rw [he] at hread
    cases hread
  · rw [hok] at hread
    cases hread
    exact ⟨image, hfile, rfl, hlength⟩

/-- A call that does not go to the swap store, whose answer decides. -/
theorem makes_call {c : Call} (hc : ∀ m : Stored σ,
      (handler (withStore p) c m).2.platform.2 = m.platform.2)
    {g : c.Answer → Act Block (σ × SwapStore) (Except Error Unit × Block)}
    (hg : ∀ a, Makes p b (g a)) : Makes p b (Act.call c >>= g) :=
  fun file? => .bind (Q := fun _ m => m.platform.2.file? = file?)
    (fun m hm => (congrArg SwapStore.file? (hc m)).trans hm) fun a => hg a file?

theorem makes_mount (target : Kernel.Handle) : Makes p b (b.mount target) := by
  rw [Block.mount]
  split
  case h_1 data saved hplace =>
    refine makes_call b (fun _ => rfl) fun answer => ?_
    cases answer with
    | error e => exact makes_pure fun _ => .stays _
    | ok _ => exact makes_pure fun _ => hplace ▸ .mounted data saved
  case h_2 => exact makes_pure fun _ => .stays _

theorem makes_unmount (target : Kernel.Handle) : Makes p b (b.unmount target) := by
  rw [Block.unmount]
  split
  case h_1 data saved hplace =>
    refine makes_call b (fun _ => rfl) fun answer => ?_
    cases answer with
    | error e => exact makes_pure fun _ => .stays _
    | ok _ => exact makes_pure fun _ => hplace ▸ .unmounted data saved
  case h_2 => exact makes_pure fun _ => .stays _

theorem makes_writeOut : Makes p b b.writeOut := by
  rw [Block.writeOut]
  split
  case h_1 data saved hplace =>
    split
    · exact makes_pure fun _ => .stays _
    · split
      · exact makes_pure fun _ => .stays _
      · refine fun file? => .bind (ensures_writeSwap _ _ _) fun answer => ?_
        cases answer with
        | error e => exact .pure fun m hm => hm.1 e rfl ▸ .stays _
        | ok _ => exact .pure fun m hm => hplace ▸ .written data saved b.swap (hm.2 rfl)
  case h_2 => exact makes_pure fun _ => .stays _

theorem makes_readBack : Makes p b b.readBack := by
  rw [Block.readBack]
  split
  case h_1 length saved hplace =>
    refine fun file? => .bind (ensures_readSwap _ _ _) fun answer => ?_
    cases answer with
    | error e => exact .pure fun m hm => hm.1 ▸ .stays _
    | ok data =>
      dsimp only
      split
      · refine .pure fun m ⟨hsame, hread⟩ => ?_
        obtain ⟨image, hfile, rfl, rfl⟩ := hread data rfl
        rw [hsame, hplace]
        exact .restored image saved hfile
      · exact .pure fun m hm => hm.1 ▸ .stays _
  case h_2 => exact makes_pure fun _ => .stays _

theorem moves_allocate (data : List UInt8) :
    Moves file? b.placement (b.allocate data).2.placement file? := by
  rw [Block.allocate]
  split
  case h_1 hplace => exact hplace ▸ .allocated data
  case h_2 => exact .stays _

theorem moves_free : Moves file? b.placement b.free.2.placement file? := by
  rw [Block.free]
  split
  case h_1 => exact .stays _
  case h_2 data saved hplace => exact hplace ▸ .givenUp data saved
  case h_3 data hplace => exact hplace ▸ .dropped data none
  all_goals exact .stays _

theorem moves_discard : Moves file? b.placement b.discard.2.placement file? := by
  have hgone (h : b.isMounted = false) : b.discard.2.placement = .free := by
    rw [Block.discard, if_neg (Bool.eq_false_iff.mp h)]
  cases hplace : b.placement with
  | free =>
    rw [hgone (by rw [Block.isMounted, hplace])]
    exact .stays _
  | resident data mounted saved =>
    cases mounted with
    | false =>
      rw [hgone (by rw [Block.isMounted, hplace])]
      exact .dropped data saved
    | true =>
      rw [Block.discard, if_pos (by rw [Block.isMounted, hplace]), hplace]
      exact .stays _
  | swappedOut length saved =>
    rw [hgone (by rw [Block.isMounted, hplace])]
    exact .forgotten length saved

theorem moves_edit (change : Option (Nat × UInt8)) :
    Moves file? b.placement (b.edit change).2.placement file? := by
  rw [Block.edit]
  split
  case h_1 data mounted saved hplace => exact hplace ▸ .edited data _ mounted saved
  case h_2 => exact .stays _

theorem moves_run (step : Step) (m : Stored σ) : Moves m.platform.2.file? m.client.placement
    (step.run p m).2.client.placement (step.run p m).2.platform.2.file? := by
  cases step with
  | allocate data => exact moves_allocate m.client data
  | mount target => exact makes_mount m.client target _ m rfl
  | unmount target => exact makes_unmount m.client target _ m rfl
  | writeOut => exact makes_writeOut m.client _ m rfl
  | readBack => exact makes_readBack m.client _ m rfl
  | free => exact moves_free m.client
  | discard => exact moves_discard m.client
  | edit change => exact moves_edit m.client change
  | _ => exact .stays _

end moves

/-- There is no region, or it has these contents. -/
def Placement.Keeps (file? : String → Option SwapImage) (last : List UInt8)
    (place : Placement) : Prop :=
  place = .free ∨ place.Holds file? last

theorem Moves.keeps {file? after : String → Option SwapImage} {place place' : Placement}
    {last : List UInt8} (h : Moves file? place place' after) (hplace : place.Keeps file? last) :
    place'.Keeps after (place'.recall last) := by
  cases h with
  | stays =>
    cases place with
    | free => exact .inl rfl
    | swappedOut length saved => exact hplace
    | resident data mounted saved =>
      obtain ⟨rfl, hsaved⟩ := hplace.resolve_left nofun
      exact .inr ⟨rfl, hsaved⟩
  | allocated data => exact .inr ⟨rfl, nofun⟩
  | mounted data saved | unmounted data saved =>
    obtain ⟨rfl, hsaved⟩ := hplace.resolve_left nofun
    exact .inr ⟨rfl, hsaved⟩
  | written data saved settings hfile =>
    refine .inr ⟨rfl, fun s hs => ?_⟩
    cases hs
    rw [hfile]
    rfl
  | restored image saved hfile =>
    refine .inr ⟨rfl, fun s hs => ?_⟩
    cases hs
    rw [hfile]
    rfl
  | givenUp data saved =>
    obtain ⟨rfl, hsaved⟩ := hplace.resolve_left nofun
    exact .inr ⟨rfl, hsaved saved rfl⟩
  | dropped | forgotten => exact .inl rfl
  | edited data data' mounted saved => exact .inr ⟨rfl, nofun⟩

theorem keeps_lifetime (defaultFilename : String) (s : σ) (store : SwapStore) (steps : List Step) :
    let (m, last) := lifetime p defaultFilename s store steps
    m.client.placement.Keeps m.platform.2.file? last := by
  induction steps using List.reverseRecOn with
  | nil => exact .inl rfl
  | append_singleton steps step ih =>
    rw [lifetime, List.foldl_append]
    exact (moves_run step _).keeps ih

/-- What holds of a block at any time, with the contents that it had last. -/
structure Coherent (p : Platform σ) (m : Stored σ) (last : List UInt8) : Prop where
  free : m.client.isFree = true → m.client.data = [] ∧ m.client.saved? = none
  /-- What is swapped out is in the file that the block remembers. -/
  swappedOut : m.client.isSwappedOut = true → m.client.data = [] ∧ m.client.length = last.length ∧
    ∃ saved, m.client.saved? = some saved ∧
      (m.platform.2.file? saved.filename).map (·.data) = some last
  /-- A file that still counts as the contents has the contents. -/
  resident : m.client.isFree = false → m.client.isSwappedOut = false → m.client.data = last ∧
    ∀ saved, m.client.saved? = some saved →
      (m.platform.2.file? saved.filename).map (·.data) = some m.client.data
  /-- A mounted region is neither written out nor given up. -/
  refused : m.client.isMounted = true → ∀ step : Step,
    step = .writeOut ∨ step = .free ∨ step = .discard → step.run p m = (.error .invalidState, m)
  /-- Nor does it get lost in any other way. -/
  mounted : m.client.isMounted = true → ∀ step : Step, (step.run p m).2.client.isFree = false ∧
    (step.run p m).2.client.isSwappedOut = false ∧
    (step.run p m).2.platform.2.file? = m.platform.2.file?
  /-- What is swapped out comes back, unless reading is made to fail. -/
  restored : m.client.isSwappedOut = true → m.platform.2.failReads = false →
    (Step.readBack.run p m).1 = .ok () ∧ (Step.readBack.run p m).2.client.isFree = false ∧
      (Step.readBack.run p m).2.client.isSwappedOut = false ∧
      (Step.readBack.run p m).2.client.data = last

section coherent
variable {m : Stored σ} {last : List UInt8}

theorem refused_run (hm : m.client.isMounted = true) {step : Step}
    (hstep : step = .writeOut ∨ step = .free ∨ step = .discard) :
    step.run p m = (.error .invalidState, m) := by
  obtain ⟨⟨place, swap, defaultFilename⟩, words, status, platform⟩ := m
  cases place with
  | resident data mounted saved =>
    cases hm
    obtain rfl | rfl | rfl := hstep <;> rfl
  | _ => cases hm

theorem mounted_run (hm : m.client.isMounted = true) (step : Step) :
    (step.run p m).2.client.isFree = false ∧ (step.run p m).2.client.isSwappedOut = false ∧
      (step.run p m).2.platform.2.file? = m.platform.2.file? := by
  have hmoves := moves_run (p := p) step m
  rw [Block.isFree, Block.isSwappedOut]
  rw [Block.isMounted] at hm
  generalize (step.run p m).2.client.placement = after at hmoves ⊢
  generalize (step.run p m).2.platform.2.file? = files at hmoves ⊢
  generalize m.client.placement = before at hmoves hm
  cases hmoves with
  | stays =>
    cases after with
    | resident data mounted saved => exact ⟨rfl, rfl, rfl⟩
    | _ => cases hm
  | unmounted | edited => exact ⟨rfl, rfl, rfl⟩
  | _ => cases hm

theorem restored_run (hkeeps : m.client.placement.Keeps m.platform.2.file? last)
    (hm : m.client.isSwappedOut = true) (hreads : m.platform.2.failReads = false) :
    (Step.readBack.run p m).1 = .ok () ∧ (Step.readBack.run p m).2.client.isFree = false ∧
      (Step.readBack.run p m).2.client.isSwappedOut = false ∧
      (Step.readBack.run p m).2.client.data = last := by
  obtain ⟨⟨place, swap, defaultFilename⟩, words, status, platform⟩ := m
  cases place with
  | swappedOut length saved =>
    obtain ⟨rfl, hfile⟩ := hkeeps.resolve_left nofun
    obtain ⟨image, hfile, rfl⟩ := Option.map_eq_some_iff.mp hfile
    have hread := platform.2.read_of_file hreads hfile
    have hdone : Step.readBack.run p
        ⟨⟨.swappedOut image.data.length saved, swap, defaultFilename⟩, words, status, platform⟩ =
        (.ok (), ⟨⟨.resident image.data false (some saved), swap, defaultFilename⟩, words, status,
          (platform.1, { platform.2 with reads := platform.2.reads + 1 })⟩) := by
      simp [Step.run, carryOut, Act.bind_run, Act.client, Act.modifyClient, Act.pure_run,
        Block.readBack, Act.call, handler, withStore, hread]
    rw [hdone]
    exact ⟨rfl, rfl, rfl, rfl⟩
  | _ => cases hm

theorem coherent_of_keeps (hkeeps : m.client.placement.Keeps m.platform.2.file? last) :
    Coherent p m last where
  free hm := by
    obtain ⟨⟨place, swap, defaultFilename⟩, words, status, platform⟩ := m
    cases place with
    | free => exact ⟨rfl, rfl⟩
    | _ => cases hm
  swappedOut hm := by
    obtain ⟨⟨place, swap, defaultFilename⟩, words, status, platform⟩ := m
    cases place with
    | swappedOut length saved =>
      obtain ⟨hlength, hfile⟩ := hkeeps.resolve_left nofun
      exact ⟨rfl, hlength, saved, rfl, hfile⟩
    | _ => cases hm
  resident hfree hout := by
    obtain ⟨⟨place, swap, defaultFilename⟩, words, status, platform⟩ := m
    cases place with
    | resident data mounted saved =>
      obtain ⟨rfl, hsaved⟩ := hkeeps.resolve_left nofun
      exact ⟨rfl, hsaved⟩
    | free => cases hfree
    | swappedOut => cases hout
  refused hm _ hstep := refused_run hm hstep
  mounted hm := mounted_run hm
  restored := restored_run hkeeps

end coherent

/-- A block is coherent at any time, whatever was done to it and whatever failed. -/
theorem coherent_lifetime (p : Platform σ) (defaultFilename : String) (s : σ) (store : SwapStore)
    (steps : List Step) : Coherent p (lifetime p defaultFilename s store steps).1
      (lifetime p defaultFilename s store steps).2 :=
  coherent_of_keeps (keeps_lifetime defaultFilename s store steps)

/-- The file that a region was written to counts, whatever the settings are by now. -/
example :
    let settings : SwapSettings := ⟨0x1000, 0x2000, 16, "/swap", true⟩
    (lifetime Stub.platform "/default" .initial .empty
      [.allocate [1, 2, 3], .setSwap settings, .writeOut, .edit (some (0, 7)), .writeOut, .free,
        .resetSwap, .storeFaults false true, .readBack, .storeFaults false false, .readBack]).1.client =
      ⟨.resident [7, 2, 3] false (some settings), .unset "/default", "/default"⟩ := by
  decide

end Region
end PluginSlot
