import PluginSlot.Proofs.Service.NextLoad
import PluginSlot.Proofs.Service.Reading

/-!
Requests that configure swapping and the code loader. Each one drops the old settings first, so that
afterwards there are those that it asks for, or none.
-/
namespace PluginSlot
open Platform (Act Call Handler Machine Stub)
open Loader Wire
open Region (SwapSettings)

theorem Region.SwapSettings.make_eq_ok_iff {save load : UInt32} {bound : UInt64}
    {filename default : String} {s : SwapSettings} :
    SwapSettings.make save load bound filename default = .ok s ↔
      save ≠ 0 ∧ load ≠ 0 ∧ bound ≤ maxSwapBound ∧ filename.utf8ByteSize ≤ maxPathLength ∧
        s = ⟨routineAddress save, routineAddress load, bound, if filename = "" then default else filename,
          true⟩ := by
  rw [SwapSettings.make]
  split
  case isTrue hnull => grind
  case isFalse hsome =>
    split
    case isTrue hlarge => grind
    case isFalse hfits =>
      obtain ⟨hsave, hload⟩ := not_or.mp hsome
      obtain ⟨hbound, hname⟩ := not_or.mp hfits
      simp only [ne_eq, hsave, hload, UInt64.not_lt.mp hbound, Nat.not_lt.mp hname, not_false_eq_true,
        true_and, Except.ok.injEq, String.isEmpty_iff]
      exact eq_comm

namespace Loader
variable {σ : Type} {p : Platform σ}

theorem ExeLoad.make_eq_ok_iff {entry : UInt32} {context : List UInt32} {x : ExeLoad} :
    ExeLoad.make entry context = .ok x ↔
      entry ≠ 0 ∧ context.length ≤ maxConfigWords ∧ x = ⟨routineAddress entry, context, true⟩ := by
  rw [ExeLoad.make]
  split
  case isTrue hnull => simp [hnull]
  case isFalse hsome =>
    split
    case isTrue hlarge => simp [Nat.not_le.mpr hlarge]
    case isFalse hfits => simp [hsome, Nat.not_lt.mp hfits, eq_comm]

/-- Nothing changes the default name of the swap file. -/
theorem bears_defaultFilename (name : String) : Bears (watch p) Concern.every
    fun m : Machine Loader (σ × List Sighting) => m.client.block.defaultFilename = name where
  call _ _ _ _ hm := hm
  words _ _ hm := hm
  record _ _ _ hm := hm
  status _ _ _ hm := hm
  settings _ _ _ _ _ _ _ _ _ hfixtures hm := (congrArg (·.2.2) hfixtures).trans hm
  parameters _ _ _ _ hm := hm
  handles _ _ _ _ hm := hm
  block _ _ _ _ hbefore hname _ := hname.trans hbefore
  slot _ _ _ _ hfixtures hm := (congrArg (·.2.2) hfixtures).trans hm

end Loader

namespace Service
variable {σ : Type}

section requests
variable {r : Request}

/-- The request asks for these swap settings, and they are in order. An empty file name asks for the
default one. -/
structure Request.AsksSwap (r : Request) (default : String) (s : SwapSettings) : Prop where
  save : r.param 0 ≠ 0 ∧ s.saveAddress = r.param 0 ||| routineAddressBit
  load : r.param 1 ≠ 0 ∧ s.loadAddress = r.param 1 ||| routineAddressBit
  bound : ∃ w : UInt32, r.descriptors[0]? = some (.buffer (wordBytes w)) ∧ s.bound = w.toUInt64
  boundFits : s.bound ≤ Region.maxSwapBound
  filename : ∃ bytes name, r.descriptors[1]? = some (.buffer bytes) ∧ Spells bytes name ∧
    name.utf8ByteSize ≤ maxPathLength ∧ s.filename = if name = "" then default else name
  configured : s.configured = true

/-- The request asks for these parameters of the code loader, and they are in order. -/
structure Request.AsksExeLoad (r : Request) (x : ExeLoad) : Prop where
  entry : r.param 0 ≠ 0 ∧ x.entry = r.param 0 ||| routineAddressBit
  context : r.descriptors[0]? = some (.buffer (x.context.flatMap wordBytes)) ∧
    x.context.length ≤ maxConfigWords
  isSet : x.isSet = true

theorem Request.swapSettings_eq_ok_iff {default : String} {s : SwapSettings} :
    r.swapSettings default = .ok s ↔ r.AsksSwap default s := by
  have hread : r.swapSettings default = .ok s ↔ ∃ w name, r.wordIn 0 = .ok w ∧ r.text 1 = .ok name ∧
      SwapSettings.make (r.param 0) (r.param 1) w.toUInt64 name default = .ok s := by
    show (r.wordIn 0).bind (fun w => (r.text 1).bind fun name => (SwapSettings.make _ _ _ name
      default).mapError .ofParameter) = _ ↔ _
    simp [bind_eq_ok_iff, mapError_eq_ok_iff]
  rw [hread]
  constructor
  · rintro ⟨w, name, hw, hname, hmake⟩
    obtain ⟨hsave, hload, hbound, hfilename, rfl⟩ := SwapSettings.make_eq_ok_iff.mp hmake
    obtain ⟨bytes, hbytes, hspells⟩ := text_eq_ok_iff.mp hname
    exact ⟨⟨hsave, rfl⟩, ⟨hload, rfl⟩, ⟨w, wordIn_eq_ok_iff.mp hw, rfl⟩, hbound,
      ⟨bytes, name, hbytes, hspells, hfilename, rfl⟩, rfl⟩
  · obtain ⟨saveAddress, loadAddress, bound, filename, configured⟩ := s
    rintro ⟨⟨hsave, rfl⟩, ⟨hload, rfl⟩, ⟨w, hw, rfl⟩, hbound, ⟨bytes, name, hbytes, hspells, hfilename, rfl⟩,
      rfl⟩
    exact ⟨w, name, wordIn_eq_ok_iff.mpr hw, text_eq_ok_iff.mpr ⟨bytes, hbytes, hspells⟩,
      SwapSettings.make_eq_ok_iff.mpr ⟨hsave, hload, hbound, hfilename, rfl⟩⟩

/-- The parameters of the code loader that the request asks for. -/
def Request.exeLoad (r : Request) : Except Error ExeLoad :=
  (r.words 0).bind fun context => (ExeLoad.make (r.param 0) context).mapError .ofParameter

theorem Request.exeLoad_eq_ok_iff {x : ExeLoad} : r.exeLoad = .ok x ↔ r.AsksExeLoad x := by
  simp only [exeLoad, bind_eq_ok_iff, mapError_eq_ok_iff, words_eq_ok_iff, ExeLoad.make_eq_ok_iff]
  constructor
  · rintro ⟨context, hcontext, hentry, -, rfl⟩
    exact ⟨⟨hentry, rfl⟩, hcontext, rfl⟩
  · obtain ⟨entry, context, isSet⟩ := x
    rintro ⟨⟨hentry, rfl⟩, hcontext, rfl⟩
    exact ⟨context, hcontext, hentry, hcontext.2, rfl⟩

end requests

section perform
variable {p : Platform σ} {r : Request} {m : Machine Loader (σ × List Sighting)}

/-- Either new settings are put in the place of the old ones, and the code cache is told of it, or there
are none any more. -/
def replaced {α : Type} (p : Platform σ) (c : Command) (put : α → Loader → Loader) (unset : α)
    (m : Machine Loader (σ × List Sighting)) :
    Except Error α → Except Error Response × Machine Loader (σ × List Sighting)
  | .error e => (.error e, { m with client := put unset m.client })
  | .ok settings =>
    (.ok (.ok c), (watch p .invalidateCache { m with client := put settings m.client }).2)

def putSwap (settings : SwapSettings) (l : Loader) : Loader :=
  { l with block := { l.block with swap := settings } }

def putExeLoad (x : ExeLoad) (l : Loader) : Loader := { l with exeLoad := x }

theorem setSwapParameters_eq : setSwapParameters r (watch p) m =
    replaced p .setSwapParameters putSwap (.unset m.client.block.defaultFilename) m
      (r.swapSettings m.client.config.defaultSwapFilename) := by
  have hclient : Act.client (watch p) m = (m.client, m) := rfl
  rw [setSwapParameters, Act.bind_run, Act.bind_run, hclient]
  dsimp only
  cases r.swapSettings m.client.config.defaultSwapFilename <;> rfl

theorem setExeLoadParameters_eq : setExeLoadParameters r (watch p) m =
    replaced p .setExeLoadParameters putExeLoad .unset m r.exeLoad := by
  rw [setExeLoadParameters, Act.bind_run, Request.exeLoad]
  cases r.words 0 with
  | error e => rfl
  | ok context =>
    show _ = replaced p _ _ _ m ((ExeLoad.make (r.param 0) context).mapError .ofParameter)
    simp only [ExeLoad.configure]
    cases ExeLoad.make (r.param 0) context <;> rfl

end perform

section career
variable (p : Platform σ) (config : Config) (s : σ)

theorem defaultFilename_career (ops : List Operation) :
    (career p config s ops).client.block.defaultFilename = config.defaultSwapFilename := by
  have hbears := bears_defaultFilename (p := p) config.defaultSwapFilename
  induction ops using List.reverseRecOn with
  | nil => exact within_start _ _ (hbears.mono (by decide)) (machine config (s, [])) rfl
  | append_singleton ops op ih =>
    rw [career_concat]
    exact within_operation op _ _ hbears _ ih

/-- Whatever the request asks for, afterwards there are the settings that it asks for, or none, and it
says which. Only if there are some, the code cache is told of it; nothing else is done or changed. -/
def Reconfigures {α : Type} (ops : List Operation) (r : Request) (asks : α → Prop)
    (put : α → Loader → Loader) (unset : α) : Prop :=
  ∃ response, (follow p (.request r) (career p config s ops)).1 = .response response ∧
    ((∃ settings, asks settings ∧ response.result = Code.success ∧
      Handled r response.result (career p config s ops) (career p config s (ops ++ [.request r]))
        (put settings (career p config s ops).client) [.invalidateCache]) ∨
    (∀ settings, ¬asks settings) ∧ isFailure response.result = true ∧
      Handled r response.result (career p config s ops) (career p config s (ops ++ [.request r]))
        (put unset (career p config s ops).client) [])

theorem reconfigures_of_replaced {α : Type} {ops : List Operation} {r : Request} {c : Command}
    {asks : α → Prop} {put : α → Loader → Loader} {unset : α} {read : Except Error α}
    (hshape : r.hasShape c = true) (hread : ∀ settings, read = .ok settings ↔ asks settings)
    (hput : ∀ settings l, (put settings l).tasks = l.tasks)
    (hperform : perform r c (watch p) (facing p config s ops r) =
      replaced p c put unset (facing p config s ops r) read) :
    Reconfigures p config s ops r asks put unset := by
  have hrespond := respond_of_hasShape hshape (watch p) (facing p config s ops r)
  rw [hperform] at hrespond
  cases read with
  | error e =>
    obtain ⟨hresponse, hhandled⟩ := handled_career p config s [] hrespond rfl rfl (hput unset _)
      (List.append_nil _).symm
    refine ⟨.failure c e, hresponse, .inr ⟨?_, ?_, hhandled⟩⟩
    · intro settings hsettings
      cases (hread settings).mpr hsettings
    · rw [result_failure]
      exact e.isFailure_code
  | ok settings =>
    obtain ⟨hresponse, hhandled⟩ := handled_career p config s [.invalidateCache] hrespond rfl rfl
      (hput settings _) rfl
    exact ⟨.ok c, hresponse, .inl ⟨settings, (hread settings).mp rfl, rfl, hhandled⟩⟩

/-- Configuration is all or nothing, whatever has happened before. -/
theorem career_reconfigures (ops : List Operation) (r : Request) :
    (r.hasShape .setSwapParameters = true →
      Reconfigures p config s ops r (r.AsksSwap config.defaultSwapFilename)
        (fun settings l => { l with block := { l.block with swap := settings } })
        (.unset config.defaultSwapFilename)) ∧
    (r.hasShape .setExeLoadParameters = true →
      Reconfigures p config s ops r r.AsksExeLoad (fun x l => { l with exeLoad := x }) .unset) := by
  constructor
  · intro hshape
    have hname : (facing p config s ops r).client.block.defaultFilename = config.defaultSwapFilename :=
      defaultFilename_career p config s ops
    have hconfig : (facing p config s ops r).client.config = config := config_career p config s ops
    have hperform := setSwapParameters_eq (p := p) (r := r) (m := facing p config s ops r)
    rw [hname, hconfig] at hperform
    exact reconfigures_of_replaced p config s hshape (fun _ => Request.swapSettings_eq_ok_iff)
      (fun _ _ => rfl) hperform
  · intro hshape
    exact reconfigures_of_replaced p config s hshape (fun _ => Request.exeLoad_eq_ok_iff) (fun _ _ => rfl)
      setExeLoadParameters_eq

/-- A request to swap by way of "/s", with routines at two addresses, what fits in a megabyte. -/
def swapRequest (save load : UInt32) : Request :=
  ⟨Command.setSwapParameters.requestHeader, [save, load], [.buffer [0, 0, 16, 0], .buffer [47, 115, 0]]⟩

/-- A request for the code loader, with one word of context. -/
def exeLoadRequest (entry : UInt32) : Request :=
  ⟨Command.setExeLoadParameters.requestHeader, [entry], [.buffer [7, 0, 0, 0]]⟩

/-- Routines at the null address are refused, and the settings from before are gone. -/
theorem career_reconfigures_nullAddress :
    (career Stub.platform .default .initial [.request (swapRequest 0x100 0x200)]).client.block.swap =
        ⟨0x80000100, 0x80000200, 0x100000, "/s", true⟩ ∧
      (career Stub.platform .default .initial
          ([.request (swapRequest 0x100 0x200)] ++ [.request (swapRequest 0x100 0)])).client.block.swap =
        .unset Config.default.defaultSwapFilename ∧
      (career Stub.platform .default .initial [.request (exeLoadRequest 0x300)]).client.exeLoad =
        ⟨0x80000300, [7], true⟩ ∧
      (career Stub.platform .default .initial
          ([.request (exeLoadRequest 0x300)] ++ [.request (exeLoadRequest 0)])).client.exeLoad = .unset := by
  refine ⟨by decide +kernel, ?_, by decide +kernel, ?_⟩
  · obtain ⟨_, -, ⟨_, hasks, -⟩ | ⟨-, -, hunset⟩⟩ := (career_reconfigures Stub.platform .default .initial
      [.request (swapRequest 0x100 0x200)] (swapRequest 0x100 0)).1 (by decide)
    · exact absurd rfl hasks.load.1
    · obtain ⟨_, hloader⟩ := hunset.loader
      rw [hloader]
  · obtain ⟨_, -, ⟨_, hasks, -⟩ | ⟨-, -, hunset⟩⟩ := (career_reconfigures Stub.platform .default .initial
      [.request (exeLoadRequest 0x300)] (exeLoadRequest 0)).2 (by decide)
    · exact absurd rfl hasks.entry.1
    · obtain ⟨_, hloader⟩ := hunset.loader
      rw [hloader]

end career
end Service
end PluginSlot
