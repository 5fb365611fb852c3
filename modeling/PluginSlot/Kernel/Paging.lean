import PluginSlot.Kernel.Reference
/-!
The page map of a process. A change of the map signals the memory-change event, if somebody asked
for it.
-/
namespace PluginSlot.Kernel.State

def notifyLayoutChange (s : State) (p : ProcessId) : State :=
  match s.process? p with
  | none => s
  | some process =>
    match process.memoryChangeEvent with
    | none => s
    | some e => if process.flags.signalOnLayoutChange then s.signalEvent e else s

/-- Map the page of one address to the page of another; a process forced to full access gets it
whatever was asked. -/
def mapPage (s : State) (p : ProcessId) (virtual physical : UInt32) (permissions : Permissions) :
    Except Error Unit × State :=
  match s.process? p with
  | none => (.error .invalidHandle, s)
  | some process =>
    let permissions := if process.flags.forceRwx then .all else permissions
    let s := s.modifyProcess p fun process =>
      { process with
        pages := process.pages.insert (pageBase virtual) ⟨pageBase physical, permissions⟩ }
    (.ok (), s.notifyLayoutChange p)

def unmapPage (s : State) (p : ProcessId) (virtual : UInt32) : Except Error Unit × State :=
  match s.process? p with
  | none => (.error .invalidHandle, s)
  | some process =>
    if !process.pages.contains (pageBase virtual) then (.error .invalidAddress, s)
    else
      let s := s.modifyProcess p fun process =>
        { process with pages := process.pages.erase (pageBase virtual) }
      (.ok (), s.notifyLayoutChange p)

def translate (s : State) (p : ProcessId) (virtual : UInt32) : Except Error UInt32 :=
  match s.process? p with
  | none => .error .invalidHandle
  | some process =>
    match process.pages.get? (pageBase virtual) with
    | none => .error .invalidAddress
    | some page => .ok (page.physical ||| pageOffset virtual)

/-- Full access for every page, now and later. -/
def forceRwx (s : State) (p : ProcessId) : State :=
  s.modifyProcess p fun process =>
    { process with
      flags := { process.flags with forceRwx := true }
      pages := process.pages.mapValues fun _ page => { page with permissions := .all } }

/-- The memory-change event of a process, created when first asked for. -/
def memoryChangeEvent (s : State) (p : ProcessId) : Except Error ObjectId × State :=
  match s.process? p with
  | none => (.error .invalidHandle, s)
  | some process =>
    match process.memoryChangeEvent with
    | some e => (.ok e, s)
    | none =>
      let (e, s) := s.allocate (.event false true)
      (.ok e, s.modifyProcess p ({ · with memoryChangeEvent := some e }))

end PluginSlot.Kernel.State
