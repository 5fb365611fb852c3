import PluginSlot.Json.Variants
import PluginSlot.Kernel.Mask
import PluginSlot.Kernel.Object
import PluginSlot.Loader.Config
import PluginSlot.Loader.Journal
import PluginSlot.Loader.Parameters
/-!
The JSON forms of what is kept or exchanged as text: settings, parameters, the journal, and the
names of kernel things.
-/
namespace PluginSlot.Loader
open Json Kernel

def Config.format : Codec Config :=
  (Fields.optional "handshake_timeout_ms" word64 Config.default.handshakeTimeout
    (.optional "journal_capacity" word64 Config.default.journalCapacity
      (.optional "plugin_root" string Config.default.pluginRoot
        (.optional "default_swap_filename" string Config.default.defaultSwapFilename
          (.optional "flash_indicator" bool Config.default.flashIndicator .nil))))).codec
    (fun (timeout, capacity, root, filename, flash, _) => ⟨timeout, capacity, root, filename, flash⟩)
    fun c => (c.handshakeTimeout, c.journalCapacity, c.pluginRoot, c.defaultSwapFilename,
      c.flashIndicator, ())

def LoadParameters.format : Codec LoadParameters :=
  (Fields.required "no_flash" bool
    (.required "low_title_id" word32
      (.required "path" string
        (.required "config" (list word32) .nil)))).codec
    (fun (noFlash, title, path, config, _) => ⟨noFlash, title, path, config⟩)
    fun p => (p.noFlash, p.lowTitleId, p.path, p.config, ())

def swapSettingsFormat : Codec Region.SwapSettings :=
  (Fields.required "save_addr" word32
    (.required "load_addr" word32
      (.required "bound" word64
        (.required "filename" string
          (.required "configured" bool .nil))))).codec
    (fun (save, load, bound, filename, configured, _) => ⟨save, load, bound, filename, configured⟩)
    fun s => (s.saveAddress, s.loadAddress, s.bound, s.filename, s.configured, ())

def ExeLoad.format : Codec ExeLoad :=
  (Fields.required "entry" word32
    (.required "context" (list word32)
      (.required "is_set" bool .nil))).codec
    (fun (entry, context, isSet, _) => ⟨entry, context, isSet⟩)
    fun p => (p.entry, p.context, p.isSet, ())

def names {α : Type} [DecidableEq α] (name : α → String) (all : List α) : Codec α :=
  variants (all.map fun a => .plain (name a) a (a = ·))

def SlotState.format : Codec SlotState := names SlotState.name [.empty, .running, .swapped]

def HandshakeKind.format : Codec HandshakeKind := names HandshakeKind.name [.exit, .swap]

def handleFormat : Codec Handle := word32.map .mk Handle.val

/-- A record with one field. -/
def one {α : Type} (name : String) (c : Codec α) : Fields (α × Unit) (Option α × Unit) := .required name c .nil

def Event.format : Codec Event := variants [
  .record "Transition"
    (.required "from" SlotState.format (one "to" SlotState.format))
    (fun (source, target, _) => .transition source target)
    (fun | .transition source target => some (source, target, ()) | _ => none),
  .record "Loaded"
    (.required "target" handleFormat (.required "path" string (one "size" word64)))
    (fun (target, path, size, _) => .loaded target path size)
    (fun | .loaded target path size => some (target, path, size, ()) | _ => none),
  .record "LoadFailed"
    (.required "path" string (one "code" word32))
    (fun (path, code, _) => .loadFailed path code)
    (fun | .loadFailed path code => some (path, code, ()) | _ => none),
  .record "HandshakeTimeout" (one "kind" HandshakeKind.format)
    (fun (kind, _) => .handshakeTimeout kind)
    (fun | .handshakeTimeout kind => some (kind, ()) | _ => none),
  .record "SwapOutFailed" (one "code" word32)
    (fun (code, _) => .swapOutFailed code)
    (fun | .swapOutFailed code => some (code, ()) | _ => none),
  .record "SwapInFailed" (one "code" word32)
    (fun (code, _) => .swapInFailed code)
    (fun | .swapInFailed code => some (code, ()) | _ => none),
  .record "TeardownQueued" (one "target" handleFormat)
    (fun (target, _) => .teardownQueued target)
    (fun | .teardownQueued target => some (target, ()) | _ => none),
  .record "TeardownDone" (one "target" handleFormat)
    (fun (target, _) => .teardownDone target)
    (fun | .teardownDone target => some (target, ()) | _ => none),
  .record "UnexpectedNotification" (one "status" word32)
    (fun (status, _) => .unexpectedNotification status)
    (fun | .unexpectedNotification status => some (status, ()) | _ => none),
  .record "Command"
    (.required "id" word16 (one "code" word32))
    (fun (id, code, _) => .command id code)
    (fun | .command id code => some (id, code, ()) | _ => none)]

def Record.format : Codec Record :=
  (Fields.required "seq" word64
    (.required "timestamp" word64
      (one "kind" Event.format))).codec
    (fun (number, time, event, _) => ⟨number, time, event⟩)
    fun r => (r.number, r.time, r.event, ())

def recordsFormat : Codec (List Record) := list Record.format

def Journal.text (j : Journal) : String := recordsFormat.text j.records

def threadStateFormat : Codec ThreadState := names ThreadState.name [.paused, .runnable, .terminating]

def objectClassFormat : Codec ObjectClass :=
  names ObjectClass.name [.process, .event, .addressArbiter]

def maskFormat : Codec Mask := word16.map .mk Mask.bits

def processIdFormat : Codec ProcessId := (natural limit64).map .mk ProcessId.val
def threadIdFormat : Codec ThreadId := (natural limit64).map .mk ThreadId.val
def objectIdFormat : Codec ObjectId := (natural limit64).map .mk ObjectId.val
def coreIdFormat : Codec CoreId := (natural 0xFF).map .mk CoreId.val

end PluginSlot.Loader
