/-!
The first word of a request or response: command id in the upper half, then the number of plain
words and the number of translate words, six bits each.
-/
namespace PluginSlot.Wire

def makeHeader (command : UInt16) (normal translate : UInt8) : UInt32 :=
  (command.toUInt32 <<< 16) ||| ((normal.toUInt32 &&& 0x3F) <<< 6) ||| (translate.toUInt32 &&& 0x3F)

structure Header where
  command : UInt16
  normal : UInt8
  translate : UInt8
deriving DecidableEq, Repr

def Header.decode (word : UInt32) : Header where
  command := (word >>> 16).toUInt16
  normal := ((word >>> 6) &&& 0x3F).toUInt8
  translate := (word &&& 0x3F).toUInt8

def Header.encode (h : Header) : UInt32 := makeHeader h.command h.normal h.translate

theorem Header.decode_makeHeader (command : UInt16) (normal translate : UInt8) :
    Header.decode (makeHeader command normal translate) =
      ⟨command, normal &&& 0x3F, translate &&& 0x3F⟩ := by
  simp only [Header.decode, makeHeader, Header.mk.injEq]
  refine ⟨?_, ?_, ?_⟩
  · apply UInt16.toBitVec_inj.mp
    ext i hi
    match i, hi with
    | 0, _ | 1, _ | 2, _ | 3, _ | 4, _ | 5, _ | 6, _ | 7, _ | 8, _ | 9, _ | 10, _ | 11, _
    | 12, _ | 13, _ | 14, _ | 15, _ => simp
    | i + 16, h => omega
  · apply UInt8.toBitVec_inj.mp
    ext i hi
    match i, hi with
    | 0, _ | 1, _ | 2, _ | 3, _ | 4, _ | 5, _ | 6, _ | 7, _ => simp
    | i + 8, h => omega
  · apply UInt8.toBitVec_inj.mp
    ext i hi
    match i, hi with
    | 0, _ | 1, _ | 2, _ | 3, _ | 4, _ | 5, _ | 6, _ | 7, _ => simp
    | i + 8, h => omega

/-- The upper half of a version word holds major and minor, its third byte the revision. -/
def makeVersion (major minor revision : UInt8) : UInt32 :=
  (major.toUInt32 <<< 24) ||| (minor.toUInt32 <<< 16) ||| (revision.toUInt32 <<< 8)

def serviceVersion : UInt32 := makeVersion 1 0 0

end PluginSlot.Wire
