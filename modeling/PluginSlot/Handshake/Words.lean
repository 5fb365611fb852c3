/-!
The two words by which the loader and the plugin shake hands: the loader posts an event in one,
and the plugin replies in the other.
-/
namespace PluginSlot.Handshake

inductive SharedWord where
  | event
  | reply
deriving DecidableEq, Repr

/-- The reply is still to come. Waiting for a reply is waiting while the word is below `ok`, so this
value is negative. -/
def awaiting : Int32 := -1

/-- Nothing is posted; or, as a reply, go ahead. -/
def ok : Int32 := 0

/-- The plugin's memory is about to be swapped out. -/
def aboutToSwap : Int32 := 3

/-- The host process is about to exit. -/
def aboutToExit : Int32 := 4

/-- How long the loader waits for a reply unless told otherwise, in nanoseconds. -/
def replyTimeout : UInt64 := 10000000000

structure Words where
  event : Int32
  reply : Int32
deriving DecidableEq, Repr

namespace Words

def initial : Words := ⟨ok, ok⟩

def get (w : Words) : SharedWord → Int32
  | .event => w.event
  | .reply => w.reply

def set (w : Words) (word : SharedWord) (value : Int32) : Words :=
  match word with
  | .event => { w with event := value }
  | .reply => { w with reply := value }

theorem get_set (w : Words) (word : SharedWord) (value : Int32) :
    (w.set word value).get word = value := by cases word <;> rfl

end Words
end PluginSlot.Handshake
