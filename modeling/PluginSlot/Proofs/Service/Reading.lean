import PluginSlot.Proofs.Wire.Codecs
import PluginSlot.Service.Basic

/-!
How the parameters of requests are read. What is read is what the bytes of the buffers spell.
-/
namespace PluginSlot.Service
open Platform (Act Handler Machine)
open Loader Wire
variable {σ : Type}

namespace Request
variable {r : Request} {i : Nat}

theorem buffer_eq_ok_iff {bytes : List UInt8} :
    r.buffer i = .ok bytes ↔ r.descriptors[i]? = some (.buffer bytes) := by
  rw [buffer]
  split
  case h_1 hfound => simp [hfound]
  case h_2 hother => simpa using hother bytes

/-- One thing is read, and another one from it. -/
theorem bind_eq_ok_iff {α β : Type} {x : Except Error α} {f : α → Except Error β} {b : β} :
    x.bind f = .ok b ↔ ∃ a, x = .ok a ∧ f a = .ok b := by
  cases x <;> simp [Except.bind]

theorem mapError_eq_ok_iff {ε α : Type} {x : Except ε α} {f : ε → Error} {a : α} :
    x.mapError f = .ok a ↔ x = .ok a := by
  cases x <;> simp [Except.mapError]

theorem orMalformed_eq_ok_iff {α : Type} {a? : Option α} {a : α} : orMalformed a? = .ok a ↔ a? = some a := by
  cases a? <;> simp [orMalformed]

theorem text_eq_ok_iff {s : String} :
    r.text i = .ok s ↔ ∃ bytes, r.descriptors[i]? = some (.buffer bytes) ∧ Spells bytes s := by
  simp only [text, bind_eq_ok_iff, buffer_eq_ok_iff, orMalformed_eq_ok_iff, cString_eq_some_iff]

theorem words_eq_ok_iff {ws : List UInt32} : r.words i = .ok ws ↔
    r.descriptors[i]? = some (.buffer (ws.flatMap wordBytes)) ∧ ws.length ≤ maxConfigWords := by
  simp only [words, bind_eq_ok_iff, buffer_eq_ok_iff]
  constructor
  · rintro ⟨bytes, hbytes, hread⟩
    cases hwords : words? bytes with
    | none => simp [hwords] at hread
    | some found =>
      simp only [hwords] at hread
      split at hread
      · cases hread
      case isFalse hfits =>
        cases hread
        exact ⟨words?_eq_some_iff.mp hwords ▸ hbytes, Nat.le_of_not_lt hfits⟩
  · rintro ⟨hbytes, hfits⟩
    exact ⟨_, hbytes, by simp [words?_flatMap_wordBytes, Nat.not_lt.mpr hfits]⟩

theorem wordIn_eq_ok_iff {w : UInt32} :
    r.wordIn i = .ok w ↔ r.descriptors[i]? = some (.buffer (wordBytes w)) := by
  simp only [wordIn, bind_eq_ok_iff, buffer_eq_ok_iff]
  constructor
  · rintro ⟨bytes, hbytes, hread⟩
    split at hread
    case h_1 a b c d =>
      cases hread
      rwa [wordBytes_littleEndian]
    case h_2 => cases hread
  · intro hbytes
    exact ⟨_, hbytes, congrArg Except.ok (littleEndian_wordBytes w)⟩

end Request

/-- A request that has the shape of a command is one for this command. -/
theorem ofId?_of_hasShape {r : Request} {c : Command} (hshape : r.hasShape c = true) :
    Command.ofId? (Header.decode r.header).command = some c := by
  have hheader : r.header = c.requestHeader := by
    simp only [Request.hasShape, Bool.and_eq_true, decide_eq_true_eq] at hshape
    exact hshape.1.1
  rw [hheader, Command.requestHeader, Header.decode_makeHeader]
  exact Command.ofId?_id c

theorem respond_of_hasShape {r : Request} {c : Command} (hshape : r.hasShape c = true)
    (h : Handler Loader σ) (m : Machine Loader σ) : respond r h m =
      match perform r c h m with
      | (.ok response, m) => (response, m)
      | (.error e, m) => (.failure c e, m) := by
  rw [respond, ofId?_of_hasShape hshape]
  show performChecked r c h m = _
  rw [performChecked, hshape, if_pos rfl, Act.bind_run]
  cases perform r c h m with
  | mk answer m => cases answer <;> rfl

end PluginSlot.Service
