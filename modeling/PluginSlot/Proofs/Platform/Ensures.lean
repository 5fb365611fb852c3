import PluginSlot.Platform.Act

/-!
Reasoning about computations that call the platform: what they leave as it is, and what they bring
about. The rules follow the way in which computations are put together.
-/
namespace PluginSlot.Platform.Act

variable {κ σ α β γ : Type} {h : Handler κ σ} {f : Machine κ σ → γ}
variable {P P' : Machine κ σ → Prop} {x : Act κ σ α} {g : α → Act κ σ β}

/-- A view of the machine is the same before and after. -/
def Keeps (h : Handler κ σ) (f : Machine κ σ → γ) (x : Act κ σ α) : Prop :=
  ∀ m, f (x h m).2 = f m

namespace Keeps

theorem pure (a : α) : Keeps h f (Pure.pure a : Act κ σ α) := fun _ => rfl

theorem bind (hx : Keeps h f x) (hg : ∀ a, Keeps h f (g a)) : Keeps h f (x >>= g) :=
  fun m => (hg (x h m).1 (x h m).2).trans (hx m)

theorem client : Keeps h f (client : Act κ σ κ) := fun _ => rfl

theorem modifyClient {e : κ → κ} (he : ∀ m : Machine κ σ, f { m with client := e m.client } = f m) :
    Keeps h f (modifyClient e : Act κ σ Unit) := he

end Keeps

/-- What holds after the computation, given what held before. -/
def Ensures (h : Handler κ σ) (P : Machine κ σ → Prop) (x : Act κ σ α)
    (Q : α → Machine κ σ → Prop) : Prop :=
  ∀ m, P m → Q (x h m).1 (x h m).2

namespace Ensures
variable {Q Q' R : α → Machine κ σ → Prop} {S : β → Machine κ σ → Prop}

theorem mono (hx : Ensures h P x Q) (hP : ∀ m, P' m → P m) (hQ : ∀ a m, Q a m → Q' a m) :
    Ensures h P' x Q' := fun m hm => hQ _ _ (hx m (hP m hm))

theorem pure {a : α} (hQ : ∀ m, P m → Q a m) : Ensures h P (Pure.pure a : Act κ σ α) Q := hQ

theorem bind (hx : Ensures h P x Q) (hg : ∀ a, Ensures h (Q a) (g a) S) :
    Ensures h P (x >>= g) S := fun m hm => hg _ _ (hx m hm)

theorem client {g : κ → Act κ σ β} (hg : ∀ l, Ensures h (fun m => P m ∧ m.client = l) (g l) S) :
    Ensures h P (Act.client >>= g) S := fun m hm => hg m.client m ⟨hm, rfl⟩

/-- A computation that keeps a view keeps all that can be said about it. -/
theorem of_keeps (hx : Keeps h f x) (p : γ → Prop) :
    Ensures h (fun m => p (f m)) x fun _ m => p (f m) := by
  intro m hm
  rwa [hx m]

end Ensures

section views
variable {f : Machine κ σ → γ} {P P' : γ → Prop} {Q Q' : α → γ → Prop} {S : β → γ → Prop}

/-- What a computation brings about, as far as a view of the machine shows it. -/
def Assures (h : Handler κ σ) (f : Machine κ σ → γ) (P : γ → Prop) (x : Act κ σ α)
    (Q : α → γ → Prop) : Prop :=
  x.Ensures h (fun m => P (f m)) fun a m => Q a (f m)

theorem Assures.pure {a : α} (hQ : ∀ v, P v → Q a v) :
    (Pure.pure a : Act κ σ α).Assures h f P Q := fun m hm => hQ (f m) hm

theorem Assures.bind (hx : x.Assures h f P Q) (hg : ∀ a, (g a).Assures h f (Q a) S) :
    (x >>= g).Assures h f P S := Ensures.bind hx hg

theorem Assures.weaken (hx : x.Assures h f P Q) (hP : ∀ v, P' v → P v) : x.Assures h f P' Q :=
  fun m hm => hx m (hP _ hm)

theorem Assures.imp (hx : x.Assures h f P Q) (hQ : ∀ a v, Q a v → Q' a v) : x.Assures h f P Q' :=
  fun m hm => hQ _ _ (hx m hm)

/-- A fact that follows from what holds before. -/
theorem Assures.of_fact {φ : Prop} (hφ : ∀ v, P v → φ) (hx : φ → x.Assures h f P Q) :
    x.Assures h f P Q := fun m hm => hx (hφ _ hm) m hm

theorem Keeps.assures (hx : x.Keeps h f) : x.Assures h f P fun _ => P := Ensures.of_keeps hx P

/-- Something comes first that the view does not show. -/
theorem Keeps.then (hx : x.Keeps h f) (hg : ∀ a, (g a).Assures h f P S) :
    (x >>= g).Assures h f P S := .bind (Keeps.assures hx) hg

/-- What a computation brings about while it keeps an invariant, as far as a view of the machine shows
it. -/
def Maintains (h : Handler κ σ) (I : Machine κ σ → Prop) (f : Machine κ σ → γ) (P : γ → Prop)
    (x : Act κ σ α) (Q : α → γ → Prop) : Prop :=
  x.Ensures h (fun m => I m ∧ P (f m)) fun a m => I m ∧ Q a (f m)

namespace Maintains
variable {I : Machine κ σ → Prop}

theorem pure {a : α} (hQ : ∀ v, P v → Q a v) :
    (Pure.pure a : Act κ σ α).Maintains h I f P Q := fun _ hm => hm.imp id (hQ _)

theorem bind (hx : x.Maintains h I f P Q) (hg : ∀ a, (g a).Maintains h I f (Q a) S) :
    (x >>= g).Maintains h I f P S := Ensures.bind hx hg

theorem weaken (hx : x.Maintains h I f P Q) (hP : ∀ v, P' v → P v) : x.Maintains h I f P' Q :=
  fun m hm => hx m (hm.imp id (hP _))

theorem imp (hx : x.Maintains h I f P Q) (hQ : ∀ a v, Q a v → Q' a v) : x.Maintains h I f P Q' :=
  fun m hm => (hx m hm).imp id (hQ _ _)

theorem of_fact {φ : Prop} (hφ : ∀ v, P v → φ) (hx : φ → x.Maintains h I f P Q) :
    x.Maintains h I f P Q := fun m hm => hx (hφ _ hm.2) m hm

end Maintains
end views
end PluginSlot.Platform.Act
