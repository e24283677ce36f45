import Rnet.Lib.Run

/-!
# Checks that are a duty of the caller

Some checks guard a component against those who use it: they may fail, and when they do it is the
caller who is to blame. `Blames F Q x` says that in `x` no check outside `F` can fail, and that a
result satisfies `Q`. `Safe` is the case in which nobody is to blame.
-/
namespace Check

variable {φ ψ α β : Type}

/-- Only checks of `F` fail, and a result satisfies `Q`. -/
def Blames (F : φ → Prop) (Q : α → Prop) : Comp φ α → Prop
  | .ok a => Q a
  | .error .disabled => True
  | .error (.fault f) => F f

variable {F : φ → Prop}

@[simp] theorem blames_ok (Q : α → Prop) (a : α) : Blames F Q (.ok a : Comp φ α) ↔ Q a := Iff.rfl

@[simp] theorem blames_pure (Q : α → Prop) (a : α) : Blames F Q (pure a : Comp φ α) ↔ Q a := Iff.rfl

@[simp] theorem blames_disabled (Q : α → Prop) : Blames F Q (.error .disabled : Comp φ α) := trivial

@[simp] theorem blames_fault (Q : α → Prop) (f : φ) : Blames F Q (.error (.fault f) : Comp φ α) ↔ F f :=
  Iff.rfl

@[simp] theorem blames_bind (Q : β → Prop) (x : Comp φ α) (k : α → Comp φ β) :
    Blames F Q (x >>= k) ↔ Blames F (fun a => Blames F Q (k a)) x := by
  rcases x with (_ | _) | a <;> exact Iff.rfl

@[simp] theorem blames_require (Q : Unit → Prop) (p : Prop) [Decidable p] :
    Blames F Q (require p : Comp φ Unit) ↔ (p → Q ()) := by
  unfold require
  split
  next holds => simp [holds]
  next fails => simp [fails]

@[simp] theorem blames_ensure (Q : Unit → Prop) (f : φ) (p : Prop) [Decidable p] :
    Blames F Q (ensure f p) ↔ (p → Q ()) ∧ (¬ p → F f) := by
  unfold ensure
  split
  next holds => simp [holds]
  next fails => simp [fails]

@[simp] theorem blames_demand (Q : α → Prop) (f : φ) (o : Option α) :
    Blames F Q (demand f o) ↔ (∀ a, o = some a → Q a) ∧ (o = none → F f) := by
  cases o <;> simp [demand]

@[simp] theorem blames_given (Q : α → Prop) (o : Option α) :
    Blames F Q (given o : Comp φ α) ↔ ∀ a, o = some a → Q a := by
  cases o <;> simp [given]

@[simp] theorem blames_lift {G : ψ → Prop} (Q : α → Prop) (g : φ → ψ) (x : Comp φ α) :
    Blames G Q (lift g x) ↔ Blames (fun f => G (g f)) Q x := by
  rcases x with (_ | _) | a <;> exact Iff.rfl

theorem Blames.mono {P Q : α → Prop} {x : Comp φ α} (blames : Blames F P x) (weaker : ∀ a, P a → Q a) :
    Blames F Q x := by
  rcases x with (_ | _) | a
  · trivial
  · exact blames
  · exact weaker a blames

theorem Blames.result {Q : α → Prop} {x : Comp φ α} {a : α} (blames : Blames F Q x) (returned : x = .ok a) :
    Q a := by
  subst returned
  exact blames

theorem Blames.fault {Q : α → Prop} {x : Comp φ α} {f : φ} (blames : Blames F Q x)
    (failed : x = .error (.fault f)) : F f := by
  subst failed
  exact blames

theorem Safe.blames {Q : α → Prop} {x : Comp φ α} (safe : Safe Q x) : Blames F Q x := by
  rcases x with (_ | _) | a
  · trivial
  · exact False.elim safe
  · exact safe

end Check

namespace Run

open Check

variable {φ σ α : Type} {step : σ → α → Comp φ σ}

/-- What every step keeps is kept by every run, and a run that fails does so in a check of `F`. -/
theorem exec_blames {F : φ → Prop} {Inv : σ → Prop} (preserved : ∀ s a, Inv s → Blames F Inv (step s a))
    (s : σ) (acts : List α) (initial : Inv s) : Blames F Inv (exec step s acts) := by
  induction acts generalizing s with
  | nil => exact initial
  | cons a rest ih =>
    rw [exec, blames_bind]
    exact (preserved s a initial).mono fun t kept => ih t kept

end Run
