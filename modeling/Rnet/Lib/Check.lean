import Mathlib

/-!
# Checked computations

A computation stops before its end for one of two reasons: the step is not possible in the
present state, or a check inside it fails. `Safe Q x` says that no check of `x` fails and
that its result, if it has one, satisfies `Q`. The rules below compute `Safe` along the
structure of a computation, so that a proof about a function splits as the function does.
-/
namespace Check

/-- Why a computation has no result. -/
inductive Halt (φ : Type) where
  | disabled
  | fault (f : φ)
  deriving DecidableEq, Repr

abbrev Comp (φ α : Type) := Except (Halt φ) α

variable {φ ψ α β : Type}

/-- The computation is possible only where `p` holds. -/
def require (p : Prop) [Decidable p] : Comp φ Unit :=
  if p then .ok () else .error .disabled

/-- The computation checks `p` and fails with `f` where it does not hold. -/
def ensure (f : φ) (p : Prop) [Decidable p] : Comp φ Unit :=
  if p then .ok () else .error (.fault f)

/-- The value of an option that has to be there. -/
def demand (f : φ) : Option α → Comp φ α
  | some a => .ok a
  | none => .error (.fault f)

/-- The value of an option without which the step is not possible. -/
def given : Option α → Comp φ α
  | some a => .ok a
  | none => .error .disabled

/-- The computation of a part of a system: a check that fails in it is a check of the system. -/
def lift (g : φ → ψ) : Comp φ α → Comp ψ α
  | .ok a => .ok a
  | .error .disabled => .error .disabled
  | .error (.fault f) => .error (.fault (g f))

/-- No check fails, and a result satisfies `Q`. -/
def Safe (Q : α → Prop) : Comp φ α → Prop
  | .ok a => Q a
  | .error .disabled => True
  | .error (.fault _) => False

@[simp] theorem safe_ok (Q : α → Prop) (a : α) : Safe Q (.ok a : Comp φ α) ↔ Q a := Iff.rfl

@[simp] theorem safe_pure (Q : α → Prop) (a : α) : Safe Q (pure a : Comp φ α) ↔ Q a := Iff.rfl

@[simp] theorem safe_disabled (Q : α → Prop) : Safe Q (.error .disabled : Comp φ α) := trivial

@[simp] theorem safe_fault (Q : α → Prop) (f : φ) : ¬ Safe Q (.error (.fault f) : Comp φ α) :=
  id

@[simp] theorem safe_bind (Q : β → Prop) (x : Comp φ α) (k : α → Comp φ β) :
    Safe Q (x >>= k) ↔ Safe (fun a => Safe Q (k a)) x := by
  rcases x with (_ | _) | a <;> exact Iff.rfl

theorem safe_map {Q : β → Prop} {x : Comp φ α} {f : α → β} : Safe Q (f <$> x) ↔ Safe (fun a => Q (f a)) x := by
  rcases x with (_ | _) | _ <;> exact Iff.rfl

@[simp] theorem safe_require (Q : Unit → Prop) (p : Prop) [Decidable p] :
    Safe Q (require p : Comp φ Unit) ↔ (p → Q ()) := by
  unfold require
  split
  next holds => simp [holds]
  next fails => simp [fails]

@[simp] theorem safe_ensure (Q : Unit → Prop) (f : φ) (p : Prop) [Decidable p] :
    Safe Q (ensure f p) ↔ p ∧ Q () := by
  unfold ensure
  split
  next holds => simp [holds]
  next fails => simp [fails]

@[simp] theorem safe_demand (Q : α → Prop) (f : φ) (o : Option α) :
    Safe Q (demand f o) ↔ ∃ a, o = some a ∧ Q a := by
  cases o <;> simp [demand]

@[simp] theorem safe_given (Q : α → Prop) (o : Option α) :
    Safe Q (given o : Comp φ α) ↔ ∀ a, o = some a → Q a := by
  cases o <;> simp [given]

@[simp] theorem safe_lift (Q : α → Prop) (g : φ → ψ) (x : Comp φ α) :
    Safe Q (lift g x) ↔ Safe Q x := by
  rcases x with (_ | _) | a <;> exact Iff.rfl

theorem Safe.mono {P Q : α → Prop} {x : Comp φ α} (safe : Safe P x) (weaker : ∀ a, P a → Q a) :
    Safe Q x := by
  rcases x with (_ | _) | a
  · trivial
  · exact safe
  · exact weaker a safe

/-- The rule for a sequence whose first part is known only by its specification. -/
theorem Safe.bind {P : α → Prop} {Q : β → Prop} {x : Comp φ α} {k : α → Comp φ β}
    (first : Safe P x) (rest : ∀ a, P a → Safe Q (k a)) : Safe Q (x >>= k) :=
  (safe_bind Q x k).mpr (first.mono rest)

theorem Safe.result {Q : α → Prop} {x : Comp φ α} {a : α} (safe : Safe Q x) (returned : x = .ok a) :
    Q a := by
  subst returned
  exact safe

/-- Where no check fails, it is enough to look at the result. -/
theorem Safe.of_result {P Q : α → Prop} {x : Comp φ α} (safe : Safe P x) (holds : ∀ a, x = .ok a → Q a) :
    Safe Q x := by
  rcases x with (_ | _) | a
  · trivial
  · exact safe
  · exact holds a rfl

theorem Safe.no_fault {Q : α → Prop} {x : Comp φ α} (safe : Safe Q x) (f : φ) :
    x ≠ .error (.fault f) := by
  rintro rfl
  exact safe

/-! ### Computations that returned -/

theorem bind_eq_ok {x : Comp φ α} {k : α → Comp φ β} {b : β} :
    x >>= k = .ok b ↔ ∃ a, x = .ok a ∧ k a = .ok b := by
  cases x with
  | error halt => exact ⟨nofun, fun ⟨_, returned, _⟩ => by cases returned⟩
  | ok a => exact ⟨fun returned => ⟨a, rfl, returned⟩, fun ⟨_, same, returned⟩ => Except.ok.inj same ▸ returned⟩

theorem given_eq_ok {o : Option α} {a : α} : (given o : Comp φ α) = .ok a ↔ o = some a := by
  cases o <;> simp [given]

theorem demand_eq_ok {f : φ} {o : Option α} {a : α} : demand f o = .ok a ↔ o = some a := by
  cases o <;> simp [demand]

/-- Evaluating a function of the result also shows that there is one. -/
theorem returned_of_map {x : Comp φ α} {f : α → β} {b : β} (evaluated : x.toOption.map f = some b) :
    ∃ a, x = .ok a ∧ f a = b := by
  cases x with
  | error _ => cases evaluated
  | ok a => exact ⟨a, rfl, Option.some.inj evaluated⟩

/-- Why a computation stopped, if it did. -/
def halt? : Comp φ α → Option (Halt φ)
  | .ok _ => none
  | .error halt => some halt

theorem error_of_halt? {x : Comp φ α} {halt : Halt φ} (stopped : halt? x = some halt) :
    x = .error halt := by
  cases x with
  | ok _ => cases stopped
  | error _ => rw [Option.some.inj stopped]

/-- A result, if there is one, satisfies `Q`; nothing is said about checks that fail. -/
def Yields (Q : α → Prop) (x : Comp φ α) : Prop := ∀ a, x = .ok a → Q a

@[simp] theorem yields_ok (Q : α → Prop) (a : α) : Yields Q (.ok a : Comp φ α) ↔ Q a :=
  ⟨fun yields => yields a rfl, fun holds _ same => Except.ok.inj same ▸ holds⟩

@[simp] theorem yields_pure (Q : α → Prop) (a : α) : Yields Q (pure a : Comp φ α) ↔ Q a :=
  yields_ok Q a

@[simp] theorem yields_error (Q : α → Prop) (halt : Halt φ) : Yields Q (.error halt : Comp φ α) :=
  nofun

@[simp] theorem yields_bind (Q : β → Prop) (x : Comp φ α) (k : α → Comp φ β) :
    Yields Q (x >>= k) ↔ Yields (fun a => Yields Q (k a)) x := by
  constructor
  · intro yields a returned b continued
    exact yields b (bind_eq_ok.mpr ⟨a, returned, continued⟩)
  · intro yields b returned
    obtain ⟨a, first, continued⟩ := bind_eq_ok.mp returned
    exact yields a first b continued

@[simp] theorem yields_require (Q : Unit → Prop) (p : Prop) [Decidable p] :
    Yields Q (require p : Comp φ Unit) ↔ (p → Q ()) := by
  unfold require
  split
  next holds => simp [holds]
  next fails => simp [fails]

@[simp] theorem yields_ensure (Q : Unit → Prop) (f : φ) (p : Prop) [Decidable p] :
    Yields Q (ensure f p) ↔ (p → Q ()) := by
  unfold ensure
  split
  next holds => simp [holds]
  next fails => simp [fails]

@[simp] theorem yields_demand (Q : α → Prop) (f : φ) (o : Option α) :
    Yields Q (demand f o) ↔ ∀ a, o = some a → Q a := by
  cases o <;> simp [demand]

@[simp] theorem yields_lift (Q : α → Prop) (g : φ → ψ) (x : Comp φ α) :
    Yields Q (lift g x) ↔ Yields Q x := by
  rcases x with (_ | _) | a
  · simp [lift]
  · simp [lift]
  · simp [lift]

theorem Yields.mono {P Q : α → Prop} {x : Comp φ α} (yields : Yields P x)
    (weaker : ∀ a, P a → Q a) : Yields Q x :=
  fun a returned => weaker a (yields a returned)

theorem Yields.bind {P : α → Prop} {Q : β → Prop} {x : Comp φ α} {k : α → Comp φ β}
    (first : Yields P x) (rest : ∀ a, P a → Yields Q (k a)) : Yields Q (x >>= k) :=
  (yields_bind Q x k).mpr (first.mono rest)

theorem Safe.yields {Q : α → Prop} {x : Comp φ α} (safe : Safe Q x) : Yields Q x :=
  fun _ returned => safe.result returned

theorem Safe.and {P Q : α → Prop} {x : Comp φ α} (safe : Safe P x) (yields : Yields Q x) :
    Safe (fun a => P a ∧ Q a) x := by
  rcases x with (_ | _) | a
  · trivial
  · exact safe
  · exact ⟨safe, yields a rfl⟩

/-! ### Computations that always have a result -/

/-- The computation has a result, and the result satisfies `Q`. -/
def Returns (Q : α → Prop) : Comp φ α → Prop
  | .ok a => Q a
  | .error _ => False

@[simp] theorem returns_ok (Q : α → Prop) (a : α) : Returns Q (.ok a : Comp φ α) ↔ Q a := Iff.rfl

@[simp] theorem returns_pure (Q : α → Prop) (a : α) : Returns Q (pure a : Comp φ α) ↔ Q a := Iff.rfl

@[simp] theorem returns_bind (Q : β → Prop) (x : Comp φ α) (k : α → Comp φ β) :
    Returns Q (x >>= k) ↔ Returns (fun a => Returns Q (k a)) x := by
  cases x <;> exact Iff.rfl

@[simp] theorem returns_require (Q : Unit → Prop) (p : Prop) [Decidable p] :
    Returns Q (require p : Comp φ Unit) ↔ p ∧ Q () := by
  unfold require
  split
  next holds => simp [holds]
  next fails => simp [fails, Returns]

@[simp] theorem returns_ensure (Q : Unit → Prop) (f : φ) (p : Prop) [Decidable p] :
    Returns Q (ensure f p) ↔ p ∧ Q () := by
  unfold ensure
  split
  next holds => simp [holds]
  next fails => simp [fails, Returns]

@[simp] theorem returns_lift (Q : α → Prop) (g : φ → ψ) (x : Comp φ α) :
    Returns Q (lift g x) ↔ Returns Q x := by
  rcases x with (_ | _) | a <;> exact Iff.rfl

theorem Returns.mono {P Q : α → Prop} {x : Comp φ α} (returns : Returns P x)
    (weaker : ∀ a, P a → Q a) : Returns Q x := by
  cases x with
  | error _ => exact returns
  | ok a => exact weaker a returns

theorem Returns.bind {P : α → Prop} {Q : β → Prop} {x : Comp φ α} {k : α → Comp φ β}
    (first : Returns P x) (rest : ∀ a, P a → Returns Q (k a)) : Returns Q (x >>= k) :=
  (returns_bind Q x k).mpr (first.mono rest)

theorem Returns.safe {Q : α → Prop} {x : Comp φ α} (returns : Returns Q x) : Safe Q x := by
  cases x with
  | error _ => exact False.elim returns
  | ok a => exact returns

theorem Returns.exists {Q : α → Prop} {x : Comp φ α} (returns : Returns Q x) :
    ∃ a, x = .ok a ∧ Q a := by
  cases x with
  | error _ => exact False.elim returns
  | ok a => exact ⟨a, rfl, returns⟩

theorem Returns.eq_ok {x : Comp φ α} {b : α} (returns : Returns (fun a => a = b) x) : x = .ok b := by
  cases x with
  | error _ => exact False.elim returns
  | ok a => exact congrArg Except.ok returns

/-- No precondition holds the computation back. -/
def Enabled (x : Comp φ α) : Prop := x ≠ .error .disabled

@[simp] theorem enabled_ok (a : α) : Enabled (.ok a : Comp φ α) := nofun

@[simp] theorem enabled_pure (a : α) : Enabled (pure a : Comp φ α) := nofun

@[simp] theorem enabled_ensure (f : φ) (p : Prop) [Decidable p] : Enabled (ensure f p) := by
  unfold ensure
  split <;> nofun

@[simp] theorem enabled_demand (f : φ) (o : Option α) : Enabled (demand f o) := by
  cases o <;> nofun

theorem Enabled.bind {x : Comp φ α} {k : α → Comp φ β} (first : Enabled x) (rest : ∀ a, Enabled (k a)) :
    Enabled (x >>= k) := by
  cases x with
  | error halt => exact fun same => first (congrArg Except.error (Except.error.inj same))
  | ok a => exact rest a

theorem Safe.returns {Q : α → Prop} {x : Comp φ α} (safe : Safe Q x) (enabled : Enabled x) : Returns Q x := by
  rcases x with (_ | _) | _
  · exact absurd rfl enabled
  · exact safe
  · exact safe

/-- The result of a computation that has one. -/
def result {Q : α → Prop} : (x : Comp φ α) → Returns Q x → α
  | .ok a, _ => a

theorem result_spec {Q : α → Prop} (x : Comp φ α) (returns : Returns Q x) :
    Q (result x returns) := by
  cases x with
  | error _ => exact False.elim returns
  | ok a => exact returns

theorem result_eq {Q : α → Prop} (x : Comp φ α) (returns : Returns Q x) : x = .ok (result x returns) := by
  cases x with
  | error _ => exact False.elim returns
  | ok a => rfl

end Check
