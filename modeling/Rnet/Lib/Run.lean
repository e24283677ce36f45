import Rnet.Lib.Check

/-!
# Runs of a step function

`exec` takes a list of actions one after another. `Meets` says that every action of the list
is taken in a state in which `ok` allows it; the rules below turn what one allowed step
preserves into what holds after every run.
-/
namespace Run

open Check

variable {φ σ α : Type}

def exec (step : σ → α → Comp φ σ) : σ → List α → Comp φ σ
  | s, [] => .ok s
  | s, a :: rest => step s a >>= fun t => exec step t rest

/-- Each action is allowed by `ok` in the state in which it is taken. -/
def Meets (step : σ → α → Comp φ σ) (ok : σ → α → Prop) : σ → List α → Prop
  | _, [] => True
  | s, a :: rest => ok s a ∧ match step s a with
      | .ok t => Meets step ok t rest
      | .error _ => True

instance Meets.decidable (step : σ → α → Comp φ σ) (ok : σ → α → Prop)
    [allowed : ∀ s a, Decidable (ok s a)] : ∀ s acts, Decidable (Meets step ok s acts)
  | _, [] => inferInstanceAs (Decidable True)
  | s, a :: rest =>
    have tail : Decidable (match step s a with
        | .ok t => Meets step ok t rest
        | .error _ => True) :=
      match step s a with
      | .ok t => Meets.decidable step ok t rest
      | .error _ => inferInstanceAs (Decidable True)
    @instDecidableAnd _ _ (allowed s a) tail

variable {step : σ → α → Comp φ σ} {ok : σ → α → Prop}

theorem exec_single (s : σ) (a : α) : exec step s [a] = step s a := bind_pure (step s a)

theorem exec_cons {s t : σ} {a : α} (taken : step s a = .ok t) (rest : List α) :
    exec step s (a :: rest) = exec step t rest := by
  rw [exec, taken]
  rfl

theorem exec_append (s : σ) (first second : List α) :
    exec step s (first ++ second) = exec step s first >>= fun t => exec step t second := by
  induction first generalizing s with
  | nil => rfl
  | cons a rest ih =>
    simp only [List.cons_append, exec]
    cases step s a with
    | error _ => rfl
    | ok t => exact ih t

theorem meets_of_forall (s : σ) (acts : List α) (allowed : ∀ s, ∀ a ∈ acts, ok s a) :
    Meets step ok s acts := by
  induction acts generalizing s with
  | nil => trivial
  | cons a rest ih =>
    refine ⟨allowed s a List.mem_cons_self, ?_⟩
    cases step s a with
    | error _ => trivial
    | ok t => exact ih t fun s b member => allowed s b (List.mem_cons_of_mem a member)

/-- A condition that is met may be exchanged for one that it implies in the states of the run. -/
theorem Meets.imp {ok' : σ → α → Prop} {Inv : σ → Prop}
    (preserved : ∀ s a t, Inv s → ok s a → step s a = .ok t → Inv t)
    (implies : ∀ s a, Inv s → ok s a → ok' s a) (s : σ) (acts : List α) (initial : Inv s)
    (meets : Meets step ok s acts) : Meets step ok' s acts := by
  induction acts generalizing s with
  | nil => trivial
  | cons a rest ih =>
    refine ⟨implies s a initial meets.1, ?_⟩
    have later := meets.2
    cases taken : step s a with
    | error _ => trivial
    | ok t =>
      rw [taken] at later
      exact ih t (preserved s a t initial meets.1 taken) later

/-- What every allowed step preserves holds after every run of allowed steps, and no check
fails on the way. -/
theorem exec_safe {Inv : σ → Prop} (preserved : ∀ s a, Inv s → ok s a → Safe Inv (step s a))
    (s : σ) (acts : List α) (initial : Inv s) (meets : Meets step ok s acts) :
    Safe Inv (exec step s acts) := by
  induction acts generalizing s with
  | nil => exact initial
  | cons a rest ih =>
    have once := preserved s a initial meets.1
    have later := meets.2
    simp only [exec]
    cases taken : step s a with
    | error halt =>
      rw [taken] at once
      cases halt with
      | disabled => trivial
      | fault f => exact once
    | ok t =>
      rw [taken] at once later
      exact ih t once later

/-- The rule for steps some of which may fail: it speaks of the runs that get through. -/
theorem exec_keeps {Inv : σ → Prop} (preserved : ∀ s a t, Inv s → ok s a → step s a = .ok t → Inv t)
    (s t : σ) (acts : List α) (initial : Inv s) (meets : Meets step ok s acts)
    (reached : exec step s acts = .ok t) : Inv t := by
  induction acts generalizing s with
  | nil =>
    obtain rfl : s = t := Except.ok.inj reached
    exact initial
  | cons a rest ih =>
    have later := meets.2
    simp only [exec] at reached
    cases taken : step s a with
    | error _ => rw [taken] at reached; cases reached
    | ok s' =>
      rw [taken] at later reached
      exact ih s' (preserved s a s' initial meets.1 taken) later reached

/-- The same for steps that need no permission. -/
theorem exec_keeps_all {Inv : σ → Prop} (preserved : ∀ s a t, Inv s → step s a = .ok t → Inv t)
    (s t : σ) (acts : List α) (initial : Inv s) (reached : exec step s acts = .ok t) : Inv t := by
  have allowed : Meets step (fun _ _ => True) s acts := meets_of_forall s acts fun _ _ _ => trivial
  exact exec_keeps (fun s a t inv _ taken => preserved s a t inv taken) s t acts initial allowed reached

/-- The rule for steps that need no permission. -/
theorem exec_safe_all {Inv : σ → Prop} (preserved : ∀ s a, Inv s → Safe Inv (step s a))
    (s : σ) (acts : List α) (initial : Inv s) : Safe Inv (exec step s acts) := by
  induction acts generalizing s with
  | nil => exact initial
  | cons a rest ih =>
    exact Safe.bind (preserved s a initial) fun t kept => ih t kept

/-- Simulation: where every allowed step returns and is matched by a step of `spec`, every run of
allowed steps returns, in a state that matches the run of `spec`. -/
theorem exec_refines {τ : Type} {R : σ → τ → Prop} {spec : τ → α → τ}
    (simulated : ∀ s t a, R s t → ok s a → Returns (fun s' => R s' (spec t a)) (step s a))
    (s : σ) (t : τ) (acts : List α) (initial : R s t) (meets : Meets step ok s acts) :
    Returns (fun s' => R s' (acts.foldl spec t)) (exec step s acts) := by
  induction acts generalizing s t with
  | nil => exact initial
  | cons a rest ih =>
    have once := simulated s t a initial meets.1
    have later := meets.2
    simp only [exec]
    cases taken : step s a with
    | error _ => rw [taken] at once; exact once
    | ok s' =>
      rw [taken] at once later
      exact ih s' (spec t a) once later

/-! ### What each step of a run does -/

/-- Every step of the run returns, and `R` relates the states around it. -/
def Each (step : σ → α → Comp φ σ) (R : σ → α → σ → Prop) : σ → List α → Prop
  | _, [] => True
  | s, a :: rest => ∃ t, step s a = .ok t ∧ R s a t ∧ Each step R t rest

theorem each_of_step {Inv : σ → Prop} {R : σ → α → σ → Prop}
    (related : ∀ s a, Inv s → ok s a → Returns (fun t => Inv t ∧ R s a t) (step s a))
    (s : σ) (acts : List α) (initial : Inv s) (meets : Meets step ok s acts) : Each step R s acts := by
  induction acts generalizing s with
  | nil => trivial
  | cons a rest ih =>
    obtain ⟨t, taken, inv, holds⟩ := (related s a initial meets.1).exists
    have later := meets.2
    rw [taken] at later
    exact ⟨t, taken, holds, ih t inv later⟩

/-- Where `ok` is exactly the condition for a step to return and to be related by `R`. -/
theorem each_iff_meets {R : σ → α → σ → Prop} (agree : ∀ s a, (∃ t, step s a = .ok t ∧ R s a t) ↔ ok s a)
    (s : σ) (acts : List α) : Each step R s acts ↔ Meets step ok s acts := by
  induction acts generalizing s with
  | nil => exact Iff.rfl
  | cons a rest ih =>
    constructor
    · rintro ⟨t, taken, holds, later⟩
      refine ⟨(agree s a).mp ⟨t, taken, holds⟩, ?_⟩
      rw [taken]
      exact (ih t).mp later
    · rintro ⟨allowed, later⟩
      obtain ⟨t, taken, holds⟩ := (agree s a).mpr allowed
      rw [taken] at later
      exact ⟨t, taken, holds, (ih t).mpr later⟩

/-- The step taken after `first`. -/
theorem Each.step_at {R : σ → α → σ → Prop} {s s' t : σ} {first : List α} {a : α} {rest : List α}
    (each : Each step R s (first ++ a :: rest)) (reached : exec step s first = .ok s')
    (taken : step s' a = .ok t) : R s' a t ∧ Each step R t rest := by
  induction first generalizing s with
  | nil =>
    obtain rfl : s = s' := Except.ok.inj reached
    obtain ⟨u, returned, holds, later⟩ := each
    obtain rfl : u = t := Except.ok.inj (returned.symm.trans taken)
    exact ⟨holds, later⟩
  | cons b first ih =>
    obtain ⟨u, returned, _, later⟩ := each
    rw [exec_cons returned] at reached
    exact ih later reached

end Run
