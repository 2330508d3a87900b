import Mathlib.Data.List.Infix

/-!
# Runs of a step function

A run starts in a state and takes one action after the other. `Always` says that a property holds in
every state of a run, `Along` that a condition holds at every step of it, judged on the state before
the step. The two rules of this module turn facts about single steps into facts about runs: a property
that every step with the condition preserves is an invariant of the runs that meet the condition, and
if the condition is exactly what preserves the property, then those are the only runs in which it is
never lost.
-/

namespace Runs

variable {σ α : Type} {step : σ → α → σ} {s : σ} {a : α} {as : List α}

/-- The property holds in every state of the run. -/
def Always (step : σ → α → σ) (P : σ → Prop) (s : σ) (as : List α) : Prop :=
  ∀ done, done <+: as → P (done.foldl step s)

/-- The condition holds at every step of the run. -/
def Along (step : σ → α → σ) (C : σ → α → Prop) (s : σ) (as : List α) : Prop :=
  ∀ done a, done ++ [a] <+: as → C (done.foldl step s) a

theorem always_nil {P : σ → Prop} : Always step P s [] ↔ P s := by
  simp [Always, List.prefix_nil]

theorem always_cons {P : σ → Prop} :
    Always step P s (a :: as) ↔ P s ∧ Always step P (step s a) as := by
  constructor
  · intro h
    refine ⟨h [] List.nil_prefix, fun done hdone => ?_⟩
    exact h (a :: done) (List.cons_prefix_cons.mpr ⟨rfl, hdone⟩)
  · rintro ⟨hs, h⟩ done hdone
    cases done with
    | nil => exact hs
    | cons a' done =>
      obtain ⟨rfl, hrest⟩ := List.cons_prefix_cons.mp hdone
      exact h done hrest

theorem along_nil {C : σ → α → Prop} : Along step C s [] := by
  intro done a h
  simp at h

theorem along_cons {C : σ → α → Prop} :
    Along step C s (a :: as) ↔ C s a ∧ Along step C (step s a) as := by
  constructor
  · intro h
    refine ⟨h [] a (by simp), fun done a' hdone => ?_⟩
    exact h (a :: done) a' (List.cons_prefix_cons.mpr ⟨rfl, hdone⟩)
  · rintro ⟨hs, h⟩ done a' hdone
    cases done with
    | nil =>
      obtain ⟨rfl, _⟩ := List.cons_prefix_cons.mp hdone
      exact hs
    | cons a'' done =>
      obtain ⟨rfl, hrest⟩ := List.cons_prefix_cons.mp hdone
      exact h done a' hrest

/-- A condition that can be checked at a step can be checked along a run. -/
instance decidableAlong (step : σ → α → σ) (C : σ → α → Prop) [∀ s a, Decidable (C s a)] :
    (s : σ) → (as : List α) → Decidable (Along step C s as)
  | _, [] => isTrue along_nil
  | s, a :: as =>
    have := decidableAlong step C (step s a) as
    decidable_of_iff (C s a ∧ Along step C (step s a) as) along_cons.symm

/-- What every step that meets the condition preserves holds throughout the run. -/
theorem Along.always {C : σ → α → Prop} {I : σ → Prop}
    (hstep : ∀ s a, I s → C s a → I (step s a)) (h : Along step C s as) (hs : I s) :
    Always step I s as := by
  induction as generalizing s with
  | nil => exact always_nil.mpr hs
  | cons a as ih =>
    obtain ⟨ha, has⟩ := along_cons.mp h
    exact always_cons.mpr ⟨hs, ih has (hstep s a hs ha)⟩

/-- What the condition and an invariant give at a step holds at every step of the run. -/
theorem Along.along {C D : σ → α → Prop} {I : σ → Prop}
    (hstep : ∀ s a, I s → C s a → I (step s a)) (hD : ∀ s a, I s → C s a → D s a)
    (h : Along step C s as) (hs : I s) : Along step D s as := by
  intro done a hdone
  have hI := h.always hstep hs done ((List.prefix_append done [a]).trans hdone)
  exact hD _ a hI (h done a hdone)

theorem Always.mono {P Q : σ → Prop} (h : Always step P s as) (hPQ : ∀ s, P s → Q s) :
    Always step Q s as :=
  fun done hdone => hPQ _ (h done hdone)

/-- If a step preserves the property exactly when it meets the condition, then the property is never
lost in exactly the runs that meet the condition. -/
theorem always_iff_along {C : σ → α → Prop} {P : σ → Prop}
    (hstep : ∀ s a, P s → (P (step s a) ↔ C s a)) (hs : P s) :
    Always step P s as ↔ Along step C s as := by
  refine ⟨fun h => ?_, fun h => h.always (fun s a hs ha => (hstep s a hs).mpr ha) hs⟩
  induction as generalizing s with
  | nil => exact along_nil
  | cons a as ih =>
    have hnext : P (step s a) := h [a] (by simp)
    exact along_cons.mpr ⟨(hstep s a hs).mp hnext, ih hnext (always_cons.mp h).2⟩

end Runs
