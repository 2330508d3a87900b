import Mathlib.Data.Nat.Notation

/-!
# Programs that call on a shared object

A program is a tree of calls: it has returned, or it makes a call and goes on with what the call
returns. What the object is, and who else uses it between two calls, is not part of the program, so that
one program can be run on a store, on a replica of it, or step by step beside other writers.
-/

namespace Vrata

inductive Program (C : Type) (R : C → Type) (α : Type) where
  | done (a : α)
  | call (c : C) (next : R c → Program C R α)

namespace Program

variable {C : Type} {R : C → Type} {α β σ : Type}

def bind : Program C R α → (α → Program C R β) → Program C R β
  | done a, f => f a
  | call c next, f => call c fun r => (next r).bind f

instance : Monad (Program C R) where
  pure := done
  bind := bind

/-- The program that makes one call and returns what it returns. -/
def ask (c : C) : Program C R (R c) := call c done

/-- The run on an object with nothing between the calls. -/
def run (exec : (c : C) → σ → R c × σ) : Program C R α → σ → α × σ
  | done a, s => (a, s)
  | call c next, s => (next (exec c s).1).run exec (exec c s).2

variable (exec : (c : C) → σ → R c × σ)

@[simp]
theorem run_pure (a : α) (s : σ) : run exec (pure a : Program C R α) s = (a, s) := rfl

@[simp]
theorem run_ask_bind (c : C) (f : R c → Program C R β) (s : σ) :
    run exec (ask c >>= f) s = run exec (f (exec c s).1) (exec c s).2 := rfl

@[simp]
theorem run_bind (p : Program C R α) (f : α → Program C R β) (s : σ) :
    run exec (p >>= f) s = run exec (f (run exec p s).1) (run exec p s).2 := by
  induction p generalizing s with
  | done a => rfl
  | call c next ih => exact ih _ _

/-- A program that can fail stops at its first error. -/
theorem run_exceptT_bind {ε : Type} (x : ExceptT ε (Program C R) α) (f : α → ExceptT ε (Program C R) β)
    (s : σ) :
    run exec (x >>= f).run s =
      match run exec x.run s with
      | (.ok a, s') => run exec (f a).run s'
      | (.error e, s') => (.error e, s') := by
  rw [ExceptT.run_bind, run_bind]
  rcases run exec x.run s with ⟨e | a, s'⟩
  · rfl
  · rfl

/-! ## The calls of a program -/

/-- Every call that the program can make has the property. -/
def All (P : C → Prop) : Program C R α → Prop
  | done _ => True
  | call c next => P c ∧ ∀ r, (next r).All P

variable {P : C → Prop}

theorem All.ask {c : C} (h : P c) : (ask c : Program C R (R c)).All P := ⟨h, fun _ => trivial⟩

theorem All.bind {p : Program C R α} {f : α → Program C R β} (hp : p.All P) (hf : ∀ a, (f a).All P) :
    (p >>= f).All P := by
  induction p with
  | done a => exact hf a
  | call c next ih => exact ⟨hp.1, fun r => ih r (hp.2 r)⟩

/-! ## Fixed answers -/

/-- The result when the calls have fixed answers. -/
def eval (ans : (c : C) → R c) : Program C R α → α
  | done a => a
  | call c next => (next (ans c)).eval ans

/-- Every call has the property at its place in the run; the first one is at place `n`. -/
def AllAt (P : ℕ → C → Prop) : ℕ → Program C R α → Prop
  | _, done _ => True
  | n, call c next => P n c ∧ ∀ r, (next r).AllAt P (n + 1)

theorem All.allAt {Q : ℕ → C → Prop} {n : ℕ} {p : Program C R α} (hp : p.All P)
    (h : ∀ m c, n ≤ m → P c → Q m c) : p.AllAt Q n := by
  induction p generalizing n with
  | done a => exact trivial
  | call c next ih =>
    refine ⟨h n c (Nat.le_refl n) hp.1, fun r => ih r (hp.2 r) fun m c hm => ?_⟩
    exact h m c (Nat.le_of_succ_le hm)

end Program

end Vrata
