import Mathlib.Data.List.Basic

/-!
# Programs that change a state and may stop early

`EStateM ε σ α` is a state-passing program that either returns a value or stops with an error, and
keeps the state it had reached in both cases: an error does not undo what was done before it. This
is the behaviour of imperative code that returns on the first failing call.

`Spec P p Q E` is the triple for such programs, with one postcondition for a normal return and one
for an early stop. The rules below follow the shape of a program: sequencing, branching, and the
left fold that models a loop with an accumulator.
-/

namespace Effect

variable {ε σ α β : Type} {P J : σ → Prop} {p : EStateM ε σ α} {f : α → EStateM ε σ β}
  {Q Q' : α → σ → Prop} {R : β → σ → Prop} {E E' : σ → Prop} {s s' : σ} {a : α}

/-- Started in a state with `P`, the program returns a value and a state related by `Q`, or stops
early in a state with `E`. -/
def Spec (P : σ → Prop) (p : EStateM ε σ α) (Q : α → σ → Prop) (E : σ → Prop) : Prop :=
  ∀ s, P s → match p s with
    | .ok a s' => Q a s'
    | .error _ s' => E s'

/-- A return, read off a triple. -/
theorem Spec.ok (h : Spec P p Q E) (hs : P s) (hp : p s = .ok a s') : Q a s' := by
  have := h s hs
  rw [hp] at this
  exact this

/-- An early stop, read off a triple. -/
theorem Spec.error {e : ε} (h : Spec P p Q E) (hs : P s) (hp : p s = .error e s') : E s' := by
  have := h s hs
  rw [hp] at this
  exact this

theorem Spec.mono (h : Spec P p Q E) (hQ : ∀ a s, Q a s → Q' a s) (hE : ∀ s, E s → E' s) :
    Spec P p Q' E' := by
  intro s hs
  cases hp : p s with
  | ok a s' => exact hQ a s' (h.ok hs hp)
  | error e s' => exact hE s' (h.error hs hp)

/-- A weaker postcondition for a return. -/
theorem Spec.post (h : Spec P p Q E) (hQ : ∀ a s, Q a s → Q' a s) : Spec P p Q' E :=
  h.mono hQ fun _ hE => hE

/-- A triple for one of its initial states. -/
theorem Spec.start (h : Spec P p Q E) (hs : P s) : Spec (· = s) p Q E := by
  rintro _ rfl
  exact h _ hs

theorem Spec.pure (h : Q a s) : Spec (· = s) (Pure.pure a : EStateM ε σ α) Q E := by
  rintro _ rfl
  exact h

theorem Spec.bind (hp : Spec P p Q E) (hf : ∀ a s, Q a s → Spec (· = s) (f a) R E) :
    Spec P (p >>= f) R E := by
  intro s hs
  show match EStateM.bind p f s with
    | .ok a s' => R a s'
    | .error _ s' => E s'
  unfold EStateM.bind
  cases hps : p s with
  | ok a s' => exact hf a s' (hp.ok hs hps) s' rfl
  | error e s' => exact hp.error hs hps

/-- The state read by `get` is the current one. -/
theorem Spec.get {f : σ → EStateM ε σ β} (h : Spec (· = s) (f s) R E) :
    Spec (· = s) (MonadState.get >>= f) R E := by
  rintro _ rfl
  exact h _ rfl

theorem Spec.modify {g : σ → σ} {f : Unit → EStateM ε σ β} (h : Spec (· = g s) (f ()) R E) :
    Spec (· = s) (modifyGet (fun s => ((), g s)) >>= f) R E := by
  rintro _ rfl
  exact h _ rfl

/-- Branching on a decidable condition. -/
theorem Spec.ite {c : Prop} [Decidable c] {q : EStateM ε σ α} (ht : c → Spec P p Q E)
    (he : ¬c → Spec P q Q E) : Spec P (if c then p else q) Q E := by
  split
  · exact ht ‹_›
  · exact he ‹_›

/-- A loop over `xs` with an accumulator: the invariant speaks of the elements done so far. -/
theorem Spec.foldlM {xs : List α} {f : β → α → EStateM ε σ β} {I : List α → β → σ → Prop} {b : β}
    (init : I [] b s)
    (step : ∀ done x rest b s, xs = done ++ x :: rest → I done b s →
      Spec (· = s) (f b x) (I (done ++ [x])) E) :
    Spec (· = s) (xs.foldlM f b) (I xs) E := by
  suffices h : ∀ (rest done : List α) (b : β) (s : σ), xs = done ++ rest → I done b s →
      Spec (· = s) (rest.foldlM f b) (I xs) E from h xs [] b s rfl init
  intro rest
  induction rest with
  | nil =>
    intro done b s hxs hs
    rw [List.append_nil] at hxs
    exact Spec.pure (hxs ▸ hs)
  | cons x rest ih =>
    intro done b s hxs hs
    rw [List.foldlM_cons]
    exact Spec.bind (step done x rest b s hxs hs) fun b' s' => ih (done ++ [x]) b' s' (by simp [hxs])

/-! ## Programs that keep a property -/

/-- Wherever it stops, the program keeps `J`. -/
def Keeps (J : σ → Prop) (p : EStateM ε σ α) : Prop := Spec J p (fun _ => J) J

theorem Keeps.pure (a : α) : Keeps J (Pure.pure a : EStateM ε σ α) := fun _ h => h

theorem Keeps.bind (hp : Keeps J p) (hf : ∀ a, Keeps J (f a)) : Keeps J (p >>= f) :=
  Spec.bind hp fun a _ hs => (hf a).start hs

end Effect
