import Mathlib.Logic.Function.Basic

/-!
# Multi-valued maps

Maps from keys to lists of values, where a key without values counts as absent, and sequences of the
three operations on them: replace all values of a key, append one, delete the key.

What a sequence of operations does to one key is an `Effect`: it keeps or drops the old values, and
puts new ones after them. Two sequences do the same to every map if and only if they have the same
effect on every key (`applyAll_eq_iff`).
-/

namespace Multimap

variable {K V : Type}

inductive Op (K V : Type) where
  | set (k : K) (v : V)
  | add (k : K) (v : V)
  | del (k : K)

/-- What becomes of the values of one key. -/
structure Effect (V : Type) where
  replaces : Bool
  values : List V
deriving DecidableEq

namespace Effect

def run (e : Effect V) (old : List V) : List V := (if e.replaces then [] else old) ++ e.values

/-- Nothing happens to the key. -/
def keep : Effect V := ⟨false, []⟩

/-- One effect after the other. -/
def andThen (e e' : Effect V) : Effect V :=
  ⟨e.replaces || e'.replaces, (if e'.replaces then [] else e.values) ++ e'.values⟩

@[simp] theorem run_keep (old : List V) : keep.run old = old := List.append_nil old

@[simp] theorem keep_andThen (e : Effect V) : keep.andThen e = e := by
  cases e with
  | mk replaces values => cases replaces <;> rfl

@[simp] theorem andThen_keep (e : Effect V) : e.andThen keep = e := by
  simp [andThen, keep]

/-- After an effect that drops the old values, it makes no difference what was done before. -/
theorem andThen_of_replaces (e : Effect V) {e' : Effect V} (h : e'.replaces = true) :
    e.andThen e' = e' := by
  cases e' with
  | mk replaces values =>
    obtain rfl : replaces = true := h
    simp [andThen]

theorem andThen_assoc (e₁ e₂ e₃ : Effect V) :
    (e₁.andThen e₂).andThen e₃ = e₁.andThen (e₂.andThen e₃) := by
  cases h₂ : e₂.replaces <;> cases h₃ : e₃.replaces <;> simp [andThen, h₂, h₃]

theorem run_andThen (e e' : Effect V) (old : List V) :
    (e.andThen e').run old = e'.run (e.run old) := by
  cases h : e.replaces <;> cases h' : e'.replaces <;> simp [run, andThen, h, h']

/-- An effect is known by what it does to values. -/
theorem run_inj [Inhabited V] {e e' : Effect V} : (∀ old, e.run old = e'.run old) ↔ e = e' := by
  constructor
  · intro h
    have hvalues : e.values = e'.values := by
      have hnil := h []
      simpa [run] using hnil
    have hreplaces : e.replaces = e'.replaces := by
      -- one old value shows whether old values are dropped
      have hone := congrArg List.length (h [default])
      cases he : e.replaces <;> cases he' : e'.replaces <;>
        simp [run, he, he', hvalues] at hone ⊢
    cases e
    cases e'
    simp_all
  · rintro rfl old
    rfl

end Effect

section Sequences

variable [DecidableEq K]

def Op.apply (h : K → List V) : Op K V → K → List V
  | .set k v => Function.update h k [v]
  | .add k v => Function.update h k (h k ++ [v])
  | .del k => Function.update h k []

/-- What an operation does to a key. -/
def Op.effect (key : K) : Op K V → Effect V
  | .set k v => if k = key then ⟨true, [v]⟩ else .keep
  | .add k v => if k = key then ⟨false, [v]⟩ else .keep
  | .del k => if k = key then ⟨true, []⟩ else .keep

theorem Op.apply_apply (h : K → List V) (op : Op K V) (key : K) :
    op.apply h key = (op.effect key).run (h key) := by
  cases op with
  | set k v | add k v =>
    by_cases hk : k = key
    · subst hk
      simp [apply, effect, Effect.run]
    · simp [apply, effect, hk, Function.update_of_ne (Ne.symm hk)]
  | del k =>
    by_cases hk : k = key
    · subst hk
      simp [apply, effect, Effect.run]
    · simp [apply, effect, hk, Function.update_of_ne (Ne.symm hk)]

/-- The operations one after the other. -/
def applyAll (ops : List (Op K V)) (h : K → List V) : K → List V := ops.foldl Op.apply h

/-- What the operations together do to a key. -/
def effect (key : K) : List (Op K V) → Effect V
  | [] => .keep
  | op :: ops => (op.effect key).andThen (effect key ops)

theorem applyAll_append (ops ops' : List (Op K V)) (h : K → List V) :
    applyAll (ops ++ ops') h = applyAll ops' (applyAll ops h) :=
  List.foldl_append

theorem applyAll_apply (ops : List (Op K V)) (h : K → List V) (key : K) :
    applyAll ops h key = (effect key ops).run (h key) := by
  induction ops generalizing h with
  | nil => simp [applyAll, effect]
  | cons op ops ih =>
    rw [applyAll, List.foldl_cons]
    exact (ih _).trans (by rw [op.apply_apply, effect, Effect.run_andThen])

/-- Two sequences do the same to all maps if and only if they do the same to all keys. -/
theorem applyAll_eq_iff [Inhabited V] {ops ops' : List (Op K V)} :
    (∀ h, applyAll ops h = applyAll ops' h) ↔ ∀ key, effect key ops = effect key ops' := by
  constructor
  · intro h key
    refine Effect.run_inj.mp fun old => ?_
    have hkey := congrFun (h fun _ => old) key
    rwa [applyAll_apply, applyAll_apply] at hkey
  · intro h m
    funext key
    rw [applyAll_apply, applyAll_apply, h key]

theorem effect_append (key : K) (ops ops' : List (Op K V)) :
    effect key (ops ++ ops') = (effect key ops).andThen (effect key ops') := by
  induction ops with
  | nil => rw [List.nil_append, effect, Effect.keep_andThen]
  | cons op ops ih => rw [List.cons_append, effect, effect, ih, Effect.andThen_assoc]

theorem effect_dels (key : K) (dels : List K) :
    effect key (dels.map .del : List (Op K V)) = if key ∈ dels then ⟨true, []⟩ else .keep := by
  induction dels with
  | nil => rfl
  | cons k dels ih =>
    rw [List.map_cons, effect, ih, Op.effect]
    by_cases hk : k = key
    · subst hk
      by_cases hmem : k ∈ dels <;> simp [hmem, Effect.andThen, Effect.keep]
    · simp [hk, Ne.symm hk]

/-- Deletions at the end decide about the keys they name. -/
theorem effect_append_dels (key : K) (ops : List (Op K V)) (dels : List K) :
    effect key (ops ++ dels.map .del) =
      if key ∈ dels then ⟨true, []⟩ else effect key ops := by
  rw [effect_append, effect_dels]
  split
  · exact Effect.andThen_of_replaces _ rfl
  · exact Effect.andThen_keep _

/-- Of several replacements of a key the last one counts. -/
theorem effect_sets (key : K) (sets : List (K × V)) :
    effect key (sets.map fun p => .set p.1 p.2) =
      match sets.reverse.find? fun p => p.1 = key with
      | none => .keep
      | some p => ⟨true, [p.2]⟩ := by
  induction sets with
  | nil => rfl
  | cons p sets ih =>
    rw [List.map_cons, effect, ih, List.reverse_cons, List.find?_append]
    cases hfind : sets.reverse.find? fun p => p.1 = key with
    | some q => exact Effect.andThen_of_replaces _ rfl
    | none =>
      rw [Effect.andThen_keep, Option.none_or, Op.effect]
      by_cases hp : p.1 = key <;> simp [hp]

end Sequences

end Multimap
