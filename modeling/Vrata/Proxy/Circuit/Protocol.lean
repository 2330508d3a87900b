import Mathlib.Data.Fintype.Basic
import Vrata.Proxy.Circuit

/-!
# The protocol of the circuit breaker

Reference: `server/internal/proxy/circuit.go`, and
`docs/website/content/docs/concepts/destinations/circuit-breaker.md`.

What the breaker promises is said step by step in `Respects`: no request is let through before the
open time is over, in a half-open period only the request that takes the budget is, and no second one
while the first is out, and only the success of a probe closes the circuit. Interleavings break each of
these. A request that was let through long ago may report a success and close the circuit; `Allow` may have
seen a closed circuit that is open by the time it returns; and the circuit is open for a moment with the
time of an earlier failure.

`Orderly` rules these interleavings out, and `respects_of_orderly` is the protocol for all runs that
keep to it. The invariant behind it follows the budget of the half-open state: there is something to
take only while the circuit is half-open, nobody has been let through, and a request is on its way to
take it.
-/

namespace Vrata.Proxy

open Runs

namespace Circuit

variable {ι : Type}

/-! ## The protocol and the condition -/

section Protocol

variable [DecidableEq ι]

/-- The next operation of the request ends `Allow` with the answer true. -/
def Admits (cfg : BreakerConfig) (s : Circuit ι) (t : ι) (e : Ending) : Prop :=
  ∃ p, (s.act cfg t e).phase t = .admitted p

/-- What the protocol asks of a step. In a half-open period every request that is let through takes the
budget, so that `probe` is the one that is out. -/
def Respects (cfg : BreakerConfig) (s : Circuit ι) : Action ι → Prop
  | .tick _ => True
  | .act t e =>
    (Admits cfg s t e →
      (∀ t₀ ∈ s.openedAt, cfg.openDuration ≤ s.now - t₀) ∧
        (s.state = .halfOpen → s.phase t = .taking ∧ s.probe = none)) ∧
    (s.state ≠ .closed → (s.act cfg t e).state = .closed → s.phase t = .closing true)

instance (cfg : BreakerConfig) (s : Circuit ι) (t : ι) (e : Ending) :
    Decidable (Admits cfg s t e) := inferInstanceAs (Decidable (∃ _ : Bool, _))

instance (cfg : BreakerConfig) (s : Circuit ι) : (a : Action ι) → Decidable (s.Respects cfg a)
  | .tick _ => isTrue trivial
  | .act _ _ => inferInstanceAs (Decidable ((_ → _ ∧ _) ∧ _))

end Protocol

/-- Steps that do not get in each other's way: the time is not looked at before it is noted, the
budget does not wrap around, the circuit is opened while no request is in `Allow`, and a circuit that
is not closed is closed by the probe of the half-open period only. -/
def Orderly (s : Circuit ι) : Action ι → Prop
  | .tick _ => True
  | .act t _ =>
    (s.phase t = .checking → ∀ t', (s.phase t').isStamping = false) ∧
    (s.phase t = .taking → -2147483648 < s.halfOpenAllowed) ∧
    ((s.phase t).isOpening = true → s.state ≠ .opened → ∀ t', (s.phase t').inAllow = false) ∧
    ((s.phase t).isClosing = true → s.state ≠ .closed →
      s.phase t = .closing true ∧ s.state = .halfOpen ∧ s.probe = some t)

instance [Fintype ι] [DecidableEq ι] (s : Circuit ι) : (a : Action ι) → Decidable (s.Orderly a)
  | .tick _ => isTrue trivial
  | .act _ _ => inferInstanceAs (Decidable (_ ∧ _ ∧ _ ∧ _))

/-! ## The invariant -/

/-- The open time is over. -/
def Waited (cfg : BreakerConfig) (s : Circuit ι) : Prop :=
  ∀ t₀, s.openedAt = some t₀ → cfg.openDuration < s.now - t₀

/-- What the invariant says something about, apart from the requests. -/
def shared (s : Circuit ι) : CircuitState × ℤ × Option ℤ × ℤ × Option ℤ :=
  (s.state, s.halfOpenAllowed, s.lastFailure, s.now, s.openedAt)

structure Inv (cfg : BreakerConfig) (s : Circuit ι) : Prop where
  opened_le : ∀ t₀, s.openedAt = some t₀ → t₀ ≤ s.now
  stamped : ∀ t₀, s.openedAt = some t₀ →
    (∃ t, (s.phase t).isStamping = true) ∨ ∃ f, s.lastFailure = some f ∧ t₀ ≤ f
  swapping : ∀ t, s.phase t = .swapping → s.Waited cfg
  waited : s.state ≠ .opened → s.Waited cfg
  counting : ∀ t, (s.phase t).isCounting = true → s.state = .closed
  granting : ∀ t, s.phase t = .granting →
    s.state = .halfOpen ∧ s.halfOpenAllowed ≤ 0 ∧ s.probe = none
  once : ∀ t t', s.phase t = .granting → s.phase t' = .granting → t = t'
  budget : s.halfOpenAllowed ≤ 1
  /-- There is something to take. -/
  left : 1 ≤ s.halfOpenAllowed → s.state = .halfOpen ∧ s.probe = none ∧
    (∃ t, s.phase t = .taking) ∧ ∀ t, s.phase t ≠ .granting

theorem inv_new (cfg : BreakerConfig) (now : ℤ) : Inv cfg (new now : Circuit ι) where
  opened_le := by simp [new]
  stamped := by simp [new]
  swapping := by simp [new]
  waited := by simp [new, Waited]
  counting := by simp [new, Phase.isCounting]
  granting := by simp [new]
  once := by simp [new]
  budget := by simp [new]
  left := by simp [new]

section Step

variable {cfg : BreakerConfig} {s s' : Circuit ι} {t : ι} {p : Phase}

theorem Inv.tick (h : Inv cfg s) (d : ℕ) : Inv cfg { s with now := s.now + d } where
  opened_le t₀ ht := by
    have := h.opened_le t₀ ht
    show t₀ ≤ s.now + d
    omega
  stamped := h.stamped
  swapping t ht t₀ ht₀ := by
    have := h.swapping t ht t₀ ht₀
    show cfg.openDuration < s.now + d - t₀
    omega
  waited hs t₀ ht₀ := by
    have := h.waited hs t₀ ht₀
    show cfg.openDuration < s.now + d - t₀
    omega
  counting := h.counting
  granting := h.granting
  once := h.once
  budget := h.budget
  left := h.left

/-- When the time of the failure has been noted, `Allow` waits long enough. -/
theorem Inv.waited_of_elapsed (h : Inv cfg s) (hstamp : ∀ t', (s.phase t').isStamping = false)
    (helapsed : cfg.openDuration < s.sinceFailure) : s.Waited cfg := by
  intro t₀ ht₀
  rcases h.stamped t₀ ht₀ with ⟨t', ht'⟩ | ⟨f, hf, hle⟩
  · rw [hstamp t'] at ht'
    cases ht'
  · simp only [sinceFailure, hf] at helapsed
    omega

/-- The budget is never above one, and where it does not wrap around, taking from it gives a
non-negative number exactly if there was something to take. -/
theorem Inv.wrap32_pred (h : Inv cfg s) (hlow : -2147483648 < s.halfOpenAllowed) :
    wrap32 (s.halfOpenAllowed - 1) = s.halfOpenAllowed - 1 := by
  have := h.budget
  unfold wrap32
  omega

variable [DecidableEq ι]

theorem Inv.stamped_goto (h : Inv cfg s) (hstamp : (s.phase t).isStamping = false) :
    ∀ t₀, s.openedAt = some t₀ → (∃ t', ((s.goto t p).phase t').isStamping = true) ∨
      ∃ f, s.lastFailure = some f ∧ t₀ ≤ f := by
  intro t₀ ht₀
  refine (h.stamped t₀ ht₀).imp_left fun hex => ?_
  exact exists_update (P := (·.isStamping = true)) (by simp [hstamp]) hex

theorem Inv.counting_goto (h : Inv cfg s) (hp : p.isCounting = false) :
    ∀ t', ((s.goto t p).phase t').isCounting = true → s.state = .closed := by
  intro t' ht'
  rcases phase_update (P := (·.isCounting = true)) ht' with hp' | ⟨_, hp'⟩
  · rw [hp] at hp'
    cases hp'
  · exact h.counting t' hp'

/-- Steps that move one request on and leave alone what the protocol is about. -/
theorem Inv.quiet (h : Inv cfg s) (hstate : s'.state = s.state)
    (hallowed : s'.halfOpenAllowed = s.halfOpenAllowed)
    (hnow : s'.now = s.now) (hopened : s'.openedAt = s.openedAt)
    (hprobe : s'.probe = none ∨ s'.probe = s.probe)
    (hphase : s'.phase = Function.update s.phase t p)
    (hstamped : ∀ t₀, s.openedAt = some t₀ → (∃ t', (s'.phase t').isStamping = true) ∨
      ∃ f, s'.lastFailure = some f ∧ t₀ ≤ f)
    (htake : s.phase t = .taking → s.halfOpenAllowed ≤ 0)
    (hswap : p = .swapping → s.Waited cfg) (hcount : p.isCounting = true → s.state = .closed)
    (hgrant : p ≠ .granting) : Inv cfg s' := by
  have hwaited : s.Waited cfg → s'.Waited cfg := by
    intro hw t₀ ht₀
    rw [hnow]
    exact hw t₀ (hopened ▸ ht₀)
  have hgranting : ∀ t', s'.phase t' = .granting → s.phase t' = .granting := by
    intro t' ht'
    rw [hphase] at ht'
    rcases phase_update (P := (· = _)) ht' with hp | ⟨_, hp⟩
    · exact absurd hp hgrant
    · exact hp
  refine ⟨?_, ?_, ?_, ?_, ?_, ?_, ?_, by rw [hallowed]; exact h.budget, ?_⟩
  · intro t₀ ht₀
    rw [hnow]
    exact h.opened_le t₀ (hopened ▸ ht₀)
  · exact fun t₀ ht₀ => hstamped t₀ (hopened ▸ ht₀)
  · intro t' ht'
    rw [hphase] at ht'
    rcases phase_update (P := (· = _)) ht' with hp | ⟨_, hp⟩
    · exact hwaited (hswap hp)
    · exact hwaited (h.swapping t' hp)
  · intro hs
    exact hwaited (h.waited (hstate ▸ hs))
  · intro t' ht'
    rw [hphase] at ht'
    rw [hstate]
    rcases phase_update (P := (·.isCounting = true)) ht' with hp | ⟨_, hp⟩
    · exact hcount hp
    · exact h.counting t' hp
  · intro t' ht'
    obtain ⟨hs, ha, hp⟩ := h.granting t' (hgranting t' ht')
    refine ⟨hstate.trans hs, hallowed ▸ ha, ?_⟩
    rcases hprobe with hprobe | hprobe
    · exact hprobe
    · rw [hprobe, hp]
  · exact fun t' t'' ht' ht'' => h.once t' t'' (hgranting t' ht') (hgranting t'' ht'')
  · intro hleft
    rw [hallowed] at hleft
    obtain ⟨hs, hp, htaking, hnone⟩ := h.left hleft
    refine ⟨hstate.trans hs, ?_, ?_, fun t' ht' => hnone t' (hgranting t' ht')⟩
    · rcases hprobe with hprobe | hprobe
      · exact hprobe
      · rw [hprobe, hp]
    · rw [hphase]
      refine exists_update (P := (· = .taking)) (fun ht => ?_) htaking
      have := htake ht
      omega

/-- The quiet steps that are not about `Allow`. -/
theorem Inv.outside (h : Inv cfg s) (hshared : s'.shared = s.shared)
    (hprobe : s'.probe = none ∨ s'.probe = s.probe)
    (hphase : s'.phase = Function.update s.phase t p)
    (hstamp : (s.phase t).isStamping = false) (hfrom : (s.phase t).inAllow = false)
    (hto : p.inAllow = false) : Inv cfg s' := by
  simp only [shared, Prod.mk.injEq] at hshared
  obtain ⟨hstate, hallowed, hlast, hnow, hopened⟩ := hshared
  refine h.quiet hstate hallowed hnow hopened hprobe hphase ?_ ?_ ?_ ?_ ?_
  · rw [hphase, hlast]
    exact h.stamped_goto hstamp
  · intro ht
    rw [ht] at hfrom
    cases hfrom
  · rintro rfl
    cases hto
  · intro hp
    rw [Phase.inAllow_of_isCounting hp] at hto
    cases hto
  · rintro rfl
    cases hto

/-! ## Steps that are not quiet -/

theorem Inv.swap (h : Inv cfg s) (ht : s.phase t = .swapping) (hs : s.state = .opened) :
    Inv cfg { s.goto t .granting with state := .halfOpen, probe := none } := by
  -- The budget belongs to the half-open state, so there is nothing to take and to grant.
  have hgrant : ∀ t', s.phase t' ≠ .granting := by
    intro t' ht'
    have := (h.granting t' ht').1
    rw [hs] at this
    cases this
  have hzero : s.halfOpenAllowed ≤ 0 := by
    by_contra hne
    have := (h.left (by omega)).1
    rw [hs] at this
    cases this
  have hwaited := h.swapping t ht
  refine ⟨h.opened_le, h.stamped_goto (by rw [ht]; rfl), fun _ _ => hwaited, fun _ => hwaited, ?_,
    ?_, ?_, h.budget, ?_⟩
  · intro t' ht'
    have := h.counting_goto rfl t' ht'
    rw [hs] at this
    cases this
  · exact fun _ _ => ⟨rfl, hzero, rfl⟩
  · intro t' t'' ht' ht''
    have honly : ∀ u, (s.goto t .granting).phase u = .granting → u = t := by
      intro u hu
      by_contra hne
      rw [phase_goto, Function.update_of_ne hne] at hu
      exact hgrant u hu
    exact (honly t' ht').trans (honly t'' ht'').symm
  · intro hleft
    have : 1 ≤ s.halfOpenAllowed := hleft
    omega

theorem Inv.grant (h : Inv cfg s) (ht : s.phase t = .granting) :
    Inv cfg { s.goto t .taking with halfOpenAllowed := 1 } := by
  obtain ⟨hs, _, hprobe⟩ := h.granting t ht
  have hgrant : ∀ t', (s.goto t .taking).phase t' ≠ .granting := by
    intro t' ht'
    rcases phase_update (P := (· = _)) ht' with hp | ⟨hne, hp⟩
    · cases hp
    · exact hne (h.once t' t hp ht)
  refine ⟨h.opened_le, h.stamped_goto (by rw [ht]; rfl), ?_, h.waited, h.counting_goto rfl, ?_, ?_,
    le_refl _, ?_⟩
  · exact fun _ _ => h.waited (by rw [hs]; decide)
  · exact fun t' ht' => absurd ht' (hgrant t')
  · exact fun t' _ ht' => absurd ht' (hgrant t')
  · exact fun _ => ⟨hs, hprobe, ⟨t, Function.update_self ..⟩, hgrant⟩

theorem Inv.take (h : Inv cfg s) (ht : s.phase t = .taking) (hleft : 1 ≤ s.halfOpenAllowed)
    {probe : Option ι} :
    Inv cfg { s.goto t (.admitted true) with
      halfOpenAllowed := s.halfOpenAllowed - 1
      probe := probe } := by
  obtain ⟨hs, _, _, hnone⟩ := h.left hleft
  have hbudget := h.budget
  have hgrant : ∀ t', (s.goto t (.admitted true)).phase t' ≠ .granting := by
    intro t' ht'
    rcases phase_update (P := (· = _)) ht' with hp | ⟨_, hp⟩
    · cases hp
    · exact hnone t' hp
  have hzero : s.halfOpenAllowed - 1 = 0 := by omega
  refine ⟨h.opened_le, h.stamped_goto (by rw [ht]; rfl), ?_, h.waited, h.counting_goto rfl, ?_, ?_,
    ?_, ?_⟩
  · exact fun _ _ => h.waited (by rw [hs]; decide)
  · exact fun t' ht' => absurd ht' (hgrant t')
  · exact fun t' _ ht' => absurd ht' (hgrant t')
  · show s.halfOpenAllowed - 1 ≤ 1
    omega
  · intro hpos
    have : 1 ≤ s.halfOpenAllowed - 1 := hpos
    omega

/-- A request that finds nothing to take. -/
theorem Inv.miss (h : Inv cfg s) (ht : s.phase t = .taking) {n : ℤ} (hn : n ≤ 0) :
    Inv cfg { s.goto t .idle with halfOpenAllowed := n } := by
  have hlower : Inv cfg { s with halfOpenAllowed := n } :=
    { h with
      granting := fun t' ht' => ⟨(h.granting t' ht').1, hn, (h.granting t' ht').2.2⟩
      budget := by
        show n ≤ 1
        omega
      left := fun hleft => absurd (show 1 ≤ n from hleft) (by omega) }
  have hstamp : (s.phase t).isStamping = false := by
    rw [ht]
    rfl
  exact hlower.quiet rfl rfl rfl rfl (Or.inr rfl) rfl (hlower.stamped_goto hstamp) (fun _ => hn)
    nofun nofun nofun

/-- The probe closes the circuit. -/
theorem Inv.close (h : Inv cfg s) (ht : s.phase t = .closing true) (hs : s.state = .halfOpen)
    (hprobe : s.probe = some t) {probe : Option ι} :
    Inv cfg { s.goto t .completing with state := .closed, probe := probe } := by
  have hwaited : s.Waited cfg := h.waited (by rw [hs]; decide)
  have hgrant : ∀ t', (s.goto t .completing).phase t' ≠ .granting := by
    intro t' ht'
    rcases phase_update (P := (· = _)) ht' with hp | ⟨_, hp⟩
    · cases hp
    · have := (h.granting t' hp).2.2
      rw [hprobe] at this
      cases this
  refine ⟨h.opened_le, h.stamped_goto (by rw [ht]; rfl), fun _ _ => hwaited, fun _ => hwaited,
    fun _ _ => rfl, ?_, ?_, h.budget, ?_⟩
  · exact fun t' ht' => absurd ht' (hgrant t')
  · exact fun t' _ ht' => absurd ht' (hgrant t')
  · intro hleft
    have := (h.left hleft).2.1
    rw [hprobe] at this
    cases this

/-- The circuit is opened while no request is in `Allow`. -/
theorem Inv.open (h : Inv cfg s) {b : Bool} (hallow : ∀ t', (s.phase t').inAllow = false) :
    Inv cfg { s.goto t (.stamping b) with state := .opened, openedAt := some s.now } := by
  have hnone : ∀ t', ((s.goto t (.stamping b)).phase t').inAllow = false := by
    intro t'
    by_cases ht : t' = t
    · subst ht
      rw [phase_goto, Function.update_self]
      rfl
    · rw [phase_goto, Function.update_of_ne ht]
      exact hallow t'
  have hne : ∀ {q : Phase} t', (s.goto t (.stamping b)).phase t' = q → q.inAllow = false :=
    fun t' ht' => ht' ▸ hnone t'
  refine ⟨?_, ?_, ?_, fun hs => absurd rfl hs, ?_, ?_, ?_, h.budget, ?_⟩
  · intro t₀ ht₀
    cases ht₀
    exact le_refl s.now
  · refine fun _ _ => Or.inl ⟨t, ?_⟩
    show (Function.update s.phase t (.stamping b) t).isStamping = true
    rw [Function.update_self]
    rfl
  · exact fun t' ht' => absurd (hne t' ht') (by decide)
  · intro t' ht'
    have hcontra := (hnone t').symm.trans (Phase.inAllow_of_isCounting ht')
    cases hcontra
  · exact fun t' ht' => absurd (hne t' ht') (by decide)
  · exact fun t' _ ht' => absurd (hne t' ht') (by decide)
  · intro hleft
    obtain ⟨_, _, ⟨t', ht'⟩, _⟩ := h.left hleft
    have := hallow t'
    rw [ht'] at this
    cases this

theorem Inv.stamp (h : Inv cfg s) {b : Bool} (ht : s.phase t = .stamping b) :
    Inv cfg { s.goto t .completing with lastFailure := some s.now, probe := s.recorded t } := by
  refine h.quiet rfl rfl rfl rfl (recorded_cases s t) rfl ?_ ?_ ?_ ?_ ?_
  · exact fun t₀ ht₀ => Or.inr ⟨s.now, rfl, h.opened_le t₀ ht₀⟩
  all_goals simp [ht, Phase.isCounting]

/-! ## All steps -/

theorem Inv.act (h : Inv cfg s) {e : Ending} (ho : s.Orderly (.act t e)) :
    Inv cfg (s.act cfg t e) := by
  obtain ⟨hcheck, htake, hopen, hclose⟩ := ho
  -- The steps inside `Allow` that only move on.
  have hmove : ∀ {p}, (s.phase t).isStamping = false → (s.phase t ≠ .taking) →
      (p = .swapping → s.Waited cfg) → (p.isCounting = true → s.state = .closed) →
      p ≠ .granting → Inv cfg (s.goto t p) := fun hstamp htake hswap hcount hgrant =>
    h.quiet rfl rfl rfl rfl (Or.inr rfl) rfl (h.stamped_goto hstamp) (fun ht => absurd ht htake)
      hswap hcount hgrant
  unfold Circuit.act
  cases ht : s.phase t with
  | idle =>
    cases hs : s.state with
    | closed => exact hmove (by rw [ht]; rfl) (by simp [ht]) nofun (fun _ => hs) nofun
    | opened | halfOpen => exact hmove (by rw [ht]; rfl) (by simp [ht]) nofun nofun nofun
  | checking =>
    dsimp only
    split
    · rename_i helapsed
      have hwaited := h.waited_of_elapsed (hcheck ht) helapsed
      exact hmove (by rw [ht]; rfl) (by simp [ht]) (fun _ => hwaited) nofun nofun
    · exact hmove (by rw [ht]; rfl) (by simp [ht]) nofun nofun nofun
  | swapping =>
    dsimp only
    split
    · rename_i hs
      exact h.swap ht hs
    · exact hmove (by rw [ht]; rfl) (by simp [ht]) nofun nofun nofun
  | granting => exact h.grant ht
  | taking =>
    dsimp only
    rw [h.wrap32_pred (htake ht)]
    split
    · rename_i hleft
      have hs := (h.left (by omega)).1
      simp only [hs, decide_true, if_true]
      exact h.take ht (by omega)
    · exact h.miss ht (by omega)
  | countingConnections =>
    have hs : s.state = .closed := h.counting t (by rw [ht]; rfl)
    dsimp only
    split
    · exact hmove (by rw [ht]; rfl) (by simp [ht]) nofun nofun nofun
    · exact hmove (by rw [ht]; rfl) (by simp [ht]) nofun (fun _ => hs) nofun
  | countingRequests =>
    dsimp only
    split <;> exact hmove (by rw [ht]; rfl) (by simp [ht]) nofun nofun nofun
  | admitted p => exact h.outside rfl (Or.inr rfl) rfl (by rw [ht]; rfl) (by rw [ht]; rfl) rfl
  | counted p => exact h.outside rfl (Or.inr rfl) rfl (by rw [ht]; rfl) (by rw [ht]; rfl) rfl
  | serving p =>
    cases e <;> exact h.outside rfl (Or.inr rfl) rfl (by rw [ht]; rfl) (by rw [ht]; rfl) rfl
  | succeeded p => exact h.outside rfl (Or.inr rfl) rfl (by rw [ht]; rfl) (by rw [ht]; rfl) rfl
  | closing p =>
    by_cases hs : s.state = .closed
    · refine h.outside ?_ (recorded_cases s t) rfl (by rw [ht]; rfl) (by rw [ht]; rfl) rfl
      simp only [shared, hs]
      rfl
    · obtain ⟨hp, hhalf, hprobe⟩ := hclose (by rw [ht]; rfl) hs
      exact h.close hp hhalf hprobe
  | failed p =>
    dsimp only
    split
    · exact h.outside rfl (Or.inr rfl) rfl (by rw [ht]; rfl) (by rw [ht]; rfl) rfl
    · exact h.outside rfl (recorded_cases s t) rfl (by rw [ht]; rfl) (by rw [ht]; rfl) rfl
  | opening p =>
    by_cases hs : s.state = .opened
    · refine h.outside ?_ (Or.inr rfl) rfl (by rw [ht]; rfl) (by rw [ht]; rfl) rfl
      simp only [shared, hs, if_true]
      rfl
    · simp only [hs, if_false]
      exact h.open (hopen (by rw [ht]; rfl) hs)
  | stamping p => exact h.stamp ht
  | completing => exact h.outside rfl (Or.inr rfl) rfl (by rw [ht]; rfl) (by rw [ht]; rfl) rfl
  | completed => exact h.outside rfl (Or.inr rfl) rfl (by rw [ht]; rfl) (by rw [ht]; rfl) rfl

theorem Inv.step (h : Inv cfg s) {a : Action ι} (ho : s.Orderly a) : Inv cfg (s.step cfg a) := by
  cases a with
  | tick d => exact h.tick d
  | act t e => exact h.act ho

/-! ## The protocol holds at every step -/

theorem phase_of_admits {e : Ending} (h : Admits cfg s t e) :
    s.phase t = .taking ∧ 0 ≤ wrap32 (s.halfOpenAllowed - 1) ∨ s.phase t = .countingRequests := by
  obtain ⟨p, h⟩ := h
  unfold Circuit.act at h
  cases ht : s.phase t with
  | taking =>
    refine Or.inl ⟨rfl, ?_⟩
    by_contra hneg
    simp [ht, hneg] at h
  | countingRequests => exact Or.inr rfl
  | _ =>
    exfalso
    simp only [ht] at h
    repeat' split at h
    all_goals simp at h

theorem isClosing_of_closed {e : Ending} (hs : s.state ≠ .closed)
    (h : (s.act cfg t e).state = .closed) : (s.phase t).isClosing = true := by
  unfold Circuit.act at h
  cases ht : s.phase t with
  | closing p => rfl
  | _ =>
    exfalso
    simp only [ht] at h
    repeat' split at h
    all_goals first | exact hs h | cases h

theorem Inv.respects (h : Inv cfg s) {a : Action ι} (ho : s.Orderly a) : s.Respects cfg a := by
  cases a with
  | tick d => trivial
  | act t e =>
    obtain ⟨_, htake, _, hclose⟩ := ho
    refine ⟨fun hadmits => ?_, fun hs hclosed => (hclose (isClosing_of_closed hs hclosed) hs).1⟩
    have hwaited : s.state ≠ .opened → ∀ t₀ ∈ s.openedAt, cfg.openDuration ≤ s.now - t₀ :=
      fun hs t₀ ht₀ => (h.waited hs t₀ ht₀).le
    rcases phase_of_admits hadmits with ⟨ht, hleft⟩ | ht
    · rw [h.wrap32_pred (htake ht)] at hleft
      obtain ⟨hs, hprobe, _⟩ := h.left (by omega)
      exact ⟨hwaited (by rw [hs]; decide), fun _ => ⟨ht, hprobe⟩⟩
    · have hs : s.state = .closed := h.counting t (by rw [ht]; rfl)
      refine ⟨hwaited (by rw [hs]; decide), fun hhalf => ?_⟩
      rw [hs] at hhalf
      cases hhalf

end Step

/-! ## Runs -/

section Runs

variable [DecidableEq ι]

/-- In every run whose steps do not get in each other's way, every step keeps to the protocol. -/
theorem respects_of_orderly (cfg : BreakerConfig) (now : ℤ) (run : List (Action ι))
    (h : Along (Circuit.step cfg) Orderly (new now) run) :
    Along (Circuit.step cfg) (Respects cfg) (new now) run :=
  h.along (fun _ _ hi ho => hi.step ho) (fun _ _ hi ho => hi.respects ho) (inv_new cfg now)

end Runs

/-- The circuit opens at the first failure, half a minute passes, and the probe succeeds. -/
theorem respects_recovery :
    Along (Circuit.step (newCircuitBreaker 0 0 1 none)) (Respects (newCircuitBreaker 0 0 1 none))
      (new 0 : Circuit (Fin 2))
      (acts 0 .failure 11 ++ [.tick 30000000001] ++ acts 1 .success 12) :=
  respects_of_orderly _ _ _ (by decide +kernel)

/-- A success that was under way when the circuit was opened closes it again; a request that read a
closed circuit is let through an open one, or next to the probe of a half-open one. -/
theorem late_requests_break_protocol :
    ¬Along (Circuit.step (newCircuitBreaker 0 0 1 none)) (Respects (newCircuitBreaker 0 0 1 none))
      (new 0 : Circuit (Fin 2))
      (acts 1 .success 5 ++ acts 0 .failure 11 ++ acts 1 .success 3) ∧
    ¬Along (Circuit.step (newCircuitBreaker 0 0 1 none)) (Respects (newCircuitBreaker 0 0 1 none))
      (new 0 : Circuit (Fin 2))
      (acts 1 .success 1 ++ acts 0 .failure 11 ++ acts 1 .success 2) ∧
    ¬Along (Circuit.step (newCircuitBreaker 0 0 1 none)) (Respects (newCircuitBreaker 0 0 1 none))
      (new 0 : Circuit (Fin 3))
      (acts 1 .success 2 ++ acts 0 .failure 11 ++ [.tick 30000000001] ++ acts 2 .success 3 ++
        acts 1 .success 1 ++ acts 2 .success 2) := by
  decide +kernel

end Circuit

end Vrata.Proxy
