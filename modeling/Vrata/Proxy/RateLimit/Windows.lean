import Vrata.Proxy.Chain
import Vrata.Proxy.RateLimit

/-!
# How many requests a rate limit lets through

Reference: `RateLimitMiddlewareWithStop` of `server/internal/proxy/middlewares/ratelimit.go`,
`buildRouteHandler` of `handler.go`.

Within any interval, one limiter lets through no more requests of a client than its burst and what flows
into the bucket in that time: `length_passes_le`. The level of the bucket is the potential. It grows with
time, a request that passes takes one from it, and a bucket that is forgotten is full.

A middleware is built for every route that refers to it, so a table has as many limiters for it as it has
such routes. `limited_iff` says for which tables the bound holds for the middleware.
-/

namespace Vrata.Proxy

open Server

namespace RateLimit

/-! ## One bucket -/

variable (l : RateLimit)

/-- A bucket that is not in debt, and was last used before. -/
def Sound (b : Option Bucket) (now : ℤ) : Prop := ∀ x, b = some x → 0 ≤ x.tokens ∧ x.lastTime ≤ now

/-- What flows into a bucket from one time to another. -/
def inflow (t t' : ℤ) : ℚ := (t' - t) / 1000000000 * l.rps

variable {l} {b : Option Bucket} {t t' : ℤ}

theorem inflow_nonneg (h : t ≤ t') : 0 ≤ l.inflow t t' := by
  have hle : (t : ℚ) ≤ t' := Int.cast_le.mpr h
  have hdiff : (0 : ℚ) ≤ t' - t := by linarith
  have hrps := l.rps_pos
  rw [inflow]
  positivity

theorem inflow_add (t t' t'' : ℤ) : l.inflow t t' + l.inflow t' t'' = l.inflow t t'' := by
  rw [inflow, inflow, inflow]
  ring

theorem level_some (x : Bucket) (t : ℤ) :
    l.level (some x) t = min (l.burst : ℚ) (x.tokens + l.inflow x.lastTime t) := by
  rw [level, Option.getD_some, inflow, min_def]
  split_ifs <;> linarith

theorem level_le_burst (b : Option Bucket) (t : ℤ) : l.level b t ≤ l.burst := by
  cases b with
  | none => exact (l.level_none t).le
  | some x => exact level_some (l := l) x t ▸ min_le_left _ _

theorem level_nonneg (hburst : 0 ≤ l.burst) (hb : Sound b t) : 0 ≤ l.level b t := by
  have hburst' : (0 : ℚ) ≤ l.burst := Int.cast_nonneg hburst
  cases b with
  | none => exact (l.level_none t).symm ▸ hburst'
  | some x =>
    obtain ⟨htokens, hlast⟩ := hb x rfl
    have hin := l.inflow_nonneg hlast
    rw [level_some]
    exact le_min hburst' (by linarith)

/-- The level grows no faster than the inflow. -/
theorem level_le_add (b : Option Bucket) (h : t ≤ t') : l.level b t' ≤ l.level b t + l.inflow t t' := by
  have hin := l.inflow_nonneg h
  cases b with
  | none =>
    rw [level_none, level_none]
    linarith
  | some x =>
    rw [level_some, level_some, ← inflow_add x.lastTime t t', ← add_assoc, ← min_add_add_right]
    exact min_le_min (by linarith) (le_refl _)

theorem level_now {tokens : ℚ} (h : tokens ≤ l.burst) (t : ℤ) : l.level (some ⟨tokens, t⟩) t = tokens := by
  have hzero : l.inflow t t = 0 := by simp [inflow]
  rw [level_some, hzero, add_zero, min_eq_right h]

/-- A request that passes takes one from the level. -/
theorem level_allow (b : Option Bucket) (t : ℤ) :
    l.level (some (l.allow b t).2) t + ((l.allow b t).1.toNat : ℚ) = l.level b t := by
  have hle := l.level_le_burst b t
  rw [allow]
  split
  · rw [level_now hle]
    simp
  · rw [level_now (by linarith)]
    simp

theorem sound_allow (hburst : 0 ≤ l.burst) (hb : Sound b t) : Sound (some (l.allow b t).2) t := by
  have hlevel := level_nonneg hburst hb
  intro x hx
  obtain rfl := Option.some.inj hx
  rw [allow]
  split
  · exact ⟨hlevel, le_refl t⟩
  · exact ⟨by simp only; linarith, le_refl t⟩

theorem Sound.mono (hb : Sound b t) (h : t ≤ t') : Sound b t' :=
  fun x hx => ⟨(hb x hx).1, (hb x hx).2.trans h⟩

theorem sound_evictStale (hb : Sound b t) : Sound (l.evictStale b t) t :=
  fun x hx => hb x (Option.filter_eq_some_iff.mp hx).1

/-! ## Forgetting buckets -/

theorem refill_nonneg (hburst : 0 ≤ l.burst) : 0 ≤ l.refill := by
  have hburst' : (0 : ℚ) ≤ l.burst := Int.cast_nonneg hburst
  have hrps := l.rps_pos
  rw [refill]
  positivity

variable (l) in
/-- The time in which a bucket fills up can be doubled in 64 bits. -/
def Brief : Prop := l.refill < 4611686018427387904

theorem evictAfter_of_brief (hburst : 0 ≤ l.burst) (h : l.Brief) : l.evictAfter = 2 * ⌊l.refill⌋ := by
  have hnonneg : 0 ≤ ⌊l.refill⌋ := Int.floor_nonneg.mpr (refill_nonneg hburst)
  have hlt : ⌊l.refill⌋ < 4611686018427387904 := Int.floor_lt.mpr (by exact_mod_cast h)
  rw [evictAfter, toInt64_of_nonneg (refill_nonneg hburst), if_pos (by omega), wrap64]
  omega

theorem evictAfter_nonpos (h : ¬l.Brief) : l.evictAfter ≤ 0 := by
  have hrefill : 4611686018427387904 ≤ l.refill := not_lt.mp h
  have hle : 4611686018427387904 ≤ ⌊l.refill⌋ := Int.le_floor.mpr (by exact_mod_cast hrefill)
  rw [evictAfter, toInt64_of_nonneg (by linarith), wrap64]
  split
  · omega
  · omega

/-- In the time in which a bucket is forgotten it fills up. -/
theorem burst_le_inflow (hburst : 0 ≤ l.burst) (h : l.Brief) (hlate : l.evictAfter < t' - t) :
    (l.burst : ℚ) ≤ l.inflow t t' := by
  have hnonneg : 0 ≤ ⌊l.refill⌋ := Int.floor_nonneg.mpr (refill_nonneg hburst)
  rw [evictAfter_of_brief hburst h] at hlate
  have hfloor : ⌊l.refill⌋ + 1 ≤ t' - t := by omega
  have hle : l.refill ≤ (t' - t : ℚ) := by
    have hlt := Int.lt_floor_add_one l.refill
    have hcast : ((⌊l.refill⌋ + 1 : ℤ) : ℚ) ≤ ((t' - t : ℤ) : ℚ) := Int.cast_le.mpr hfloor
    push_cast at hcast
    linarith
  have hrps := l.rps_pos
  calc (l.burst : ℚ) = l.refill / 1000000000 * l.rps := by
        rw [refill]
        field_simp
    _ ≤ (t' - t) / 1000000000 * l.rps := by gcongr

/-- A bucket that is forgotten is full. -/
theorem level_evict (hburst : 0 ≤ l.burst) (h : l.Brief) (hb : Sound b t) :
    l.level (l.evictStale b t) t = l.level b t := by
  cases b with
  | none => rfl
  | some x =>
    rw [evictStale, Option.filter_some]
    split
    · rfl
    · rename_i hlate
      have hin : (l.burst : ℚ) ≤ l.inflow x.lastTime t :=
        burst_le_inflow hburst h (not_le.mp fun hle => hlate (decide_eq_true hle))
      have htokens := (hb x rfl).1
      rw [level_none, level_some, min_eq_left (by linarith)]

/-! ## The limiters of a table -/

/-- The buckets of the limiters of one middleware, by the position of the route and the client. -/
abbrev Buckets := ℕ → String → Option Bucket

inductive Event where
  /-- A request of a client comes to the limiter of a route. -/
  | request (position : ℕ) (client : String)
  /-- The limiter of a route forgets buckets. -/
  | evict (position : ℕ)
deriving DecidableEq, Repr

section Run

variable (l : RateLimit)

def next (bs : Buckets) : ℤ × Event → Buckets
  | (t, .request p c) =>
    fun q c' => if q = p ∧ c' = c then some (l.allow (bs p c) t).2 else bs q c'
  | (t, .evict p) => fun q c => if q = p then l.evictStale (bs q c) t else bs q c

/-- A request of the client passes. -/
def lets (client : String) (bs : Buckets) : ℤ × Event → Bool
  | (t, .request p c) => c = client && (l.allow (bs p c) t).1
  | (_, .evict _) => false

/-- The times at which requests of the client pass. -/
def passes (client : String) : Buckets → List (ℤ × Event) → List ℤ
  | _, [] => []
  | bs, x :: xs =>
    (if l.lets client bs x then [x.1] else []) ++ passes client (l.next bs x) xs

/-- The requests of the client are those of one route. -/
def Event.At (client : String) (p : ℕ) : Event → Prop
  | .request q c => c = client → q = p
  | .evict _ => True

end Run

variable {client : String} {p : ℕ} {bs : Buckets} {x : ℤ × Event} {xs ys : List (ℤ × Event)}

theorem passes_append (client : String) (bs : Buckets) (xs ys : List (ℤ × Event)) :
    l.passes client bs (xs ++ ys) = l.passes client bs xs ++ l.passes client (xs.foldl l.next bs) ys := by
  induction xs generalizing bs with
  | nil => rfl
  | cons x xs ih => rw [List.cons_append, passes, ih, passes, List.append_assoc, List.foldl_cons]

theorem exists_of_mem_passes (h : t ∈ l.passes client bs xs) : ∃ x ∈ xs, x.1 = t := by
  induction xs generalizing bs with
  | nil => cases h
  | cons x xs ih =>
    rw [passes, List.mem_append] at h
    rcases h with h | h
    · split at h
      · exact ⟨x, List.mem_cons_self, (List.mem_singleton.mp h).symm⟩
      · cases h
    · obtain ⟨y, hy, hyt⟩ := ih h
      exact ⟨y, List.mem_cons_of_mem x hy, hyt⟩

theorem sound_next (hburst : 0 ≤ l.burst) (hbs : ∀ p c, Sound (bs p c) x.1) (p : ℕ) (c : String) :
    Sound (l.next bs x p c) x.1 := by
  obtain ⟨t, e⟩ := x
  cases e with
  | request q c' =>
    simp only [next]
    split
    · exact sound_allow hburst (hbs q c')
    · exact hbs p c
  | evict q =>
    simp only [next]
    split
    · exact sound_evictStale (hbs p c)
    · exact hbs p c

/-- What passes is taken from the bucket of the one route. -/
theorem level_next (hburst : 0 ≤ l.burst) (hbrief : l.Brief) (hb : Sound (bs p client) x.1)
    (hat : x.2.At client p) :
    l.level (l.next bs x p client) x.1 + ((l.lets client bs x).toNat : ℚ) = l.level (bs p client) x.1 := by
  obtain ⟨t, e⟩ := x
  cases e with
  | request q c =>
    by_cases hc : c = client
    · subst hc
      obtain rfl : q = p := hat rfl
      simp only [next, lets, and_self, if_true, decide_true, Bool.true_and]
      exact level_allow _ t
    · have hne : ¬(p = q ∧ client = c) := fun h => hc h.2.symm
      simp only [next, lets, if_neg hne, decide_eq_false hc, Bool.false_and, Bool.toNat_false,
        Nat.cast_zero, add_zero]
  | evict q =>
    simp only [next, lets, Bool.toNat_false, Nat.cast_zero, add_zero]
    split
    · exact level_evict hburst hbrief hb
    · rfl

/-- What one limiter lets through until a time was in the bucket or has flowed into it since. -/
theorem length_passes_le (hburst : 0 ≤ l.burst) (hbrief : l.Brief)
    (hsorted : xs.Pairwise fun x y => x.1 ≤ y.1) (hat : ∀ x ∈ xs, x.2.At client p)
    (hrange : ∀ x ∈ xs, t ≤ x.1 ∧ x.1 ≤ t') (hle : t ≤ t') (hbs : ∀ p c, Sound (bs p c) t) :
    ((l.passes client bs xs).length : ℚ) ≤ l.level (bs p client) t + l.inflow t t' := by
  induction xs generalizing bs t with
  | nil =>
    have hlevel := level_nonneg hburst (hbs p client)
    have hin := l.inflow_nonneg hle
    rw [passes, List.length_nil, Nat.cast_zero]
    linarith
  | cons x xs ih =>
    obtain ⟨hhead, htail⟩ := List.pairwise_cons.mp hsorted
    obtain ⟨htx, hxt'⟩ := hrange x List.mem_cons_self
    have hbsx : ∀ p c, Sound (bs p c) x.1 := fun p c => (hbs p c).mono htx
    have hrest := ih htail (fun y hy => hat y (List.mem_cons_of_mem x hy))
      (fun y hy => ⟨hhead y hy, (hrange y (List.mem_cons_of_mem x hy)).2⟩) hxt'
      (sound_next hburst hbsx)
    have hstep := level_next hburst hbrief (hbsx p client) (hat x List.mem_cons_self)
    have hgrow := l.level_le_add (bs p client) htx
    have hlength : ((l.passes client bs (x :: xs)).length : ℚ) =
        ((l.lets client bs x).toNat : ℚ) + ((l.passes client (l.next bs x) xs).length : ℚ) := by
      rw [passes, List.length_append, Nat.cast_add]
      cases l.lets client bs x <;> rfl
    rw [hlength, ← inflow_add t x.1 t']
    linarith

/-- Events in order are those before a time and those from it on. -/
theorem exists_split (hsorted : xs.Pairwise fun x y => x.1 ≤ y.1) (t : ℤ) :
    ∃ ys zs, xs = ys ++ zs ∧ (∀ y ∈ ys, y.1 < t) ∧ ∀ z ∈ zs, t ≤ z.1 := by
  induction xs with
  | nil => exact ⟨[], [], rfl, nofun, nofun⟩
  | cons x xs ih =>
    obtain ⟨hhead, htail⟩ := List.pairwise_cons.mp hsorted
    by_cases hx : x.1 < t
    · obtain ⟨ys, zs, rfl, hys, hzs⟩ := ih htail
      exact ⟨x :: ys, zs, rfl, List.forall_mem_cons.mpr ⟨hx, hys⟩, hzs⟩
    · have hle : t ≤ x.1 := not_lt.mp hx
      exact ⟨[], x :: xs, rfl, nofun,
        List.forall_mem_cons.mpr ⟨hle, fun y hy => hle.trans (hhead y hy)⟩⟩

theorem sound_foldl (hburst : 0 ≤ l.burst) (hsorted : xs.Pairwise fun x y => x.1 ≤ y.1)
    (hbs : ∀ x ∈ xs, ∀ p c, Sound (bs p c) x.1) (hend : ∀ x ∈ xs, x.1 ≤ t)
    (hbst : ∀ p c, Sound (bs p c) t) (p : ℕ) (c : String) : Sound (xs.foldl l.next bs p c) t := by
  induction xs generalizing bs with
  | nil => exact hbst p c
  | cons x xs ih =>
    obtain ⟨hhead, htail⟩ := List.pairwise_cons.mp hsorted
    have hnext := sound_next hburst (hbs x List.mem_cons_self)
    exact ih htail (fun y hy p c => (hnext p c).mono (hhead y hy))
      (fun y hy => hend y (List.mem_cons_of_mem x hy))
      (fun p c => (hnext p c).mono (hend x List.mem_cons_self))

/-- The number of times within an interval. -/
def within (a b : ℤ) (ts : List ℤ) : ℕ := (ts.filter fun t => a ≤ t ∧ t ≤ b).length

theorem within_append (a b : ℤ) (ts ts' : List ℤ) :
    within a b (ts ++ ts') = within a b ts + within a b ts' := by
  rw [within, List.filter_append, List.length_append, within, within]

theorem within_eq_zero {a b : ℤ} {ts : List ℤ} (h : ∀ t ∈ ts, ¬(a ≤ t ∧ t ≤ b)) : within a b ts = 0 := by
  rw [within, List.length_eq_zero_iff, List.filter_eq_nil_iff]
  exact fun t ht hdec => h t ht (of_decide_eq_true hdec)

/-- Within any interval, one limiter lets through no more requests of a client than its burst and the
inflow of that time. -/
theorem within_passes_le (hburst : 0 ≤ l.burst) (hbrief : l.Brief)
    (hsorted : xs.Pairwise fun x y => x.1 ≤ y.1) (hat : ∀ x ∈ xs, x.2.At client p) {a b : ℤ} (hab : a ≤ b) :
    (within a b (l.passes client (fun _ _ => none) xs) : ℚ) ≤ l.burst + l.inflow a b := by
  obtain ⟨before, rest, rfl, hbefore, hrest⟩ := exists_split hsorted a
  obtain ⟨hsorted₁, hsorted₂, -⟩ := List.pairwise_append.mp hsorted
  obtain ⟨during, after, rfl, hduring, hafter⟩ := exists_split hsorted₂ (b + 1)
  obtain ⟨hsorted₃, -, -⟩ := List.pairwise_append.mp hsorted₂
  have hempty : ∀ t p c, Sound ((fun _ _ => none : Buckets) p c) t := fun _ _ _ _ h => nomatch h
  have hsound : ∀ p c, Sound (before.foldl l.next (fun _ _ => none) p c) a :=
    sound_foldl hburst hsorted₁ (fun x _ => hempty x.1) (fun x hx => (hbefore x hx).le) (hempty a)
  have hlength := length_passes_le hburst hbrief hsorted₃
    (fun x hx => hat x (List.mem_append_right _ (List.mem_append_left _ hx)))
    (fun x hx => ⟨hrest x (List.mem_append_left _ hx), Int.lt_add_one_iff.mp (hduring x hx)⟩) hab hsound
  have hearly : within a b (l.passes client (fun _ _ => none) before) = 0 := by
    refine within_eq_zero fun t ht hin => ?_
    obtain ⟨x, hx, rfl⟩ := exists_of_mem_passes ht
    have hlt := hbefore x hx
    omega
  have hlate : within a b (l.passes client (during.foldl l.next (before.foldl l.next fun _ _ => none))
      after) = 0 := by
    refine within_eq_zero fun t ht hin => ?_
    obtain ⟨x, hx, rfl⟩ := exists_of_mem_passes ht
    have hlt := hafter x hx
    omega
  have hwithin : within a b (l.passes client (fun _ _ => none) (before ++ (during ++ after))) ≤
      (l.passes client (before.foldl l.next fun _ _ => none) during).length := by
    rw [passes_append, passes_append, within_append, within_append, hearly, hlate, zero_add, add_zero]
    exact List.length_filter_le _ _
  have hlevel := l.level_le_burst (before.foldl l.next (fun _ _ => none) p client) a
  have hcast : (within a b (l.passes client (fun _ _ => none) (before ++ (during ++ after))) : ℚ) ≤
      ((l.passes client (before.foldl l.next fun _ _ => none) during).length : ℚ) := by exact_mod_cast hwithin
  linarith

theorem passes_eq_nil (h : ∀ bs, ∀ x ∈ xs, l.lets client bs x = false) (bs : Buckets) :
    l.passes client bs xs = [] := by
  induction xs generalizing bs with
  | nil => rfl
  | cons x xs ih =>
    rw [passes, h bs x List.mem_cons_self, ih fun bs y hy => h bs y (List.mem_cons_of_mem x hy)]
    rfl

/-- With a burst below one, every request is refused. -/
theorem allow_eq_false (hburst : l.burst < 1) (b : Option Bucket) (t : ℤ) : (l.allow b t).1 = false := by
  have hlt : l.level b t < 1 := (l.level_le_burst b t).trans_lt (by exact_mod_cast hburst)
  rw [allow, if_pos hlt]

/-- And nothing passes. -/
theorem passes_of_refused (hburst : l.burst < 1) (bs : Buckets) : l.passes client bs xs = [] := by
  refine passes_eq_nil (fun bs x _ => ?_) bs
  obtain ⟨t, e⟩ := x
  cases e with
  | request q c => rw [lets, allow_eq_false hburst, Bool.and_false]
  | evict q => rfl

/-! ## More than the limit -/

/-- Requests of a client to one route at the same time. -/
def volley (t : ℤ) (p : ℕ) (client : String) (n : ℕ) : List (ℤ × Event) :=
  List.replicate n (t, .request p client)

theorem pairwise_volley (t : ℤ) (p : ℕ) (client : String) (n : ℕ) :
    (volley t p client n).Pairwise fun x y => x.1 ≤ y.1 :=
  List.pairwise_replicate.mpr (.inr (le_refl t))

/-- As many as are in the bucket pass. -/
theorem passes_volley {n : ℕ} (h : (n : ℚ) ≤ l.level (bs p client) t) :
    l.passes client bs (volley t p client n) = List.replicate n t := by
  induction n generalizing bs with
  | zero => rfl
  | succ n ih =>
    rw [Nat.cast_succ] at h
    have hpass : (l.allow (bs p client) t).1 = true := by
      have hone : ¬l.level (bs p client) t < 1 := by
        have hn : (0 : ℚ) ≤ n := Nat.cast_nonneg n
        linarith
      rw [allow, if_neg hone]
    have hlets : l.lets client bs (t, .request p client) = true := by
      rw [lets, hpass, decide_eq_true rfl, Bool.and_self]
    have hnext : l.next bs (t, .request p client) p client = some (l.allow (bs p client) t).2 :=
      if_pos ⟨rfl, rfl⟩
    have hlevel := level_allow (l := l) (bs p client) t
    rw [hpass, Bool.toNat_true, Nat.cast_one] at hlevel
    rw [volley, List.replicate_succ, passes, if_pos hlets, ← volley, ih, List.replicate_succ]
    · rfl
    · rw [hnext]
      linarith

theorem foldl_volley {q : ℕ} (hq : q ≠ p) (n : ℕ) (c : String) :
    (volley t p client n).foldl l.next bs q c = bs q c := by
  induction n generalizing bs with
  | zero => rfl
  | succ n ih =>
    rw [volley, List.replicate_succ, List.foldl_cons, ← volley, ih]
    exact if_neg fun h => hq h.1

/-- Two limiters that are full let through twice the burst. -/
theorem passes_two_routes {q : ℕ} (hq : q ≠ p) (n : ℕ) (hn : (n : ℤ) ≤ l.burst) :
    l.passes client (fun _ _ => none) (volley 0 p client n ++ volley 0 q client n) =
      List.replicate n 0 ++ List.replicate n 0 := by
  have hn' : (n : ℚ) ≤ l.burst := by exact_mod_cast hn
  rw [passes_append, passes_volley, passes_volley]
  · rw [foldl_volley hq, level_none]
    exact hn'
  · rw [level_none]
    exact hn'

/-- A bucket is forgotten if the time in which it fills up cannot be doubled. -/
theorem evictStale_eq_none (hbrief : ¬l.Brief) (hb : Sound b t) (h : t < t') :
    l.evictStale b t' = none := by
  have hafter := evictAfter_nonpos hbrief
  refine Option.filter_eq_none_iff.mpr fun x hx => ?_
  have hlast := (hb x hx).2
  rw [decide_eq_true_eq]
  omega

/-- So does one whose bucket is forgotten in between. -/
theorem passes_forgotten (hbrief : ¬l.Brief) {t : ℤ} (ht : 0 < t) (n : ℕ) (hn : (n : ℤ) ≤ l.burst) :
    l.passes client (fun _ _ => none)
        (volley 0 p client n ++ ((t, .evict p) :: volley t p client n)) =
      List.replicate n 0 ++ List.replicate n t := by
  have hn' : (n : ℚ) ≤ l.burst := by exact_mod_cast hn
  have hempty : ∀ p c, Sound ((fun _ _ => none : Buckets) p c) 0 := fun _ _ _ h => nomatch h
  have hsound : Sound ((volley 0 p client n).foldl l.next (fun _ _ => none) p client) 0 :=
    sound_foldl (by omega) (pairwise_volley 0 p client n) (fun x hx => by
      rw [List.eq_of_mem_replicate hx]
      exact hempty) (fun x hx => by rw [List.eq_of_mem_replicate hx]) hempty p client
  rw [passes_append, passes_volley, passes, passes_volley]
  · rfl
  · have hnext : l.next ((volley 0 p client n).foldl l.next fun _ _ => none) (t, .evict p) p client =
        none := (if_pos rfl).trans (evictStale_eq_none hbrief hsound ht)
    rw [hnext, level_none]
    exact hn'
  · rw [level_none]
    exact hn'

theorem within_replicate {a b t : ℤ} (h : a ≤ t ∧ t ≤ b) (n : ℕ) : within a b (List.replicate n t) = n := by
  rw [within, List.filter_replicate, if_pos (decide_eq_true h), List.length_replicate]

end RateLimit

/-! ## A middleware of a table -/

/-- What becomes of a request on its way through some middlewares. -/
def Through (admits : Link → Inbound → Inbound → Prop) : List Link → Inbound → Inbound → Prop
  | [], r, r' => r = r'
  | l :: ls, r, r'' => ∃ r', admits l r r' ∧ Through admits ls r' r''

/-- A table, and a rate limit among its middlewares. What the other middlewares do is left open: `admits`
says how they may pass a request on. -/
structure LimitedTable where
  eng : Engine
  routes : List AttachedRoute
  groups : List AttachedGroup
  middlewares : List Middleware
  admits : Link → Inbound → Inbound → Prop
  mwID : String
  cfg : RateLimitConfig
  configured : ∃ mw, middlewareByID middlewares mwID = some mw ∧ mw.type = .rateLimit ∧
    mw.rateLimit = some cfg

namespace LimitedTable

variable (s : LimitedTable)

/-- The limiter that is built for each route. -/
def limiter : RateLimit := newTokenBucketLimiter s.cfg.requestsPerSecond s.cfg.burst

/-- A request of the client is dispatched to the route at the position and comes to the middleware, which
is applied to it. -/
def Comes (p : ℕ) (client : String) : Prop :=
  ∃ req e before l after r,
    (entries s.eng s.routes s.groups).findIdx? (fun e => e.compiled.accepts req.request) = some p ∧
      (entries s.eng s.routes s.groups)[p]? = some e ∧
      chain s.middlewares e.route e.group = before ++ l :: after ∧ l.middleware.id = s.mwID ∧
      Through s.admits before req r ∧ applies s.eng l.override r.request = true ∧
      r.clientIP (parseTrustedProxies s.cfg.trustedProxies) = client

/-- However requests come, no more of those of a client pass in a time than the burst and the rate
allow. -/
def Limited : Prop :=
  ∀ xs : List (ℤ × RateLimit.Event), (xs.Pairwise fun x y => x.1 ≤ y.1) →
    (∀ t p c, (t, .request p c) ∈ xs → s.Comes p c) →
    ∀ (client : String) (a T : ℤ), 0 ≤ T →
      (RateLimit.within a (a + T) (s.limiter.passes client (fun _ _ => none) xs) : ℚ) ≤
        s.limiter.capacity + s.limiter.rps * (T / 1000000000)

variable {s}

theorem inflow_eq (a T : ℤ) :
    s.limiter.inflow a (a + T) = s.limiter.rps * (T / 1000000000) := by
  rw [RateLimit.inflow]
  push_cast
  ring

section Exceeded

open RateLimit

variable {c : String} {p q : ℕ}

theorem comes_of_mem_volley {t t' : ℤ} {n : ℕ} {p' : ℕ} {c' : String} (hp : s.Comes p c)
    (h : (t', .request p' c') ∈ volley t p c n) : s.Comes p' c' := by
  obtain ⟨rfl, hevent⟩ := Prod.mk.inj (List.eq_of_mem_replicate h)
  obtain ⟨rfl, rfl⟩ := Event.request.inj hevent
  exact hp

theorem eq_of_limited (hburst : 1 ≤ s.limiter.burst) (h : s.Limited) (hp : s.Comes p c)
    (hq : s.Comes q c) : p = q := by
  by_contra hne
  obtain ⟨n, hn⟩ := Int.eq_ofNat_of_zero_le (zero_le_one.trans hburst)
  have hsorted : (volley 0 p c n ++ volley 0 q c n).Pairwise fun x y => x.1 ≤ y.1 := by
    refine List.pairwise_append.mpr ⟨pairwise_volley 0 p c n, pairwise_volley 0 q c n, ?_⟩
    intro x hx y hy
    rw [List.eq_of_mem_replicate hx, List.eq_of_mem_replicate hy]
  have hcomes : ∀ t p' c', (t, .request p' c') ∈ volley 0 p c n ++ volley 0 q c n → s.Comes p' c' :=
    fun t p' c' hmem => (List.mem_append.mp hmem).elim (comes_of_mem_volley hp) (comes_of_mem_volley hq)
  have hbound := h _ hsorted hcomes c 0 0 (le_refl 0)
  rw [passes_two_routes (Ne.symm hne) n hn.ge, within_append, within_replicate (by simp), capacity,
    max_eq_right (by omega), hn] at hbound
  push_cast at hbound
  have hpos : (1 : ℚ) ≤ n := by exact_mod_cast hn ▸ hburst
  linarith

/-- The first eviction comes a minute after the limiter was built. -/
theorem brief_of_limited (hburst : 1 ≤ s.limiter.burst) (h : s.Limited) (hp : s.Comes p c) :
    s.limiter.Brief := by
  by_contra hbrief
  obtain ⟨n, hn⟩ := Int.eq_ofNat_of_zero_le (zero_le_one.trans hburst)
  set later := volley 60000000000 p c n
  have hlater : ∀ x ∈ later, x.1 = 60000000000 := fun x hx => by rw [List.eq_of_mem_replicate hx]
  have hsorted : (volley 0 p c n ++ (60000000000, .evict p) :: later).Pairwise fun x y => x.1 ≤ y.1 := by
    refine List.pairwise_append.mpr ⟨pairwise_volley 0 p c n,
      List.pairwise_cons.mpr ⟨fun x hx => (hlater x hx).ge, pairwise_volley _ p c n⟩, ?_⟩
    have hminute : (0 : ℤ) ≤ 60000000000 := by decide
    intro x hx y hy
    rw [List.eq_of_mem_replicate hx]
    rcases List.mem_cons.mp hy with rfl | hy
    · exact hminute
    · rw [hlater y hy]
      exact hminute
  have hcomes : ∀ t p' c', (t, .request p' c') ∈ volley 0 p c n ++ (60000000000, .evict p) :: later →
      s.Comes p' c' := by
    intro t p' c' hmem
    rcases List.mem_append.mp hmem with hmem | hmem
    · exact comes_of_mem_volley hp hmem
    · rcases List.mem_cons.mp hmem with heq | hmem
      · cases (Prod.mk.inj heq).2
      · exact comes_of_mem_volley hp hmem
  have hbound := h _ hsorted hcomes c 0 60000000000 (by decide)
  rw [passes_forgotten hbrief (by decide) n hn.ge, within_append, within_replicate (by decide),
    within_replicate (by decide), capacity, max_eq_right (by omega), hn] at hbound
  -- The burst is what flows in within a minute, and the bucket takes more than a century to fill up.
  have hrefill := not_lt.mp hbrief
  have hrps := s.limiter.rps_pos
  rw [refill, hn, le_div_iff₀ hrps] at hrefill
  push_cast at hbound hrefill
  linarith

end Exceeded

/-- There is a route that serves all requests of a client. -/
theorem exists_position (hone : ∀ c p q, s.Comes p c → s.Comes q c → p = q)
    {xs : List (ℤ × RateLimit.Event)} (hcomes : ∀ t p c, (t, .request p c) ∈ xs → s.Comes p c)
    (client : String) : ∃ p, ∀ x ∈ xs, x.2.At client p := by
  by_cases hclient : ∃ p, s.Comes p client
  · obtain ⟨p, hp⟩ := hclient
    refine ⟨p, fun x hx => ?_⟩
    obtain ⟨t, e⟩ := x
    cases e with
    | request q c => exact fun hc => hone client q p (hc ▸ hcomes t q c hx) hp
    | evict q => trivial
  · refine ⟨0, fun x hx => ?_⟩
    obtain ⟨t, e⟩ := x
    cases e with
    | request q c => exact fun hc => absurd ⟨q, hc ▸ hcomes t q c hx⟩ hclient
    | evict q => trivial

/-- The bound holds for a middleware exactly if nothing passes it, or all requests of a client that come
to it are served by one route, and the time in which a bucket fills up can be doubled. -/
theorem limited_iff (s : LimitedTable) :
    s.Limited ↔ s.limiter.burst < 1 ∨
      (∀ c p q, s.Comes p c → s.Comes q c → p = q) ∧ (s.limiter.Brief ∨ ∀ p c, ¬s.Comes p c) := by
  constructor
  · intro h
    by_cases hburst : s.limiter.burst < 1
    · exact .inl hburst
    · refine .inr ⟨fun c p q hp hq => eq_of_limited (not_lt.mp hburst) h hp hq, ?_⟩
      refine or_iff_not_imp_left.mpr fun hbrief p c hp => ?_
      exact hbrief (brief_of_limited (not_lt.mp hburst) h hp)
  · intro h xs hsorted hcomes client a T hT
    have hnone : s.limiter.passes client (fun _ _ => none) xs = [] →
        (RateLimit.within a (a + T) (s.limiter.passes client (fun _ _ => none) xs) : ℚ) ≤
          s.limiter.capacity + s.limiter.rps * (T / 1000000000) := by
      intro hpasses
      have hcapacity : (0 : ℚ) ≤ s.limiter.capacity := Int.cast_nonneg (le_max_left _ _)
      have hin : 0 ≤ s.limiter.inflow a (a + T) := RateLimit.inflow_nonneg (by omega)
      rw [hpasses, ← inflow_eq]
      exact (Nat.cast_zero (R := ℚ)).le.trans (by linarith)
    by_cases hburst : s.limiter.burst < 1
    · exact hnone (RateLimit.passes_of_refused hburst _)
    rcases h.resolve_left hburst with ⟨hone, hbrief | hnobody⟩
    · obtain ⟨p, hp⟩ := exists_position hone hcomes client
      rw [← inflow_eq, RateLimit.capacity, max_eq_right (by omega)]
      exact RateLimit.within_passes_le (by omega) hbrief hsorted hp (by omega)
    · refine hnone (RateLimit.passes_eq_nil (fun bs x hx => ?_) _)
      obtain ⟨t, e⟩ := x
      cases e with
      | request q c => exact absurd (hcomes t q c hx) (hnobody q c)
      | evict q => rfl

end LimitedTable

/-! ## Two routes -/

def limitMiddleware : Middleware where
  id := "limit"
  type := .rateLimit
  rateLimit := some { requestsPerSecond := 1, burst := 1 }

/-- A route for the paths that start in some way, with the rate limit. -/
def limitedRoute (id start : String) : AttachedRoute where
  id := id
  name := id
  «match» := { pathPrefix := start }
  middlewareIDs := ["limit"]

/-- Two routes refer to one rate limit of one request per second. -/
def twoLimitedRoutes : LimitedTable where
  eng := noEngine
  routes := [limitedRoute "a" "/a", limitedRoute "b" "/b"]
  groups := []
  middlewares := [limitMiddleware]
  admits _ r r' := r = r'
  mwID := "limit"
  cfg := { requestsPerSecond := 1, burst := 1 }
  configured := ⟨limitMiddleware, rfl, rfl, rfl⟩

/-- Each route has a limiter of its own, so two requests pass at once. -/
theorem not_limited_twoLimitedRoutes : ¬twoLimitedRoutes.Limited := by
  intro h
  have hfirst : twoLimitedRoutes.Comes 0 "192.0.2.1" :=
    ⟨plainRequest "/a" (by decide), ⟨_, limitedRoute "a" "/a", none⟩, [], ⟨limitMiddleware, none⟩, [],
      plainRequest "/a" (by decide), by decide, rfl, rfl, rfl, rfl, rfl, by decide⟩
  have hsecond : twoLimitedRoutes.Comes 1 "192.0.2.1" :=
    ⟨plainRequest "/b" (by decide), ⟨_, limitedRoute "b" "/b", none⟩, [], ⟨limitMiddleware, none⟩, [],
      plainRequest "/b" (by decide), by decide, rfl, rfl, rfl, rfl, rfl, by decide⟩
  have hburst : (1 : ℤ) ≤ twoLimitedRoutes.limiter.burst := by decide
  exact absurd (LimitedTable.eq_of_limited hburst h hfirst hsecond) (by decide)

end Vrata.Proxy
