import Vrata.Proxy.RateLimit.Windows

/-!
# The calls of one limiter

Reference: `newTokenBucketLimiter`, `Allow` and `evictStale` of
`server/internal/proxy/middlewares/ratelimit.go`.

`Allow` and `evictStale` hold the lock of the limiter, so they come one after the other, each at its time.
What `Allow` answers depends on the level of the bucket alone, and `evictStale` does not change it: a bucket
is forgotten only after it has filled up (`answersFrom_eq`), so that no window of time sees more than the
burst and the inflow (`admitted_le`).

A client that keeps to the rate finds a token whenever it comes, if the bucket can hold one at all. A burst
that is not given is the rate as an integer, which is zero for rates below one and negative for rates that do
not fit (`conforming_iff`).
-/

namespace Vrata.Proxy

namespace RateLimit

inductive Call where
  | allow (key : String)
  | evictStale
deriving DecidableEq, Repr

section Run

variable (l : RateLimit)

/-- The buckets after a call. -/
def step (s : String → Option Bucket) : ℤ × Call → String → Option Bucket
  | (t, .allow key) => Function.update s key (some (l.allow (s key) t).2)
  | (t, .evictStale) => fun key => l.evictStale (s key) t

/-- The answers of `Allow`, each with its time and key. -/
def answers : (String → Option Bucket) → List (ℤ × Call) → List (ℤ × String × Bool)
  | _, [] => []
  | s, (t, .allow key) :: calls =>
    (t, key, (l.allow (s key) t).1) :: answers (l.step s (t, .allow key)) calls
  | s, (t, .evictStale) :: calls => answers (l.step s (t, .evictStale)) calls

/-- The answers of a limiter that was just made. -/
def answersFrom (calls : List (ℤ × Call)) : List (ℤ × String × Bool) := l.answers (fun _ => none) calls

end Run

variable {l : RateLimit} {s s' : String → Option Bucket} {b b' : Option Bucket} {key : String} {t t' : ℤ}
  {calls calls' : List (ℤ × Call)}

/-- The burst is at least one if it is given, or the rate is not a fraction below one and fits. -/
theorem one_le_burst_iff (rps : ℚ) (burst : ℤ) :
    1 ≤ (newTokenBucketLimiter rps burst).burst ↔
      0 < burst ∨ rps ≤ 0 ∨ 1 ≤ rps ∧ rps < 9223372036854775808 := by
  simp only [newTokenBucketLimiter]
  by_cases hburst : burst ≤ 0
  · rw [if_pos hburst, or_iff_right (not_lt.mpr hburst)]
    by_cases hrps : rps ≤ 0
    · rw [if_pos hrps]
      exact iff_of_true (by norm_num [toInt64_of_nonneg]) (.inl hrps)
    · rw [if_neg hrps, or_iff_right hrps, toInt64_of_nonneg (by linarith)]
      have hfits : ⌊rps⌋ < 9223372036854775808 ↔ rps < 9223372036854775808 := by
        exact_mod_cast Int.floor_lt (z := 9223372036854775808) (a := rps)
      split
      · next hlt => simpa [hfits.mp hlt] using Int.le_floor (z := 1) (a := rps)
      · next hlt => exact iff_of_false (by decide) fun h => hlt (hfits.mpr h.2)
  · rw [if_neg hburst]
    exact iff_of_true (by omega) (.inl (not_le.mp hburst))

/-! ## Windows -/

/-- The same call of the limiter of a table that has only one. -/
def Call.event : Call → Event
  | .allow key => .request 0 key
  | .evictStale => .evict 0

/-- The times at which the requests of a key pass are those of the answers that admit them. -/
theorem passes_event {bs : Buckets} (h : bs 0 = s) (calls : List (ℤ × Call)) :
    l.passes key bs (calls.map fun x => (x.1, x.2.event)) =
      ((l.answers s calls).filter fun x => x.2.1 = key && x.2.2).map Prod.fst := by
  induction calls generalizing bs s with
  | nil => rfl
  | cons x calls ih =>
    obtain ⟨t, call⟩ := x
    cases call with
    | allow k =>
      have hnext : l.next bs (t, .request 0 k) 0 = l.step s (t, .allow k) := by
        funext k'
        simp only [next, step, Function.update_apply, h, true_and]
      change (if l.lets key bs (t, .request 0 k) then [t] else []) ++
        l.passes key (l.next bs (t, .request 0 k)) _ = _
      rw [ih hnext, answers, List.filter_cons, lets, h]
      split <;> rfl
    | evictStale =>
      have hnext : l.next bs (t, .evict 0) 0 = l.step s (t, .evictStale) := by
        funext k'
        simp only [next, step, if_true, h]
      change [] ++ l.passes key (l.next bs (t, .evict 0)) _ = _
      rw [List.nil_append, ih hnext, answers]

/-- Whether a key is admitted within a window of so many seconds. -/
def admittedWithin (key : String) (start seconds : ℚ) (x : ℤ × String × Bool) : Bool :=
  x.2.1 = key && x.2.2 && (start ≤ x.1 && x.1 ≤ start + seconds * 1000000000)

/-- In every window, a key is admitted no more often than the burst and what flows into its bucket in that
time, whatever else is called. -/
theorem admitted_le (rps : ℚ) (burst : ℤ) (hbrief : (newTokenBucketLimiter rps burst).Brief)
    (calls : List (ℤ × Call)) (hsorted : calls.Pairwise fun x y => x.1 ≤ y.1) (key : String)
    (start seconds : ℚ) (hseconds : 0 ≤ seconds) :
    ((((newTokenBucketLimiter rps burst).answersFrom calls).filter
        (admittedWithin key start seconds)).length : ℚ) ≤
      (newTokenBucketLimiter rps burst).capacity + (newTokenBucketLimiter rps burst).rps * seconds := by
  set l := newTokenBucketLimiter rps burst
  have hcapacity : (0 : ℚ) ≤ l.capacity := Int.cast_nonneg (le_max_left _ _)
  have hrps := l.rps_pos
  -- times are whole numbers, so the window may be shrunk to such
  set a := ⌈start⌉
  set b := ⌊start + seconds * 1000000000⌋
  have hcount : ((l.answersFrom calls).filter (admittedWithin key start seconds)).length =
      within a b (l.passes key (fun _ _ => none) (calls.map fun x => (x.1, x.2.event))) := by
    rw [passes_event rfl, within, List.filter_map, List.length_map, List.filter_filter]
    refine congrArg List.length (List.filter_congr fun x _ => ?_)
    simp only [admittedWithin, Function.comp_apply, a, b, Int.ceil_le, Int.le_floor, Bool.decide_and,
      Bool.and_comm]
  rw [hcount]
  by_cases hburst : l.burst < 1
  · rw [passes_of_refused hburst]
    exact (Nat.cast_zero (R := ℚ)).le.trans (by positivity)
  by_cases hab : a ≤ b
  · have hevents : (calls.map fun x => (x.1, x.2.event)).Pairwise fun x y => x.1 ≤ y.1 :=
      List.pairwise_map.mpr hsorted
    have hat : ∀ x ∈ calls.map fun x => (x.1, x.2.event), x.2.At key 0 := by
      intro x hx
      obtain ⟨⟨t, call⟩, -, rfl⟩ := List.mem_map.mp hx
      cases call with
      | allow k => exact fun _ => rfl
      | evictStale => trivial
    have hbound := within_passes_le (by omega) hbrief hevents hat hab
    have hsame : l.capacity = l.burst := max_eq_right (by omega)
    have hlength : (b - a : ℚ) ≤ seconds * 1000000000 := by
      have hceil : start ≤ a := Int.le_ceil start
      have hfloor : (b : ℚ) ≤ start + seconds * 1000000000 := Int.floor_le _
      linarith
    have hinflow : l.inflow a b ≤ l.rps * seconds := by
      rw [inflow, mul_comm]
      gcongr
      linarith
    rw [hsame]
    linarith
  · rw [within_eq_zero fun t _ hin => hab (hin.1.trans hin.2), Nat.cast_zero]
    positivity

theorem brief_twoPerSecond : (newTokenBucketLimiter 2 4).Brief := by
  norm_num [Brief, refill, newTokenBucketLimiter]

/-- A client comes three times, and its bucket is looked at in between. -/
def threeCalls : List (ℤ × Call) :=
  [(0, .allow "ann"), (1000000000, .evictStale), (6000000000, .allow "ann"), (6000000000, .allow "ann")]

theorem admitted_le_threeCalls :
    ((((newTokenBucketLimiter 2 4).answersFrom threeCalls).filter (admittedWithin "ann" 0 6)).length : ℚ) ≤
      (newTokenBucketLimiter 2 4).capacity + (newTokenBucketLimiter 2 4).rps * 6 :=
  admitted_le 2 4 brief_twoPerSecond threeCalls (by simp [threeCalls]) "ann" 0 6 (by norm_num)

/-! ## Forgetting buckets is not noticed -/

/-- Two buckets from which the same is taken from now on. -/
def Alike (l : RateLimit) (t : ℤ) (b b' : Option Bucket) : Prop :=
  ∀ t', t ≤ t' → l.level b t' = l.level b' t'

theorem allow_congr (h : l.level b t = l.level b' t) : l.allow b t = l.allow b' t := by
  rw [allow, allow, h]

theorem Alike.mono (h : l.Alike t b b') (hle : t ≤ t') : l.Alike t' b b' :=
  fun u hu => h u (hle.trans hu)

theorem alike_evictStale (hburst : 0 ≤ l.burst) (hbrief : l.Brief) (hb : Sound b t) :
    l.Alike t (l.evictStale b t) b := by
  intro t' hle
  cases b with
  | none => rfl
  | some x =>
    have hlevel := level_evict hburst hbrief hb
    rw [evictStale, Option.filter_some] at hlevel ⊢
    split
    · rfl
    · -- the bucket is full by now, and stays so
      rename_i hlate
      rw [if_neg hlate, level_none] at hlevel
      rw [level_none, level_eq_burst_mono hlevel.symm hle]

theorem sound_step (hburst : 0 ≤ l.burst) {x : ℤ × Call} (hs : ∀ key, Sound (s key) x.1) (key : String) :
    Sound (l.step s x key) x.1 := by
  obtain ⟨t, call⟩ := x
  cases call with
  | allow k =>
    rw [step, Function.update_apply]
    split
    · exact sound_allow hburst (hs k)
    · exact hs key
  | evictStale => exact sound_evictStale (hs key)

def Call.isAllow : Call → Bool
  | .allow _ => true
  | .evictStale => false

/-- The answers are those of a limiter that never forgets a bucket, if their buckets are alike. -/
theorem answers_filter (hburst : 0 ≤ l.burst) (hbrief : l.Brief)
    (hsorted : calls.Pairwise fun x y => x.1 ≤ y.1) (hstart : ∀ x ∈ calls, t ≤ x.1)
    (hs : ∀ key, Sound (s key) t) (halike : ∀ key, l.Alike t (s key) (s' key)) :
    l.answers s calls = l.answers s' (calls.filter fun x => x.2.isAllow) := by
  induction calls generalizing s s' t with
  | nil => rfl
  | cons x calls ih =>
    obtain ⟨hhead, htail⟩ := List.pairwise_cons.mp hsorted
    have hle := hstart x List.mem_cons_self
    have hsx : ∀ key, Sound (s key) x.1 := fun key => (hs key).mono hle
    have hnext := sound_step hburst hsx
    obtain ⟨t', call⟩ := x
    cases call with
    | allow k =>
      -- the level decides about the answer and about the bucket that is left
      have hallow := allow_congr (halike k t' hle)
      rw [List.filter_cons_of_pos rfl, answers, answers, hallow]
      refine congrArg _ (ih htail hhead hnext fun key => ?_)
      rw [step, step, Function.update_apply, Function.update_apply, hallow]
      split
      · exact fun _ _ => rfl
      · exact (halike key).mono hle
    | evictStale =>
      rw [List.filter_cons_of_neg (by simp [Call.isAllow]), answers]
      refine ih htail hhead hnext fun key u hu => ?_
      rw [step, alike_evictStale hburst hbrief (hsx key) u hu, halike key u (hle.trans hu)]

/-- Where every request is refused, the buckets make no difference. -/
theorem answers_of_refused (hburst : l.burst < 1) :
    l.answers s calls = l.answers s' (calls.filter fun x => x.2.isAllow) := by
  induction calls generalizing s s' with
  | nil => rfl
  | cons x calls ih =>
    obtain ⟨t, call⟩ := x
    cases call with
    | allow k =>
      rw [List.filter_cons_of_pos rfl, answers, answers, allow_eq_false hburst, allow_eq_false hburst, ih]
    | evictStale =>
      rw [List.filter_cons_of_neg (by simp [Call.isAllow]), answers]
      exact ih

/-- Schedules with the same calls of `Allow` get the same answers, wherever buckets are forgotten. -/
theorem answersFrom_eq (rps : ℚ) (burst : ℤ) (hbrief : (newTokenBucketLimiter rps burst).Brief)
    (calls calls' : List (ℤ × Call)) (hsorted : calls.Pairwise fun x y => x.1 ≤ y.1)
    (hsorted' : calls'.Pairwise fun x y => x.1 ≤ y.1)
    (hsame : calls.filter (fun x => x.2.isAllow) = calls'.filter fun x => x.2.isAllow) :
    (newTokenBucketLimiter rps burst).answersFrom calls =
      (newTokenBucketLimiter rps burst).answersFrom calls' := by
  have hfilter : ∀ calls : List (ℤ × Call), (calls.Pairwise fun x y => x.1 ≤ y.1) →
      (newTokenBucketLimiter rps burst).answersFrom calls =
        (newTokenBucketLimiter rps burst).answersFrom (calls.filter fun x => x.2.isAllow) := by
    intro calls hsorted
    by_cases hburst : (newTokenBucketLimiter rps burst).burst < 1
    · exact answers_of_refused hburst
    cases calls with
    | nil => rfl
    | cons x calls =>
      refine answers_filter (t := x.1) (by omega) hbrief hsorted ?_ (fun _ _ h => by cases h) fun _ _ _ => rfl
      exact List.forall_mem_cons.mpr ⟨le_refl _, (List.pairwise_cons.mp hsorted).1⟩
  rw [hfilter calls hsorted, hfilter calls' hsorted', hsame]

theorem answersFrom_eq_threeCalls : (newTokenBucketLimiter 2 4).answersFrom threeCalls =
    (newTokenBucketLimiter 2 4).answersFrom
      [(0, .allow "ann"), (6000000000, .allow "ann"), (6000000000, .allow "ann"),
        (9000000000, .evictStale)] :=
  answersFrom_eq 2 4 brief_twoPerSecond threeCalls _ (by simp [threeCalls]) (by simp) rfl

/-! ## Clients that keep to the rate -/

/-- The requests of a key are at least so far apart as a token takes. -/
def Spaced (l : RateLimit) (key : String) (calls : List (ℤ × Call)) : Prop :=
  calls.Pairwise fun x y => x.2 = .allow key → y.2 = .allow key →
    1 / l.rps ≤ ((y.1 - x.1 : ℤ) : ℚ) / 1000000000

theorem level_le_evictStale (b : Option Bucket) (t t' : ℤ) :
    l.level b t' ≤ l.level (l.evictStale b t) t' := by
  cases b with
  | none => exact le_refl _
  | some x =>
    rw [evictStale, Option.filter_some]
    split
    · exact le_refl _
    · exact (l.level_none t').symm ▸ l.level_le_burst (some x) t'

/-- After a request that was admitted there is a token again when the next one may come. -/
theorem one_le_level_of_spaced (hburst : 1 ≤ l.burst) (hlevel : 1 ≤ l.level b t)
    (h : 1 / l.rps ≤ ((t' - t : ℤ) : ℚ) / 1000000000) : 1 ≤ l.level (some (l.allow b t).2) t' := by
  have hburst' : (1 : ℚ) ≤ l.burst := by exact_mod_cast hburst
  have hinflow : 1 ≤ l.inflow t t' := by
    have hmul := (div_le_iff₀ l.rps_pos).mp h
    rwa [Int.cast_sub] at hmul
  rw [allow, if_neg (not_lt.mpr hlevel), level_some]
  exact le_min hburst' (by linarith)

/-- If a token is there whenever the key comes, all its requests are admitted. -/
theorem admitted_of_spaced (hburst : 1 ≤ l.burst) (hspaced : l.Spaced key calls)
    (hready : ∀ x ∈ calls, x.2 = .allow key → 1 ≤ l.level (s key) x.1) :
    ∀ x ∈ l.answers s calls, x.2.1 = key → x.2.2 = true := by
  induction calls generalizing s with
  | nil =>
    intro x hx
    cases hx
  | cons x calls ih =>
    obtain ⟨hhead, htail⟩ := List.pairwise_cons.mp hspaced
    obtain ⟨t, call⟩ := x
    have hrest : ∀ y ∈ calls, y.2 = .allow key → 1 ≤ l.level (s key) y.1 :=
      fun y hy => hready y (List.mem_cons_of_mem _ hy)
    cases call with
    | allow k =>
      rw [answers, List.forall_mem_cons]
      by_cases hk : k = key
      · subst hk
        have hlevel := hready (t, .allow k) List.mem_cons_self rfl
        refine ⟨fun _ => by rw [allow, if_neg (not_lt.mpr hlevel)], ih htail fun y hy hyk => ?_⟩
        rw [step, Function.update_self]
        exact one_le_level_of_spaced hburst hlevel (hhead y hy rfl hyk)
      · refine ⟨fun h => absurd h hk, ih htail fun y hy hyk => ?_⟩
        rw [step, Function.update_of_ne (Ne.symm hk)]
        exact hrest y hy hyk
    | evictStale =>
      rw [answers]
      exact ih htail fun y hy hyk => (hrest y hy hyk).trans (level_le_evictStale (s key) t y.1)

/-- Every call of `Allow` is answered, and with a burst below one in the negative. -/
theorem exists_refused (hburst : l.burst < 1) (h : ∃ t, (t, Call.allow key) ∈ calls) :
    ∃ x ∈ l.answers s calls, x.2.1 = key ∧ x.2.2 = false := by
  obtain ⟨t, hmem⟩ := h
  induction calls generalizing s with
  | nil => cases hmem
  | cons x calls ih =>
    obtain ⟨u, call⟩ := x
    cases call with
    | allow k =>
      rw [answers]
      rcases List.mem_cons.mp hmem with heq | hmem
      · cases heq
        have hlt : l.level (s key) t < 1 :=
          (l.level_le_burst (s key) t).trans_lt (by exact_mod_cast hburst)
        exact ⟨_, List.mem_cons_self, rfl, by rw [allow, if_pos hlt]⟩
      · obtain ⟨y, hy, hyk⟩ := ih hmem
        exact ⟨y, List.mem_cons_of_mem _ hy, hyk⟩
    | evictStale =>
      rw [answers]
      exact ih ((List.mem_cons.mp hmem).resolve_left fun h => by cases h)

/-- The requests of a key that keeps to the rate are all admitted exactly if the burst is given, or the rate
is not a fraction below one and fits into 64 bits. -/
theorem conforming_iff (rps : ℚ) (burst : ℤ) (key : String) (calls : List (ℤ × Call))
    (hspaced : (newTokenBucketLimiter rps burst).Spaced key calls) (hcomes : ∃ t, (t, .allow key) ∈ calls) :
    (∀ x ∈ (newTokenBucketLimiter rps burst).answersFrom calls, x.2.1 = key → x.2.2 = true) ↔
      0 < burst ∨ rps ≤ 0 ∨ 1 ≤ rps ∧ rps < 9223372036854775808 := by
  rw [← one_le_burst_iff]
  constructor
  · intro hall
    by_contra hburst
    obtain ⟨x, hx, hkey, hrefused⟩ := exists_refused (not_le.mp hburst) hcomes
    exact absurd (hall x hx hkey) (by simp [hrefused])
  · intro hburst
    refine admitted_of_spaced hburst hspaced fun x _ _ => ?_
    rw [level_none]
    exact_mod_cast hburst

theorem conforming_second :
    (newTokenBucketLimiter 1 0).Spaced "ann" [(0, .allow "ann"), (1000000000, .allow "ann")] ∧
      ∀ x ∈ (newTokenBucketLimiter 1 0).answersFrom [(0, .allow "ann"), (1000000000, .allow "ann")],
        x.2.1 = "ann" → x.2.2 = true := by
  have hspaced :
      (newTokenBucketLimiter 1 0).Spaced "ann" [(0, .allow "ann"), (1000000000, .allow "ann")] := by
    norm_num [Spaced, newTokenBucketLimiter]
  exact ⟨hspaced, (conforming_iff 1 0 "ann" _ hspaced ⟨0, List.mem_cons_self⟩).mpr (by norm_num)⟩

/-- One request every two seconds, without a burst: the bucket can never hold a token, and the first request
is turned away. -/
theorem refused_half : (newTokenBucketLimiter (1 / 2) 0).Spaced "ann" [(0, .allow "ann")] ∧
    (newTokenBucketLimiter (1 / 2) 0).answersFrom [(0, .allow "ann")] = [(0, "ann", false)] := by
  refine ⟨List.pairwise_singleton _ _, ?_⟩
  have hlevel : (newTokenBucketLimiter (1 / 2) 0).level none 0 < 1 := by
    rw [level_none]
    norm_num [newTokenBucketLimiter, toInt64_of_nonneg]
  rw [answersFrom, answers, allow, if_pos hlevel, answers]

end RateLimit

end Vrata.Proxy
