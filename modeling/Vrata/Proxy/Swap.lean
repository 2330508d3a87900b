import Mathlib.Data.List.Basic
import Vrata.Lib.Runs
import Vrata.Server.Middleware

/-!
# Replacing the routing table

Reference: `SwapTable` and `ServeHTTP` of `server/internal/proxy/router.go`, `buildRouteHandler` and
`buildMiddleware` of `handler.go`, and the middlewares that return a stop function.

A request is served by the table that it has loaded, to its end. `SwapTable` installs a new table and then
calls the cleanup functions of the old one, one after the other, whoever is still being served by it.

`undisturbed_iff` says in which runs no cleanup function of a table can run while a request is served by
that table: a table is replaced only when it has no cleanup functions or serves no request.
-/

namespace Vrata.Proxy

open Runs Server

/-! ## Cleanup functions -/

/-- What the stop functions of the middlewares do. -/
inductive Cleanup where
  | closeConn
  | stopWorkers
  | closeFile
  | stopLimiter
  | stopRefresh
deriving DecidableEq, Repr

/-- Whether a log file can be opened, and whether a client can be made for a destination. -/
structure Surroundings where
  opens : String → Bool
  dials : String → Bool

section Registered

variable (env : Surroundings)

/-- If the file cannot be opened, the lines go to the standard output. -/
def logCleanup (path : String) : List Cleanup :=
  if path ∈ ["/dev/stdout", "stdout", "/dev/stderr", "stderr"] then []
  else if env.opens path then [.closeFile]
  else []

def stopRateLimit : Option RateLimitConfig → Option (List Cleanup)
  | none => none
  | some _ => some [.stopLimiter]

def stopJWT : Option JWTConfig → Option (List Cleanup)
  | none => none
  | some cfg => if cfg.issuer = "" then none else some [.stopRefresh]

def stopAccessLog : Option AccessLogConfig → Option (List Cleanup)
  | none => none
  | some cfg =>
    if cfg.path = "" then none
    else if cfg.onRequest = none ∧ cfg.onResponse = none then none
    else some (logCleanup env cfg.path)

def stopExtProc (services : List String) : Option ExtProcConfig → Option (List Cleanup)
  | none => none
  | some cfg =>
    if cfg.destinationID = "" then none
    else if cfg.destinationID ∉ services then none
    else
      some ((if cfg.mode ≠ "http" ∧ env.dials cfg.destinationID then [.closeConn] else []) ++
        if cfg.observeMode.any ObserveModeConfig.enabled then [.stopWorkers] else [])

/-- The stop function of a middleware, if there is one. -/
def stopFunction (services : List String) (mw : Middleware) : Option (List Cleanup) :=
  match mw.type with
  | .rateLimit => stopRateLimit mw.rateLimit
  | .jwt => stopJWT mw.jwt
  | .accessLog => stopAccessLog env mw.accessLog
  | .extProc => stopExtProc env services mw.extProc
  | .extAuthz | .cors | .headers | .inlineAuthz | .unknown => none

/-- The cleanup functions of a table, from the middlewares that its routes go through. -/
def registered (services : List String) (routes : List (List Middleware)) : List (List Cleanup) :=
  routes.flatMap fun chain => chain.filterMap (stopFunction env services)

end Registered

/-! ## The router -/

/-- The tables are numbered in the order in which they are installed. -/
structure RouterState where
  table : ℕ := 0
  /-- The cleanup functions of the table. -/
  cleanups : List (List Cleanup) := []
  /-- The requests that are being served, each by the table it has loaded. -/
  serving : List ℕ := []
  /-- The calls of `SwapTable` that have installed their table: the table it has replaced, and its
  cleanup functions that have not been called yet. -/
  closing : List (ℕ × List (List Cleanup)) := []
  closing_lt : ∀ call ∈ closing, call.1 < table

namespace RouterState

def new : RouterState where
  closing_lt := fun _ h => absurd h List.not_mem_nil

inductive Action where
  /-- A request arrives and loads the table. -/
  | load
  | finish (i : ℕ)
  /-- `SwapTable` installs a table with the cleanup functions. -/
  | swap (cleanups : List (List Cleanup))
  /-- One of the calls of `SwapTable` calls the next cleanup function. -/
  | cleanup (i : ℕ)

variable (s : RouterState)

theorem lt_of_swap : ∀ call ∈ s.closing ++ [(s.table, s.cleanups)], call.1 < s.table + 1 := by
  intro call hcall
  rcases List.mem_append.mp hcall with hold | hnew
  · exact Nat.lt_succ_of_lt (s.closing_lt call hold)
  · rw [List.mem_singleton.mp hnew]
    exact Nat.lt_succ_self _

/-- The call has one cleanup function less to call. -/
def called (i : ℕ) : List (ℕ × List (List Cleanup)) :=
  s.closing.modify i fun call => (call.1, call.2.tail)

theorem exists_of_mem_called {i : ℕ} {call : ℕ × List (List Cleanup)} (h : call ∈ s.called i) :
    ∃ call' ∈ s.closing, call.1 = call'.1 ∧ (call.2 = call'.2 ∨ call.2 = call'.2.tail) := by
  obtain ⟨j, hj⟩ := List.mem_iff_getElem?.mp h
  rw [called, List.getElem?_modify] at hj
  obtain ⟨call', hcall', rfl⟩ := Option.map_eq_some_iff.mp hj
  refine ⟨call', List.mem_of_getElem? hcall', ?_⟩
  split
  · exact ⟨rfl, .inr rfl⟩
  · exact ⟨rfl, .inl rfl⟩

theorem lt_of_called (i : ℕ) : ∀ call ∈ s.called i, call.1 < s.table := by
  intro call hcall
  obtain ⟨call', hmem, heq, -⟩ := s.exists_of_mem_called hcall
  rw [heq]
  exact s.closing_lt call' hmem

def step : Action → RouterState
  | .load => { s with serving := s.serving ++ [s.table] }
  | .finish i => { s with serving := s.serving.eraseIdx i }
  | .swap cleanups =>
    { s with
      table := s.table + 1
      cleanups := cleanups
      closing := s.closing ++ [(s.table, s.cleanups)]
      closing_lt := s.lt_of_swap }
  | .cleanup i => { s with closing := s.called i, closing_lt := s.lt_of_called i }

/-- The next cleanup function of the call is one of a table that serves a request. -/
def Disturbs (i : ℕ) : Prop :=
  ∃ table fn fns, s.closing[i]? = some (table, fn :: fns) ∧ table ∈ s.serving

/-- Throughout the run, whichever cleanup function is called next, its table serves no request. -/
def Undisturbed (as : List Action) : Prop := Always step (fun s => ∀ i, ¬s.Disturbs i) s as

/-- A table is replaced only when it has no cleanup functions or serves no request. -/
def Quiet : Action → Prop
  | .swap _ => s.cleanups = [] ∨ s.table ∉ s.serving
  | _ => True

variable {s}

theorem idle_iff : (∀ i, ¬s.Disturbs i) ↔ ∀ call ∈ s.closing, call.2 ≠ [] → call.1 ∉ s.serving := by
  constructor
  · rintro h ⟨table, fns⟩ hcall hne hserving
    obtain ⟨i, hi⟩ := List.mem_iff_getElem?.mp hcall
    obtain ⟨fn, fns, rfl⟩ := List.exists_cons_of_ne_nil hne
    exact h i ⟨table, fn, fns, hi, hserving⟩
  · rintro h i ⟨table, fn, fns, hi, hserving⟩
    exact h _ (List.mem_of_getElem? hi) (List.cons_ne_nil fn fns) hserving

/-- No step but a swap makes a cleanup function disturb a request: the tables that are being closed are
not loaded any more. -/
theorem idle_step (h : ∀ i, ¬s.Disturbs i) (a : Action) : (∀ i, ¬(s.step a).Disturbs i) ↔ s.Quiet a := by
  rw [idle_iff] at h ⊢
  cases a with
  | load =>
    refine iff_of_true (fun call hcall hne hserving => ?_) trivial
    rcases List.mem_append.mp hserving with hold | hnew
    · exact h call hcall hne hold
    · exact absurd (List.mem_singleton.mp hnew) (s.closing_lt call hcall).ne
  | finish i =>
    refine iff_of_true (fun call hcall hne hserving => ?_) trivial
    exact h call hcall hne (List.mem_of_mem_eraseIdx hserving)
  | swap cleanups =>
    constructor
    · intro hnext
      have hcall := hnext (s.table, s.cleanups) (List.mem_append_right _ (List.mem_singleton_self _))
      exact or_iff_not_imp_left.mpr hcall
    · intro hquiet call hcall hne hserving
      rcases List.mem_append.mp hcall with hold | hnew
      · exact h call hold hne hserving
      · rw [List.mem_singleton.mp hnew] at hne hserving
        exact hquiet.elim hne (· hserving)
  | cleanup i =>
    refine iff_of_true (fun call hcall hne hserving => ?_) trivial
    obtain ⟨call', hmem, htable, hfns⟩ := s.exists_of_mem_called hcall
    refine h call' hmem (fun hnil => hne ?_) (htable ▸ hserving)
    rcases hfns with hfns | hfns
    · rw [hfns, hnil]
    · rw [hfns, hnil]
      rfl

/-- No cleanup function can run while its table serves a request, exactly if no table with cleanup
functions is replaced while it serves one. -/
theorem undisturbed_iff (as : List Action) : new.Undisturbed as ↔ Along step Quiet new as :=
  always_iff_along (fun _ a h => idle_step h a) (idle_iff.mpr fun _ h => absurd h List.not_mem_nil)

end RouterState

/-! ## A log file -/

/-- The routes of one table go through an access log in a file. -/
def loggedTable : List (List Cleanup) :=
  registered ⟨fun _ => true, fun _ => true⟩ [] [[{
    id := "log"
    type := .accessLog
    accessLog := some ⟨"/var/log/access.log", some [], some []⟩ }]]

/-- The file is closed while a request is being served that has yet to log its response. -/
theorem not_undisturbed_loggedTable :
    ¬RouterState.new.Undisturbed [.swap loggedTable, .load, .swap []] := by
  intro h
  exact h _ List.prefix_rfl 1 ⟨1, [.closeFile], [], rfl, List.mem_singleton_self _⟩

end Vrata.Proxy
