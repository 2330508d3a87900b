import Mathlib.Data.List.Nodup
import Vrata.Lib.Tagged
import Vrata.Proxy.Chain
import Vrata.Proxy.Swap

/-!
# What the middlewares of a table hold

Reference: `buildMiddleware` of `server/internal/proxy/handler.go`, the constructors under `middlewares/`,
and `SwapTable` of `router.go`.

Some middlewares open something when they are built: they start goroutines, open a log file, or make a gRPC
client. Most of these return a stop function that releases it, which is called when the table is replaced.
`ExtAuthzMiddleware` returns none, so that the client it makes in gRPC mode stays open.

A `Ledger` is the router with a record of what was released. `safe_run` says that nothing is released twice,
and nothing of the installed table. `exact_iff` says after which sequences of tables everything that the
replaced tables had opened has been released exactly once, and nothing of the installed one.
-/

namespace Vrata.Proxy

open Server Tagged

/-! ## What is opened, and what is released -/

inductive Resource where
  /-- The goroutine of a rate limiter. -/
  | evictLoop
  /-- The goroutine that fetches the keys of a JWT middleware. -/
  | refreshLoop
  | logFile
  /-- The gRPC client of an external processor. -/
  | procConn
  /-- A worker of an external processor that only observes. -/
  | worker (i : ℕ)
  /-- The gRPC client of an external authorization service. -/
  | authzConn
deriving DecidableEq, Repr

/-- The action that releases it. -/
def Resource.closedBy : Resource → Option Cleanup
  | .evictLoop => some .stopLimiter
  | .refreshLoop => some .stopRefresh
  | .logFile => some .closeFile
  | .procConn => some .closeConn
  | .worker _ => some .stopWorkers
  | .authzConn => none

section Building

variable (env : Surroundings) (services : List String)

/-- `observeWorkerCount`. -/
def observeWorkerCount (cfg : ObserveModeConfig) : ℕ := if 0 < cfg.workers then cfg.workers.toNat else 64

/-- `startAsyncWorkers`. -/
def workers : Option ObserveModeConfig → List Resource
  | none => []
  | some observe =>
    if observe.enabled then (List.range (observeWorkerCount observe)).map .worker else []

def openedByRateLimit : Option RateLimitConfig → List Resource
  | none => []
  | some _ => [.evictLoop]

/-- Keys that are given inline are not fetched. -/
def openedByJWT : Option JWTConfig → List Resource
  | none => []
  | some cfg =>
    if cfg.issuer = "" then []
    else if cfg.jwksInline ≠ "" then []
    else if cfg.jwksPath ≠ "" ∧ cfg.jwksDestinationID ≠ "" ∧ cfg.jwksDestinationID ∈ services then
      [.refreshLoop]
    else []

def openedByAccessLog : Option AccessLogConfig → List Resource
  | none => []
  | some cfg =>
    if cfg.path = "" then []
    else if cfg.onRequest = none ∧ cfg.onResponse = none then []
    else if cfg.path ∈ ["/dev/stdout", "stdout", "/dev/stderr", "stderr"] then []
    else if env.opens cfg.path then [.logFile]
    else []

def openedByExtProc : Option ExtProcConfig → List Resource
  | none => []
  | some cfg =>
    if cfg.destinationID = "" then []
    else if cfg.destinationID ∉ services then []
    else
      (if cfg.mode ≠ "http" ∧ env.dials cfg.destinationID then [.procConn] else []) ++
        workers cfg.observeMode

def openedByExtAuthz : Option ExtAuthzConfig → List Resource
  | none => []
  | some cfg =>
    if cfg.destinationID = "" then []
    else if cfg.destinationID ∉ services then []
    else if cfg.mode = "grpc" ∧ env.dials cfg.destinationID then [.authzConn]
    else []

/-- What `buildMiddleware` opens. -/
def opened (mw : Middleware) : List Resource :=
  match mw.type with
  | .rateLimit => openedByRateLimit mw.rateLimit
  | .jwt => openedByJWT services mw.jwt
  | .accessLog => openedByAccessLog env mw.accessLog
  | .extProc => openedByExtProc env services mw.extProc
  | .extAuthz => openedByExtAuthz env services mw.extAuthz
  | .cors | .headers | .inlineAuthz | .unknown => []

end Building

/-- A middleware that was built: what it has opened, and its stop function. -/
structure Instance where
  opened : List Resource
  stop : Option (List Cleanup)

namespace Instance

def build (env : Surroundings) (services : List String) (mw : Middleware) : Instance where
  opened := Proxy.opened env services mw
  stop := stopFunction env services mw

/-- What the stop function releases. -/
def released (x : Instance) : List Resource :=
  x.opened.filter fun r => x.stop.any fun actions => r.closedBy.any (· ∈ actions)

/-- The stop function of the middleware at a position, with what it releases. -/
def cleanup (x : Instance) (k : ℕ) : Option (List Cleanup × List (ℕ × Resource)) :=
  x.stop.map fun actions => (actions, x.released.map (Prod.mk k))

end Instance

/-- A client is made for an external authorization service. -/
def opensAuthz (env : Surroundings) (services : List String) (mw : Middleware) : Prop :=
  mw.type = .extAuthz ∧ ∃ cfg, mw.extAuthz = some cfg ∧ cfg.destinationID ≠ "" ∧
    cfg.destinationID ∈ services ∧ cfg.mode = "grpc" ∧ env.dials cfg.destinationID = true

section Built

variable {env : Surroundings} {services : List String} {mw : Middleware}

theorem Instance.mem_released {x : Instance} {r : Resource} :
    r ∈ x.released ↔ r ∈ x.opened ∧ ∃ actions, x.stop = some actions ∧
      ∃ c, r.closedBy = some c ∧ c ∈ actions := by
  rw [released, List.mem_filter]
  refine and_congr_right fun _ => ?_
  simp [Option.any_eq_true]

/-- Every one of the resources is released by an action of the stop function. -/
def Covers (stop : Option (List Cleanup)) (rs : List Resource) : Prop :=
  ∀ r ∈ rs, ∃ actions, stop = some actions ∧ ∃ c, r.closedBy = some c ∧ c ∈ actions

theorem covers_nil (stop : Option (List Cleanup)) : Covers stop [] := nofun

theorem covers_rateLimit (cfg : Option RateLimitConfig) :
    Covers (stopRateLimit cfg) (openedByRateLimit cfg) := by
  cases cfg with
  | none => exact covers_nil _
  | some cfg =>
    intro r hr
    rw [List.mem_singleton.mp hr]
    exact ⟨_, rfl, _, rfl, List.mem_singleton_self _⟩

theorem covers_jwt (cfg : Option JWTConfig) :
    Covers (stopJWT cfg) (openedByJWT services cfg) := by
  cases cfg with
  | none => exact covers_nil _
  | some cfg =>
    rw [openedByJWT]
    split_ifs with hissuer hinline hfetched
    · exact covers_nil _
    · exact covers_nil _
    · intro r hr
      rw [List.mem_singleton.mp hr]
      exact ⟨_, if_neg hissuer, _, rfl, List.mem_singleton_self _⟩
    · exact covers_nil _

theorem covers_accessLog (cfg : Option AccessLogConfig) :
    Covers (stopAccessLog env cfg) (openedByAccessLog env cfg) := by
  cases cfg with
  | none => exact covers_nil _
  | some cfg =>
    rw [openedByAccessLog]
    split_ifs with hpath hsilent hstandard hopens
    · exact covers_nil _
    · exact covers_nil _
    · exact covers_nil _
    · intro r hr
      rw [List.mem_singleton.mp hr]
      refine ⟨logCleanup env cfg.path, ?_, _, rfl, ?_⟩
      · rw [stopAccessLog, if_neg hpath, if_neg hsilent]
      · rw [logCleanup, if_neg hstandard, if_pos hopens]
        exact List.mem_singleton_self _
    · exact covers_nil _

theorem mem_workers {observeMode : Option ObserveModeConfig} {r : Resource}
    (hr : r ∈ workers observeMode) :
    observeMode.any ObserveModeConfig.enabled = true ∧ ∃ i, r = .worker i := by
  cases observeMode with
  | none => cases hr
  | some observe =>
    rw [workers] at hr
    split at hr
    · rename_i henabled
      obtain ⟨i, -, rfl⟩ := List.mem_map.mp hr
      exact ⟨henabled, i, rfl⟩
    · cases hr

theorem covers_extProc (cfg : Option ExtProcConfig) :
    Covers (stopExtProc env services cfg) (openedByExtProc env services cfg) := by
  cases cfg with
  | none => exact covers_nil _
  | some cfg =>
    rw [openedByExtProc, stopExtProc]
    split
    · exact covers_nil _
    · split
      · exact covers_nil _
      · intro r hr
        refine ⟨_, rfl, ?_⟩
        rcases List.mem_append.mp hr with hconn | hworker
        · split at hconn
          · rename_i hdials
            rw [List.mem_singleton.mp hconn, if_pos hdials]
            exact ⟨_, rfl, List.mem_append_left _ (List.mem_singleton_self _)⟩
          · cases hconn
        · obtain ⟨henabled, i, rfl⟩ := mem_workers hworker
          rw [henabled, if_pos rfl]
          exact ⟨_, rfl, List.mem_append_right _ (List.mem_singleton_self _)⟩

theorem exists_of_mem_extAuthz {cfg : Option ExtAuthzConfig} {r : Resource}
    (hr : r ∈ openedByExtAuthz env services cfg) : ∃ c, cfg = some c ∧ c.destinationID ≠ "" ∧
      c.destinationID ∈ services ∧ c.mode = "grpc" ∧ env.dials c.destinationID = true := by
  cases cfg with
  | none => cases hr
  | some cfg =>
    rw [openedByExtAuthz] at hr
    split at hr
    · cases hr
    · rename_i hid
      split at hr
      · cases hr
      · rename_i hservice
        split at hr
        · rename_i hgrpc
          exact ⟨cfg, rfl, hid, not_not.mp hservice, hgrpc⟩
        · cases hr

theorem mem_opened_of_opensAuthz (h : opensAuthz env services mw) : .authzConn ∈ opened env services mw := by
  obtain ⟨htype, cfg, hcfg, hid, hservice, hgrpc⟩ := h
  rw [opened, htype]
  simp only [hcfg, openedByExtAuthz]
  rw [if_neg hid, if_neg (not_not.mpr hservice), if_pos hgrpc]
  exact List.mem_singleton_self _

/-- A middleware releases all that it has opened, except for the client of an authorization service. -/
theorem released_build {r : Resource} (hr : r ∈ opened env services mw) :
    r ∈ (Instance.build env services mw).released ↔ ¬opensAuthz env services mw := by
  rw [Instance.mem_released]
  have hcovers : mw.type ≠ .extAuthz → Covers (stopFunction env services mw)
      (opened env services mw) := by
    intro htype
    rw [stopFunction, opened]
    cases hmw : mw.type with
    | rateLimit => exact covers_rateLimit _
    | jwt => exact covers_jwt _
    | accessLog => exact covers_accessLog _
    | extProc => exact covers_extProc _
    | extAuthz => exact absurd hmw htype
    | cors | headers | inlineAuthz | unknown => exact covers_nil _
  by_cases htype : mw.type = .extAuthz
  · have hstop : (Instance.build env services mw).stop = none := by
      rw [Instance.build, stopFunction, htype]
    rw [opened, htype] at hr
    refine iff_of_false ?_ (not_not.mpr ⟨htype, exists_of_mem_extAuthz hr⟩)
    rintro ⟨-, actions, hactions, -⟩
    rw [hstop] at hactions
    cases hactions
  · exact iff_of_true ⟨hr, hcovers htype r hr⟩ fun h => htype h.1

theorem nodup_ite {p : Prop} [Decidable p] {xs ys : List Resource} (hxs : xs.Nodup) (hys : ys.Nodup) :
    (if p then xs else ys).Nodup := by
  split
  · exact hxs
  · exact hys

theorem nodup_workers (observeMode : Option ObserveModeConfig) : (workers observeMode).Nodup := by
  cases observeMode with
  | none => exact List.nodup_nil
  | some observe =>
    exact nodup_ite ((List.nodup_map_iff fun i j h => Resource.worker.inj h).mpr List.nodup_range)
      List.nodup_nil

theorem nodup_openedByExtProc (cfg : Option ExtProcConfig) :
    (openedByExtProc env services cfg).Nodup := by
  cases cfg with
  | none => exact List.nodup_nil
  | some cfg =>
    refine nodup_ite List.nodup_nil (nodup_ite List.nodup_nil (List.nodup_append.mpr
      ⟨nodup_ite (List.pairwise_singleton _ _) List.nodup_nil, nodup_workers _, ?_⟩))
    intro r hr r' hr' heq
    obtain ⟨-, i, rfl⟩ := mem_workers hr'
    split at hr
    · cases (List.mem_singleton.mp hr).symm.trans heq
    · cases hr

/-- Nothing is opened twice by one middleware. -/
theorem nodup_opened : (opened env services mw).Nodup := by
  have hnil := List.nodup_nil (α := Resource)
  have hone : ∀ r : Resource, [r].Nodup := fun r => List.pairwise_singleton _ r
  rw [opened]
  cases mw.type with
  | rateLimit =>
    cases mw.rateLimit with
    | none => exact hnil
    | some cfg => exact hone _
  | jwt =>
    cases mw.jwt with
    | none => exact hnil
    | some cfg => exact nodup_ite hnil (nodup_ite hnil (nodup_ite (hone _) hnil))
  | accessLog =>
    cases mw.accessLog with
    | none => exact hnil
    | some cfg => exact nodup_ite hnil (nodup_ite hnil (nodup_ite hnil (nodup_ite (hone _) hnil)))
  | extProc => exact nodup_openedByExtProc mw.extProc
  | extAuthz =>
    cases mw.extAuthz with
    | none => exact hnil
    | some cfg => exact nodup_ite hnil (nodup_ite hnil (nodup_ite (hone _) hnil))
  | cors | headers | inlineAuthz => exact hnil
  | unknown => exact hnil

end Built

/-! ## Tables -/

/-- What a table is built from, with the destinations that have a pool. -/
structure TableConfig where
  eng : Engine
  routes : List AttachedRoute
  groups : List AttachedGroup
  middlewares : List Middleware
  services : List String
  env : Surroundings

namespace TableConfig

variable (cfg : TableConfig)

/-- The middlewares that are built: for every route that compiles, those that it goes through. -/
def built : List Middleware :=
  (entries cfg.eng cfg.routes cfg.groups).flatMap fun e =>
    (chain cfg.middlewares e.route e.group).map Link.middleware

def instances : List Instance := cfg.built.map (Instance.build cfg.env cfg.services)

/-- Everything that the middlewares have opened, each with the position of the middleware. -/
def opened : List (ℕ × Resource) := tag (cfg.instances.map Instance.opened)

/-- What the cleanup functions of the table release. -/
def due : List (ℕ × Resource) := tag (cfg.instances.map Instance.released)

/-- The cleanup functions of the table, each with what it releases. -/
def cleanups : List (List Cleanup × List (ℕ × Resource)) :=
  cfg.instances.zipIdx.filterMap fun p => p.1.cleanup p.2

variable {cfg : TableConfig}

/-- The stop functions release what is due. -/
theorem flatMap_cleanups (cfg : TableConfig) : cfg.cleanups.flatMap Prod.snd = cfg.due := by
  have hfrom : ∀ (xs : List Instance) (n : ℕ),
      ((xs.zipIdx n).filterMap fun p => p.1.cleanup p.2).flatMap Prod.snd =
        tagFrom n (xs.map Instance.released) := by
    intro xs
    induction xs with
    | nil => exact fun _ => rfl
    | cons x xs ih =>
      intro n
      rw [List.zipIdx_cons, List.map_cons, tagFrom, ← ih (n + 1)]
      cases hstop : x.stop with
      | none =>
        have hcleanup : x.cleanup n = none := by rw [Instance.cleanup, hstop, Option.map_none]
        have hnone : x.released = [] := by
          rw [Instance.released, hstop]
          exact List.filter_false _
        simp only [List.filterMap_cons, hcleanup, hnone]
        rfl
      | some actions =>
        have hcleanup : x.cleanup n = some (actions, x.released.map (Prod.mk n)) := by
          rw [Instance.cleanup, hstop, Option.map_some]
        simp only [List.filterMap_cons, hcleanup, List.flatMap_cons]
  exact hfrom cfg.instances 0

theorem mem_opened {k : ℕ} {r : Resource} :
    (k, r) ∈ cfg.opened ↔ ∃ mw, cfg.built[k]? = some mw ∧ r ∈ Proxy.opened cfg.env cfg.services mw := by
  rw [opened, ← List.count_pos_iff, count_tag, List.count_pos_iff, instances, List.map_map,
    List.getElem?_map]
  cases cfg.built[k]? with
  | none => simp
  | some mw => simp [Instance.build]

theorem count_due {k : ℕ} {mw : Middleware} (hk : cfg.built[k]? = some mw) (r : Resource) :
    cfg.due.count (k, r) = (Instance.build cfg.env cfg.services mw).released.count r := by
  rw [due, count_tag, instances, List.map_map, List.getElem?_map, hk]
  rfl

theorem nodup_due (cfg : TableConfig) : cfg.due.Nodup := by
  refine List.nodup_iff_count_le_one.mpr fun ⟨k, r⟩ => ?_
  cases hk : cfg.built[k]? with
  | none => simp [due, count_tag, instances, hk]
  | some mw => exact count_due hk r ▸ List.nodup_iff_count_le_one.mp (nodup_opened.filter _) r

end TableConfig

/-! ## The router -/

/-- The calls of `SwapTable` that have installed their table: the table it has replaced, and the cleanup
functions that have not been called yet. -/
abbrev Calls := List (ℕ × List (List Cleanup × List (ℕ × Resource)))

namespace Calls

/-- What is still to be released. -/
def pending (calls : Calls) : List (ℕ × ℕ × Resource) :=
  calls.flatMap fun call => call.2.flatMap fun fn => fn.2.map (Prod.mk call.1)

/-- What the next cleanup function of a call releases. -/
def next (calls : Calls) (i : ℕ) : List (ℕ × ℕ × Resource) :=
  match calls[i]? with
  | some (table, fn :: _) => fn.2.map (Prod.mk table)
  | _ => []

/-- The call has one cleanup function less to call. -/
def called (calls : Calls) (i : ℕ) : Calls := calls.modify i fun call => (call.1, call.2.tail)

/-- What a cleanup function releases is no longer to be released. -/
theorem pending_perm (calls : Calls) (i : ℕ) :
    calls.pending.Perm (calls.next i ++ (calls.called i).pending) := by
  induction calls generalizing i with
  | nil => simp [pending, next, called]
  | cons call calls ih =>
    cases i with
    | zero =>
      obtain ⟨table, fns⟩ := call
      cases fns with
      | nil => exact .refl _
      | cons fn fns => simp [pending, next, called]
    | succ i =>
      have hnext : next (call :: calls) (i + 1) = next calls i := rfl
      have hcalled : called (call :: calls) (i + 1) = call :: called calls i := rfl
      simp only [pending, List.flatMap_cons, hnext, hcalled] at ih ⊢
      exact ((ih i).append_left _).trans (List.perm_append_comm_assoc _ _ _)

end Calls

/-- The router, the tables that were installed so far, and what was released of each. -/
structure Ledger where
  replaced : List TableConfig
  installed : TableConfig
  serving : List ℕ
  closing : Calls
  released : List (ℕ × ℕ × Resource)
  closing_lt : ∀ call ∈ closing, call.1 < replaced.length

namespace Ledger

inductive Action where
  | load
  | finish (i : ℕ)
  | swap (cfg : TableConfig)
  | cleanup (i : ℕ)

variable (s : Ledger)

theorem lt_of_swap : ∀ call ∈ s.closing ++ [(s.replaced.length, s.installed.cleanups)],
    call.1 < (s.replaced ++ [s.installed]).length := by
  intro call hcall
  rw [List.length_append]
  rcases List.mem_append.mp hcall with hold | hnew
  · exact Nat.lt_succ_of_lt (s.closing_lt call hold)
  · rw [List.mem_singleton.mp hnew]
    exact Nat.lt_succ_self _

theorem lt_of_called (i : ℕ) : ∀ call ∈ s.closing.called i, call.1 < s.replaced.length := by
  intro call hcall
  obtain ⟨j, hj⟩ := List.mem_iff_getElem?.mp hcall
  rw [Calls.called, List.getElem?_modify] at hj
  obtain ⟨call', hcall', rfl⟩ := Option.map_eq_some_iff.mp hj
  have hlt := s.closing_lt call' (List.mem_of_getElem? hcall')
  split
  · exact hlt
  · exact hlt

def step : Action → Ledger
  | .load => { s with serving := s.serving ++ [s.replaced.length] }
  | .finish i => { s with serving := s.serving.eraseIdx i }
  | .swap cfg =>
    { s with
      replaced := s.replaced ++ [s.installed]
      installed := cfg
      closing := s.closing ++ [(s.replaced.length, s.installed.cleanups)]
      closing_lt := s.lt_of_swap }
  | .cleanup i =>
    { s with
      closing := s.closing.called i
      released := s.released ++ s.closing.next i
      closing_lt := s.lt_of_called i }

/-- What the replaced tables have to release. -/
def due : List (ℕ × ℕ × Resource) := tag (s.replaced.map TableConfig.due)

/-- No call of `SwapTable` is under way. -/
def Settled : Prop := ∀ call ∈ s.closing, call.2 = []

/-- Everything that a replaced table has opened was released exactly once, and nothing of the installed
table was. -/
def Exact : Prop :=
  (∀ i cfg, s.replaced[i]? = some cfg → ∀ x ∈ cfg.opened, s.released.count (i, x) = 1) ∧
    ∀ x ∈ s.installed.opened, s.released.count (s.replaced.length, x) = 0

/-- No middleware of a replaced table has made a client for an external authorization service. -/
def NoAuthzClient : Prop :=
  ∀ cfg ∈ s.replaced, ∀ mw ∈ cfg.built, ¬opensAuthz cfg.env cfg.services mw

/-- All that the cleanup functions have to release is released or still to be released. -/
def Inv : Prop := (s.released ++ s.closing.pending).Perm s.due

/-- A router without routes. -/
def new (eng : Engine) (env : Surroundings) : Ledger where
  replaced := []
  installed := ⟨eng, [], [], [], [], env⟩
  serving := []
  closing := []
  released := []
  closing_lt := fun _ h => absurd h List.not_mem_nil

variable {s}

theorem step_inv (h : s.Inv) (a : Action) : (s.step a).Inv := by
  cases a with
  | load | finish i => exact h
  | swap cfg =>
    have hpending : (s.closing ++ [(s.replaced.length, s.installed.cleanups)]).pending =
        s.closing.pending ++ s.installed.due.map (Prod.mk s.replaced.length) := by
      rw [Calls.pending, List.flatMap_append, List.flatMap_singleton, ← TableConfig.flatMap_cleanups,
        List.map_flatMap]
      rfl
    have hdue : (s.step (.swap cfg)).due = s.due ++ s.installed.due.map (Prod.mk s.replaced.length) := by
      rw [due, step, List.map_append, List.map_singleton, tag_concat, List.length_map]
      rfl
    rw [Inv, hdue]
    show (s.released ++ (s.closing ++ _).pending).Perm _
    rw [hpending, ← List.append_assoc]
    exact h.append_right _
  | cleanup i =>
    show ((s.released ++ s.closing.next i) ++ (s.closing.called i).pending).Perm s.due
    rw [List.append_assoc]
    exact ((s.closing.pending_perm i).symm.append_left _).trans h

theorem inv_run (eng : Engine) (env : Surroundings) (as : List Action) :
    (as.foldl step (new eng env)).Inv := by
  induction as using List.reverseRecOn with
  | nil => exact .refl _
  | append_singleton as a ih =>
    rw [List.foldl_append]
    exact step_inv ih a

theorem Settled.pending_eq_nil (h : s.Settled) : s.closing.pending = [] := by
  refine List.flatMap_eq_nil_iff.mpr fun call hcall => ?_
  rw [h call hcall]
  rfl

/-- In a settled state, what was released is what the cleanup functions had to release. -/
theorem Settled.count_released (h : s.Settled) (hinv : s.Inv) (i : ℕ) (x : ℕ × Resource) :
    s.released.count (i, x) = ((s.replaced[i]?.map TableConfig.due).getD []).count x := by
  rw [Inv, h.pending_eq_nil, List.append_nil] at hinv
  rw [hinv.count_eq, due, count_tag, List.getElem?_map]

theorem exact_of_settled (h : s.Settled) (hinv : s.Inv) : s.Exact ↔ s.NoAuthzClient := by
  constructor
  · rintro ⟨hreplaced, -⟩ cfg hcfg mw hmw hopens
    obtain ⟨i, hi⟩ := List.mem_iff_getElem?.mp hcfg
    obtain ⟨k, hk⟩ := List.mem_iff_getElem?.mp hmw
    have hmem := mem_opened_of_opensAuthz hopens
    have hone := hreplaced i cfg hi (k, .authzConn) (TableConfig.mem_opened.mpr ⟨mw, hk, hmem⟩)
    rw [h.count_released hinv, hi, Option.map_some, Option.getD_some, TableConfig.count_due hk] at hone
    have hreleased : Resource.authzConn ∈ (Instance.build cfg.env cfg.services mw).released :=
      List.count_pos_iff.mp (by omega)
    exact (released_build hmem).mp hreleased hopens
  · intro hnone
    refine ⟨fun i cfg hi x hx => ?_, fun x _ => ?_⟩
    · obtain ⟨k, r⟩ := x
      obtain ⟨mw, hk, hr⟩ := TableConfig.mem_opened.mp hx
      have hreleased := (released_build hr).mpr
        (hnone cfg (List.mem_of_getElem? hi) mw (List.mem_of_getElem? hk))
      rw [h.count_released hinv, hi, Option.map_some, Option.getD_some, TableConfig.count_due hk]
      exact List.count_eq_one_of_mem (nodup_opened.filter _) hreleased
    · rw [h.count_released hinv, List.getElem?_eq_none (le_refl _)]
      rfl

/-- Nothing has been released twice, and nothing of the installed table. -/
def Safe (s : Ledger) : Prop := s.released.Nodup ∧ ∀ x ∈ s.released, x.1 < s.replaced.length

/-- This holds at all times, also while calls of `SwapTable` are under way. -/
theorem safe_run (eng : Engine) (env : Surroundings) (as : List Action) :
    (as.foldl step (new eng env)).Safe := by
  generalize hs : as.foldl step (new eng env) = s
  have hdue : s.released.Subperm s.due :=
    (List.sublist_append_left _ _).subperm.trans (hs ▸ inv_run eng env as).subperm
  have hcount (i : ℕ) (x : ℕ × Resource) :
      s.due.count (i, x) = ((s.replaced[i]?.map TableConfig.due).getD []).count x := by
    rw [due, count_tag, List.getElem?_map]
  refine ⟨List.nodup_iff_count_le_one.mpr fun ⟨i, x⟩ => (hdue.count_le _).trans ?_, fun ⟨i, x⟩ hx => ?_⟩
  · rw [hcount]
    cases s.replaced[i]? with
    | none => exact Nat.zero_le 1
    | some cfg => exact List.nodup_iff_count_le_one.mp cfg.nodup_due x
  · by_contra hi
    have hpos := List.count_pos_iff.mpr (hdue.subset hx)
    rw [hcount, List.getElem?_eq_none (not_lt.mp hi)] at hpos
    exact absurd hpos (by simp)

/-- Whatever tables have been installed, when no call of `SwapTable` is under way, everything that the
replaced ones had opened has been released exactly once, and nothing of the installed one, exactly if no
middleware of a replaced table had made a client for an external authorization service. -/
theorem exact_iff (eng : Engine) (env : Surroundings) (as : List Action)
    (h : (as.foldl step (new eng env)).Settled) :
    (as.foldl step (new eng env)).Exact ↔ (as.foldl step (new eng env)).NoAuthzClient :=
  exact_of_settled h (inv_run eng env as)

end Ledger

/-! ## Two tables -/

/-- Files can be opened, and clients can be made. -/
def openWorld : Surroundings := ⟨fun _ => true, fun _ => true⟩

/-- A table with one route that goes through one middleware. -/
def tableWith (mw : Middleware) : TableConfig where
  eng := noEngine
  routes := [{ id := "route", name := "route", «match» := {}, middlewareIDs := [mw.id] }]
  groups := []
  middlewares := [mw]
  services := ["authz"]
  env := openWorld

def fileLog : Middleware where
  id := "log"
  type := .accessLog
  accessLog := some { path := "/var/log/access.log", onRequest := some [] }

/-- A table is installed and replaced, and some cleanup functions are called. -/
def replacing (mw : Middleware) (is : List ℕ) : List Ledger.Action :=
  [.swap (tableWith mw), .swap (tableWith mw)] ++ is.map .cleanup

/-- The log file of the replaced table is closed, and that of the new one is open. -/
theorem exact_fileLog :
    ((replacing fileLog [1]).foldl Ledger.step (Ledger.new noEngine openWorld)).Settled ∧
      ((replacing fileLog [1]).foldl Ledger.step (Ledger.new noEngine openWorld)).Exact := by
  have hsettled : ((replacing fileLog [1]).foldl Ledger.step (Ledger.new noEngine openWorld)).Settled := by
    rw [Ledger.Settled]
    decide
  refine ⟨hsettled, (Ledger.exact_iff noEngine openWorld _ hsettled).mpr ?_⟩
  have hreplaced : ((replacing fileLog [1]).foldl Ledger.step (Ledger.new noEngine openWorld)).replaced =
      [(Ledger.new noEngine openWorld).installed, tableWith fileLog] := rfl
  have hold : ∀ mw ∈ (Ledger.new noEngine openWorld).installed.built, mw.type ≠ .extAuthz := by
    decide
  have hnew : ∀ mw ∈ (tableWith fileLog).built, mw.type ≠ .extAuthz := by decide
  intro cfg hcfg mw hmw hopens
  rw [hreplaced] at hcfg
  rcases List.mem_pair.mp hcfg with rfl | rfl
  · exact hold mw hmw hopens.1
  · exact hnew mw hmw hopens.1

def grpcAuthz : Middleware where
  id := "authz"
  type := .extAuthz
  extAuthz := some { destinationID := "authz", mode := "grpc" }

/-- The client of the replaced table stays open. -/
theorem not_exact_grpcAuthz :
    ((replacing grpcAuthz []).foldl Ledger.step (Ledger.new noEngine openWorld)).Settled ∧
      ¬((replacing grpcAuthz []).foldl Ledger.step (Ledger.new noEngine openWorld)).Exact := by
  constructor
  · rw [Ledger.Settled]
    decide
  · intro h
    have hone := h.1 1 (tableWith grpcAuthz) rfl (0, .authzConn) (by decide)
    exact absurd hone (by decide)

end Vrata.Proxy
