import Mathlib.Data.Rat.Defs

/-!
# Handler configuration, call options and key naming

`handlerConfig` and `callOpts` without the Redis client. A `time.Duration` is an
integer number of nanoseconds and a `float64` option is a rational number. An
`Option` or `CallOption` closure is a constructor of `HandlerOption` or
`CallOption`, applied in order to the defaults as `New` and every call do.
-/
namespace Cashcov

/-- `MissPolicy`, an `int` in Go: its eight constants and any other value. -/
inductive MissPolicy
  | syncWriteThenReturn
  | returnThenAsyncWrite
  | staleWhileRevalidate
  | failFast
  | refreshAhead
  | cooperativeRefresh
  | bestEffort
  | probabilisticRefresh
  | other (n : ℤ) (h : n < 0 ∨ 8 ≤ n)
  deriving DecidableEq

/-- `handlerConfig`; `keyPrefix` is the field `prefix`. -/
structure HandlerConfig where
  keyPrefix : String
  defaultTTL : ℤ
  bgRefreshTimeout : ℤ
  refreshCooldown : ℤ
  defaultMissPolicy : MissPolicy
  staleDataTTL : ℤ
  defaultRefreshAheadThreshold : ℚ
  defaultProbabilisticBeta : ℚ
  cooperativeTimeout : ℤ

def second : ℤ := 1000000000
def minute : ℤ := 60 * second
def hour : ℤ := 60 * minute

/-- The configuration `New` starts from. -/
def defaultConfig : HandlerConfig where
  keyPrefix := ""
  defaultTTL := 5 * minute
  bgRefreshTimeout := 5 * second
  refreshCooldown := 0
  defaultMissPolicy := .syncWriteThenReturn
  staleDataTTL := 24 * hour
  defaultRefreshAheadThreshold := 1 / 5
  defaultProbabilisticBeta := 1
  cooperativeTimeout := 10 * second

/-- The handler options `WithPrefix` ... `WithCooperativeTimeout`. -/
inductive HandlerOption
  | withPrefix (p : String)
  | withDefaultTTL (ttl : ℤ)
  | withBackgroundRefreshTimeout (d : ℤ)
  | withRefreshCooldown (d : ℤ)
  | withMissPolicy (p : MissPolicy)
  | withStaleDataTTL (ttl : ℤ)
  | withRefreshAheadThreshold (threshold : ℚ)
  | withProbabilisticBeta (beta : ℚ)
  | withCooperativeTimeout (timeout : ℤ)

def HandlerOption.apply : HandlerOption → HandlerConfig → HandlerConfig
  | .withPrefix p, c => { c with keyPrefix := p }
  | .withDefaultTTL ttl, c => { c with defaultTTL := ttl }
  | .withBackgroundRefreshTimeout d, c => { c with bgRefreshTimeout := d }
  | .withRefreshCooldown d, c => { c with refreshCooldown := d }
  | .withMissPolicy p, c => { c with defaultMissPolicy := p }
  | .withStaleDataTTL ttl, c => { c with staleDataTTL := ttl }
  | .withRefreshAheadThreshold threshold, c =>
    if 0 ≤ threshold ∧ threshold ≤ 1 then { c with defaultRefreshAheadThreshold := threshold } else c
  | .withProbabilisticBeta beta, c =>
    if 0 < beta then { c with defaultProbabilisticBeta := beta } else c
  | .withCooperativeTimeout timeout, c => { c with cooperativeTimeout := timeout }

/-- The configuration of `New(rdb, opts...)`. -/
def newConfig (opts : List HandlerOption) : HandlerConfig :=
  opts.foldl (fun c o => o.apply c) defaultConfig

structure CallOpts where
  ttl : ℤ
  disableHitRefresh : Bool
  overrideMissPolicy : Option MissPolicy
  refreshAheadThreshold : ℚ
  probabilisticRefreshBeta : ℚ
  staleCheckTimeout : ℤ

/-- `var co callOpts`. -/
def CallOpts.zero : CallOpts := ⟨0, false, none, 0, 0, 0⟩

/-- The call options `WithTTL` ... `WithStaleCheckTimeout`. -/
inductive CallOption
  | withTTL (ttl : ℤ)
  | withoutBackgroundRefresh
  | withCallMissPolicy (p : MissPolicy)
  | withRefreshAheadThreshold (threshold : ℚ)
  | withProbabilisticBeta (beta : ℚ)
  | withStaleCheckTimeout (timeout : ℤ)

def CallOption.apply : CallOption → CallOpts → CallOpts
  | .withTTL ttl, c => { c with ttl := ttl }
  | .withoutBackgroundRefresh, c => { c with disableHitRefresh := true }
  | .withCallMissPolicy p, c => { c with overrideMissPolicy := some p }
  | .withRefreshAheadThreshold threshold, c =>
    if 0 ≤ threshold ∧ threshold ≤ 1 then { c with refreshAheadThreshold := threshold } else c
  | .withProbabilisticBeta beta, c =>
    if 0 < beta then { c with probabilisticRefreshBeta := beta } else c
  | .withStaleCheckTimeout timeout, c => { c with staleCheckTimeout := timeout }

/-- `for _, o := range opts { o(&co) }`. -/
def callOpts (opts : List CallOption) : CallOpts :=
  opts.foldl (fun c o => o.apply c) CallOpts.zero

/-- `ttl := co.ttl; if ttl <= 0 { ttl = h.config.defaultTTL }`, in `Set` and `GetOrRefresh`. -/
def effectiveTTL (cfg : HandlerConfig) (ttl : ℤ) : ℤ :=
  if ttl ≤ 0 then cfg.defaultTTL else ttl

def effectiveMissPolicy (cfg : HandlerConfig) (co : CallOpts) : MissPolicy :=
  co.overrideMissPolicy.getD cfg.defaultMissPolicy

/-- The threshold of `missRefreshAhead` and of the hit path. -/
def refreshAheadThreshold (cfg : HandlerConfig) (co : CallOpts) : ℚ :=
  if co.refreshAheadThreshold ≤ 0 then cfg.defaultRefreshAheadThreshold else co.refreshAheadThreshold

/-- The beta of the probabilistic hit path. -/
def probabilisticBeta (cfg : HandlerConfig) (co : CallOpts) : ℚ :=
  if co.probabilisticRefreshBeta ≤ 0 then cfg.defaultProbabilisticBeta else co.probabilisticRefreshBeta

def fullKey (cfg : HandlerConfig) (key : String) : String :=
  if cfg.keyPrefix = "" then key else cfg.keyPrefix ++ ":" ++ key

/-- The key of the stale copy, `h.fullKey(key + ":stale")`. -/
def staleKey (cfg : HandlerConfig) (key : String) : String := fullKey cfg (key ++ ":stale")

/-- The ledger entry of the creation stamp, `fullKey + "@created"`. -/
def createdKey (cfg : HandlerConfig) (key : String) : String := fullKey cfg key ++ "@created"

end Cashcov
