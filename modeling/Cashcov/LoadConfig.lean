import Mathlib
import Cashcov.Config
import Cashcov.Float

/-!
# Configuration from the environment

`loadHandlerConfig` reads seven `CACHE_*` variables. `parseEnvDuration` parses a value with
`strconv.ParseFloat`, rejects it when negative (or zero, unless zero is allowed), and
returns `time.Duration(value) * unit`: the conversion truncates toward zero before the
multiplication, and the product wraps around `int64`. `parseEnvFloat` checks the sign
only. So an accepted value can still give a zero or negative duration, and an accepted
threshold can exceed one.

`strconv.ParseFloat` is modelled on decimal literals: an optional sign, digits with an
optional point, an optional exponent; the exact value is rounded to the nearest binary64
number, ties to even, with a range error beyond the largest finite one. Go also accepts
hexadecimal literals, digit-separating underscores and the words `Inf`, `Infinity` and
`NaN`; the model reads them as syntax errors, so what is proved here is about
environments of decimal strings. A float constant of the source is the rational it
denotes, as in `defaultConfig`. A conversion of a float outside `int64` is
implementation-dependent in Go; `wide` stands for whatever the platform returns.
-/
namespace Cashcov

/-- The errors of `strconv.ParseFloat`: `strconv.ErrSyntax` and `strconv.ErrRange`. -/
inductive NumErr
  | errSyntax
  | errRange
  deriving DecidableEq

def NumErr.text : NumErr → String
  | .errSyntax => "invalid syntax"
  | .errRange => "value out of range"

/-- A decimal literal: its sign, the digits of its mantissa read as one natural number, and
the power of ten they are scaled by. -/
structure Decimal where
  neg : Bool
  digits : ℕ
  exp : ℤ
  deriving DecidableEq

def Decimal.value (d : Decimal) : ℚ := (if d.neg then -1 else 1) * d.digits * 10 ^ d.exp

/-- The number a string of decimal digits spells. -/
def digitsValue (ds : List Char) : ℕ :=
  ds.foldl (fun n c => 10 * n + (c.toNat - '0'.toNat)) 0

/-- The exponent after `e` or `E`: an optional sign and at least one digit. -/
def parseExponent (cs : List Char) : Option ℤ :=
  let (neg, ds) : Bool × List Char := match cs with
    | '+' :: ds => (false, ds)
    | '-' :: ds => (true, ds)
    | ds => (false, ds)
  if ds ≠ [] ∧ ds.all Char.isDigit then
    some (if neg then -(digitsValue ds : ℤ) else digitsValue ds)
  else none

/-- A decimal literal after its sign: digits with an optional point, at least one digit in
all, then an optional exponent, and nothing else. -/
def parseMantissa (neg : Bool) (cs : List Char) : Option Decimal :=
  let (ip, r) := cs.span Char.isDigit
  let (fp, r) : List Char × List Char := match r with
    | '.' :: r => r.span Char.isDigit
    | r => ([], r)
  if ip = [] ∧ fp = [] then none
  else
    let e : Option ℤ := match r with
      | [] => some 0
      | c :: r => if c = 'e' ∨ c = 'E' then parseExponent r else none
    e.map fun e => ⟨neg, digitsValue (ip ++ fp), e - fp.length⟩

def parseDecimal (s : String) : Option Decimal :=
  match s.toList with
  | '+' :: cs => parseMantissa false cs
  | '-' :: cs => parseMantissa true cs
  | cs => parseMantissa false cs

/-- `strconv.ParseFloat(s, 64)` on decimal literals. -/
def parseFloat (s : String) : Except NumErr ℚ :=
  match parseDecimal s with
  | none => .error .errSyntax
  | some d =>
    match binary64 d.value with
    | none => .error .errRange
    | some v => .ok v

/-- A result of Go's `int64` arithmetic: `x` taken modulo `2 ^ 64` into
`[-2 ^ 63, 2 ^ 63)`. -/
def wrap64 (x : ℤ) : ℤ := (x + 2 ^ 63) % 2 ^ 64 - 2 ^ 63

/-- `time.Duration(v)` for a `float64` `v`: truncation toward zero when the result fits
`int64`, and the platform's value `wide v` otherwise. -/
def durationOfFloat (wide : ℚ → ℤ) (v : ℚ) : ℤ :=
  let t : ℤ := if 0 ≤ v then ⌊v⌋ else ⌈v⌉
  if -2 ^ 63 ≤ t ∧ t < 2 ^ 63 then t else wrap64 (wide v)

/-- `time.Duration(v) * unit`. -/
def scaledDuration (wide : ℚ → ℤ) (v : ℚ) (unit : ℤ) : ℤ :=
  wrap64 (durationOfFloat wide v * unit)

/-- The errors of `loadHandlerConfig`: the `.env` file, a value `ParseFloat` rejects, and
a value out of its range. -/
inductive EnvErr
  | dotenv (err : String)
  | parse (envKey valueStr : String) (err : NumErr)
  | mustBe (envKey : String) (allowZero : Bool)
  deriving DecidableEq

/-- The text of the error; `strconv.Quote` is `String.quote` on printable ASCII. -/
def EnvErr.message : EnvErr → String
  | .dotenv err => "failed to load .env file: " ++ err
  | .parse envKey valueStr err =>
    "parse " ++ envKey ++ ": strconv.ParseFloat: parsing " ++ valueStr.quote ++ ": " ++ err.text
  | .mustBe envKey allowZero => envKey ++ " must be " ++ (if allowZero then "" else "> ") ++ "0"

/-- The variable an error is about. -/
def EnvErr.envKey : EnvErr → Option String
  | .dotenv _ => none
  | .parse envKey _ _ | .mustBe envKey _ => some envKey

/-- `parseEnvDuration(envKey, unit, fallback, allowZero)` in environment `env`: the
duration, and the error if any. -/
def parseEnvDuration (wide : ℚ → ℤ) (env : String → String) (envKey : String) (unit : ℤ)
    (fallback : ℚ) (allowZero : Bool) : ℤ × Option EnvErr :=
  let valueStr := env envKey
  if valueStr = "" then (scaledDuration wide fallback unit, none)
  else
    match parseFloat valueStr with
    | .error err => (scaledDuration wide fallback unit, some (.parse envKey valueStr err))
    | .ok value =>
      if value < 0 ∨ (!allowZero ∧ value = 0) then
        (scaledDuration wide fallback unit, some (.mustBe envKey allowZero))
      else (scaledDuration wide value unit, none)

/-- `parseEnvFloat(envKey, fallback, allowZero)` in environment `env`. -/
def parseEnvFloat (env : String → String) (envKey : String) (fallback : ℚ) (allowZero : Bool) :
    ℚ × Option EnvErr :=
  let valueStr := env envKey
  if valueStr = "" then (fallback, none)
  else
    match parseFloat valueStr with
    | .error err => (fallback, some (.parse envKey valueStr err))
    | .ok value =>
      if value < 0 ∨ (!allowZero ∧ value = 0) then (fallback, some (.mustBe envKey allowZero))
      else (value, none)

def defaultTTLMinutesFallback : ℚ := 5
def bgRefreshTimeoutSecondsFallback : ℚ := 5
def staleDataTTLHoursFallback : ℚ := 24
def refreshCooldownSecondsFallback : ℚ := 0
def cooperativeTimeoutSecondsFallback : ℚ := 10
def refreshAheadThresholdFallback : ℚ := 1 / 5
def defaultProbabilisticBetaFallback : ℚ := 1

/-- `if err != nil { return nil, err }` after a parse. -/
def orFail {α : Type} : α × Option EnvErr → Except EnvErr α
  | (a, none) => .ok a
  | (_, some err) => .error err

/-- `loadHandlerConfig(rdb)` without the client: `dotenv` is the error of `godotenv.Load()`
other than a missing file, and `env` the environment after it. -/
def loadHandlerConfig (wide : ℚ → ℤ) (dotenv : Option String) (env : String → String) :
    Except EnvErr HandlerConfig := do
  if let some err := dotenv then throw (.dotenv err)
  let defaultTTL ← orFail (parseEnvDuration wide env "CACHE_DEFAULT_TTL_MINUTES" minute
    defaultTTLMinutesFallback false)
  let bgRefreshTimeout ← orFail (parseEnvDuration wide env "CACHE_BG_REFRESH_TIMEOUT_SECONDS"
    second bgRefreshTimeoutSecondsFallback false)
  let staleDataTTL ← orFail (parseEnvDuration wide env "CACHE_STALE_DATA_TTL_HOURS" hour
    staleDataTTLHoursFallback false)
  let refreshCooldown ← orFail (parseEnvDuration wide env "CACHE_BG_REFRESH_COOLDOWN_SECONDS"
    second refreshCooldownSecondsFallback true)
  let cooperativeTimeout ← orFail (parseEnvDuration wide env "CACHE_COOPERATIVE_TIMEOUT_SECONDS"
    second cooperativeTimeoutSecondsFallback false)
  let refreshAheadThreshold ← orFail (parseEnvFloat env "CACHE_REFRESH_AHEAD_THRESHOLD"
    refreshAheadThresholdFallback false)
  let defaultProbabilisticBeta ← orFail (parseEnvFloat env "CACHE_DEFAULT_PROBABILISTIC_BETA"
    defaultProbabilisticBetaFallback false)
  return {
    keyPrefix := ""
    defaultTTL := defaultTTL
    bgRefreshTimeout := bgRefreshTimeout
    refreshCooldown := refreshCooldown
    defaultMissPolicy := .syncWriteThenReturn
    staleDataTTL := staleDataTTL
    defaultRefreshAheadThreshold := refreshAheadThreshold
    defaultProbabilisticBeta := defaultProbabilisticBeta
    cooperativeTimeout := cooperativeTimeout }

example : parseDecimal "0.5" = some ⟨false, 5, -1⟩ := by decide
example : parseDecimal "-12.50e+3" = some ⟨true, 1250, 1⟩ := by decide
example : parseDecimal "1e" = none := by decide

/-- `ParseFloat` returns a decimal literal's exact value when that value is on the grid. -/
theorem parseFloat_of_exact {s : String} {d : Decimal} {m e : ℤ} (hs : parseDecimal s = some d)
    (hd : d.value = m * 2 ^ e) (hm : m ≠ 0) (hm53 : |m| < 2 ^ 53) (he : -1074 ≤ e)
    (hmax : |(m : ℚ)| * 2 ^ e ≤ maxBinary64) : parseFloat s = .ok (m * 2 ^ e) := by
  simp only [parseFloat, hs, hd, binary64_exact hm hm53 he hmax]

theorem wrap64_of_mem {x : ℤ} (h1 : -2 ^ 63 ≤ x) (h2 : x < 2 ^ 63) : wrap64 x = x := by
  unfold wrap64; omega

theorem wrap64_of_ge {x : ℤ} (h1 : 2 ^ 63 ≤ x) (h2 : x < 2 ^ 64 + 2 ^ 63) :
    wrap64 x = x - 2 ^ 64 := by
  unfold wrap64; omega

/-- Below `2 ^ 63`, `time.Duration(v) * unit` is the truncated value times the unit, wrapped. -/
theorem scaledDuration_of_nonneg (wide : ℚ → ℤ) {v : ℚ} (unit : ℤ) (h0 : 0 ≤ v)
    (h : v < 2 ^ 63) : scaledDuration wide v unit = wrap64 (⌊v⌋ * unit) := by
  have hlt : ⌊v⌋ < 2 ^ 63 := Int.floor_lt.2 (by exact_mod_cast h)
  have hge : 0 ≤ ⌊v⌋ := Int.floor_nonneg.2 h0
  simp only [scaledDuration, durationOfFloat, if_pos h0]
  rw [if_pos ⟨by omega, hlt⟩]

/-! ### The two parsers -/

/-- The values `parseEnvFloat` and `parseEnvDuration` accept. -/
theorem accepted_iff {v : ℚ} {allowZero : Bool} :
    ¬ (v < 0 ∨ ((!allowZero) = true ∧ v = 0)) ↔ 0 < v ∨ allowZero = true ∧ v = 0 := by
  rw [not_or, not_lt]
  cases allowZero
  · simp only [Bool.not_false, true_and, Bool.false_eq_true, false_and, or_false]
    exact ⟨fun h => lt_of_le_of_ne h.1 (Ne.symm h.2), fun h => ⟨h.le, h.ne'⟩⟩
  · simp only [Bool.not_true, Bool.false_eq_true, false_and, not_false_eq_true, and_true,
      true_and]
    exact le_iff_lt_or_eq.trans (or_congr_right eq_comm)

theorem parseEnvFloat_unset {env : String → String} {envKey : String} (fallback : ℚ)
    (allowZero : Bool) (h : env envKey = "") :
    parseEnvFloat env envKey fallback allowZero = (fallback, none) := by
  simp [parseEnvFloat, h]

theorem parseEnvFloat_accept {env : String → String} {envKey : String} {v : ℚ} (fallback : ℚ)
    {allowZero : Bool} (hset : env envKey ≠ "") (hv : parseFloat (env envKey) = .ok v)
    (hacc : 0 < v ∨ allowZero ∧ v = 0) :
    parseEnvFloat env envKey fallback allowZero = (v, none) := by
  simp only [parseEnvFloat, if_neg hset, hv, if_neg (accepted_iff.2 hacc)]

/-- Without an error, the result is the fallback of an unset variable or an accepted value. -/
theorem parseEnvFloat_ok {env : String → String} {envKey : String} {fallback : ℚ}
    {allowZero : Bool} (h : (parseEnvFloat env envKey fallback allowZero).2 = none) :
    env envKey = "" ∧ (parseEnvFloat env envKey fallback allowZero).1 = fallback ∨
    ∃ v, parseFloat (env envKey) = .ok v ∧ (0 < v ∨ allowZero ∧ v = 0) ∧
      (parseEnvFloat env envKey fallback allowZero).1 = v := by
  by_cases hset : env envKey = ""
  · exact .inl ⟨hset, by simp [parseEnvFloat, hset]⟩
  simp only [parseEnvFloat, if_neg hset] at h ⊢
  rcases hp : parseFloat (env envKey) with err | v <;> simp only [hp] at h ⊢
  · cases h
  · split_ifs at h ⊢ with hrej
    exact .inr ⟨v, rfl, accepted_iff.1 hrej, rfl⟩

/-- An error names the variable, which is set, and comes with the fallback. -/
theorem parseEnvFloat_error {env : String → String} {envKey : String} {fallback : ℚ}
    {allowZero : Bool} {err : EnvErr}
    (h : (parseEnvFloat env envKey fallback allowZero).2 = some err) :
    err.envKey = some envKey ∧ env envKey ≠ "" ∧
      (parseEnvFloat env envKey fallback allowZero).1 = fallback := by
  by_cases hset : env envKey = ""
  · simp [parseEnvFloat, hset] at h
  simp only [parseEnvFloat, if_neg hset] at h ⊢
  rcases hp : parseFloat (env envKey) with e | v <;> simp only [hp] at h ⊢
  · cases h; exact ⟨rfl, hset, trivial⟩
  · split_ifs at h ⊢
    cases h; exact ⟨rfl, hset, rfl⟩

/-- The two parsers differ only in the conversion `time.Duration(value) * unit`. -/
theorem parseEnvDuration_eq_scaled (wide : ℚ → ℤ) (env : String → String) (envKey : String)
    (unit : ℤ) (fallback : ℚ) (allowZero : Bool) :
    parseEnvDuration wide env envKey unit fallback allowZero =
      (scaledDuration wide (parseEnvFloat env envKey fallback allowZero).1 unit,
        (parseEnvFloat env envKey fallback allowZero).2) := by
  simp only [parseEnvDuration, parseEnvFloat]
  split_ifs
  · rfl
  · rcases parseFloat (env envKey) with e | v
    · rfl
    · simp only
      split_ifs <;> rfl

@[simp] theorem parseEnvDuration_snd (wide : ℚ → ℤ) (env : String → String) (envKey : String)
    (unit : ℤ) (fallback : ℚ) (allowZero : Bool) :
    (parseEnvDuration wide env envKey unit fallback allowZero).2 =
      (parseEnvFloat env envKey fallback allowZero).2 := by
  rw [parseEnvDuration_eq_scaled]

/-! ### The loader -/

@[simp] theorem orFail_ok {α : Type} (a : α) : orFail (a, none) = .ok a := rfl

theorem orFail_bind_eq_ok {α β : Type} {p : α × Option EnvErr} {f : α → Except EnvErr β}
    {b : β} : (orFail p >>= f) = .ok b ↔ p.2 = none ∧ f p.1 = .ok b := by
  obtain ⟨a, _ | err⟩ := p
  · exact (and_iff_right rfl).symm
  · exact iff_of_false (fun h => nomatch h) (fun h => nomatch h.1)

theorem orFail_bind_eq_error {α β : Type} {p : α × Option EnvErr} {f : α → Except EnvErr β}
    {err : EnvErr} (h : (orFail p >>= f) = .error err) : p.2 = some err ∨ f p.1 = .error err := by
  obtain ⟨a, _ | err'⟩ := p
  · exact .inr h
  · exact .inl (by cases h; rfl)

/-- With every variable unset, the loader returns the configuration `New` starts from. -/
theorem loadHandlerConfig_unset (wide : ℚ → ℤ) :
    loadHandlerConfig wide none (fun _ => "") = .ok defaultConfig := by
  simp (disch := rfl) only [loadHandlerConfig, parseEnvDuration_eq_scaled, parseEnvFloat_unset,
    orFail_ok]
  norm_num [scaledDuration_of_nonneg, defaultTTLMinutesFallback, bgRefreshTimeoutSecondsFallback,
    staleDataTTLHoursFallback, refreshCooldownSecondsFallback, cooperativeTimeoutSecondsFallback,
    refreshAheadThresholdFallback, defaultProbabilisticBetaFallback, wrap64, minute, second, hour,
    defaultConfig]
  rfl

/-- Every error of the loader is the `.env` file's, or names a variable that is set. -/
theorem loadHandlerConfig_error_envKey {wide : ℚ → ℤ} {dotenv : Option String}
    {env : String → String} {err : EnvErr} (h : loadHandlerConfig wide dotenv env = .error err) :
    (∃ msg, dotenv = some msg ∧ err = .dotenv msg) ∨
      ∃ envKey, err.envKey = some envKey ∧ env envKey ≠ "" := by
  cases dotenv with
  | some msg => cases h; exact .inl ⟨msg, rfl, rfl⟩
  | none =>
    have named : ∀ {envKey fallback allowZero},
        (parseEnvFloat env envKey fallback allowZero).2 = some err →
        ∃ envKey, err.envKey = some envKey ∧ env envKey ≠ "" :=
      fun h => ⟨_, (parseEnvFloat_error h).1, (parseEnvFloat_error h).2.1⟩
    simp only [loadHandlerConfig, pure_bind] at h
    iterate 7
      obtain h | h := orFail_bind_eq_error h
      · exact .inr (named (by simpa using h))
    cases h

/-- What the loader does keep in range: the two float settings are positive. -/
theorem loadHandlerConfig_float_pos {wide : ℚ → ℤ} {dotenv : Option String}
    {env : String → String} {cfg : HandlerConfig}
    (h : loadHandlerConfig wide dotenv env = .ok cfg) :
    0 < cfg.defaultRefreshAheadThreshold ∧ 0 < cfg.defaultProbabilisticBeta := by
  cases dotenv with
  | some msg => cases h
  | none =>
    have pos : ∀ {envKey fallback}, 0 < fallback →
        (parseEnvFloat env envKey fallback false).2 = none →
        0 < (parseEnvFloat env envKey fallback false).1 := fun hf h => by
      rcases parseEnvFloat_ok h with ⟨-, he⟩ | ⟨v, -, hv | ⟨⟨⟩, -⟩, he⟩ <;> rw [he] <;> assumption
    simp only [loadHandlerConfig, pure_bind, orFail_bind_eq_ok] at h
    obtain ⟨-, -, -, -, -, h6, h7, h⟩ := h
    cases h
    exact ⟨pos (by norm_num [refreshAheadThresholdFallback]) h6,
      pos (by norm_num [defaultProbabilisticBetaFallback]) h7⟩

/-- `os.Getenv` in an environment given by its assignments: the empty string for a variable
that is not set. -/
def envOf (vars : List (String × String)) (envKey : String) : String :=
  (vars.lookup envKey).getD ""

/-- Three variables set to values the loader accepts: a default TTL of half a minute, a
background-refresh timeout of ten billion seconds, and a refresh-ahead threshold of five. -/
def outOfRangeEnv : String → String :=
  envOf [("CACHE_DEFAULT_TTL_MINUTES", "0.5"), ("CACHE_BG_REFRESH_TIMEOUT_SECONDS", "10000000000"),
    ("CACHE_REFRESH_AHEAD_THRESHOLD", "5")]

/-- The loader accepts `outOfRangeEnv`: half a minute truncates to a zero TTL, ten billion
seconds wraps around `int64` to a negative timeout, and the threshold is five. -/
theorem loadHandlerConfig_accepts_out_of_range (wide : ℚ → ℤ) :
    ∃ cfg, loadHandlerConfig wide none outOfRangeEnv = .ok cfg ∧
      cfg.defaultTTL = 0 ∧ cfg.bgRefreshTimeout < 0 ∧ 1 < cfg.defaultRefreshAheadThreshold := by
  have h05 : parseFloat "0.5" = .ok (1 / 2) :=
    (parseFloat_of_exact (d := ⟨false, 5, -1⟩) (m := 1) (e := -1) (by decide)
      (by norm_num [Decimal.value]) one_ne_zero (by decide) (by decide)
      (by norm_num [maxBinary64])).trans (by norm_num)
  have h10 : parseFloat "10000000000" = .ok 10000000000 :=
    (parseFloat_of_exact (d := ⟨false, 10000000000, 0⟩) (m := 9765625) (e := 10) (by decide)
      (by norm_num [Decimal.value]) (by decide) (by decide) (by decide)
      (by norm_num [maxBinary64])).trans (by norm_num)
  have h5 : parseFloat "5" = .ok 5 :=
    (parseFloat_of_exact (d := ⟨false, 5, 0⟩) (m := 5) (e := 0) (by decide)
      (by norm_num [Decimal.value]) (by decide) (by decide) (by decide)
      (by norm_num [maxBinary64])).trans (by norm_num)
  simp only [loadHandlerConfig, parseEnvDuration_eq_scaled,
    @parseEnvFloat_accept outOfRangeEnv "CACHE_DEFAULT_TTL_MINUTES" _ _ _ (by decide) h05
      (.inl (by norm_num)),
    @parseEnvFloat_accept outOfRangeEnv "CACHE_BG_REFRESH_TIMEOUT_SECONDS" _ _ _ (by decide) h10
      (.inl (by norm_num)),
    @parseEnvFloat_accept outOfRangeEnv "CACHE_REFRESH_AHEAD_THRESHOLD" _ _ _ (by decide) h5
      (.inl (by norm_num))]
  simp (disch := decide) only [parseEnvFloat_unset, orFail_ok]
  refine ⟨_, rfl, ?_, ?_, by norm_num⟩
  · -- truncation: `time.Duration(0.5)` is zero
    rw [scaledDuration_of_nonneg wide minute (by norm_num) (by norm_num),
      Int.floor_eq_iff.2 (⟨by norm_num, by norm_num⟩ : ((0 : ℤ) : ℚ) ≤ 1 / 2 ∧ (1 / 2 : ℚ) < (0 : ℤ) + 1)]
    rfl
  · -- wrap-around: `10 ^ 10 * 10 ^ 9` exceeds `2 ^ 63`
    rw [scaledDuration_of_nonneg wide second (by norm_num) (by norm_num),
      show (10000000000 : ℚ) = ((10000000000 : ℤ) : ℚ) by norm_num, Int.floor_intCast,
      wrap64_of_ge (by norm_num [second]) (by norm_num [second])]
    norm_num [second]

end Cashcov
