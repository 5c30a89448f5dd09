import Cashcov.Lock
import Cashcov.Config
import Cashcov.Float

/-!
# The handler as a system of goroutines

A state holds the backend (`store`, a value and nothing else per key), the refresh
ledger, the keyed mutex, the `done` channels of the cooperative policy, the clock
and the goroutines. A goroutine is a call of `GetOrRefresh`, `Set` or `Get`, or a
goroutine one of them started; its program counter says where it is in the code.
A step is a call arriving, the clock advancing, the backend dropping a key (TTL
expiry or eviction), or one goroutine running up to its next shared operation.

The environment answers each goroutine step through an `Oracle`: whether the
backend command fails, what the generator returns, the random draw, the reply of
`TTL`, and which case a `select` takes when both are ready. A step performs at
most one shared operation; `log` records it with the goroutine and the time.
The log and the `absent` operation are ghost: the code has neither.

The sleep of `scheduleRefreshAhead` rounds each `float64` operation as Go does. The two
refresh predicates read their `float64` arithmetic as exact rational arithmetic, which
differs from Go's only in rounding and when the TTL is zero.
-/
/-! ### List and string facts the handler's proofs use -/

namespace List

/-- The entry at `j` of a list with one element appended: an old entry or the new one. -/
theorem getElem?_concat_eq_some {α : Type} {l : List α} {a x : α} {j : ℕ}
    (h : (l ++ [a])[j]? = some x) : (j < l.length ∧ l[j]? = some x) ∨ (j = l.length ∧ x = a) := by
  rcases Nat.lt_or_ge j l.length with hlt | hle
  · exact .inl ⟨hlt, by rwa [getElem?_append_left hlt] at h⟩
  · rw [getElem?_append_right hle] at h
    obtain ⟨n, hn⟩ := Nat.exists_eq_add_of_le hle
    subst hn
    cases n with
    | zero => simp only [Nat.add_zero, Nat.sub_self, getElem?_cons_zero, Option.some.injEq] at h
              exact .inr ⟨rfl, h.symm⟩
    | succ n => simp at h

theorem set_of_getElem? {α : Type} {l : List α} {i : ℕ} {a : α} (h : l[i]? = some a) :
    l.set i a = l := by
  apply ext_getElem?; intro j
  rw [getElem?_set]
  split
  · subst j; simp [(getElem?_eq_some_iff.1 h).1, h]
  · rfl

/-- Replacing an entry by one the predicate judges alike keeps the count. -/
theorem countP_set_of_eq {α : Type} {p : α → Bool} {l : List α} {i : ℕ} {a b : α}
    (h : l[i]? = some b) (hp : p a = p b) : (l.set i a).countP p = l.countP p := by
  obtain ⟨hi, rfl⟩ := getElem?_eq_some_iff.1 h
  rw [countP_set p l i a hi, hp]
  exact Nat.sub_add_cancel (boole_getElem_le_countP p l i hi)

end List

theorem String.append_left_inj {a b : String} (x : String) : a ++ x = b ++ x ↔ a = b := by
  simp [String.ext_iff]

namespace Cashcov.Handler

open Cashcov.Lock

abbrev Bytes := List UInt8

/-- The encoder: the zero value of `T`, `json.Marshal` and `json.Unmarshal` into a
fresh `T`, with `none` for their errors. -/
structure Codec (T : Type) where
  zero : T
  marshal : T → Option Bytes
  unmarshal : Bytes → Option T

/-- The errors of the handler, named by the text they are wrapped in. `redisNil` is the
bare sentinel `Get` returns on a miss; a wrapped error keeps only its wrapper, not the error
it wraps. -/
inductive Err
  | redisNil
  | redisGet
  | unmarshal
  | marshal
  | redisSet
  | generator
  | cacheMissFailFast
  | unknownMissPolicy (p : MissPolicy)
  deriving DecidableEq

/-- `Result[T]`; `cachedAt = none` is the zero `time.Time`. -/
structure Result (T : Type) where
  value : T
  fromCache : Bool
  cachedAt : Option ℕ
  deriving DecidableEq

/-- `(Result[T], error)`. -/
abbrev Ret (T : Type) := Result T × Option Err

variable {T : Type}

/-- `Result[T]{Value: zero}`. -/
def Result.zero (codec : Codec T) : Result T := ⟨codec.zero, false, none⟩

/-- `Get`, from the reply of the backend: `none` when the command failed, `some none`
for `redis.Nil`. -/
def getReply (codec : Codec T) (reply : Option (Option Bytes)) (now : ℕ) : Ret T :=
  match reply with
  | none => (Result.zero codec, some .redisGet)
  | some none => (Result.zero codec, some .redisNil)
  | some (some b) =>
    match codec.unmarshal b with
    | none => (Result.zero codec, some .unmarshal)
    | some v => (⟨v, true, some now⟩, none)

/-- A `redis.Nil` comes from a backend that answered and holds nothing. -/
theorem getReply_redisNil {codec : Codec T} {f : Bool} {x : Option Bytes} {now : ℕ}
    (h : (getReply codec (if f then none else some x) now).2 = some .redisNil) : x = none := by
  cases f <;> cases x <;> simp [getReply] at h ⊢
  split at h <;> simp at h

/-- `getFromKey`; its error is dropped by its only caller. -/
def getFromKey (codec : Codec T) (reply : Option (Option Bytes)) : Option T :=
  match reply with
  | some (some b) => codec.unmarshal b
  | _ => none

def shouldRefreshNow (cfg : HandlerConfig) (ledger : String → Option ℕ) (fullKey : String)
    (now : ℕ) : Bool :=
  if cfg.refreshCooldown ≤ 0 then true
  else
    match ledger fullKey with
    | none => true
    | some last => decide (cfg.refreshCooldown ≤ (now : ℤ) - last)

/-- `shouldRefreshAhead`, from the reply of `TTL` (`none` when it failed). -/
def shouldRefreshAhead (reply : Option ℤ) (originalTTL : ℤ) (threshold : ℚ) : Bool :=
  match reply with
  | none => false
  | some remaining => if remaining ≤ 0 then false else decide ((remaining : ℚ) / originalTTL ≤ threshold)

/-- `shouldProbabilisticRefresh`, from the `@created` stamp and the draw of `rand.Float64()`. -/
def shouldProbabilisticRefresh (created : Option ℕ) (now : ℕ) (ttl : ℤ) (beta draw : ℚ) : Bool :=
  match created with
  | none => false
  | some c => decide (draw < ((now : ℚ) - c) / ttl * beta)

/-- `time.Duration(float64(ttl) * (1.0 - threshold))`: the threshold is a `float64`, each
operation rounds to binary64, and the conversion truncates toward zero; a negative sleep
returns at once. A product beyond `int64` converts to a platform-dependent value, on amd64
the least `int64`, so that sleep too returns at once. -/
def refreshTime (ttl : ℤ) (threshold : ℚ) : ℕ :=
  let product : Option ℚ := do
    let t ← binary64 ttl
    let th ← binary64 threshold
    let f ← binary64 (1 - th)
    binary64 (t * f)
  match product with
  | some p => if p < 2 ^ 63 then ⌊p⌋.toNat else 0
  | none => 0

/-- A value of `rand.Float64()`. -/
structure Draw where
  val : ℚ
  nonneg : 0 ≤ val
  lt_one : val < 1

/-- The environment's answer to one goroutine step. -/
structure Oracle (T : Type) where
  fail : Bool
  gen : Option T
  draw : Draw
  remaining : ℤ
  timeout : Bool

def Draw.zero : Draw := ⟨0, by decide, by decide⟩

/-- The backend answers, the generator returns `gen`, the draw and the TTL reply are
zero, and a `select` with both cases ready takes `done`. -/
def Oracle.ok (gen : Option T) : Oracle T := ⟨false, gen, Draw.zero, 0, false⟩

/-- The places in the code that generate, write, stamp or lock. -/
inductive Site
  | set
  | syncMiss
  | asyncMiss
  | backgroundMissWrite
  | backgroundRefresh
  | staleRefresh
  | staleCompanion
  | cooperativeWait
  | cooperativeGen
  | bestEffort
  | probabilistic
  deriving DecidableEq

/-- The shared operations. `write` is a `SET` that succeeded, `stamp` a ledger write of
the current time, `absent` a locked existence check that found nothing, `chan` the
`ch` step of the keyed mutex, `busy` the `default` case of `TryLock`. -/
inductive Op (T : Type)
  | generate (site : Site) (key : String) (result : Option T)
  | write (site : Site) (key : String) (bytes : Bytes) (ttl : ℤ)
  | stamp (site : Site) (key : String)
  | absent (site : Site) (key : String)
  | chan (key : String)
  | acquire (site : Site) (key : String) (c : ℕ)
  | busy (site : Site) (key : String)
  | release (site : Site) (key : String) (c : ℕ)
  | close (w : ℕ)
  deriving DecidableEq

structure Event (T : Type) where
  gid : ℕ
  time : ℕ
  op : Op T
  deriving DecidableEq

/-- What a caller of `missSyncWriteThenReturn` does with its result: return it
(SyncWriteThenReturn, the StaleWhileRevalidate fallback, CooperativeRefresh), or
return it and start `scheduleRefreshAhead` or `enableProbabilisticRefresh`. The beta
of `missProbabilisticRefresh` is left out: `enableProbabilisticRefresh` ignores it. -/
inductive SyncCont
  | plain
  | refreshAhead (co : CallOpts)
  | probabilistic

/-- What a goroutine does once it holds the key's lock. -/
inductive Critical (T : Type)
  | syncMiss (κ : SyncCont)
  | coopWait
  | missWrite (v : T)
  | refresh
  | stale

def Critical.site : Critical T → Site
  | .syncMiss _ => .syncMiss
  | .coopWait => .cooperativeWait
  | .missWrite _ => .backgroundMissWrite
  | .refresh => .backgroundRefresh
  | .stale => .staleRefresh

/-- The caller of `Set`. -/
inductive SetRet
  | call
  | syncMiss (κ : SyncCont) (c : ℕ)
  | backgroundMissWrite (c : ℕ)
  | backgroundRefresh (c : ℕ)
  | staleRefresh (c : ℕ)
  | bestEffort

def SetRet.site : SetRet → Site
  | .call => .set
  | .syncMiss _ _ => .syncMiss
  | .backgroundMissWrite _ => .backgroundMissWrite
  | .backgroundRefresh _ => .backgroundRefresh
  | .staleRefresh _ => .staleRefresh
  | .bestEffort => .bestEffort

/-- Where a goroutine is. `lockCh`/`lockSend` and `tryCh`/`trySelect` are the two
steps of `Lock` and `TryLock`, shared by their callers; `setWrite`/`setStamp` are
the `SET` and the `setLastRefreshNow` of `Set`, shared likewise. -/
inductive Pc (T : Type)
  | start (policy : MissPolicy) (co : CallOpts)
  | hitRefresh (policy : MissPolicy) (co : CallOpts) (res : Result T)
  | done (ret : Ret T)
  | lockCh (k : Critical T)
  | lockSend (k : Critical T) (c : ℕ)
  | tryCh (k : Critical T)
  | trySelect (k : Critical T) (c : ℕ)
  | syncCheck (κ : SyncCont) (c : ℕ)
  | syncGen (κ : SyncCont) (c : ℕ)
  | syncUnlock (κ : SyncCont) (c : ℕ) (ret : Ret T)
  | asyncGen
  | staleCheck
  | coopStart
  | coopSelect (deadline : ℤ) (w : ℕ)
  | coopGen
  | bestGen
  | setWrite (v : T) (ret : SetRet)
  | setStamp (v : T) (ret : SetRet)
  | setReturned (err : Option Err)
  | getCall
  | waitClose (c : ℕ)
  | missWriteExists (v : T) (c : ℕ)
  | refreshCooldown (c : ℕ)
  | refreshGen (c : ℕ)
  | staleGen (c : ℕ)
  | staleCompanion (v : T) (c : ℕ)
  | unlock (site : Site) (c : ℕ)
  | aheadSleep (wake : ℕ)
  | aheadExists
  | probStamp
  | exit

/-- Where a goroutine that another one starts begins. -/
def Pc.isTaskStart : Pc T → Bool
  | .tryCh _ | .lockCh _ | .aheadSleep _ | .probStamp => true
  | _ => false

/-- What the call has returned, once it has. -/
def Pc.ret : Pc T → Option (Ret T)
  | .done r => some r
  | _ => none

inductive Request (T : Type)
  | getOrRefresh (key : String) (opts : List CallOption)
  | set (key : String) (value : T) (opts : List CallOption)
  | get (key : String)

inductive Origin (T : Type)
  | call (req : Request T)
  | spawned (parent : ℕ)

structure Goroutine (T : Type) where
  key : String
  ttl : ℤ
  origin : Origin T
  pc : Pc T

structure State (T : Type) where
  store : String → Option Bytes
  ledger : String → Option ℕ
  km : KeyedMutex
  closed : ℕ → Bool
  now : ℕ
  goroutines : List (Goroutine T)
  log : List (Event T)

/-- The next program counter, the shared operation and the goroutines started. -/
structure Outcome (T : Type) where
  pc : Pc T
  op : Option (Op T)
  spawns : List (Goroutine T)

def Goroutine.child (g : Goroutine T) (self : ℕ) (pc : Pc T) : Goroutine T :=
  ⟨g.key, g.ttl, .spawned self, pc⟩

/-- The first step inside the lock. -/
def Critical.first : Critical T → ℕ → Pc T
  | .syncMiss κ, c => .syncCheck κ c
  | .coopWait, c => .waitClose c
  | .missWrite v, c => .missWriteExists v c
  | .refresh, c => .refreshCooldown c
  | .stale, c => .staleGen c

/-- Where `Set(ctx, key, v, ...)` returns to, with its error. -/
def afterSet (codec : Codec T) (now : ℕ) (v : T) : SetRet → Option Err → Pc T
  | .call, e => .setReturned e
  | .syncMiss κ c, none => .syncUnlock κ c (⟨v, false, some now⟩, none)
  | .syncMiss κ c, some e => .syncUnlock κ c (Result.zero codec, some e)
  | .backgroundMissWrite c, _ => .unlock .backgroundMissWrite c
  | .backgroundRefresh c, _ => .unlock .backgroundRefresh c
  | .staleRefresh c, _ => .staleCompanion v c
  | .bestEffort, _ => .done (⟨v, false, some now⟩, none)

/-- The miss switch of `GetOrRefresh`. -/
def missPc (codec : Codec T) : MissPolicy → CallOpts → Pc T
  | .syncWriteThenReturn, _ => .lockCh (.syncMiss .plain)
  | .returnThenAsyncWrite, _ => .asyncGen
  | .staleWhileRevalidate, _ => .staleCheck
  | .failFast, _ => .done (Result.zero codec, some .cacheMissFailFast)
  | .refreshAhead, co => .lockCh (.syncMiss (.refreshAhead co))
  | .cooperativeRefresh, _ => .coopStart
  | .bestEffort, _ => .bestGen
  | .probabilisticRefresh, _ => .lockCh (.syncMiss .probabilistic)
  | .other n h, _ => .done (Result.zero codec, some (.unknownMissPolicy (.other n h)))

/-- The decision of `handleHitRefresh`. -/
def hitRefreshDue (cfg : HandlerConfig) (s : State T) (g : Goroutine T) (policy : MissPolicy)
    (co : CallOpts) (o : Oracle T) : Bool :=
  match policy with
  | .refreshAhead =>
    shouldRefreshAhead (if o.fail then none else some o.remaining) g.ttl (refreshAheadThreshold cfg co)
  | .probabilisticRefresh =>
    shouldProbabilisticRefresh (s.ledger (createdKey cfg g.key)) s.now g.ttl
      (probabilisticBeta cfg co) o.draw.val
  | _ => shouldRefreshNow cfg s.ledger (fullKey cfg g.key) s.now

/-- What `missRefreshAhead` and `missProbabilisticRefresh` start after a success. -/
def afterSync (cfg : HandlerConfig) (now self : ℕ) (g : Goroutine T) : SyncCont → Option Err →
    List (Goroutine T)
  | .refreshAhead co, none =>
    [g.child self (.aheadSleep (now + refreshTime g.ttl (refreshAheadThreshold cfg co)))]
  | .probabilistic, none => [g.child self .probStamp]
  | _, _ => []

/-- One step of goroutine `self`; `none` when it is blocked or has returned. -/
def exec (cfg : HandlerConfig) (codec : Codec T) (s : State T) (self : ℕ) (g : Goroutine T)
    (o : Oracle T) : Option (Outcome T) :=
  let fk := fullKey cfg g.key
  let reply : Option (Option Bytes) := if o.fail then none else some (s.store fk)
  match g.pc with
  | .start policy co =>
    let res := getReply codec reply s.now
    match res.2 with
    | none => some ⟨if co.disableHitRefresh then .done res else .hitRefresh policy co res.1, none, []⟩
    | some .redisNil => some ⟨missPc codec policy co, none, []⟩
    | some e => some ⟨.done (Result.zero codec, some e), none, []⟩
  | .hitRefresh policy co res =>
    some ⟨.done (res, none), none,
      if hitRefreshDue cfg s g policy co o then [g.child self (.tryCh .refresh)] else []⟩
  | .lockCh k => some ⟨.lockSend k (ch s.km fk).1, some (.chan fk), []⟩
  | .lockSend k c =>
    if s.km.occ c = 0 then some ⟨k.first c, some (.acquire k.site fk c), []⟩ else none
  | .tryCh k => some ⟨.trySelect k (ch s.km fk).1, some (.chan fk), []⟩
  | .trySelect k c =>
    if s.km.occ c = 0 then some ⟨k.first c, some (.acquire k.site fk c), []⟩
    else some ⟨.exit, some (.busy k.site fk), []⟩
  | .syncCheck κ c =>
    let res := getReply codec reply s.now
    match res.2 with
    | none => some ⟨.syncUnlock κ c res, none, []⟩
    | some .redisNil => some ⟨.syncGen κ c, some (.absent .syncMiss fk), []⟩
    | some e => some ⟨.syncUnlock κ c (Result.zero codec, some e), none, []⟩
  | .syncGen κ c =>
    match o.gen with
    | none => some ⟨.syncUnlock κ c (Result.zero codec, some .generator),
        some (.generate .syncMiss fk none), []⟩
    | some v => some ⟨.setWrite v (.syncMiss κ c), some (.generate .syncMiss fk (some v)), []⟩
  | .syncUnlock κ c ret =>
    if s.km.occ c = 0 then none
    else some ⟨.done ret, some (.release .syncMiss fk c), afterSync cfg s.now self g κ ret.2⟩
  | .asyncGen =>
    match o.gen with
    | none => some ⟨.done (Result.zero codec, some .generator), some (.generate .asyncMiss fk none), []⟩
    | some v => some ⟨.done (⟨v, false, some s.now⟩, none), some (.generate .asyncMiss fk (some v)),
        [g.child self (.tryCh (.missWrite v))]⟩
  | .staleCheck =>
    match getFromKey codec (if o.fail then none else some (s.store (staleKey cfg g.key))) with
    | some v => some ⟨.done (⟨v, true, some s.now⟩, none), none, [g.child self (.tryCh .stale)]⟩
    | none => some ⟨.lockCh (.syncMiss .plain), none, []⟩
  | .coopStart =>
    some ⟨.coopSelect (s.now + cfg.cooperativeTimeout) s.goroutines.length, none,
      [g.child self (.lockCh .coopWait)]⟩
  | .coopSelect deadline w =>
    if deadline ≤ s.now ∧ (s.closed w = false ∨ o.timeout = true) then some ⟨.coopGen, none, []⟩
    else if s.closed w then some ⟨.lockCh (.syncMiss .plain), none, []⟩ else none
  | .coopGen =>
    match o.gen with
    | none => some ⟨.done (Result.zero codec, some .generator),
        some (.generate .cooperativeGen fk none), []⟩
    | some v => some ⟨.done (⟨v, false, some s.now⟩, none),
        some (.generate .cooperativeGen fk (some v)), []⟩
  | .bestGen =>
    match o.gen with
    | none => some ⟨.done (⟨codec.zero, false, some s.now⟩, none),
        some (.generate .bestEffort fk none), []⟩
    | some v => some ⟨.setWrite v .bestEffort, some (.generate .bestEffort fk (some v)), []⟩
  | .setWrite v ret =>
    match codec.marshal v with
    | none => some ⟨afterSet codec s.now v ret (some .marshal), none, []⟩
    | some b =>
      if o.fail then some ⟨afterSet codec s.now v ret (some .redisSet), none, []⟩
      else some ⟨.setStamp v ret, some (.write ret.site fk b (effectiveTTL cfg g.ttl)), []⟩
  | .setStamp v ret =>
    some ⟨afterSet codec s.now v ret none,
      if 0 < cfg.refreshCooldown then some (.stamp ret.site fk) else none, []⟩
  | .getCall => some ⟨.done (getReply codec reply s.now), none, []⟩
  | .waitClose c => some ⟨.unlock .cooperativeWait c, some (.close self), []⟩
  | .missWriteExists v c =>
    if o.fail || (s.store fk).isSome then some ⟨.unlock .backgroundMissWrite c, none, []⟩
    else some ⟨.setWrite v (.backgroundMissWrite c), some (.absent .backgroundMissWrite fk), []⟩
  | .refreshCooldown c =>
    if shouldRefreshNow cfg s.ledger fk s.now then some ⟨.refreshGen c, none, []⟩
    else some ⟨.unlock .backgroundRefresh c, none, []⟩
  | .refreshGen c =>
    match o.gen with
    | none => some ⟨.unlock .backgroundRefresh c, some (.generate .backgroundRefresh fk none), []⟩
    | some v => some ⟨.setWrite v (.backgroundRefresh c),
        some (.generate .backgroundRefresh fk (some v)), []⟩
  | .staleGen c =>
    match o.gen with
    | none => some ⟨.unlock .staleRefresh c, some (.generate .staleRefresh fk none), []⟩
    | some v => some ⟨.setWrite v (.staleRefresh c), some (.generate .staleRefresh fk (some v)), []⟩
  | .staleCompanion v c =>
    match codec.marshal v with
    | none => some ⟨.unlock .staleRefresh c, none, []⟩
    | some b =>
      if o.fail then some ⟨.unlock .staleRefresh c, none, []⟩
      else some ⟨.unlock .staleRefresh c,
        some (.write .staleCompanion (staleKey cfg g.key) b cfg.staleDataTTL), []⟩
  | .unlock site c =>
    if s.km.occ c = 0 then none else some ⟨.exit, some (.release site fk c), []⟩
  | .aheadSleep wake => if wake ≤ s.now then some ⟨.aheadExists, none, []⟩ else none
  | .aheadExists =>
    if o.fail || (s.store fk).isNone then some ⟨.exit, none, []⟩ else some ⟨.tryCh .refresh, none, []⟩
  | .probStamp => some ⟨.exit, some (.stamp .probabilistic (createdKey cfg g.key)), []⟩
  | .done _ | .setReturned _ | .exit => none

/-! ### What one step can do -/

/-- The branches of `exec`, each with its guard: `ExecCase cfg codec s self g o pc out` says
that from `pc` the step of goroutine `self` can end in `out`. `exec_cases` shows that every
step is one of them, so facts about a step are proved by cases on this relation and never
by unfolding `exec`. -/
inductive ExecCase (cfg : HandlerConfig) (codec : Codec T) (s : State T) (self : ℕ) (g : Goroutine T)
    (o : Oracle T) : Pc T → Outcome T → Prop
  | startHit {policy : MissPolicy} {co : CallOpts} {res : Ret T}
      (hr : getReply codec (if o.fail then none else some (s.store (fullKey cfg g.key))) s.now = res)
      (hok : res.2 = none) :
      ExecCase cfg codec s self g o (.start policy co)
        ⟨if co.disableHitRefresh then .done res else .hitRefresh policy co res.1, none, []⟩
  | startMiss {policy : MissPolicy} {co : CallOpts}
      (hnil : (getReply codec (if o.fail then none else some (s.store (fullKey cfg g.key))) s.now).2 =
        some .redisNil) :
      ExecCase cfg codec s self g o (.start policy co) ⟨missPc codec policy co, none, []⟩
  | startError {policy : MissPolicy} {co : CallOpts} {e : Err}
      (herr : (getReply codec (if o.fail then none else some (s.store (fullKey cfg g.key))) s.now).2 =
        some e) (hne : e ≠ .redisNil) :
      ExecCase cfg codec s self g o (.start policy co) ⟨.done (Result.zero codec, some e), none, []⟩
  | hitRefresh {policy : MissPolicy} {co : CallOpts} {res : Result T} :
      ExecCase cfg codec s self g o (.hitRefresh policy co res) ⟨.done (res, none), none,
        if hitRefreshDue cfg s g policy co o then [g.child self (.tryCh .refresh)] else []⟩
  | lockCh {k : Critical T} :
      ExecCase cfg codec s self g o (.lockCh k)
        ⟨.lockSend k (ch s.km (fullKey cfg g.key)).1, some (.chan (fullKey cfg g.key)), []⟩
  | lockSend {k : Critical T} {c : ℕ} (hfree : s.km.occ c = 0) :
      ExecCase cfg codec s self g o (.lockSend k c) ⟨k.first c, some (.acquire k.site (fullKey cfg g.key) c), []⟩
  | tryCh {k : Critical T} :
      ExecCase cfg codec s self g o (.tryCh k)
        ⟨.trySelect k (ch s.km (fullKey cfg g.key)).1, some (.chan (fullKey cfg g.key)), []⟩
  | trySelect {k : Critical T} {c : ℕ} (hfree : s.km.occ c = 0) :
      ExecCase cfg codec s self g o (.trySelect k c) ⟨k.first c, some (.acquire k.site (fullKey cfg g.key) c), []⟩
  | tryBusy {k : Critical T} {c : ℕ} (hbusy : s.km.occ c ≠ 0) :
      ExecCase cfg codec s self g o (.trySelect k c) ⟨.exit, some (.busy k.site (fullKey cfg g.key)), []⟩
  | syncHit {κ : SyncCont} {c : ℕ} {res : Ret T}
      (hr : getReply codec (if o.fail then none else some (s.store (fullKey cfg g.key))) s.now = res)
      (hok : res.2 = none) :
      ExecCase cfg codec s self g o (.syncCheck κ c) ⟨.syncUnlock κ c res, none, []⟩
  | syncAbsent {κ : SyncCont} {c : ℕ}
      (hnil : (getReply codec (if o.fail then none else some (s.store (fullKey cfg g.key))) s.now).2 =
        some .redisNil) :
      ExecCase cfg codec s self g o (.syncCheck κ c) ⟨.syncGen κ c, some (.absent .syncMiss (fullKey cfg g.key)), []⟩
  | syncError {κ : SyncCont} {c : ℕ} {e : Err}
      (herr : (getReply codec (if o.fail then none else some (s.store (fullKey cfg g.key))) s.now).2 =
        some e) (hne : e ≠ .redisNil) :
      ExecCase cfg codec s self g o (.syncCheck κ c) ⟨.syncUnlock κ c (Result.zero codec, some e), none, []⟩
  | syncGenFail {κ : SyncCont} {c : ℕ} (hgen : o.gen = none) :
      ExecCase cfg codec s self g o (.syncGen κ c) ⟨.syncUnlock κ c (Result.zero codec, some .generator),
        some (.generate .syncMiss (fullKey cfg g.key) none), []⟩
  | syncGen {κ : SyncCont} {c : ℕ} {v : T} (hgen : o.gen = some v) :
      ExecCase cfg codec s self g o (.syncGen κ c)
        ⟨.setWrite v (.syncMiss κ c), some (.generate .syncMiss (fullKey cfg g.key) (some v)), []⟩
  | syncUnlock {κ : SyncCont} {c : ℕ} {ret : Ret T} (hheld : s.km.occ c ≠ 0) :
      ExecCase cfg codec s self g o (.syncUnlock κ c ret) ⟨.done ret,
        some (.release .syncMiss (fullKey cfg g.key) c), afterSync cfg s.now self g κ ret.2⟩
  | asyncGenFail (hgen : o.gen = none) :
      ExecCase cfg codec s self g o .asyncGen ⟨.done (Result.zero codec, some .generator),
        some (.generate .asyncMiss (fullKey cfg g.key) none), []⟩
  | asyncGen {v : T} (hgen : o.gen = some v) :
      ExecCase cfg codec s self g o .asyncGen ⟨.done (⟨v, false, some s.now⟩, none),
        some (.generate .asyncMiss (fullKey cfg g.key) (some v)), [g.child self (.tryCh (.missWrite v))]⟩
  | staleHit {v : T}
      (hv : getFromKey codec (if o.fail then none else some (s.store (staleKey cfg g.key))) = some v) :
      ExecCase cfg codec s self g o .staleCheck
        ⟨.done (⟨v, true, some s.now⟩, none), none, [g.child self (.tryCh .stale)]⟩
  | staleMiss
      (hv : getFromKey codec (if o.fail then none else some (s.store (staleKey cfg g.key))) = none) :
      ExecCase cfg codec s self g o .staleCheck ⟨.lockCh (.syncMiss .plain), none, []⟩
  | coopStart :
      ExecCase cfg codec s self g o .coopStart ⟨.coopSelect (s.now + cfg.cooperativeTimeout)
        s.goroutines.length, none, [g.child self (.lockCh .coopWait)]⟩
  | coopTimeout {d : ℤ} {w : ℕ} (hd : d ≤ s.now) (hpick : s.closed w = false ∨ o.timeout = true) :
      ExecCase cfg codec s self g o (.coopSelect d w) ⟨.coopGen, none, []⟩
  | coopDone {d : ℤ} {w : ℕ} (hpick : ¬ (d ≤ s.now ∧ (s.closed w = false ∨ o.timeout = true)))
      (hclosed : s.closed w = true) :
      ExecCase cfg codec s self g o (.coopSelect d w) ⟨.lockCh (.syncMiss .plain), none, []⟩
  | coopGenFail (hgen : o.gen = none) :
      ExecCase cfg codec s self g o .coopGen ⟨.done (Result.zero codec, some .generator),
        some (.generate .cooperativeGen (fullKey cfg g.key) none), []⟩
  | coopGen {v : T} (hgen : o.gen = some v) :
      ExecCase cfg codec s self g o .coopGen ⟨.done (⟨v, false, some s.now⟩, none),
        some (.generate .cooperativeGen (fullKey cfg g.key) (some v)), []⟩
  | bestGenFail (hgen : o.gen = none) :
      ExecCase cfg codec s self g o .bestGen ⟨.done (⟨codec.zero, false, some s.now⟩, none),
        some (.generate .bestEffort (fullKey cfg g.key) none), []⟩
  | bestGen {v : T} (hgen : o.gen = some v) :
      ExecCase cfg codec s self g o .bestGen
        ⟨.setWrite v .bestEffort, some (.generate .bestEffort (fullKey cfg g.key) (some v)), []⟩
  | setMarshalFail {v : T} {ret : SetRet} (hm : codec.marshal v = none) :
      ExecCase cfg codec s self g o (.setWrite v ret) ⟨afterSet codec s.now v ret (some .marshal), none, []⟩
  | setFail {v : T} {ret : SetRet} {b : Bytes} (hm : codec.marshal v = some b) (hf : o.fail = true) :
      ExecCase cfg codec s self g o (.setWrite v ret) ⟨afterSet codec s.now v ret (some .redisSet), none, []⟩
  | setWrite {v : T} {ret : SetRet} {b : Bytes} (hm : codec.marshal v = some b) (hf : o.fail = false) :
      ExecCase cfg codec s self g o (.setWrite v ret)
        ⟨.setStamp v ret, some (.write ret.site (fullKey cfg g.key) b (effectiveTTL cfg g.ttl)), []⟩
  | setStamp {v : T} {ret : SetRet} :
      ExecCase cfg codec s self g o (.setStamp v ret) ⟨afterSet codec s.now v ret none,
        if 0 < cfg.refreshCooldown then some (.stamp ret.site (fullKey cfg g.key)) else none, []⟩
  | getCall :
      ExecCase cfg codec s self g o .getCall
        ⟨.done (getReply codec (if o.fail then none else some (s.store (fullKey cfg g.key))) s.now), none, []⟩
  | waitClose {c : ℕ} :
      ExecCase cfg codec s self g o (.waitClose c) ⟨.unlock .cooperativeWait c, some (.close self), []⟩
  | missWriteSkip {v : T} {c : ℕ} (hskip : (o.fail || (s.store (fullKey cfg g.key)).isSome) = true) :
      ExecCase cfg codec s self g o (.missWriteExists v c) ⟨.unlock .backgroundMissWrite c, none, []⟩
  | missWriteAbsent {v : T} {c : ℕ} (hskip : (o.fail || (s.store (fullKey cfg g.key)).isSome) = false) :
      ExecCase cfg codec s self g o (.missWriteExists v c)
        ⟨.setWrite v (.backgroundMissWrite c), some (.absent .backgroundMissWrite (fullKey cfg g.key)), []⟩
  | refreshDue {c : ℕ} (hdue : shouldRefreshNow cfg s.ledger (fullKey cfg g.key) s.now = true) :
      ExecCase cfg codec s self g o (.refreshCooldown c) ⟨.refreshGen c, none, []⟩
  | refreshCooled {c : ℕ} (hdue : shouldRefreshNow cfg s.ledger (fullKey cfg g.key) s.now = false) :
      ExecCase cfg codec s self g o (.refreshCooldown c) ⟨.unlock .backgroundRefresh c, none, []⟩
  | refreshGenFail {c : ℕ} (hgen : o.gen = none) :
      ExecCase cfg codec s self g o (.refreshGen c)
        ⟨.unlock .backgroundRefresh c, some (.generate .backgroundRefresh (fullKey cfg g.key) none), []⟩
  | refreshGen {c : ℕ} {v : T} (hgen : o.gen = some v) :
      ExecCase cfg codec s self g o (.refreshGen c) ⟨.setWrite v (.backgroundRefresh c),
        some (.generate .backgroundRefresh (fullKey cfg g.key) (some v)), []⟩
  | staleGenFail {c : ℕ} (hgen : o.gen = none) :
      ExecCase cfg codec s self g o (.staleGen c)
        ⟨.unlock .staleRefresh c, some (.generate .staleRefresh (fullKey cfg g.key) none), []⟩
  | staleGen {c : ℕ} {v : T} (hgen : o.gen = some v) :
      ExecCase cfg codec s self g o (.staleGen c)
        ⟨.setWrite v (.staleRefresh c), some (.generate .staleRefresh (fullKey cfg g.key) (some v)), []⟩
  | companionMarshalFail {v : T} {c : ℕ} (hm : codec.marshal v = none) :
      ExecCase cfg codec s self g o (.staleCompanion v c) ⟨.unlock .staleRefresh c, none, []⟩
  | companionFail {v : T} {c : ℕ} {b : Bytes} (hm : codec.marshal v = some b) (hf : o.fail = true) :
      ExecCase cfg codec s self g o (.staleCompanion v c) ⟨.unlock .staleRefresh c, none, []⟩
  | companionWrite {v : T} {c : ℕ} {b : Bytes} (hm : codec.marshal v = some b) (hf : o.fail = false) :
      ExecCase cfg codec s self g o (.staleCompanion v c) ⟨.unlock .staleRefresh c,
        some (.write .staleCompanion (staleKey cfg g.key) b cfg.staleDataTTL), []⟩
  | unlock {site : Site} {c : ℕ} (hheld : s.km.occ c ≠ 0) :
      ExecCase cfg codec s self g o (.unlock site c) ⟨.exit, some (.release site (fullKey cfg g.key) c), []⟩
  | aheadWake {wake : ℕ} (hwake : wake ≤ s.now) :
      ExecCase cfg codec s self g o (.aheadSleep wake) ⟨.aheadExists, none, []⟩
  | aheadSkip (hskip : (o.fail || (s.store (fullKey cfg g.key)).isNone) = true) :
      ExecCase cfg codec s self g o .aheadExists ⟨.exit, none, []⟩
  | aheadRefresh (hskip : (o.fail || (s.store (fullKey cfg g.key)).isNone) = false) :
      ExecCase cfg codec s self g o .aheadExists ⟨.tryCh .refresh, none, []⟩
  | probStamp :
      ExecCase cfg codec s self g o .probStamp
        ⟨.exit, some (.stamp .probabilistic (createdKey cfg g.key)), []⟩

/-- Every step of `exec` is one of the branches `ExecCase` lists. -/
theorem exec_cases {cfg : HandlerConfig} {codec : Codec T} {s : State T} {self : ℕ} {g : Goroutine T}
    {o : Oracle T} {out : Outcome T} (h : exec cfg codec s self g o = some out) :
    ExecCase cfg codec s self g o g.pc out := by
  obtain ⟨key, ttl, origin, pc⟩ := g
  cases pc with
  | start policy co =>
    simp only [exec] at h
    split at h <;> cases h
    · exact .startHit rfl ‹_›
    · exact .startMiss ‹_›
    · exact .startError ‹_› ‹_›
  | hitRefresh policy co res => cases h; exact .hitRefresh
  | done ret => cases h
  | lockCh k => cases h; exact .lockCh
  | lockSend k c =>
    simp only [exec] at h
    split at h <;> cases h
    exact .lockSend ‹_›
  | tryCh k => cases h; exact .tryCh
  | trySelect k c =>
    simp only [exec] at h
    split at h <;> cases h
    · exact .trySelect ‹_›
    · exact .tryBusy ‹_›
  | syncCheck κ c =>
    simp only [exec] at h
    split at h <;> cases h
    · exact .syncHit rfl ‹_›
    · exact .syncAbsent ‹_›
    · exact .syncError ‹_› ‹_›
  | syncGen κ c =>
    simp only [exec] at h
    split at h <;> cases h
    · exact .syncGenFail ‹_›
    · exact .syncGen ‹_›
  | syncUnlock κ c ret =>
    simp only [exec] at h
    split at h <;> cases h
    exact .syncUnlock ‹_›
  | asyncGen =>
    simp only [exec] at h
    split at h <;> cases h
    · exact .asyncGenFail ‹_›
    · exact .asyncGen ‹_›
  | staleCheck =>
    simp only [exec] at h
    split at h <;> cases h
    · exact .staleHit ‹_›
    · exact .staleMiss ‹_›
  | coopStart => cases h; exact .coopStart
  | coopSelect d w =>
    simp only [exec] at h
    split at h
    · rename_i hsel
      cases h
      exact .coopTimeout hsel.1 hsel.2
    · split at h <;> cases h
      exact .coopDone ‹_› ‹_›
  | coopGen =>
    simp only [exec] at h
    split at h <;> cases h
    · exact .coopGenFail ‹_›
    · exact .coopGen ‹_›
  | bestGen =>
    simp only [exec] at h
    split at h <;> cases h
    · exact .bestGenFail ‹_›
    · exact .bestGen ‹_›
  | setWrite v ret =>
    simp only [exec] at h
    split at h
    · cases h; exact .setMarshalFail ‹_›
    · split at h <;> cases h
      · exact .setFail ‹_› ‹_›
      · exact .setWrite ‹_› (Bool.eq_false_iff.2 ‹_›)
  | setStamp v ret => cases h; exact .setStamp
  | setReturned err => cases h
  | getCall => cases h; exact .getCall
  | waitClose c => cases h; exact .waitClose
  | missWriteExists v c =>
    simp only [exec] at h
    split at h <;> cases h
    · exact .missWriteSkip ‹_›
    · exact .missWriteAbsent (Bool.eq_false_iff.2 ‹_›)
  | refreshCooldown c =>
    simp only [exec] at h
    split at h <;> cases h
    · exact .refreshDue ‹_›
    · exact .refreshCooled (Bool.eq_false_iff.2 ‹_›)
  | refreshGen c =>
    simp only [exec] at h
    split at h <;> cases h
    · exact .refreshGenFail ‹_›
    · exact .refreshGen ‹_›
  | staleGen c =>
    simp only [exec] at h
    split at h <;> cases h
    · exact .staleGenFail ‹_›
    · exact .staleGen ‹_›
  | staleCompanion v c =>
    simp only [exec] at h
    split at h
    · cases h; exact .companionMarshalFail ‹_›
    · split at h <;> cases h
      · exact .companionFail ‹_› ‹_›
      · exact .companionWrite ‹_› (Bool.eq_false_iff.2 ‹_›)
  | unlock site c =>
    simp only [exec] at h
    split at h <;> cases h
    exact .unlock ‹_›
  | aheadSleep wake =>
    simp only [exec] at h
    split at h <;> cases h
    exact .aheadWake ‹_›
  | aheadExists =>
    simp only [exec] at h
    split at h <;> cases h
    · exact .aheadSkip ‹_›
    · exact .aheadRefresh (Bool.eq_false_iff.2 ‹_›)
  | probStamp => cases h; exact .probStamp
  | exit => cases h

/-- A shared operation performed on the state. -/
def Op.apply (now : ℕ) (s : State T) : Op T → State T
  | .write _ key b _ => { s with store := Function.update s.store key (some b) }
  | .stamp _ key => { s with ledger := Function.update s.ledger key (some now) }
  | .chan key => { s with km := (ch s.km key).2 }
  | .acquire _ _ c => { s with km := (send s.km c).getD s.km }
  | .release _ _ c => { s with km := (recv s.km c).getD s.km }
  | .close w => { s with closed := Function.update s.closed w true }
  | .generate .. | .absent .. | .busy .. => s

def Outcome.apply (s : State T) (self : ℕ) (g : Goroutine T) (out : Outcome T) : State T :=
  let s' := match out.op with
    | some op => op.apply s.now s
    | none => s
  { s' with
    goroutines := s.goroutines.set self { g with pc := out.pc } ++ out.spawns
    log := s.log ++ (out.op.map (Event.mk self s.now)).toList }

inductive Action (T : Type)
  | call (req : Request T)
  | tick (d : ℕ)
  | evict (key : String)
  | run (i : ℕ) (o : Oracle T)

/-- The goroutine of a call, with the TTL and policy `GetOrRefresh` resolves first. -/
def Request.goroutine (cfg : HandlerConfig) : Request T → Goroutine T
  | .getOrRefresh key opts =>
    ⟨key, effectiveTTL cfg (callOpts opts).ttl, .call (.getOrRefresh key opts),
      .start (effectiveMissPolicy cfg (callOpts opts)) (callOpts opts)⟩
  | .set key v opts => ⟨key, (callOpts opts).ttl, .call (.set key v opts), .setWrite v .call⟩
  | .get key => ⟨key, 0, .call (.get key), .getCall⟩

def step (cfg : HandlerConfig) (codec : Codec T) (s : State T) : Action T → Option (State T)
  | .call req => some { s with goroutines := s.goroutines ++ [req.goroutine cfg] }
  | .tick d => some { s with now := s.now + d }
  | .evict key => some { s with store := Function.update s.store key none }
  | .run i o =>
    match s.goroutines[i]? with
    | some g => (exec cfg codec s i g o).map (Outcome.apply s i g)
    | none => none

/-- A state the handler starts in: any backend, ledger and time, no goroutine yet. -/
structure State.Initial (s : State T) : Prop where
  km : s.km = newKeyedMutex
  closed : s.closed = fun _ => false
  goroutines : s.goroutines = []
  log : s.log = []

/-- The states reached by steps that `allowed` admits. -/
inductive Run (cfg : HandlerConfig) (codec : Codec T) (allowed : State T → Action T → Prop) :
    State T → Prop
  | init {s : State T} : s.Initial → Run cfg codec allowed s
  | step {s s' : State T} {a : Action T} :
    Run cfg codec allowed s → allowed s a → step cfg codec s a = some s' → Run cfg codec allowed s'

/-- The states of every run. -/
def Reachable (cfg : HandlerConfig) (codec : Codec T) : State T → Prop :=
  Run cfg codec fun _ _ => True

/-- The state after the actions in order; `none` when one of them is not enabled. -/
def runActions (cfg : HandlerConfig) (codec : Codec T) (s : State T) : List (Action T) → Option (State T)
  | [] => some s
  | a :: as => (step cfg codec s a).bind fun s' => runActions cfg codec s' as

/-- A fresh handler on an empty backend at time zero. -/
def State.empty : State T := ⟨fun _ => none, fun _ => none, newKeyedMutex, fun _ => false, 0, [], []⟩

theorem State.empty_initial : (State.empty : State T).Initial := ⟨rfl, rfl, rfl, rfl⟩

/-- A codec of `uint8` that stores each value as one byte. -/
def byteCodec : Codec UInt8 :=
  ⟨0, fun v => some [v], fun b => match b with | [v] => some v | _ => none⟩

/-- A `SyncWriteThenReturn` miss of `"k"` on an empty backend, run to its return. -/
def syncMissRun : List (Action UInt8) :=
  .call (.getOrRefresh "k" []) :: List.replicate 8 (.run 0 (.ok (some 7)))

/-- A `FailFast` miss of `"k"` on an empty backend. -/
def failFastRun : List (Action UInt8) :=
  [.call (.getOrRefresh "k" [.withCallMissPolicy .failFast]), .run 0 (.ok none)]

section StepLemmas

variable {cfg : HandlerConfig} {codec : Codec T} {s s' : State T}

@[simp] theorem Op.apply_goroutines (now : ℕ) (s : State T) (op : Op T) :
    (op.apply now s).goroutines = s.goroutines := by cases op <;> rfl

@[simp] theorem Op.apply_log (now : ℕ) (s : State T) (op : Op T) :
    (op.apply now s).log = s.log := by cases op <;> rfl

@[simp] theorem Op.apply_now (now : ℕ) (s : State T) (op : Op T) :
    (op.apply now s).now = s.now := by cases op <;> rfl

@[simp] theorem Outcome.apply_goroutines (s : State T) (i : ℕ) (g : Goroutine T) (out : Outcome T) :
    (out.apply s i g).goroutines = s.goroutines.set i { g with pc := out.pc } ++ out.spawns := rfl

@[simp] theorem Outcome.apply_log (s : State T) (i : ℕ) (g : Goroutine T) (out : Outcome T) :
    (out.apply s i g).log = s.log ++ (out.op.map (Event.mk i s.now)).toList := rfl

/-- The events of a step: the old ones and at most one of the stepping goroutine. -/
theorem mem_apply_log {k : ℕ} {g : Goroutine T} {out : Outcome T} {e : Event T}
    (he : e ∈ (out.apply s k g).log) : e ∈ s.log ∨ (e.gid = k ∧ e.time = s.now ∧ out.op = some e.op) := by
  simp only [Outcome.apply_log, List.mem_append] at he
  rcases he with he | he
  · exact .inl he
  · right; cases hop : out.op <;> simp_all

@[simp] theorem Outcome.apply_now (s : State T) (i : ℕ) (g : Goroutine T) (out : Outcome T) :
    (out.apply s i g).now = s.now := by
  unfold Outcome.apply; split <;> simp

theorem Outcome.apply_getElem? {i : ℕ} {g : Goroutine T} (out : Outcome T)
    (hi : i < s.goroutines.length) (j : ℕ) :
    (out.apply s i g).goroutines[j]? =
      if j = i then some { g with pc := out.pc }
      else if j < s.goroutines.length then s.goroutines[j]?
      else out.spawns[j - s.goroutines.length]? := by
  simp only [Outcome.apply_goroutines]
  split_ifs with h₁ h₂
  · subst h₁; rw [List.getElem?_append_left (by simpa using hi)]; simp [hi]
  · rw [List.getElem?_append_left (by simpa using h₂), List.getElem?_set_ne (Ne.symm h₁)]
  · rw [List.getElem?_append_right (by simp; omega)]; simp

theorem Outcome.apply_getElem?_self {i : ℕ} {g : Goroutine T} (hg : s.goroutines[i]? = some g)
    (out : Outcome T) :
    (out.apply s i g).goroutines[i]? = some { g with pc := out.pc } := by
  rw [Outcome.apply_getElem? out (List.getElem?_eq_some_iff.1 hg).1, if_pos rfl]

/-- A property of every goroutine survives a step of goroutine `i` when it holds of the
stepped goroutine, of the others as they were, and of the goroutines it starts. -/
theorem Outcome.forall_apply {P : ℕ → Goroutine T → Prop} {i : ℕ} {g : Goroutine T}
    {out : Outcome T} (hi : s.goroutines[i]? = some g)
    (hold : ∀ j gj, j ≠ i → s.goroutines[j]? = some gj → P j gj)
    (hself : P i { g with pc := out.pc })
    (hspawn : ∀ n g', out.spawns[n]? = some g' → P (s.goroutines.length + n) g') :
    ∀ j gj, (out.apply s i g).goroutines[j]? = some gj → P j gj := by
  have hlt := (List.getElem?_eq_some_iff.1 hi).1
  intro j gj hj
  rw [Outcome.apply_getElem? out hlt] at hj
  split_ifs at hj with h₁ h₂
  · subst h₁; cases hj; exact hself
  · exact hold j gj h₁ hj
  · have := hspawn _ _ hj; rwa [Nat.add_sub_cancel' (by omega)] at this

/-- What `missRefreshAhead` and `missProbabilisticRefresh` start: a refresh-ahead sleeper or
the stamping task, as children of the caller. -/
theorem mem_afterSync {now self : ℕ} {g g' : Goroutine T} {κ : SyncCont} {e : Option Err}
    (h : g' ∈ afterSync cfg now self g κ e) :
    ∃ pc, g' = g.child self pc ∧ (pc = .probStamp ∨ ∃ t, pc = .aheadSleep t) := by
  unfold afterSync at h
  split at h <;> simp only [List.mem_singleton, List.not_mem_nil] at h
  · exact ⟨_, h, .inr ⟨_, rfl⟩⟩
  · exact ⟨_, h, .inl rfl⟩

theorem afterSync_spawns (now self : ℕ) (g : Goroutine T) (κ : SyncCont) (e : Option Err) :
    ∀ g' ∈ afterSync cfg now self g κ e,
      g'.key = g.key ∧ g'.ttl = g.ttl ∧ g'.origin = .spawned self ∧ g'.pc.isTaskStart := by
  intro g' hg'
  obtain ⟨pc, rfl, rfl | ⟨t, rfl⟩⟩ := mem_afterSync hg' <;> exact ⟨rfl, rfl, rfl, rfl⟩

/-- The goroutines a step starts are children of the stepping goroutine on its key. -/
theorem exec_spawns {s : State T} {i : ℕ} {g : Goroutine T} {o : Oracle T} {out : Outcome T}
    (h : exec cfg codec s i g o = some out) :
    ∀ g' ∈ out.spawns, g'.key = g.key ∧ g'.ttl = g.ttl ∧ g'.origin = .spawned i ∧ g'.pc.isTaskStart := by
  have child : ∀ pc : Pc T, pc.isTaskStart → ∀ g' ∈ [g.child i pc],
      g'.key = g.key ∧ g'.ttl = g.ttl ∧ g'.origin = .spawned i ∧ g'.pc.isTaskStart :=
    fun _ hpc _ h => by cases List.mem_singleton.1 h; exact ⟨rfl, rfl, rfl, hpc⟩
  obtain ⟨key, ttl, origin, pc⟩ := g
  cases exec_cases h with
  | hitRefresh =>
    split
    · exact child _ rfl
    · exact fun _ h => absurd h (List.not_mem_nil _)
  | syncUnlock _ => exact afterSync_spawns _ _ _ _ _
  | asyncGen _ | staleHit _ | coopStart => exact child _ rfl
  | _ => exact fun _ h => absurd h (List.not_mem_nil _)

theorem step_run {i : ℕ} {o : Oracle T} (h : step cfg codec s (.run i o) = some s') :
    ∃ g out, s.goroutines[i]? = some g ∧ exec cfg codec s i g o = some out ∧
      s' = out.apply s i g := by
  simp only [step] at h
  split at h
  · obtain ⟨out, hexec, rfl⟩ := Option.map_eq_some'.1 h
    exact ⟨_, out, ‹_›, hexec, rfl⟩
  · cases h

/-- A goroutine keeps its key, TTL and origin; only its program counter moves. -/
theorem step_getElem? {a : Action T} (h : step cfg codec s a = some s') {j : ℕ} {g : Goroutine T}
    (hj : s.goroutines[j]? = some g) : ∃ pc, s'.goroutines[j]? = some { g with pc := pc } := by
  have hlt := (List.getElem?_eq_some_iff.1 hj).1
  cases a with
  | call req => cases h; exact ⟨g.pc, by simp [List.getElem?_append_left hlt, hj]⟩
  | tick d => cases h; exact ⟨g.pc, hj⟩
  | evict key => cases h; exact ⟨g.pc, hj⟩
  | run i o =>
    obtain ⟨g', out, hi, -, rfl⟩ := step_run h
    simp only [Outcome.apply_goroutines]
    rw [List.getElem?_append_left (by simpa using hlt), List.getElem?_set]
    by_cases e : i = j
    · subst e; rw [hi] at hj; cases hj; exact ⟨out.pc, by simp [hlt]⟩
    · exact ⟨g.pc, by simp [e, hj]⟩

theorem step_now_le {a : Action T} (h : step cfg codec s a = some s') : s.now ≤ s'.now := by
  cases a with
  | call req => cases h; exact le_refl _
  | tick d => cases h; exact Nat.le_add_right _ _
  | evict key => cases h; exact le_refl _
  | run i o => obtain ⟨g, out, -, -, rfl⟩ := step_run h; simp

/-- The log only grows, by events of the current time. -/
theorem step_log {a : Action T} (h : step cfg codec s a = some s') :
    ∃ evs, s'.log = s.log ++ evs ∧ ∀ e ∈ evs, e.time = s.now := by
  cases a with
  | call req => cases h; exact ⟨[], by simp, by simp⟩
  | tick d => cases h; exact ⟨[], by simp, by simp⟩
  | evict key => cases h; exact ⟨[], by simp, by simp⟩
  | run i o =>
    obtain ⟨g, out, -, -, rfl⟩ := step_run h
    refine ⟨_, Outcome.apply_log .., fun e he => ?_⟩
    cases hop : out.op <;> simp_all

theorem Run.runActions {allowed : State T → Action T → Prop} (hs : Run cfg codec allowed s)
    (as : List (Action T)) (hall : ∀ s a, allowed s a) (h : runActions cfg codec s as = some s') :
    Run cfg codec allowed s' := by
  induction as generalizing s with
  | nil => cases h; exact hs
  | cons a as ih =>
    obtain ⟨s₁, h₁, h⟩ := Option.bind_eq_some.1 h
    exact ih (hs.step (hall s a) h₁) h

theorem runActions_any (cfg : HandlerConfig) (codec : Codec T) (as : List (Action T))
    {p : State T → Bool} (h : (runActions cfg codec .empty as).any p = true) :
    ∃ s, Reachable cfg codec s ∧ p s = true := by
  cases hs : runActions cfg codec .empty as with
  | none => simp [hs] at h
  | some s =>
    exact ⟨s, Run.runActions (.init State.empty_initial) as (fun _ _ => trivial) hs, by simpa [hs] using h⟩

/-- An event in a log extended by one event is an old one or the new one. -/
theorem List.snoc_eq_append_cons {α : Type} {l pre post : List α} {x e : α}
    (h : l ++ [x] = pre ++ e :: post) :
    (pre = l ∧ e = x ∧ post = []) ∨ ∃ post', post = post' ++ [x] ∧ l = pre ++ e :: post' := by
  rcases List.eq_nil_or_concat post with rfl | ⟨post', y, rfl⟩
  · obtain ⟨h₁, h₂⟩ := List.append_inj' h rfl
    exact .inl ⟨h₁.symm, (List.singleton_inj.1 h₂).symm, rfl⟩
  · rw [List.concat_eq_append, ← List.cons_append, ← List.append_assoc] at h
    obtain ⟨h₁, h₂⟩ := List.append_inj' h rfl
    exact .inr ⟨post', by rw [List.concat_eq_append, List.singleton_inj.1 h₂], h₁⟩

end StepLemmas

end Cashcov.Handler
