import Cashcov.Isolation
import Cashcov.Progress

/-!
# A lone caller sees a map

Called one at a time, each call run until it and the tasks it starts have returned, the
handler is a map from keys to values. `Set` stores the value under the key. `Get` reads it
back, or answers `redis.Nil`. `GetOrRefresh` with `WithCallMissPolicy(p)` and
`WithoutBackgroundRefresh()` returns the stored value on a hit. On a miss it returns the
generator's value and stores it, under every policy that ends with the clock standing
still. `FailFast` and an unknown policy instead return their error and store nothing.
`ReturnThenAsyncWrite` stores the value from its background task. `CooperativeRefresh`, with
a positive `cooperativeTimeout`, first waits for the goroutine that takes the lock and closes
`done`; its deadline is still ahead, so the select takes `done` whatever it would pick with
both cases ready (`pick`). With a timeout of zero or less the select may take the timeout
and the call stores nothing, so that case is left out. `ProbabilisticRefresh` then
stamps `@created`. `StaleWhileRevalidate` first reads the stale companion, which is the entry
of the key `k ++ ":stale"`. If that entry holds a value, the call returns it as a hit, and its
refresh writes the generator's value under both keys. `CacheOp.apply` is that map, the
abstract model. `RefreshAhead` is left out: its miss leaves a goroutine asleep until the
refresh time.

`Implements s c` ties a handler state to an abstract cache `c`: every goroutine has
returned, and the backend holds, under the full key of `k`, the encoding of `c k`. The codec
has to decode what it encodes (`Codec.Lawful`). From a reachable state that implements `c`,
each call, run alone, takes the steps `CacheOp.actions` lists and ends where the abstract
operation says (`CacheOp.refines`, one lemma per request and miss policy). By induction the
same holds for every sequence of calls and either choice of the select (`serial_refines`).

The proofs follow the goroutines step by step. One lemma per program point says what `exec`
does there. `runActions_at` moves the run one step on, keeps the state reachable and says
where the goroutines stand. The lock steps read their guard off the lock invariant of
reachable states (`Reachable.occ_eq_zero`, `Reachable.occ_ne_zero`).
-/
namespace Cashcov

/-- The policies under which a lone `GetOrRefresh` ends with the clock standing still, as
its miss path says: all but `RefreshAhead`, whose miss leaves a goroutine asleep until the
refresh time, and `CooperativeRefresh` only with a positive timeout, which keeps the
deadline of its select ahead of a clock that stands still. -/
def MissPolicy.lone (cfg : HandlerConfig) : MissPolicy → Bool
  | .refreshAhead => false
  | .cooperativeRefresh => decide (0 < cfg.cooperativeTimeout)
  | _ => true

end Cashcov

namespace Cashcov.Handler

variable {T : Type} {cfg : HandlerConfig} {codec : Codec T}

/-- A codec that encodes every value and decodes what it encodes. -/
def Codec.Lawful (codec : Codec T) : Prop :=
  ∀ v, ∃ b, codec.marshal v = some b ∧ codec.unmarshal b = some v

theorem byteCodec_lawful : byteCodec.Lawful := fun v => ⟨[v], rfl, rfl⟩

/-- The state `s` stands for the abstract cache `c`: no goroutine is left running, and the
backend holds the encoding of `c k` under the full key of `k`. -/
structure Implements (cfg : HandlerConfig) (codec : Codec T) (s : State T) (c : String → Option T) :
    Prop where
  quiet : ∀ g ∈ s.goroutines, g.pc.finished = true
  store : ∀ k, s.store (fullKey cfg k) = (c k).bind codec.marshal

theorem implements_empty : Implements cfg codec .empty fun _ => none :=
  ⟨fun _ h => absurd h (List.not_mem_nil _), fun _ => rfl⟩

/-- `Get` of the abstract cache. -/
def cacheGet (codec : Codec T) (c : String → Option T) (k : String) (now : ℕ) : Ret T :=
  match c k with
  | some v => (⟨v, true, some now⟩, none)
  | none => (Result.zero codec, some .redisNil)

/-- A read of the backend is the abstract `Get`. -/
theorem Implements.getReply_store {s : State T} {c : String → Option T} (hi : Implements cfg codec s c)
    (hc : codec.Lawful) (k : String) (now : ℕ) :
    getReply codec (some (s.store (fullKey cfg k))) now = cacheGet codec c k now := by
  rw [hi.store, cacheGet]
  cases c k with
  | none => rfl
  | some w =>
    obtain ⟨b, hb, hu⟩ := hc w
    simp only [Option.some_bind, hb, getReply, hu]

/-- The stale companion of `k` is the entry of the key `k ++ ":stale"`. -/
theorem Implements.getFromKey_stale {s : State T} {c : String → Option T} (hi : Implements cfg codec s c)
    (hc : codec.Lawful) (k : String) :
    getFromKey codec (some (s.store (staleKey cfg k))) = c (k ++ ":stale") := by
  rw [staleKey, hi.store]
  cases c (k ++ ":stale") with
  | none => rfl
  | some w =>
    obtain ⟨b, hb, hu⟩ := hc w
    simp only [Option.some_bind, hb, getFromKey, hu]

/-- A write under the full key of `k` is an update of the abstract cache at `k`. -/
theorem store_update {st : String → Option Bytes} {c : String → Option T}
    (hst : ∀ k, st (fullKey cfg k) = (c k).bind codec.marshal) {v : T} {b : Bytes}
    (hb : codec.marshal v = some b) (k k' : String) :
    Function.update st (fullKey cfg k) (some b) (fullKey cfg k') =
      (Function.update c k (some v) k').bind codec.marshal := by
  by_cases hk : k' = k
  · subst hk; simp [hb]
  · rw [Function.update_noteq ((fullKey_injective cfg).ne hk), Function.update_noteq hk, hst]

/-- The answers a lone call gets: the backend answers, the generator returns `gen`, and a
`select` with both cases ready takes the timeout when `pick` says so. -/
def Oracle.alone (gen : Option T) (pick : Bool) : Oracle T := ⟨false, gen, Draw.zero, 0, pick⟩

/-- The options of a lookup-or-insert under the policy `p`. -/
def lookupOpts (p : MissPolicy) : List CallOption := [.withCallMissPolicy p, .withoutBackgroundRefresh]

/-- A call of the public API; `gen` is what the generator returns if it is asked. -/
inductive CacheOp (T : Type)
  | set (key : String) (v : T) (opts : List CallOption)
  | get (key : String)
  | getOrRefresh (key : String) (policy : MissPolicy) (gen : T)

def CacheOp.lone (cfg : HandlerConfig) : CacheOp T → Bool
  | .getOrRefresh _ p _ => p.lone cfg
  | _ => true

/-- How a lone miss ends under the policy: the cache after it, and where the caller and the
task it starts stand. The stale companion of `k` is the entry of `k ++ ":stale"`: under
`StaleWhileRevalidate` a value there is returned as a hit, and the refresh writes the new
value under both keys. -/
def missResult (codec : Codec T) (now : ℕ) (c : String → Option T) (k : String) (v : T) :
    MissPolicy → (String → Option T) × List (Pc T)
  | .staleWhileRevalidate =>
    match c (k ++ ":stale") with
    | some w => (Function.update (Function.update c k (some v)) (k ++ ":stale") (some v),
        [.done (⟨w, true, some now⟩, none), .exit])
    | none => (Function.update c k (some v), [.done (⟨v, false, some now⟩, none)])
  | .failFast => (c, [.done (Result.zero codec, some .cacheMissFailFast)])
  | .other n h => (c, [.done (Result.zero codec, some (.unknownMissPolicy (.other n h)))])
  | .returnThenAsyncWrite | .cooperativeRefresh | .probabilisticRefresh =>
    (Function.update c k (some v), [.done (⟨v, false, some now⟩, none), .exit])
  | _ => (Function.update c k (some v), [.done (⟨v, false, some now⟩, none)])

/-- The abstract operation: the cache after it, and where the goroutines of the call end. -/
def CacheOp.apply (codec : Codec T) (now : ℕ) (c : String → Option T) :
    CacheOp T → (String → Option T) × List (Pc T)
  | .set k v _ => (Function.update c k (some v), [.setReturned none])
  | .get k => (c, [.done (cacheGet codec c k now)])
  | .getOrRefresh k p v =>
    match c k with
    | some w => (c, [.done (⟨w, true, some now⟩, none)])
    | none => missResult codec now c k v p

/-- The steps of a lone miss: those of the caller `n` and of the task `n + 1` it starts;
`stale` says whether the stale companion holds a value. -/
def missRun (n : ℕ) (o : Oracle T) (stale : Bool) : MissPolicy → List (Action T)
  | .syncWriteThenReturn => List.replicate 8 (.run n o)
  | .staleWhileRevalidate =>
    if stale then List.replicate 2 (.run n o) ++ List.replicate 7 (.run (n + 1) o)
    else List.replicate 9 (.run n o)
  | .returnThenAsyncWrite => List.replicate 2 (.run n o) ++ List.replicate 6 (.run (n + 1) o)
  | .cooperativeRefresh =>
    List.replicate 2 (.run n o) ++ List.replicate 4 (.run (n + 1) o) ++ List.replicate 8 (.run n o)
  | .bestEffort => List.replicate 4 (.run n o)
  | .probabilisticRefresh => List.replicate 8 (.run n o) ++ [.run (n + 1) o]
  | _ => [.run n o]

/-- The call, then its goroutine `n` and the task it starts run until they return; a
`select` with both cases ready takes the timeout when `pick` says so. -/
def CacheOp.actions (c : String → Option T) (n : ℕ) (pick : Bool) : CacheOp T → List (Action T)
  | .set k v opts => [.call (.set k v opts), .run n (.ok none), .run n (.ok none)]
  | .get k => [.call (.get k), .run n (.ok none)]
  | .getOrRefresh k p v =>
    .call (.getOrRefresh k (lookupOpts p)) ::
      if (c k).isSome then [.run n (.alone (some v) pick)]
      else missRun n (.alone (some v) pick) (c (k ++ ":stale")).isSome p

/-- The calls one after another, each run alone to its end. -/
def CacheOp.serial (codec : Codec T) (now : ℕ) (pick : Bool) :
    (String → Option T) → ℕ → List (CacheOp T) → List (Action T)
  | _, _, [] => []
  | c, n, op :: ops =>
    op.actions c n pick ++
      serial codec now pick (op.apply codec now c).1 (n + (op.apply codec now c).2.length) ops

/-- The abstract run: the cache at the end, and where the goroutines of the calls end. -/
def CacheOp.run (codec : Codec T) (now : ℕ) :
    (String → Option T) → List (CacheOp T) → (String → Option T) × List (Pc T)
  | c, [] => (c, [])
  | c, op :: ops =>
    let rest := run codec now (op.apply codec now c).1 ops
    (rest.1, (op.apply codec now c).2 ++ rest.2)

section ExecCases

variable {s : State T} {i : ℕ} {g : Goroutine T} {o : Oracle T}

theorem exec_getCall (hpc : g.pc = .getCall) (hf : o.fail = false) :
    exec cfg codec s i g o =
      some ⟨.done (getReply codec (some (s.store (fullKey cfg g.key))) s.now), none, []⟩ := by
  simp only [exec, hpc, hf]; rfl

theorem exec_start_hit {p : MissPolicy} {co : CallOpts} {r : Ret T} (hpc : g.pc = .start p co)
    (hd : co.disableHitRefresh = true) (hf : o.fail = false)
    (hr : getReply codec (some (s.store (fullKey cfg g.key))) s.now = r) (hok : r.2 = none) :
    exec cfg codec s i g o = some ⟨.done r, none, []⟩ := by
  simp only [exec, hpc, hf, Bool.false_eq_true, ↓reduceIte, hr, hok, hd]

theorem exec_start_nil {p : MissPolicy} {co : CallOpts} (hpc : g.pc = .start p co)
    (hst : s.store (fullKey cfg g.key) = none) (hf : o.fail = false) :
    exec cfg codec s i g o = some ⟨missPc codec p co, none, []⟩ := by
  simp only [exec, hpc, hf, hst, getReply]; rfl

theorem exec_lockCh {k : Critical T} (hpc : g.pc = .lockCh k) :
    exec cfg codec s i g o =
      some ⟨.lockSend k (Lock.ch s.km (fullKey cfg g.key)).1, some (.chan (fullKey cfg g.key)), []⟩ := by
  simp only [exec, hpc]

theorem exec_lockSend_free {k : Critical T} {c : ℕ} (hpc : g.pc = .lockSend k c) (hocc : s.km.occ c = 0) :
    exec cfg codec s i g o = some ⟨k.first c, some (.acquire k.site (fullKey cfg g.key) c), []⟩ := by
  simp only [exec, hpc, hocc, if_true]

theorem exec_tryCh {k : Critical T} (hpc : g.pc = .tryCh k) :
    exec cfg codec s i g o =
      some ⟨.trySelect k (Lock.ch s.km (fullKey cfg g.key)).1, some (.chan (fullKey cfg g.key)), []⟩ := by
  simp only [exec, hpc]

theorem exec_trySelect_free {k : Critical T} {c : ℕ} (hpc : g.pc = .trySelect k c) (hocc : s.km.occ c = 0) :
    exec cfg codec s i g o = some ⟨k.first c, some (.acquire k.site (fullKey cfg g.key) c), []⟩ := by
  simp only [exec, hpc, hocc, if_true]

theorem exec_syncCheck_nil {κ : SyncCont} {c : ℕ} (hpc : g.pc = .syncCheck κ c)
    (hst : s.store (fullKey cfg g.key) = none) (hf : o.fail = false) :
    exec cfg codec s i g o = some ⟨.syncGen κ c, some (.absent .syncMiss (fullKey cfg g.key)), []⟩ := by
  simp only [exec, hpc, hf, hst, getReply]; rfl

theorem exec_syncGen_some {κ : SyncCont} {c : ℕ} {v : T} (hpc : g.pc = .syncGen κ c) (hgen : o.gen = some v) :
    exec cfg codec s i g o =
      some ⟨.setWrite v (.syncMiss κ c), some (.generate .syncMiss (fullKey cfg g.key) (some v)), []⟩ := by
  simp only [exec, hpc, hgen]

theorem exec_setWrite_ok {v : T} {r : SetRet} {b : Bytes} (hpc : g.pc = .setWrite v r)
    (hb : codec.marshal v = some b) (hf : o.fail = false) :
    exec cfg codec s i g o =
      some ⟨.setStamp v r, some (.write r.site (fullKey cfg g.key) b (effectiveTTL cfg g.ttl)), []⟩ := by
  simp only [exec, hpc, hb, hf]; rfl

theorem exec_setStamp {v : T} {r : SetRet} (hpc : g.pc = .setStamp v r) :
    exec cfg codec s i g o = some ⟨afterSet codec s.now v r none,
      if 0 < cfg.refreshCooldown then some (.stamp r.site (fullKey cfg g.key)) else none, []⟩ := by
  simp only [exec, hpc]

theorem exec_syncUnlock_held {κ : SyncCont} {c : ℕ} {ret : Ret T} (hpc : g.pc = .syncUnlock κ c ret)
    (hocc : s.km.occ c ≠ 0) :
    exec cfg codec s i g o =
      some ⟨.done ret, some (.release .syncMiss (fullKey cfg g.key) c), afterSync cfg s.now i g κ ret.2⟩ := by
  simp only [exec, hpc, hocc, if_false]

theorem exec_asyncGen_some {v : T} (hpc : g.pc = .asyncGen) (hgen : o.gen = some v) :
    exec cfg codec s i g o = some ⟨.done (⟨v, false, some s.now⟩, none),
      some (.generate .asyncMiss (fullKey cfg g.key) (some v)), [g.child i (.tryCh (.missWrite v))]⟩ := by
  simp only [exec, hpc, hgen]

theorem exec_missWriteExists_absent {v : T} {c : ℕ} (hpc : g.pc = .missWriteExists v c)
    (hf : o.fail = false) (hst : s.store (fullKey cfg g.key) = none) :
    exec cfg codec s i g o = some ⟨.setWrite v (.backgroundMissWrite c),
      some (.absent .backgroundMissWrite (fullKey cfg g.key)), []⟩ := by
  simp only [exec, hpc, hf, hst, Option.isSome_none, Bool.or_self, Bool.false_eq_true, ↓reduceIte]

theorem exec_unlock_held {site : Site} {c : ℕ} (hpc : g.pc = .unlock site c) (hocc : s.km.occ c ≠ 0) :
    exec cfg codec s i g o = some ⟨.exit, some (.release site (fullKey cfg g.key) c), []⟩ := by
  simp only [exec, hpc, hocc, if_false]

theorem exec_coopStart (hpc : g.pc = .coopStart) :
    exec cfg codec s i g o = some ⟨.coopSelect (s.now + cfg.cooperativeTimeout) s.goroutines.length,
      none, [g.child i (.lockCh .coopWait)]⟩ := by
  simp only [exec, hpc]

theorem exec_waitClose {c : ℕ} (hpc : g.pc = .waitClose c) :
    exec cfg codec s i g o = some ⟨.unlock .cooperativeWait c, some (.close i), []⟩ := by
  simp only [exec, hpc]

/-- Before its deadline, the select takes `done` once it is closed, whatever it would pick
with both cases ready. -/
theorem exec_coopSelect_early {d : ℤ} {w : ℕ} (hpc : g.pc = .coopSelect d w) (hd : s.now < d)
    (hcl : s.closed w = true) : exec cfg codec s i g o = some ⟨.lockCh (.syncMiss .plain), none, []⟩ := by
  simp only [exec, hpc, hcl, not_le.2 hd, false_and, ↓reduceIte]

theorem exec_staleCheck_some {v : T} (hpc : g.pc = .staleCheck) (hf : o.fail = false)
    (hv : getFromKey codec (some (s.store (staleKey cfg g.key))) = some v) :
    exec cfg codec s i g o =
      some ⟨.done (⟨v, true, some s.now⟩, none), none, [g.child i (.tryCh .stale)]⟩ := by
  simp only [exec, hpc, hf, Bool.false_eq_true, ↓reduceIte, hv]

theorem exec_staleCheck_none (hpc : g.pc = .staleCheck) (hf : o.fail = false)
    (hv : getFromKey codec (some (s.store (staleKey cfg g.key))) = none) :
    exec cfg codec s i g o = some ⟨.lockCh (.syncMiss .plain), none, []⟩ := by
  simp only [exec, hpc, hf, Bool.false_eq_true, ↓reduceIte, hv]

theorem exec_staleGen_some {c : ℕ} {v : T} (hpc : g.pc = .staleGen c) (hgen : o.gen = some v) :
    exec cfg codec s i g o =
      some ⟨.setWrite v (.staleRefresh c), some (.generate .staleRefresh (fullKey cfg g.key) (some v)), []⟩ := by
  simp only [exec, hpc, hgen]

theorem exec_staleCompanion_ok {v : T} {c : ℕ} {b : Bytes} (hpc : g.pc = .staleCompanion v c)
    (hb : codec.marshal v = some b) (hf : o.fail = false) :
    exec cfg codec s i g o = some ⟨.unlock .staleRefresh c,
      some (.write .staleCompanion (staleKey cfg g.key) b cfg.staleDataTTL), []⟩ := by
  simp only [exec, hpc, hb, hf, Bool.false_eq_true, ↓reduceIte]

theorem exec_bestGen_some {v : T} (hpc : g.pc = .bestGen) (hgen : o.gen = some v) :
    exec cfg codec s i g o =
      some ⟨.setWrite v .bestEffort, some (.generate .bestEffort (fullKey cfg g.key) (some v)), []⟩ := by
  simp only [exec, hpc, hgen]

theorem exec_probStamp (hpc : g.pc = .probStamp) :
    exec cfg codec s i g o = some ⟨.exit, some (.stamp .probabilistic (createdKey cfg g.key)), []⟩ := by
  simp only [exec, hpc]

end ExecCases

@[simp] theorem Outcome.apply_store_none (s : State T) (i : ℕ) (g : Goroutine T) (pc : Pc T)
    (spawns : List (Goroutine T)) : (Outcome.apply s i g ⟨pc, none, spawns⟩).store = s.store := rfl

@[simp] theorem Outcome.apply_store_some (s : State T) (i : ℕ) (g : Goroutine T) (pc : Pc T) (op : Op T)
    (spawns : List (Goroutine T)) :
    (Outcome.apply s i g ⟨pc, some op, spawns⟩).store = (op.apply s.now s).store := rfl

/-- A stamp leaves the backend as it is. -/
@[simp] theorem Outcome.apply_store_stamp (s : State T) (i : ℕ) (g : Goroutine T) (pc : Pc T) (p : Prop)
    [Decidable p] (site : Site) (k : String) (spawns : List (Goroutine T)) :
    (Outcome.apply s i g ⟨pc, if p then some (.stamp site k) else none, spawns⟩).store = s.store := by
  split_ifs <;> rfl

@[simp] theorem Outcome.apply_closed_none (s : State T) (i : ℕ) (g : Goroutine T) (pc : Pc T)
    (spawns : List (Goroutine T)) : (Outcome.apply s i g ⟨pc, none, spawns⟩).closed = s.closed := rfl

@[simp] theorem Outcome.apply_closed_some (s : State T) (i : ℕ) (g : Goroutine T) (pc : Pc T) (op : Op T)
    (spawns : List (Goroutine T)) :
    (Outcome.apply s i g ⟨pc, some op, spawns⟩).closed = (op.apply s.now s).closed := rfl

/-- A step of goroutine `n`, the first after `l`; the goroutines it starts join the end. -/
theorem runActions_at {l r : List (Goroutine T)} {s : State T} {g : Goroutine T} {o : Oracle T}
    {out : Outcome T} {n : ℕ} (hr : Reachable cfg codec s) (hs : s.goroutines = l ++ g :: r)
    (hn : l.length = n) (h : exec cfg codec s n g o = some out) :
    (∀ as, runActions cfg codec s (.run n o :: as) = runActions cfg codec (out.apply s n g) as) ∧
      Reachable cfg codec (out.apply s n g) ∧
      (out.apply s n g).goroutines = l ++ { g with pc := out.pc } :: (r ++ out.spawns) := by
  subst hn
  have hg : s.goroutines[l.length]? = some g := by
    rw [hs, List.getElem?_append_right (le_refl _), Nat.sub_self, List.getElem?_cons_zero]
  have hstep : step cfg codec s (.run l.length o) = some (out.apply s l.length g) := by
    simp only [step, hg, h, Option.map_some']
  refine ⟨runActions_cons hstep, hr.step trivial hstep, ?_⟩
  rw [Outcome.apply_goroutines, hs, List.set_append_right _ _ (le_refl _), Nat.sub_self,
    List.set_cons_zero, List.append_assoc, List.cons_append]

theorem runActions_call (s : State T) (req : Request T) (as : List (Action T)) :
    runActions cfg codec s (.call req :: as) =
      runActions cfg codec { s with goroutines := s.goroutines ++ [req.goroutine cfg] } as := rfl

/-- The tasks `afterSync` starts read only the key and the TTL of the goroutine. -/
@[simp] theorem afterSync_with_pc (now self : ℕ) (g : Goroutine T) (pc : Pc T) (κ : SyncCont)
    (e : Option Err) : afterSync cfg now self { g with pc := pc } κ e = afterSync cfg now self g κ e := by
  cases κ <;> cases e <;> rfl

/-- A goroutine that holds a lock keeps its buffer full. -/
theorem Reachable.occ_ne_zero {l r : List (Goroutine T)} {s : State T} {g : Goroutine T} {c : ℕ}
    (hr : Reachable cfg codec s) (hs : s.goroutines = l ++ g :: r) (h : g.pc.held = some c) :
    s.km.occ c ≠ 0 := by
  rw [hr.occ_held (by rw [hs]; exact List.mem_append_right _ (List.mem_cons_self _ _)) h]
  exact one_ne_zero

/-- With every goroutine returned or holding no lock, every buffer is empty. -/
theorem Reachable.occ_eq_zero {l r : List (Goroutine T)} {s : State T} (hr : Reachable cfg codec s)
    (hs : s.goroutines = l ++ r) (hl : ∀ g ∈ l, g.pc.finished = true)
    (hfree : r.all (fun g => g.pc.held.isNone) = true) (c : ℕ) : s.km.occ c = 0 :=
  hr.occ_free fun g hg hh => by
    rw [hs, List.mem_append] at hg
    rcases hg with hg | hg
    · rw [Pc.held_of_finished (hl g hg)] at hh; cases hh
    · have := List.all_eq_true.1 hfree g hg
      rw [hh] at this; cases this

/-- `s'` is `s` after one more call, whose goroutines have returned at `pcs`; `s'` stands
for `c'`. -/
structure Completes (cfg : HandlerConfig) (codec : Codec T) (s s' : State T) (c' : String → Option T)
    (pcs : List (Pc T)) : Prop where
  reachable : Reachable cfg codec s'
  now : s'.now = s.now
  pcs : s'.goroutines.map (·.pc) = s.goroutines.map (·.pc) ++ pcs
  implements : Implements cfg codec s' c'

theorem Completes.of_end {s s' : State T} {c c' : String → Option T} {r : List (Goroutine T)}
    {pcs : List (Pc T)} (hi : Implements cfg codec s c) (hr : Reachable cfg codec s')
    (hnow : s'.now = s.now) (hs : s'.goroutines = s.goroutines ++ r) (hpc : r.map (·.pc) = pcs)
    (hf : pcs.all Pc.finished = true) (hst : ∀ k, s'.store (fullKey cfg k) = (c' k).bind codec.marshal) :
    Completes cfg codec s s' c' pcs := by
  refine ⟨hr, hnow, by rw [hs, List.map_append, hpc], fun g' hg' => ?_, hst⟩
  rw [hs, List.mem_append] at hg'
  rcases hg' with hg' | hg'
  · exact hi.quiet g' hg'
  · exact List.all_eq_true.1 hf _ (hpc ▸ List.mem_map_of_mem _ hg')

section Serve

variable {s : State T} {c : String → Option T} {pick : Bool}

/-- `missSyncWriteThenReturn` alone from `Lock` on: lock, read again, generate, `Set` (write
and stamp), unlock; seven steps. -/
theorem sync_chain {l r : List (Goroutine T)} {g : Goroutine T} {κ : SyncCont} {v : T} {b : Bytes}
    {n : ℕ} (hr : Reachable cfg codec s) (hs : s.goroutines = l ++ g :: r) (hn : l.length = n)
    (hpc : g.pc = .lockCh (.syncMiss κ)) (hl : ∀ g ∈ l, g.pc.finished = true)
    (hfree : r.all (fun g => g.pc.held.isNone) = true) (hst : s.store (fullKey cfg g.key) = none)
    (hb : codec.marshal v = some b) :
    ∃ s', (∀ as, runActions cfg codec s (List.replicate 7 (.run n (.alone (some v) pick)) ++ as) =
        runActions cfg codec s' as) ∧ Reachable cfg codec s' ∧ s'.now = s.now ∧
      s'.goroutines = l ++ { g with pc := .done (⟨v, false, some s.now⟩, none) } ::
        (r ++ afterSync cfg s.now n g κ none) ∧
      s'.store = Function.update s.store (fullKey cfg g.key) (some b) := by
  obtain ⟨e₁, r₁, h₁⟩ := runActions_at (o := .alone (some v) pick) hr hs hn (exec_lockCh hpc)
  obtain ⟨e₂, r₂, h₂⟩ := runActions_at (o := .alone (some v) pick) r₁ h₁ hn (exec_lockSend_free rfl
    (r₁.occ_eq_zero h₁ hl (by rw [List.all_cons, List.append_nil, hfree]; rfl) _))
  obtain ⟨e₃, r₃, h₃⟩ := runActions_at (o := .alone (some v) pick) r₂ h₂ hn (exec_syncCheck_nil rfl hst rfl)
  obtain ⟨e₄, r₄, h₄⟩ := runActions_at (o := .alone (some v) pick) r₃ h₃ hn (exec_syncGen_some rfl rfl)
  obtain ⟨e₅, r₅, h₅⟩ := runActions_at (o := .alone (some v) pick) r₄ h₄ hn (exec_setWrite_ok rfl hb rfl)
  obtain ⟨e₆, r₆, h₆⟩ := runActions_at (o := .alone (some v) pick) r₅ h₅ hn (exec_setStamp rfl)
  obtain ⟨e₇, r₇, h₇⟩ := runActions_at (o := .alone (some v) pick) r₆ h₆ hn (exec_syncUnlock_held rfl (r₆.occ_ne_zero h₆ rfl))
  refine ⟨_, fun as => (e₁ _).trans ((e₂ _).trans ((e₃ _).trans ((e₄ _).trans
    ((e₅ _).trans ((e₆ _).trans (e₇ as)))))), r₇, by simp only [Outcome.apply_now],
    by rw [h₇]; simp only [Outcome.apply_now, List.append_nil, afterSync_with_pc], ?_⟩
  simp only [Outcome.apply_store_some, Outcome.apply_store_none, Outcome.apply_store_stamp, Op.apply]

theorem set_serves (hs : Reachable cfg codec s) (hi : Implements cfg codec s c) (hc : codec.Lawful)
    (k : String) (v : T) (opts : List CallOption) :
    ∃ s', runActions cfg codec s
        [.call (.set k v opts), .run s.goroutines.length (.ok none), .run s.goroutines.length (.ok none)] =
        some s' ∧ Completes cfg codec s s' (Function.update c k (some v)) [.setReturned none] := by
  obtain ⟨b, hb, -⟩ := hc v
  obtain ⟨e₁, r₁, h₁⟩ := runActions_at (o := .ok none) (l := s.goroutines) (r := [])
    (hs.step (a := .call (.set k v opts)) trivial rfl) rfl rfl (exec_setWrite_ok rfl hb rfl)
  obtain ⟨e₂, r₂, h₂⟩ := runActions_at r₁ h₁ rfl (exec_setStamp rfl)
  refine ⟨_, by rw [runActions_call]; exact (e₁ _).trans (e₂ []),
    Completes.of_end hi r₂ (by simp only [Outcome.apply_now]) h₂ rfl rfl fun k' => ?_⟩
  simp only [Outcome.apply_store_stamp, Outcome.apply_store_some, Op.apply]
  exact store_update hi.store hb k k'

theorem get_serves (hs : Reachable cfg codec s) (hi : Implements cfg codec s c) (hc : codec.Lawful)
    (k : String) :
    ∃ s', runActions cfg codec s [.call (.get k), .run s.goroutines.length (.ok none)] = some s' ∧
      Completes cfg codec s s' c [.done (cacheGet codec c k s.now)] := by
  obtain ⟨e₁, r₁, h₁⟩ := runActions_at (o := .ok none) (l := s.goroutines) (r := [])
    (hs.step (a := .call (.get k)) trivial rfl) rfl rfl (exec_getCall rfl rfl)
  exact ⟨_, by rw [runActions_call]; exact e₁ [],
    Completes.of_end hi r₁ rfl h₁ (congrArg (fun r => [Pc.done r]) (hi.getReply_store hc k s.now)) rfl
      hi.store⟩

theorem getOrRefresh_hit_serves (hs : Reachable cfg codec s) (hi : Implements cfg codec s c)
    (hc : codec.Lawful) {k : String} {w : T} (hck : c k = some w) (p : MissPolicy) (v : T) :
    ∃ s', runActions cfg codec s
        [.call (.getOrRefresh k (lookupOpts p)), .run s.goroutines.length (.alone (some v) pick)] = some s' ∧
      Completes cfg codec s s' c [.done (⟨w, true, some s.now⟩, none)] := by
  have hr : getReply codec (some (s.store (fullKey cfg k))) s.now = (⟨w, true, some s.now⟩, none) := by
    rw [hi.getReply_store hc, cacheGet, hck]
  obtain ⟨e₁, r₁, h₁⟩ := runActions_at (o := .alone (some v) pick) (l := s.goroutines) (r := [])
    (hs.step (a := .call (.getOrRefresh k (lookupOpts p))) trivial rfl) rfl rfl
    (exec_start_hit rfl rfl rfl hr rfl)
  exact ⟨_, by rw [runActions_call]; exact e₁ [], Completes.of_end hi r₁ rfl h₁ rfl rfl hi.store⟩

/-- A lone miss runs as its policy says and ends as `missResult` says. -/
theorem getOrRefresh_miss_serves (hs : Reachable cfg codec s) (hi : Implements cfg codec s c)
    (hc : codec.Lawful) {k : String} (hck : c k = none) {p : MissPolicy} (hp : p.lone cfg = true) (v : T) :
    ∃ s', runActions cfg codec s (.call (.getOrRefresh k (lookupOpts p)) ::
        missRun s.goroutines.length (.alone (some v) pick) (c (k ++ ":stale")).isSome p) = some s' ∧
      Completes cfg codec s s' (missResult codec s.now c k v p).1 (missResult codec s.now c k v p).2 := by
  obtain ⟨b, hb, -⟩ := hc v
  have hst : s.store (fullKey cfg k) = none := by rw [hi.store, hck]; rfl
  have hupd := store_update hi.store hb k
  obtain ⟨e₁, r₁, h₁⟩ := runActions_at (o := .alone (some v) pick) (l := s.goroutines) (r := [])
    (hs.step (a := .call (.getOrRefresh k (lookupOpts p))) trivial rfl) rfl rfl
    (exec_start_nil rfl hst rfl)
  rw [runActions_call]
  cases p with
  | syncWriteThenReturn =>
    obtain ⟨s', e, r', hnow, h', hst'⟩ := sync_chain r₁ h₁ rfl rfl hi.quiet rfl hst hb
    refine ⟨s', (e₁ _).trans (e _), Completes.of_end hi r' (hnow.trans rfl) h' rfl rfl fun k' => ?_⟩
    rw [hst']; exact hupd k'
  | probabilisticRefresh =>
    obtain ⟨s₂, e, r₂, hnow, h₂, hst₂⟩ := sync_chain r₁ h₁ rfl rfl hi.quiet rfl hst hb
    obtain ⟨e₃, r₃, h₃⟩ := runActions_at (o := .alone (some v) pick) r₂ (h₂.trans (List.append_cons _ _ _))
      (List.length_append _ _) (exec_probStamp rfl)
    refine ⟨_, (e₁ _).trans ((e _).trans (e₃ [])),
      Completes.of_end hi r₃ (by simp only [Outcome.apply_now]; exact hnow.trans rfl)
        (h₃.trans (List.append_cons _ _ _).symm) rfl rfl fun k' => ?_⟩
    simp only [Outcome.apply_store_some, Op.apply]
    rw [hst₂]; exact hupd k'
  | bestEffort =>
    obtain ⟨e₂, r₂, h₂⟩ := runActions_at (o := .alone (some v) pick) r₁ h₁ rfl (exec_bestGen_some rfl rfl)
    obtain ⟨e₃, r₃, h₃⟩ := runActions_at (o := .alone (some v) pick) r₂ h₂ rfl (exec_setWrite_ok rfl hb rfl)
    obtain ⟨e₄, r₄, h₄⟩ := runActions_at (o := .alone (some v) pick) r₃ h₃ rfl (exec_setStamp rfl)
    refine ⟨_, (e₁ _).trans ((e₂ _).trans ((e₃ _).trans (e₄ []))),
      Completes.of_end hi r₄ (by simp only [Outcome.apply_now]) h₄ (by simp only [Outcome.apply_now]; rfl) rfl
        fun k' => ?_⟩
    simp only [Outcome.apply_store_some, Outcome.apply_store_none, Outcome.apply_store_stamp, Op.apply]
    exact hupd k'
  | returnThenAsyncWrite =>
    obtain ⟨e₂, r₂, h₂⟩ := runActions_at (o := .alone (some v) pick) r₁ h₁ rfl (exec_asyncGen_some rfl rfl)
    have hn (x : Goroutine T) : (s.goroutines ++ [x]).length = s.goroutines.length + 1 :=
      List.length_append _ _
    obtain ⟨e₃, r₃, h₃⟩ := runActions_at (o := .alone (some v) pick) r₂ (h₂.trans (List.append_cons _ _ _)) (hn _) (exec_tryCh rfl)
    obtain ⟨e₄, r₄, h₄⟩ := runActions_at (o := .alone (some v) pick) r₃ h₃ (hn _) (exec_trySelect_free rfl
      (r₃.occ_eq_zero (h₃.trans (List.append_assoc _ _ _)) hi.quiet rfl _))
    obtain ⟨e₅, r₅, h₅⟩ := runActions_at (o := .alone (some v) pick) r₄ h₄ (hn _) (exec_missWriteExists_absent rfl rfl hst)
    obtain ⟨e₆, r₆, h₆⟩ := runActions_at (o := .alone (some v) pick) r₅ h₅ (hn _) (exec_setWrite_ok rfl hb rfl)
    obtain ⟨e₇, r₇, h₇⟩ := runActions_at (o := .alone (some v) pick) r₆ h₆ (hn _) (exec_setStamp rfl)
    obtain ⟨e₈, r₈, h₈⟩ := runActions_at (o := .alone (some v) pick) r₇ h₇ (hn _) (exec_unlock_held rfl (r₇.occ_ne_zero h₇ rfl))
    refine ⟨_, (e₁ _).trans ((e₂ _).trans ((e₃ _).trans ((e₄ _).trans ((e₅ _).trans ((e₆ _).trans
      ((e₇ _).trans (e₈ []))))))),
      Completes.of_end hi r₈ (by simp only [Outcome.apply_now]) (h₈.trans (List.append_assoc _ _ _))
        (by simp only [Outcome.apply_now]; rfl) rfl fun k' => ?_⟩
    simp only [Outcome.apply_store_some, Outcome.apply_store_none, Outcome.apply_store_stamp, Op.apply]
    exact hupd k'
  | cooperativeRefresh =>
    have htimeout : 0 < cfg.cooperativeTimeout := of_decide_eq_true hp
    obtain ⟨e₂, r₂, h₂⟩ := runActions_at (o := .alone (some v) pick) r₁ h₁ rfl (exec_coopStart rfl)
    have hn (x : Goroutine T) : (s.goroutines ++ [x]).length = s.goroutines.length + 1 :=
      List.length_append _ _
    obtain ⟨e₃, r₃, h₃⟩ := runActions_at (o := .alone (some v) pick) r₂ (h₂.trans (List.append_cons _ _ _)) (hn _) (exec_lockCh rfl)
    obtain ⟨e₄, r₄, h₄⟩ := runActions_at (o := .alone (some v) pick) r₃ h₃ (hn _) (exec_lockSend_free rfl
      (r₃.occ_eq_zero (h₃.trans (List.append_assoc _ _ _)) hi.quiet rfl _))
    obtain ⟨e₅, r₅, h₅⟩ := runActions_at (o := .alone (some v) pick) r₄ h₄ (hn _) (exec_waitClose rfl)
    obtain ⟨e₆, r₆, h₆⟩ := runActions_at (o := .alone (some v) pick) r₅ h₅ (hn _) (exec_unlock_held rfl (r₅.occ_ne_zero h₅ rfl))
    obtain ⟨e₇, r₇, h₇⟩ := runActions_at (o := .alone (some v) pick) r₆ (h₆.trans (List.append_assoc _ _ _)) rfl
      (exec_coopSelect_early rfl (by simpa only [Outcome.apply_now] using Int.lt_add_of_pos_right _ htimeout)
        (by simp only [Outcome.apply_closed_some, Outcome.apply_closed_none, Op.apply, h₁, List.length_append,
          List.length_singleton, List.length_cons, List.length_nil, Function.update_same]))
    obtain ⟨s', e, r', hnow, h', hst'⟩ := sync_chain r₇ h₇ rfl rfl hi.quiet rfl hst hb
    refine ⟨s', (e₁ _).trans ((e₂ _).trans ((e₃ _).trans ((e₄ _).trans ((e₅ _).trans ((e₆ _).trans
      ((e₇ _).trans (e _))))))), Completes.of_end hi r' (hnow.trans (by simp only [Outcome.apply_now])) h'
        (by simp only [Outcome.apply_now]; rfl) rfl fun k' => ?_⟩
    rw [hst']
    simp only [Outcome.apply_store_some, Outcome.apply_store_none, Op.apply]
    exact hupd k'
  | staleWhileRevalidate =>
    cases hsk : c (k ++ ":stale") with
    | none =>
      simp only [missResult, hsk]
      obtain ⟨e₂, r₂, h₂⟩ := runActions_at (o := .alone (some v) pick) r₁ h₁ rfl
        (exec_staleCheck_none rfl rfl ((hi.getFromKey_stale hc k).trans hsk))
      obtain ⟨s', e, r', hnow, h', hst'⟩ := sync_chain r₂ h₂ rfl rfl hi.quiet rfl hst hb
      refine ⟨s', (e₁ _).trans ((e₂ _).trans (e _)),
        Completes.of_end hi r' (hnow.trans (by simp only [Outcome.apply_now])) h'
          (by simp only [Outcome.apply_now]; rfl) rfl fun k' => ?_⟩
      rw [hst']
      exact hupd k'
    | some w =>
      simp only [missResult, hsk]
      obtain ⟨e₂, r₂, h₂⟩ := runActions_at (o := .alone (some v) pick) r₁ h₁ rfl
        (exec_staleCheck_some rfl rfl ((hi.getFromKey_stale hc k).trans hsk))
      have hn (x : Goroutine T) : (s.goroutines ++ [x]).length = s.goroutines.length + 1 :=
        List.length_append _ _
      obtain ⟨e₃, r₃, h₃⟩ := runActions_at (o := .alone (some v) pick) r₂ (h₂.trans (List.append_cons _ _ _)) (hn _)
        (exec_tryCh rfl)
      obtain ⟨e₄, r₄, h₄⟩ := runActions_at (o := .alone (some v) pick) r₃ h₃ (hn _) (exec_trySelect_free rfl
        (r₃.occ_eq_zero (h₃.trans (List.append_assoc _ _ _)) hi.quiet rfl _))
      obtain ⟨e₅, r₅, h₅⟩ := runActions_at (o := .alone (some v) pick) r₄ h₄ (hn _) (exec_staleGen_some rfl rfl)
      obtain ⟨e₆, r₆, h₆⟩ := runActions_at (o := .alone (some v) pick) r₅ h₅ (hn _) (exec_setWrite_ok rfl hb rfl)
      obtain ⟨e₇, r₇, h₇⟩ := runActions_at (o := .alone (some v) pick) r₆ h₆ (hn _) (exec_setStamp rfl)
      obtain ⟨e₈, r₈, h₈⟩ := runActions_at (o := .alone (some v) pick) r₇ h₇ (hn _) (exec_staleCompanion_ok rfl hb rfl)
      obtain ⟨e₉, r₉, h₉⟩ := runActions_at (o := .alone (some v) pick) r₈ h₈ (hn _)
        (exec_unlock_held rfl (r₈.occ_ne_zero h₈ rfl))
      refine ⟨_, (e₁ _).trans ((e₂ _).trans ((e₃ _).trans ((e₄ _).trans ((e₅ _).trans ((e₆ _).trans
        ((e₇ _).trans ((e₈ _).trans (e₉ [])))))))),
        Completes.of_end hi r₉ (by simp only [Outcome.apply_now]) (h₉.trans (List.append_assoc _ _ _))
          (by simp only [Outcome.apply_now]; rfl) rfl fun k' => ?_⟩
      simp only [Outcome.apply_store_some, Outcome.apply_store_none, Outcome.apply_store_stamp, Op.apply]
      exact store_update (store_update hi.store hb k) hb (k ++ ":stale") k'
  | failFast =>
    exact ⟨_, e₁ [], Completes.of_end hi r₁ rfl h₁ rfl rfl fun k' => hi.store k'⟩
  | other n h =>
    exact ⟨_, e₁ [], Completes.of_end hi r₁ rfl h₁ rfl rfl fun k' => hi.store k'⟩
  | refreshAhead => cases hp

/-- Each call, run alone from a state that stands for `c`, ends as the abstract operation
says. -/
theorem CacheOp.refines (hs : Reachable cfg codec s) (hi : Implements cfg codec s c) (hc : codec.Lawful)
    {op : CacheOp T} (hop : op.lone cfg = true) :
    ∃ s', runActions cfg codec s (op.actions c s.goroutines.length pick) = some s' ∧
      Completes cfg codec s s' (op.apply codec s.now c).1 (op.apply codec s.now c).2 := by
  cases op with
  | set k v opts => exact set_serves hs hi hc k v opts
  | get k => exact get_serves hs hi hc k
  | getOrRefresh k p v =>
    cases hck : c k with
    | none =>
      simp only [CacheOp.actions, CacheOp.apply, hck, Option.isSome_none, Bool.false_eq_true, ↓reduceIte]
      exact getOrRefresh_miss_serves hs hi hc hck hop v
    | some w =>
      simp only [CacheOp.actions, CacheOp.apply, hck, Option.isSome_some, ↓reduceIte]
      exact getOrRefresh_hit_serves hs hi hc hck p v

end Serve

/-- The handler refines the map: from a reachable state that stands for `c`, calls made one
after another, each run alone until it and its tasks return, end where the abstract cache
says, and the state at the end stands for the abstract cache at the end. -/
theorem serial_refines (hc : codec.Lawful) {s : State T} {c : String → Option T}
    (hs : Reachable cfg codec s) (hi : Implements cfg codec s c) (pick : Bool) (ops : List (CacheOp T))
    (hops : ∀ op ∈ ops, op.lone cfg = true) :
    ∃ s', runActions cfg codec s (CacheOp.serial codec s.now pick c s.goroutines.length ops) = some s' ∧
      Implements cfg codec s' (CacheOp.run codec s.now c ops).1 ∧
      s'.goroutines.map (·.pc) = s.goroutines.map (·.pc) ++ (CacheOp.run codec s.now c ops).2 := by
  induction ops generalizing s c with
  | nil => exact ⟨s, rfl, hi, (List.append_nil _).symm⟩
  | cons op ops ih =>
    obtain ⟨s₁, h₁, hsv⟩ := CacheOp.refines hs hi hc (hops op (List.mem_cons_self _ _))
    obtain ⟨s₂, h₂, hi₂, hp₂⟩ :=
      ih hsv.reachable hsv.implements fun op' h => hops op' (List.mem_cons_of_mem _ h)
    have hlen : s₁.goroutines.length = s.goroutines.length + (op.apply codec s.now c).2.length := by
      simpa only [List.length_map, List.length_append] using congrArg List.length hsv.pcs
    rw [hlen, hsv.now] at h₂
    rw [hsv.now] at hi₂ hp₂
    refine ⟨s₂, ?_, hi₂, ?_⟩
    · rw [CacheOp.serial, runActions_append, h₁, Option.some_bind]
      exact h₂
    · rw [hp₂, hsv.pcs, List.append_assoc]
      rfl

/-- A miss under each policy that ends alone, a hit, an overwrite and reads, from the empty
backend; the last miss finds a value under `"f:stale"` and returns it. -/
def serialOps : List (CacheOp UInt8) :=
  [.getOrRefresh "a" .returnThenAsyncWrite 1, .getOrRefresh "b" .cooperativeRefresh 2,
    .getOrRefresh "c" .probabilisticRefresh 3, .getOrRefresh "d" .bestEffort 4,
    .getOrRefresh "e" .failFast 5, .getOrRefresh "a" .syncWriteThenReturn 9, .set "a" 7 [],
    .get "a", .get "e", .set "f:stale" 6 [], .getOrRefresh "f" .staleWhileRevalidate 8, .get "f"]

theorem serial_refines_serialOps :
    ∃ s', runActions defaultConfig byteCodec .empty
        (CacheOp.serial byteCodec 0 true (fun _ => none) 0 serialOps) =
        some s' ∧ Implements defaultConfig byteCodec s' (CacheOp.run byteCodec 0 (fun _ => none) serialOps).1 ∧
      s'.goroutines.map (·.pc) =
        [.done (⟨1, false, some 0⟩, none), .exit, .done (⟨2, false, some 0⟩, none), .exit,
          .done (⟨3, false, some 0⟩, none), .exit, .done (⟨4, false, some 0⟩, none),
          .done (⟨0, false, none⟩, some .cacheMissFailFast), .done (⟨1, true, some 0⟩, none),
          .setReturned none, .done (⟨7, true, some 0⟩, none), .done (⟨0, false, none⟩, some .redisNil),
          .setReturned none, .done (⟨6, true, some 0⟩, none), .exit, .done (⟨8, true, some 0⟩, none)] := by
  obtain ⟨s', h, hi, hp⟩ := serial_refines byteCodec_lawful (Run.init State.empty_initial) implements_empty
    true serialOps (by decide : ∀ op ∈ serialOps, op.lone defaultConfig = true)
  exact ⟨s', h, hi, hp⟩

end Cashcov.Handler
