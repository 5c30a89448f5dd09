import Cashcov.Isolation
import Cashcov.Operations

/-!
# The stale companion

`spawnStaleRefresh` is the only code that writes the stale companion
`fullKey(key + ":stale")`, and it starts only when `missStaleWhileRevalidate` has just
read a stale value there. The synchronous fallback and the background refresh write the
main key alone. So from a backend without the companion the handler never creates it,
unless a caller sets the key `key + ":stale"` itself, and every
`StaleWhileRevalidate` miss falls back to a synchronous generation.
-/
namespace Cashcov.Handler

variable {T : Type} {cfg : HandlerConfig} {codec : Codec T}

def Critical.isStale : Critical T → Bool
  | .stale => true
  | _ => false

def SetRet.isStale : SetRet → Bool
  | .staleRefresh _ => true
  | _ => false

/-- The steps of `spawnStaleRefresh` up to its companion write. -/
def Pc.staleTask : Pc T → Bool
  | .lockCh k | .lockSend k _ | .tryCh k | .trySelect k _ => k.isStale
  | .staleGen _ | .staleCompanion .. => true
  | .setWrite _ r | .setStamp _ r => r.isStale
  | _ => false

@[simp] theorem afterSet_staleTask (now : ℕ) (v : T) (r : SetRet) (e : Option Err) :
    (afterSet codec now v r e).staleTask = r.isStale := by
  cases r <;> cases e <;> rfl

theorem afterSync_staleTask (now self : ℕ) (g : Goroutine T) (κ : SyncCont) (e : Option Err) :
    ∀ g' ∈ afterSync cfg now self g κ e, g'.pc.staleTask = false := by
  intro g' hg'
  obtain ⟨pc, rfl, rfl | ⟨t, rfl⟩⟩ := mem_afterSync hg' <;> rfl

@[simp] theorem missPc_staleTask (policy : MissPolicy) (co : CallOpts) :
    (missPc codec policy co).staleTask = false := by
  cases policy <;> rfl

@[simp] theorem Critical.first_staleTask (k : Critical T) (c : ℕ) : (k.first c).staleTask = k.isStale := by
  cases k <;> rfl

/-- A goroutine enters `spawnStaleRefresh` only as the task a stale-while-revalidate miss
starts after reading a stale value. -/
theorem exec_staleTask {s : State T} {i : ℕ} {g : Goroutine T} {o : Oracle T} {out : Outcome T}
    (h : exec cfg codec s i g o = some out) :
    (out.pc.staleTask → g.pc.staleTask) ∧ ∀ g' ∈ out.spawns, g'.pc.staleTask →
      ∃ v, getFromKey codec (if o.fail then none else some (s.store (staleKey cfg g.key))) = some v := by
  have one : ∀ (pc : Pc T) (P : Prop), pc.staleTask = false → ∀ g' ∈ [g.child i pc], g'.pc.staleTask → P :=
    fun _ _ hpc _ hg' h => by cases List.mem_singleton.1 hg'; exact absurd (hpc.symm.trans h) Bool.false_ne_true
  obtain ⟨key, ttl, origin, pc⟩ := g
  cases exec_cases h with
  | startHit => split <;> exact ⟨fun h => absurd h Bool.false_ne_true, fun _ h => absurd h (List.not_mem_nil _)⟩
  | startMiss =>
    exact ⟨fun h => absurd ((missPc_staleTask _ _).symm.trans h) Bool.false_ne_true,
      fun _ h => absurd h (List.not_mem_nil _)⟩
  | hitRefresh =>
    refine ⟨fun h => absurd h Bool.false_ne_true, ?_⟩
    split
    · exact one _ _ rfl
    · exact fun _ h => absurd h (List.not_mem_nil _)
  | lockSend _ | trySelect _ =>
    exact ⟨fun h => (Critical.first_staleTask _ _).symm.trans h, fun _ h => absurd h (List.not_mem_nil _)⟩
  | setMarshalFail | setFail | setStamp =>
    exact ⟨fun h => (afterSet_staleTask _ _ _ _).symm.trans h, fun _ h => absurd h (List.not_mem_nil _)⟩
  | staleHit hv => exact ⟨fun h => absurd h Bool.false_ne_true, fun _ _ _ => ⟨_, hv⟩⟩
  | syncUnlock _ =>
    exact ⟨fun h => absurd h Bool.false_ne_true,
      fun g' hg' h => absurd ((afterSync_staleTask _ _ _ _ _ g' hg').symm.trans h) Bool.false_ne_true⟩
  | asyncGen _ | coopStart => exact ⟨fun h => absurd h Bool.false_ne_true, one _ _ rfl⟩
  | _ => exact ⟨fun h => by first | exact h | exact absurd h Bool.false_ne_true,
    fun _ h => absurd h (List.not_mem_nil _)⟩

theorem staleKey_injective (cfg : HandlerConfig) : Function.Injective (staleKey cfg) :=
  fun _ _ h => (String.append_left_inj _).1 (fullKey_injective cfg h)

/-- The key of a call. -/
def Request.key : Request T → String
  | .getOrRefresh key _ | .set key .. | .get key => key

/-- The stale companion of `k` is absent, no goroutine works on the key whose main key it
is, and no goroutine of `k` is in `spawnStaleRefresh`. -/
structure NoCompanion (cfg : HandlerConfig) (k : String) (s : State T) : Prop where
  absent : s.store (staleKey cfg k) = none
  keys : ∀ g ∈ s.goroutines, g.key ≠ k ++ ":stale" ∧ (g.key = k → g.pc.staleTask = false)

theorem NoCompanion.empty (k : String) : NoCompanion cfg k (State.empty : State T) :=
  ⟨rfl, fun _ h => absurd h (List.not_mem_nil _)⟩

theorem NoCompanion.step {k : String} {s s' : State T} {a : Action T} (hn : NoCompanion cfg k s)
    (ha : ∀ req, a = .call req → req.key ≠ k ++ ":stale") (h : step cfg codec s a = some s') :
    NoCompanion cfg k s' := by
  cases a with
  | call req =>
    cases h
    refine ⟨hn.absent, fun g hg => ?_⟩
    rcases List.mem_append.1 hg with hg | hg
    · exact hn.keys g hg
    · rw [List.mem_singleton.1 hg]
      cases req <;> exact ⟨ha _ rfl, fun _ => rfl⟩
  | tick d => cases h; exact ⟨hn.1, hn.2⟩
  | evict key =>
    cases h
    refine ⟨?_, hn.keys⟩
    by_cases hk : staleKey cfg k = key
    · exact hk ▸ Function.update_same _ _ _
    · exact (Function.update_noteq hk _ _).trans hn.absent
  | run i o =>
    obtain ⟨g, out, hg, hexec, rfl⟩ := step_run h
    obtain ⟨hself, hspawn⟩ := exec_staleTask hexec
    obtain ⟨hgk, hgs⟩ := hn.keys g (List.getElem?_mem hg)
    refine ⟨?_, fun g' hg' => ?_⟩
    · -- the companion of `k` is written neither by `Set` nor by a stale refresh of `k`
      unfold Outcome.apply
      cases hop : out.op with
      | none => exact hn.absent
      | some op =>
        cases op with
        | write site key b ttl =>
          simp only [Op.apply]
          rw [Function.update_noteq]
          · exact hn.absent
          rintro rfl
          rcases exec_opFrom hexec _ hop with ⟨v, r, -, -, hkey, -⟩ | ⟨v, c, hpc, -, hkey, -⟩
          · exact hgk (fullKey_injective cfg (hkey.symm.trans rfl))
          · have := hgs (staleKey_injective cfg hkey).symm
            rw [hpc] at this
            cases this
        | _ => exact hn.absent
    · simp only [Outcome.apply_goroutines, List.mem_append] at hg'
      rcases hg' with hg' | hg'
      · rcases List.mem_or_eq_of_mem_set hg' with hg' | rfl
        · exact hn.keys g' hg'
        · exact ⟨hgk, fun hk => Bool.eq_false_iff.2 fun ht => absurd (hself ht) (by simp [hgs hk])⟩
      · obtain ⟨hkey, -⟩ := exec_spawns hexec g' hg'
        refine ⟨hkey ▸ hgk, fun hk => Bool.eq_false_iff.2 fun ht => ?_⟩
        obtain ⟨v, hv⟩ := hspawn g' hg' ht
        rw [← hkey, hk, hn.absent] at hv
        split at hv <;> cases hv

/-- From a handler whose backend has no stale companion of `k`, actions that call no
key `k ++ ":stale"` never create it. -/
theorem runActions_noCompanion {k : String} {s s' : State T} {as : List (Action T)}
    (hn : NoCompanion cfg k s) (has : ∀ a ∈ as, ∀ req, a = .call req → req.key ≠ k ++ ":stale")
    (h : runActions cfg codec s as = some s') : NoCompanion cfg k s' := by
  induction as generalizing s with
  | nil => cases h; exact hn
  | cons a as ih =>
    obtain ⟨s₁, h₁, h⟩ := Option.bind_eq_some.1 h
    exact ih (hn.step (has a (List.mem_cons_self _ _)) h₁) (fun a ha => has a (List.mem_cons_of_mem _ ha)) h

/-- From an empty backend, as long as no caller uses the key `k ++ ":stale"`, the stale
companion of `k` stays absent, and every stale-while-revalidate miss of `k` reads nothing
there and goes on to the synchronous fallback without starting a stale refresh. -/
theorem stale_companion_never_created {k : String} {as : List (Action T)} {s : State T}
    (has : ∀ a ∈ as, ∀ req, a = .call req → req.key ≠ k ++ ":stale")
    (h : runActions cfg codec .empty as = some s) :
    s.store (staleKey cfg k) = none ∧
    ∀ i g o out, s.goroutines[i]? = some g → g.key = k → g.pc = .staleCheck →
      exec cfg codec s i g o = some out → out.pc = .lockCh (.syncMiss .plain) ∧ out.spawns = [] := by
  have hn := runActions_noCompanion (NoCompanion.empty k) has h
  refine ⟨hn.absent, fun i g o out _ hk hpc hexec => ?_⟩
  simp only [exec, hpc, hk, hn.absent] at hexec
  split at hexec <;> rename_i hv
  · split at hv <;> cases hv
  · cases hexec; exact ⟨rfl, rfl⟩

/-- The first stale-while-revalidate call of `"d"` generates `5` and returns; the main entry
is evicted; the second call misses at its first read and stands at its stale read. -/
def swrSecondMiss : List (Action UInt8) :=
  [.call (.getOrRefresh "d" [.withCallMissPolicy .staleWhileRevalidate]), .run 0 (.ok none),
    .run 0 (.ok none), .run 0 (.ok none), .run 0 (.ok none), .run 0 (.ok none),
    .run 0 (.ok (some 5)), .run 0 (.ok none), .run 0 (.ok none), .run 0 (.ok none), .evict "d",
    .call (.getOrRefresh "d" [.withCallMissPolicy .staleWhileRevalidate]), .run 1 (.ok none)]

/-- After `swrSecondMiss` the stale companion of `"d"` is absent, and the stale read of the
second call goes on to the synchronous fallback and starts no stale refresh. -/
theorem stale_companion_never_created_swrSecondMiss :
    ∃ s : State UInt8, runActions defaultConfig byteCodec .empty swrSecondMiss = some s ∧
      s.store (staleKey defaultConfig "d") = none ∧ ∃ g out, s.goroutines[1]? = some g ∧
        g.pc = .staleCheck ∧ exec defaultConfig byteCodec s 1 g (.ok none) = some out ∧
        out.pc = .lockCh (.syncMiss .plain) ∧ out.spawns = [] := by
  have has : ∀ a ∈ swrSecondMiss, ∀ req, a = .call req → req.key ≠ "d" ++ ":stale" := by
    intro a ha req h
    subst h
    simp only [swrSecondMiss, List.mem_cons, Action.call.injEq, reduceCtorEq, false_or,
      List.not_mem_nil, or_false] at ha
    rcases ha with rfl | rfl <;> decide
  have hrun : runActions defaultConfig byteCodec .empty swrSecondMiss = some _ := rfl
  have h := stale_companion_never_created has hrun
  exact ⟨_, hrun, h.1, _, _, rfl, rfl, rfl, h.2 1 _ (.ok none) _ rfl rfl rfl rfl⟩

/-- Under `StaleWhileRevalidate`, the first call of `"d"` generates `5` and writes the main
key only; once the main entry is gone, a second call finds no stale companion and
generates again, returning `6` not from the cache. -/
theorem swr_second_miss_generates :
    (runActions defaultConfig byteCodec .empty
      [.call (.getOrRefresh "d" [.withCallMissPolicy .staleWhileRevalidate]), .run 0 (.ok none),
        .run 0 (.ok none), .run 0 (.ok none), .run 0 (.ok none), .run 0 (.ok none),
        .run 0 (.ok (some 5)), .run 0 (.ok none), .run 0 (.ok none), .run 0 (.ok none), .evict "d",
        .call (.getOrRefresh "d" [.withCallMissPolicy .staleWhileRevalidate]), .run 1 (.ok none),
        .run 1 (.ok none), .run 1 (.ok none), .run 1 (.ok none), .run 1 (.ok none),
        .run 1 (.ok (some 6)), .run 1 (.ok none), .run 1 (.ok none), .run 1 (.ok none)]).map
      (fun s => (s.store "d:stale", s.goroutines[1]?.bind (·.pc.ret),
        (s.log.filter (·.op matches .generate ..)).map (·.gid))) =
    some (none, some (⟨6, false, some 0⟩, none), [0, 1]) := by
  decide

end Cashcov.Handler
