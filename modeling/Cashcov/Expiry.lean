import Cashcov.Operations
import Cashcov.Progress

/-!
# TTLs and timing settings

`GetOrRefresh` resolves its TTL once (`WithTTL`, else the handler's default TTL) and passes
it to every miss helper and background task it starts. Each of them writes through `Set`,
which resolves the TTL again, and `spawnStaleRefresh` writes the stale companion with
`staleDataTTL`. So in every run the stale companion is written with `staleDataTTL` and
every other write carries the TTL of the call it is made for.

`New` and the call options accept a refresh-ahead threshold only in `[0, 1]` and a beta
only when it is positive. So for every call, a handler built by `New` computes a threshold
in `[0, 1]` and a positive beta, and for a TTL below `2 ^ 53` nanoseconds, where `float64`
holds the TTL exactly, a refresh-ahead sleep no longer than the TTL. The environment loader
checks only the sign (`Cashcov.LoadConfig`).
-/
namespace Cashcov

/-! ### The ranges `New` keeps -/

/-- The refresh-ahead threshold lies in `[0, 1]` and beta is positive. -/
def HandlerConfig.InRange (cfg : HandlerConfig) : Prop :=
  0 ≤ cfg.defaultRefreshAheadThreshold ∧ cfg.defaultRefreshAheadThreshold ≤ 1 ∧
    0 < cfg.defaultProbabilisticBeta

/-- The call's own threshold lies in `[0, 1]`; it is zero when the call sets none. -/
def CallOpts.InRange (co : CallOpts) : Prop :=
  0 ≤ co.refreshAheadThreshold ∧ co.refreshAheadThreshold ≤ 1

theorem defaultConfig_inRange : defaultConfig.InRange := by
  norm_num [HandlerConfig.InRange, defaultConfig]

theorem HandlerOption.apply_inRange {cfg : HandlerConfig} (h : cfg.InRange) (o : HandlerOption) :
    (o.apply cfg).InRange := by
  cases o with
  | withRefreshAheadThreshold t =>
    simp only [HandlerOption.apply]
    split_ifs with ht
    · exact ⟨ht.1, ht.2, h.2.2⟩
    · exact h
  | withProbabilisticBeta b =>
    simp only [HandlerOption.apply]
    split_ifs with hb
    · exact ⟨h.1, h.2.1, hb⟩
    · exact h
  | _ => exact h

theorem CallOption.apply_inRange {co : CallOpts} (h : co.InRange) (o : CallOption) :
    (o.apply co).InRange := by
  cases o with
  | withRefreshAheadThreshold t =>
    simp only [CallOption.apply]
    split_ifs with ht
    · exact ht
    · exact h
  | withProbabilisticBeta b =>
    simp only [CallOption.apply]
    split_ifs <;> exact h
  | _ => exact h

theorem newConfig_inRange (opts : List HandlerOption) : (newConfig opts).InRange :=
  List.foldlRecOn (motive := HandlerConfig.InRange) opts _ _ defaultConfig_inRange
    fun _ hc o _ => HandlerOption.apply_inRange hc o

theorem callOpts_inRange (opts : List CallOption) : (callOpts opts).InRange :=
  List.foldlRecOn (motive := CallOpts.InRange) opts _ _ ⟨le_refl 0, zero_le_one⟩
    fun _ hc o _ => CallOption.apply_inRange hc o

theorem refreshAheadThreshold_mem {cfg : HandlerConfig} {co : CallOpts} (hcfg : cfg.InRange)
    (hco : co.InRange) : 0 ≤ refreshAheadThreshold cfg co ∧ refreshAheadThreshold cfg co ≤ 1 := by
  unfold refreshAheadThreshold
  split_ifs
  · exact ⟨hcfg.1, hcfg.2.1⟩
  · exact hco

theorem probabilisticBeta_pos {cfg : HandlerConfig} (hcfg : cfg.InRange) (co : CallOpts) :
    0 < probabilisticBeta cfg co := by
  unfold probabilisticBeta
  split_ifs with h
  · exact hcfg.2.2
  · exact not_le.1 h

/-- What a handler built by `New` computes for every call: a refresh-ahead threshold in
`[0, 1]` and a positive beta. -/
theorem newConfig_call_ranges (hopts : List HandlerOption) (opts : List CallOption) :
    0 ≤ refreshAheadThreshold (newConfig hopts) (callOpts opts) ∧
      refreshAheadThreshold (newConfig hopts) (callOpts opts) ≤ 1 ∧
      0 < probabilisticBeta (newConfig hopts) (callOpts opts) := by
  obtain ⟨h0, h1⟩ := refreshAheadThreshold_mem (newConfig_inRange hopts) (callOpts_inRange opts)
  exact ⟨h0, h1, probabilisticBeta_pos (newConfig_inRange hopts) _⟩

-- Above `2 ^ 53` the bound fails: `float64(ttl)` rounds `2 ^ 53 + 3` up to `2 ^ 53 + 4`.
example : Handler.refreshTime (2 ^ 53 + 3) 0 = 2 ^ 53 + 4 := by
  set_option exponentiation.threshold 1024 in with_unfolding_all decide

-- Rounding also goes down: in `float64`, `1 - 0.9` is just below `0.1`, so `10 * (1 - 0.9)` is
-- just below `1` and truncates to `0`.
example : Handler.refreshTime 10 (9 / 10) = 0 := by
  set_option exponentiation.threshold 1024 in with_unfolding_all decide

end Cashcov

namespace Cashcov.Handler

variable {T : Type} {cfg : HandlerConfig} {codec : Codec T}

/-! ### The TTL of every write -/

/-- The options a request passes; `Get` takes none. -/
def Request.opts : Request T → List CallOption
  | .getOrRefresh _ opts | .set _ _ opts => opts
  | .get _ => []

/-- The call a goroutine works for: its own, or that of the goroutine that started it. -/
def State.request (s : State T) (j : ℕ) : Option (Request T) :=
  s.goroutines[j]?.bind fun g => match g.origin with
    | .call req => some req
    | .spawned p => s.goroutines[p]?.bind fun gp => match gp.origin with
      | .call req => some req
      | .spawned _ => none

theorem effectiveTTL_idem (cfg : HandlerConfig) (ttl : ℤ) :
    effectiveTTL cfg (effectiveTTL cfg ttl) = effectiveTTL cfg ttl := by
  unfold effectiveTTL
  split_ifs <;> omega

/-- The TTL a call's goroutine carries resolves to the call's TTL. -/
theorem Request.goroutine_ttl (cfg : HandlerConfig) (req : Request T) :
    effectiveTTL cfg (req.goroutine cfg).ttl = effectiveTTL cfg (callOpts req.opts).ttl := by
  cases req with
  | getOrRefresh key opts => exact effectiveTTL_idem cfg _
  | set key v opts => rfl
  | get key => rfl

theorem SetRet.site_ne_staleCompanion (ret : SetRet) : ret.site ≠ .staleCompanion := by
  cases ret <;> exact Site.noConfusion

/-- A write is the stale companion's, with `staleDataTTL`, or a `Set` at another site, with
the resolved TTL of the goroutine. -/
theorem exec_write_ttl {s : State T} {i : ℕ} {g : Goroutine T} {o : Oracle T} {out : Outcome T}
    (h : exec cfg codec s i g o = some out) {site : Site} {k : String} {b : Bytes} {ttl : ℤ}
    (hw : out.op = some (.write site k b ttl)) :
    (site = .staleCompanion ∧ ttl = cfg.staleDataTTL) ∨
      (site ≠ .staleCompanion ∧ ttl = effectiveTTL cfg g.ttl) := by
  obtain ⟨key, gttl, origin, pc⟩ := g
  cases exec_cases h with
  | setWrite => cases hw; exact .inr ⟨SetRet.site_ne_staleCompanion _, rfl⟩
  | companionWrite => cases hw; exact .inl ⟨rfl, rfl⟩
  | setStamp => split at hw <;> cases hw
  | _ => cases hw

/-- A goroutine that starts another is a call: a started goroutine starts none. -/
theorem SpawnBound.spawner_call {s : State T} (hb : SpawnBound s) {i : ℕ} {g : Goroutine T}
    {o : Oracle T} {out : Outcome T} (hg : s.goroutines[i]? = some g)
    (h : exec cfg codec s i g o = some out) {g' : Goroutine T} (hg' : g' ∈ out.spawns) :
    ∃ req, g.origin = .call req := by
  cases ho : g.origin with
  | call req => exact ⟨req, rfl⟩
  | spawned p =>
    have hbud := hb.budget i g hg
    rw [ho, Origin.allowance] at hbud
    have := (exec_budget h).1
    have := List.length_pos_of_mem hg'
    omega

/-- Each goroutine carries its call's TTL, and each write the TTL of its writer. -/
structure TtlInv (cfg : HandlerConfig) (s : State T) : Prop where
  call : ∀ (j : ℕ) (g : Goroutine T), s.goroutines[j]? = some g → ∀ req, g.origin = .call req →
    effectiveTTL cfg g.ttl = effectiveTTL cfg (callOpts req.opts).ttl
  spawned : ∀ (j : ℕ) (g : Goroutine T), s.goroutines[j]? = some g → ∀ p, g.origin = .spawned p →
    ∃ (gp : Goroutine T) (req : Request T), s.goroutines[p]? = some gp ∧ gp.origin = .call req ∧
      gp.ttl = g.ttl
  writes : ∀ ev ∈ s.log, ∀ (site : Site) (k : String) (b : Bytes) (ttl : ℤ), ev.op = .write site k b ttl →
    (site = .staleCompanion ∧ ttl = cfg.staleDataTTL) ∨ (site ≠ .staleCompanion ∧
      ∃ g : Goroutine T, s.goroutines[ev.gid]? = some g ∧ ttl = effectiveTTL cfg g.ttl)

theorem TtlInv.step {s s' : State T} {a : Action T} (hb : SpawnBound s) (hinv : TtlInv cfg s)
    (h : step cfg codec s a = some s') : TtlInv cfg s' := by
  -- a goroutine keeps its TTL and origin, so what held of the old ones still holds
  have keep : ∀ {j} {g : Goroutine T}, s.goroutines[j]? = some g →
      ∃ g' : Goroutine T, s'.goroutines[j]? = some g' ∧ g'.ttl = g.ttl ∧ g'.origin = g.origin :=
    fun hj => let ⟨_, hpc⟩ := step_getElem? h hj; ⟨_, hpc, rfl, rfl⟩
  have spawned_old : ∀ (j : ℕ) (g : Goroutine T), s.goroutines[j]? = some g → ∀ p,
      g.origin = .spawned p → ∃ (gp : Goroutine T) (req : Request T), s'.goroutines[p]? = some gp ∧
        gp.origin = .call req ∧ gp.ttl = g.ttl :=
    fun j g hj p ho =>
      let ⟨gp, req, hp, hpo, hpt⟩ := hinv.spawned j g hj p ho
      let ⟨gp', hp', ht, hor⟩ := keep hp
      ⟨gp', req, hp', hor.trans hpo, ht.trans hpt⟩
  have writes_old : ∀ ev ∈ s.log, ∀ (site : Site) (k : String) (b : Bytes) (ttl : ℤ),
      ev.op = .write site k b ttl → (site = .staleCompanion ∧ ttl = cfg.staleDataTTL) ∨
        (site ≠ .staleCompanion ∧ ∃ g : Goroutine T, s'.goroutines[ev.gid]? = some g ∧
          ttl = effectiveTTL cfg g.ttl) :=
    fun ev hev site k b ttl hw => (hinv.writes ev hev site k b ttl hw).imp_right
      fun ⟨hne, g, hg, ht⟩ => let ⟨g', hg', ht', _⟩ := keep hg; ⟨hne, g', hg', ht'.symm ▸ ht⟩
  cases a with
  | call req =>
    cases h
    refine ⟨fun j g hj r ho => ?_, fun j g hj p ho => ?_, writes_old⟩
    · rcases List.getElem?_concat_eq_some hj with ⟨-, hj⟩ | ⟨-, rfl⟩
      · exact hinv.call j g hj r ho
      · have : req = r := by cases req <;> cases ho <;> rfl
        exact this ▸ req.goroutine_ttl cfg
    · rcases List.getElem?_concat_eq_some hj with ⟨-, hj⟩ | ⟨-, rfl⟩
      · exact spawned_old j g hj p ho
      · cases req <;> cases ho
  | tick d => cases h; exact ⟨hinv.1, hinv.2, hinv.3⟩
  | evict key => cases h; exact ⟨hinv.1, hinv.2, hinv.3⟩
  | run i o =>
    obtain ⟨g, out, hg, hexec, rfl⟩ := step_run h
    refine ⟨?_, ?_, fun ev hev site k b ttl hw => ?_⟩
    · refine Outcome.forall_apply hg (fun j gj _ hj => hinv.call j gj hj) (hinv.call i g hg)
        fun n g' hn req ho => ?_
      rw [(exec_spawns hexec g' (List.getElem?_mem hn)).2.2.1] at ho
      cases ho
    · refine Outcome.forall_apply hg (fun j gj _ hj => spawned_old j gj hj) (spawned_old i g hg)
        fun n g' hn p ho => ?_
      obtain ⟨-, ht, hor, -⟩ := exec_spawns hexec g' (List.getElem?_mem hn)
      rw [hor] at ho
      cases ho
      obtain ⟨req, hreq⟩ := hb.spawner_call hg hexec (List.getElem?_mem hn)
      exact ⟨_, req, Outcome.apply_getElem?_self hg out, hreq, ht.symm⟩
    · rcases mem_apply_log hev with hev | ⟨hgid, -, hop⟩
      · exact writes_old ev hev site k b ttl hw
      · refine (exec_write_ttl hexec (hw ▸ hop)).imp_right fun ⟨hne, ht⟩ => ?_
        exact ⟨hne, { g with pc := out.pc }, by rw [hgid]; exact Outcome.apply_getElem?_self hg out, ht⟩

theorem Run.ttlInv {allowed : State T → Action T → Prop} {s : State T}
    (hs : Run cfg codec allowed s) : TtlInv cfg s := by
  induction hs with
  | init h0 => exact ⟨by simp [h0.goroutines], by simp [h0.goroutines], by simp [h0.log]⟩
  | step hs' _ h ih => exact ih.step hs'.spawnBound h

/-- The TTL of every write: in every run, a write of the stale companion carries
`staleDataTTL`, and every write at another site carries the resolved TTL of the call it is
made for, the call's `WithTTL` when positive and the handler's default TTL otherwise,
whether the call or a task it started writes. -/
theorem write_ttl {allowed : State T → Action T → Prop} {s : State T}
    (hs : Run cfg codec allowed s) {ev : Event T} (hev : ev ∈ s.log) {site : Site} {k : String}
    {b : Bytes} {ttl : ℤ} (hw : ev.op = .write site k b ttl) :
    (site = .staleCompanion → ttl = cfg.staleDataTTL) ∧
      (site ≠ .staleCompanion →
        ∃ req, s.request ev.gid = some req ∧ ttl = effectiveTTL cfg (callOpts req.opts).ttl) := by
  have hinv := hs.ttlInv
  rcases hinv.writes ev hev site k b ttl hw with ⟨hsite, ht⟩ | ⟨hne, g, hg, ht⟩
  · exact ⟨fun _ => ht, fun h => absurd hsite h⟩
  refine ⟨fun h => absurd h hne, fun _ => ?_⟩
  cases ho : g.origin with
  | call req =>
    exact ⟨req, by simp only [State.request, hg, Option.some_bind, ho],
      ht.trans (hinv.call _ g hg req ho)⟩
  | spawned p =>
    obtain ⟨gp, req, hp, hpo, hpt⟩ := hinv.spawned _ g hg p ho
    exact ⟨req, by simp only [State.request, hg, hp, Option.some_bind, ho, hpo],
      ht.trans (hpt ▸ hinv.call p gp hp req hpo)⟩

/-- A miss of `"k"` with `WithTTL(30s)` that generates and writes under the key's lock. -/
def ttlMissRun : List (Action UInt8) :=
  .call (.getOrRefresh "k" [.withTTL (30 * second)]) :: List.replicate 6 (.run 0 (.ok (some 7)))

theorem write_ttl_withTTL :
    ∃ s : State UInt8, runActions defaultConfig byteCodec .empty ttlMissRun = some s ∧
      ⟨0, 0, .write .syncMiss "k" [7] (30 * second)⟩ ∈ s.log ∧
      (Site.syncMiss = .staleCompanion → 30 * second = defaultConfig.staleDataTTL) ∧
        (Site.syncMiss ≠ .staleCompanion → ∃ req, s.request 0 = some req ∧
          30 * second = effectiveTTL defaultConfig (callOpts req.opts).ttl) := by
  have hrun : runActions defaultConfig byteCodec .empty ttlMissRun = some _ := rfl
  refine ⟨_, hrun, List.mem_append_right _ (List.mem_singleton_self _), ?_⟩
  exact write_ttl (Run.runActions (.init State.empty_initial) _ (fun _ _ => trivial) hrun)
    (List.mem_append_right _ (List.mem_singleton_self
      (⟨0, 0, .write .syncMiss "k" [7] (30 * second)⟩ : Event UInt8))) rfl

end Cashcov.Handler
