import Cashcov.Operations

/-!
# The refresh cooldown under concurrency

`spawnBackgroundRefresh` checks the cooldown, calls the generator and stamps the ledger
while it holds the key's lock. A task that has passed the check has seen every earlier
stamp of a background refresh of its key at least a cooldown ago, and no such stamp can
happen while it holds the lock, so no background refresh of a key calls the generator
within a cooldown after the stamp of another.
-/
namespace Cashcov.Handler

variable {T : Type} {cfg : HandlerConfig} {codec : Codec T}

/-- A goroutine enters the generation of a background refresh only from a cooldown check
that passed. -/
theorem exec_refreshGen {s : State T} {i : ℕ} {g : Goroutine T} {o : Oracle T} {out : Outcome T}
    (h : exec cfg codec s i g o = some out) {c : ℕ} (hc : out.pc = .refreshGen c) :
    g.pc = .refreshCooldown c ∧ shouldRefreshNow cfg s.ledger (fullKey cfg g.key) s.now := by
  obtain ⟨key, ttl, origin, pc⟩ := g
  cases exec_cases h with
  | refreshDue hdue => cases hc; exact ⟨rfl, hdue⟩
  | startHit => split at hc <;> cases hc
  | startMiss => cases ‹MissPolicy› <;> cases hc
  | lockSend _ | trySelect _ => cases ‹Critical T› <;> cases hc
  | setMarshalFail | setFail | setStamp => cases ‹SetRet› <;> cases hc
  | _ => cases hc

/-- Every goroutine past the cooldown check of a background refresh is a cooldown past
every background-refresh stamp of its key, and so was every background refresh when it
called the generator. -/
structure Cooled (cfg : HandlerConfig) (s : State T) : Prop where
  waiting : ∀ (j : ℕ) (g : Goroutine T), s.goroutines[j]? = some g → ∀ c, g.pc = .refreshGen c →
    ∀ e ∈ s.log, e.op = .stamp .backgroundRefresh (fullKey cfg g.key) →
      (e.time : ℤ) + cfg.refreshCooldown ≤ s.now
  history : ∀ pre e post, s.log = pre ++ e :: post → ∀ key r,
    e.op = .generate .backgroundRefresh key r →
    ∀ e' ∈ pre, e'.op = .stamp .backgroundRefresh key → (e'.time : ℤ) + cfg.refreshCooldown ≤ e.time

theorem Cooled.step {allowed : State T → Action T → Prop} {s s' : State T} {a : Action T}
    (hs : Run cfg codec allowed s) (hc : Cooled cfg s) (h : step cfg codec s a = some s') :
    Cooled cfg s' := by
  cases a with
  | call req =>
    cases h
    refine ⟨fun j g hj c hpc => ?_, hc.history⟩
    rcases List.getElem?_concat_eq_some hj with ⟨-, hj⟩ | ⟨-, rfl⟩
    · exact hc.waiting j g hj c hpc
    · cases req <;> cases hpc
  | tick d =>
    cases h
    refine ⟨fun j g hj c hpc e he hst => ?_, hc.history⟩
    have := hc.waiting j g hj c hpc e he hst
    push_cast; omega
  | evict key => cases h; exact ⟨hc.1, hc.2⟩
  | run k o =>
    obtain ⟨g, out, hg, hexec, rfl⟩ := step_run h
    have hfrom := exec_opFrom hexec
    -- a background-refresh stamp of this step is made holding the lock of the key
    have hstamp : ∀ key, out.op = some (.stamp .backgroundRefresh key) →
        key = fullKey cfg g.key ∧ ∃ c, g.pc.held = some c := by
      intro key hop
      rcases hfrom _ hop with ⟨v, r, hpc, hsite, hkey, -⟩ | ⟨-, hsite, -⟩
      · refine ⟨hkey, ?_⟩
        cases r <;> simp only [SetRet.site, reduceCtorEq] at hsite
        exact ⟨_, by rw [hpc]; rfl⟩
      · cases hsite
    refine ⟨Outcome.forall_apply hg (fun j gj hjk hj c hpc e he hst => ?_)
      (fun c hpc e he hst => ?_) (fun n g' hn c hpc => ?_), fun pre e post hl key r hgen e' he' hst => ?_⟩
    · -- another goroutine past its check: a new stamp would need the lock it holds
      rcases mem_apply_log he with he | ⟨-, -, hop⟩
      · simpa using hc.waiting j gj hj c hpc e he hst
      · obtain ⟨hkey, c', hc'⟩ := hstamp _ (hop.trans (congrArg some hst))
        have hjg : gj.pc.held = some c := by rw [hpc]; rfl
        exact absurd (hs.exclusive hg hj hc' hjg hkey.symm) (Ne.symm hjk)
    · -- the stepping goroutine has just passed its check
      obtain ⟨hpc₀, hshould⟩ := exec_refreshGen hexec hpc
      simp only [Outcome.apply_now]
      rcases mem_apply_log he with he | ⟨-, -, hop⟩
      · obtain ⟨t, ht, hle⟩ := hs.clock.ledger e he _ _ hst
        have hnow := hs.clock.le_now e he
        unfold shouldRefreshNow at hshould
        split_ifs at hshould with hcd
        · omega
        · rw [ht] at hshould
          simp only [decide_eq_true_eq] at hshould
          omega
      · rcases hfrom _ (hop.trans (congrArg some hst)) with ⟨_, _, h', -⟩ | ⟨h', -⟩ <;>
          rw [hpc₀] at h' <;> cases h'
    · have := (exec_spawns hexec g' (List.getElem?_mem hn)).2.2.2
      rw [hpc] at this; cases this
    · -- a new generator call of a background refresh is made past the check
      simp only [Outcome.apply_log] at hl
      cases hop : out.op with
      | none =>
        simp only [hop, Option.map_none', Option.toList_none, List.append_nil] at hl
        exact hc.history pre e post hl key r hgen e' he' hst
      | some op =>
        simp only [hop, Option.map_some', Option.toList_some] at hl
        rcases List.snoc_eq_append_cons hl with ⟨rfl, rfl, -⟩ | ⟨post', -, hl'⟩
        · obtain ⟨hsite, hkey⟩ := hfrom _ (hop.trans (congrArg some hgen))
          obtain ⟨c, hpc⟩ := Pc.genSite_backgroundRefresh hsite
          subst hkey
          exact hc.waiting k g hg c hpc e' he' hst
        · exact hc.history pre e post' hl' key r hgen e' he' hst

theorem Run.cooled {allowed : State T → Action T → Prop} {s : State T}
    (hs : Run cfg codec allowed s) : Cooled cfg s := by
  induction hs with
  | init h0 => exact ⟨by simp [h0.log], by simp [h0.log]⟩
  | step hs _ h ih => exact ih.step hs h

/-- No background refresh of a key calls the generator strictly between the ledger stamp
of another background refresh of the key and a cooldown later. -/
theorem refresh_cooldown {s : State T} (hs : Reachable cfg codec s) :
    ∀ e₁ ∈ s.log, ∀ e₂ ∈ s.log, ∀ key r, e₁.op = .stamp .backgroundRefresh key →
      e₂.op = .generate .backgroundRefresh key r →
      ¬ ((e₁.time : ℤ) < e₂.time ∧ (e₂.time : ℤ) < e₁.time + cfg.refreshCooldown) := by
  intro e₁ he₁ e₂ he₂ key r h₁ h₂ ⟨hlt, hgt⟩
  obtain ⟨pre, post, hl⟩ := List.mem_iff_append.1 he₂
  have hsorted := hs.clock.sorted
  rw [hl] at he₁ hsorted
  rcases List.mem_append.1 he₁ with hpre | hpost
  · have := hs.cooled.history pre e₂ post hl key r h₂ e₁ hpre h₁
    omega
  · rcases List.mem_cons.1 hpost with rfl | hpost
    · rw [h₁] at h₂; cases h₂
    · have := (List.pairwise_cons.1 (List.pairwise_append.1 hsorted).2.1).1 e₁ hpost
      omega

/-- With a cooldown of 5 ns: a `Set` of `"k"` at time 0, a hit at time 10 whose background
refresh generates `2` and stamps the ledger, and a hit at time 20 whose background refresh
generates `3`. -/
def twoRefreshes : List (Action UInt8) :=
  [.call (.set "k" 1 []), .run 0 (.ok none), .run 0 (.ok none), .tick 10,
    .call (.getOrRefresh "k" []), .run 1 (.ok none), .run 1 (.ok none),
    .run 2 (.ok none), .run 2 (.ok none), .run 2 (.ok none), .run 2 (.ok (some 2)),
    .run 2 (.ok none), .run 2 (.ok none), .run 2 (.ok none), .tick 10,
    .call (.getOrRefresh "k" []), .run 3 (.ok none), .run 3 (.ok none),
    .run 4 (.ok none), .run 4 (.ok none), .run 4 (.ok none), .run 4 (.ok (some 3))]

/-- The stamp of the first background refresh and the generator call of the second lie a
cooldown apart. -/
theorem refresh_cooldown_twoRefreshes :
    ∃ s : State UInt8, runActions (newConfig [.withRefreshCooldown 5]) byteCodec .empty twoRefreshes =
        some s ∧
      (⟨2, 10, .stamp .backgroundRefresh "k"⟩ : Event UInt8) ∈ s.log ∧
      (⟨4, 20, .generate .backgroundRefresh "k" (some 3)⟩ : Event UInt8) ∈ s.log ∧
      ¬ ((10 : ℤ) < 20 ∧ (20 : ℤ) < 10 + (newConfig [.withRefreshCooldown 5]).refreshCooldown) := by
  have hrun : runActions (newConfig [.withRefreshCooldown 5]) byteCodec .empty twoRefreshes = some _ := rfl
  have hs := Run.runActions (.init State.empty_initial) _ (fun _ _ => trivial) hrun
  refine ⟨_, hrun, List.getElem?_mem (n := 6) rfl, List.getElem?_mem (n := 10) rfl, ?_⟩
  exact refresh_cooldown hs ⟨2, 10, .stamp .backgroundRefresh "k"⟩ (List.getElem?_mem (n := 6) rfl)
    ⟨4, 20, .generate .backgroundRefresh "k" (some 3)⟩ (List.getElem?_mem (n := 10) rfl) "k" (some 3)
    rfl rfl

end Cashcov.Handler
