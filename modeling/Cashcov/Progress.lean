import Cashcov.Discipline

/-!
# Progress: bounded steps and no deadlock

No path through the handler's code loops: `Pc.rank` bounds the steps a goroutine has
left, every step lowers it, and it is at most ten (a `GetOrRefresh` call under
`CooperativeRefresh` that falls back to `missSyncWriteThenReturn` is the longest path).
So in every run each goroutine takes at most ten steps.

A goroutine that holds a lock is at most five steps from its end, keeps the same lock
until it releases it, and never blocks, whatever the backend, the generator or the draw
answer. Hence no deadlock: in every reachable state, each goroutine that has not
returned can step, waits for the clock (`scheduleRefreshAhead`'s sleep or the
cooperative select before its deadline), or waits in `Lock` for a lock whose holder can
step.

The work left in a state counts the steps each goroutine has left, and eleven for each
goroutine it may still start. A goroutine step lowers it and a call adds at most 21, so a
run takes at most 21 goroutine steps per call. With no deadlock, from every reachable
state, clock ticks and goroutine steps lead to a state where every goroutine has returned.
-/
namespace Cashcov.Handler

variable {T : Type} {cfg : HandlerConfig} {codec : Codec T}

/-! ### The rank -/

/-- The steps a goroutine takes inside the lock from `Critical.first`. -/
def Critical.rank : Critical T → ℕ
  | .syncMiss _ | .refresh | .stale => 5
  | .coopWait => 2
  | .missWrite _ => 4

/-- The steps the caller of `Set` takes after it returns. -/
def SetRet.rank : SetRet → ℕ
  | .call | .bestEffort => 0
  | .syncMiss _ _ | .backgroundMissWrite _ | .backgroundRefresh _ => 1
  | .staleRefresh _ => 2

/-- An upper bound on the steps a goroutine has left. -/
def Pc.rank : Pc T → ℕ
  | .done _ | .setReturned _ | .exit => 0
  | .hitRefresh .. | .syncUnlock .. | .asyncGen | .coopGen | .getCall | .unlock .. | .probStamp => 1
  | .waitClose _ | .staleCompanion .. => 2
  | .bestGen => 3
  | .syncGen .. | .missWriteExists .. | .refreshGen _ => 4
  | .syncCheck .. | .refreshCooldown _ | .staleGen _ => 5
  | .setStamp _ r => r.rank + 1
  | .setWrite _ r => r.rank + 2
  | .lockSend k _ | .trySelect k _ => k.rank + 1
  | .lockCh k | .tryCh k => k.rank + 2
  | .staleCheck | .coopSelect .. | .aheadExists => 8
  | .coopStart | .aheadSleep _ => 9
  | .start .. => 10

theorem Critical.rank_le (k : Critical T) : k.rank ≤ 5 := by
  cases k <;> exact Nat.le_of_ble_eq_true rfl

theorem SetRet.rank_le (r : SetRet) : r.rank ≤ 2 := by
  cases r <;> exact Nat.le_of_ble_eq_true rfl

theorem Pc.rank_le (pc : Pc T) : pc.rank ≤ 10 := by
  cases pc <;> first
    | exact Nat.le_of_ble_eq_true rfl
    | exact (Nat.add_le_add_right (SetRet.rank_le _) _).trans (Nat.le_of_ble_eq_true rfl)
    | exact (Nat.add_le_add_right (Critical.rank_le _) _).trans (Nat.le_of_ble_eq_true rfl)

@[simp] theorem Critical.first_rank (k : Critical T) (c : ℕ) : (k.first c).rank = k.rank := by
  cases k <;> rfl

@[simp] theorem afterSet_rank (now : ℕ) (v : T) (r : SetRet) (e : Option Err) :
    (afterSet codec now v r e).rank = r.rank := by
  cases r <;> cases e <;> rfl

theorem missPc_rank (p : MissPolicy) (co : CallOpts) : (missPc codec p co).rank < 10 := by
  cases p <;> exact Nat.le_of_ble_eq_true rfl

/-- Every step lowers the rank. -/
theorem exec_rank {s : State T} {i : ℕ} {g : Goroutine T} {o : Oracle T} {out : Outcome T}
    (h : exec cfg codec s i g o = some out) : out.pc.rank < g.pc.rank := by
  obtain ⟨key, ttl, origin, pc⟩ := g
  cases exec_cases h with
  | startHit => split <;> exact Nat.le_of_ble_eq_true rfl
  | startMiss => exact missPc_rank _ _
  | lockCh | tryCh | setWrite => exact Nat.lt_succ_self _
  | lockSend _ | trySelect _ => rw [Critical.first_rank]; exact Nat.lt_succ_self _
  | tryBusy _ => exact Nat.succ_pos _
  | setMarshalFail | setFail | setStamp => rw [afterSet_rank]; exact Nat.lt_add_of_pos_right (by decide)
  | _ => exact Nat.le_of_ble_eq_true rfl

/-! ### Bounded steps -/

/-- Whether the action is a step of goroutine `i`. -/
def Action.runs (i : ℕ) : Action T → Bool
  | .run j _ => j == i
  | _ => false

/-- The steps goroutine `i` may still take: the rank of its place, or ten before it
exists. -/
def State.slack (s : State T) (i : ℕ) : ℕ := (s.goroutines[i]?.map (·.pc.rank)).getD 10

theorem rank_getD_le (o : Option (Goroutine T)) : (o.map (·.pc.rank)).getD 10 ≤ 10 := by
  cases o with
  | none => exact le_refl _
  | some g => exact Pc.rank_le g.pc

theorem State.slack_le (s : State T) (i : ℕ) : s.slack i ≤ 10 := rank_getD_le _

/-- A step of goroutine `i` lowers its slack, and no step raises it. -/
theorem step_slack {s s' : State T} {a : Action T} (h : step cfg codec s a = some s') (i : ℕ) :
    s'.slack i + (if a.runs i then 1 else 0) ≤ s.slack i := by
  cases a with
  | call req =>
    cases h
    simp only [State.slack, Action.runs, Bool.false_eq_true, ↓reduceIte, Nat.add_zero]
    rcases Nat.lt_or_ge i s.goroutines.length with hi | hi
    · rw [List.getElem?_append_left hi]
    · rw [List.getElem?_eq_none hi]; exact rank_getD_le _
  | tick d => cases h; exact le_refl _
  | evict key => cases h; exact le_refl _
  | run j o =>
    obtain ⟨g, out, hg, hexec, rfl⟩ := step_run h
    have hj := (List.getElem?_eq_some_iff.1 hg).1
    simp only [State.slack, Outcome.apply_getElem? out hj, Action.runs, beq_iff_eq]
    by_cases hij : i = j
    · subst hij
      simp only [↓reduceIte, hg, Option.map_some', Option.getD_some]
      exact exec_rank hexec
    · by_cases hi : i < s.goroutines.length
      · simp only [hij, Ne.symm hij, hi, ↓reduceIte, Nat.add_zero, le_refl]
      · simp only [hij, Ne.symm hij, hi, ↓reduceIte, Nat.add_zero]
        rw [List.getElem?_eq_none (not_lt.1 hi)]; exact rank_getD_le _

theorem runActions_slack {s s' : State T} {as : List (Action T)}
    (h : runActions cfg codec s as = some s') (i : ℕ) :
    as.countP (Action.runs i) + s'.slack i ≤ s.slack i := by
  induction as generalizing s with
  | nil => cases h; simp
  | cons a as ih =>
    obtain ⟨s₁, h₁, h⟩ := Option.bind_eq_some.1 h
    have hstep := step_slack h₁ i
    have hrest := ih h
    rw [List.countP_cons]
    omega

/-- No goroutine loops: in any run, from any state, each goroutine takes at most ten
steps, and one already there at most the rank of its place. -/
theorem goroutine_steps_le {s s' : State T} {as : List (Action T)}
    (h : runActions cfg codec s as = some s') (i : ℕ) :
    as.countP (Action.runs i) ≤ 10 ∧
      ∀ g, s.goroutines[i]? = some g → as.countP (Action.runs i) ≤ g.pc.rank := by
  have := runActions_slack h i
  refine ⟨by have := State.slack_le s i; omega, fun g hg => ?_⟩
  simp only [State.slack, hg, Option.map_some', Option.getD_some] at this
  omega

theorem goroutine_steps_le_syncMiss : syncMissRun.countP (Action.runs 0) ≤ 10 :=
  (@goroutine_steps_le UInt8 defaultConfig byteCodec .empty _ syncMissRun rfl 0).1

/-! ### Holders of a lock -/

theorem Pc.rank_le_of_held {pc : Pc T} {c : ℕ} (h : pc.held = some c) : pc.rank ≤ 5 := by
  cases pc <;> try exact Nat.le_of_ble_eq_true rfl
  all_goals first
    | exact absurd h Option.noConfusion
    | (rename_i r; cases r <;> first
        | exact absurd h Option.noConfusion
        | exact Nat.le_of_ble_eq_true rfl)

/-- Why a goroutine cannot step: it has returned, waits in `Lock` for a full buffer, is
at its unlock with an empty buffer, or waits for the clock. -/
theorem exec_blocked {s : State T} {i : ℕ} {g : Goroutine T} {o : Oracle T}
    (h : exec cfg codec s i g o = none) :
    g.pc.finished ∨ (∃ k c, g.pc = .lockSend k c ∧ s.km.occ c ≠ 0) ∨
      (∃ c, g.pc.held = some c ∧ s.km.occ c = 0) ∨ (∃ wake, g.pc = .aheadSleep wake ∧ s.now < wake) ∨
      ∃ d w, g.pc = .coopSelect d w ∧ (s.now : ℤ) < d ∧ s.closed w = false := by
  obtain ⟨key, ttl, origin, pc⟩ := g
  cases pc <;> simp only [exec] at h <;> (repeat' split at h) <;> (try cases h)
  case mk.done.intro | mk.setReturned.intro | mk.exit.intro => exact .inl rfl
  case mk.lockSend.isFalse.refl k c _ => exact .inr (.inl ⟨k, c, rfl, ‹_›⟩)
  case mk.syncUnlock.isTrue.refl κ c ret _ => exact .inr (.inr (.inl ⟨c, rfl, ‹_›⟩))
  case mk.unlock.isTrue.refl site c _ => exact .inr (.inr (.inl ⟨c, rfl, ‹_›⟩))
  case mk.aheadSleep.isFalse.refl wake _ =>
    exact .inr (.inr (.inr (.inl ⟨wake, rfl, Nat.lt_of_not_le ‹_›⟩)))
  case mk.coopSelect.isFalse.isFalse.refl d w hsel hclosed =>
    refine .inr (.inr (.inr (.inr ⟨d, w, rfl, ?_, Bool.eq_false_iff.2 hclosed⟩)))
    exact lt_of_not_le fun hd => hsel ⟨hd, .inl (Bool.eq_false_iff.2 hclosed)⟩

@[simp] theorem afterSet_held (now : ℕ) (v : T) (r : SetRet) (e : Option Err) :
    (afterSet codec now v r e).held = r.held := by
  cases r <;> cases e <;> rfl

/-- A holder of a lock whose buffer is full is never blocked; it keeps the lock or
releases it. -/
theorem exec_held {s : State T} {i : ℕ} {g : Goroutine T} {c : ℕ} (hc : g.pc.held = some c)
    (hocc : s.km.occ c ≠ 0) (o : Oracle T) :
    ∃ out, exec cfg codec s i g o = some out ∧
      (out.pc.held = some c ∨ ∃ site, out.op = some (.release site (fullKey cfg g.key) c)) := by
  obtain ⟨out, h⟩ : ∃ out, exec cfg codec s i g o = some out := by
    cases he : exec cfg codec s i g o with
    | some out => exact ⟨out, rfl⟩
    | none =>
      -- of the reasons `exec_blocked` lists, only an empty buffer concerns a holder
      rcases exec_blocked he with hf | ⟨_, _, hpc, -⟩ | ⟨c', hc', h0⟩ | ⟨_, hpc, -⟩ | ⟨_, _, hpc, -⟩
      · rw [Pc.held_of_finished hf] at hc; cases hc
      · rw [hpc] at hc; cases hc
      · rw [hc] at hc'; cases hc'; exact absurd h0 hocc
      · rw [hpc] at hc; cases hc
      · rw [hpc] at hc; cases hc
  refine ⟨out, h, ?_⟩
  obtain ⟨key, ttl, origin, pc⟩ := g
  cases exec_cases h with
  | syncUnlock _ | unlock _ => cases hc; exact .inr ⟨_, rfl⟩
  | setMarshalFail _ | setFail _ _ | setStamp => exact .inl ((afterSet_held _ _ _ _).trans hc)
  | _ =>
    -- every other step starts from a place that holds no lock, or keeps the one it holds
    first | exact .inl hc | cases hc

/-- Every step of a goroutine holding a lock, in every reachable state, whatever the
environment answers: it is enabled, lowers the rank from at most five, and keeps the
same lock or releases it. So the lock is released within five steps of its holder. -/
theorem lock_holder_progress {allowed : State T → Action T → Prop} {s : State T}
    (hs : Run cfg codec allowed s) {i : ℕ} {g : Goroutine T} {c : ℕ}
    (hg : s.goroutines[i]? = some g) (hc : g.pc.held = some c) :
    g.pc.rank ≤ 5 ∧ ∀ o, ∃ out, exec cfg codec s i g o = some out ∧ out.pc.rank < g.pc.rank ∧
      (out.pc.held = some c ∨ ∃ site, out.op = some (.release site (fullKey cfg g.key) c)) := by
  have hocc : s.km.occ c ≠ 0 := by rw [hs.occ_held (List.getElem?_mem hg) hc]; exact one_ne_zero
  refine ⟨Pc.rank_le_of_held hc, fun o => ?_⟩
  obtain ⟨out, h, hout⟩ := exec_held hc hocc o
  exact ⟨out, h, exec_rank h, hout⟩

/-- Two misses of `"k"`: the first call takes the lock, the second waits in `Lock`. -/
def contendedMiss : List (Action UInt8) :=
  [.call (.getOrRefresh "k" []), .call (.getOrRefresh "k" []), .run 0 (.ok none),
    .run 0 (.ok none), .run 0 (.ok none), .run 1 (.ok none), .run 1 (.ok none)]

theorem lock_holder_progress_contended :
    ∃ (s : State UInt8) (g : Goroutine UInt8), runActions defaultConfig byteCodec .empty contendedMiss = some s ∧
      s.goroutines[0]? = some g ∧ g.pc.held = some 0 ∧ g.pc.rank ≤ 5 ∧
      ∀ o, ∃ out, exec defaultConfig byteCodec s 0 g o = some out ∧ out.pc.rank < g.pc.rank ∧
        (out.pc.held = some 0 ∨ ∃ site, out.op = some (.release site (fullKey defaultConfig g.key) 0)) :=
  have hrun : runActions defaultConfig byteCodec .empty contendedMiss = some _ := rfl
  ⟨_, _, hrun, rfl, rfl,
    lock_holder_progress (Run.runActions (.init State.empty_initial) _ (fun _ _ => trivial) hrun) rfl rfl⟩

/-! ### No deadlock -/

/-- No deadlock: in every reachable state, a goroutine that has not returned can step
whatever the environment answers, or sleeps until a later time, or waits in the
cooperative select before its deadline with `done` still open, or waits in `Lock` for
a lock that another goroutine holds, and that holder can step and is at most five steps
from its end. -/
theorem no_deadlock {allowed : State T → Action T → Prop} {s : State T}
    (hs : Run cfg codec allowed s) {i : ℕ} {g : Goroutine T} (hg : s.goroutines[i]? = some g)
    (hf : g.pc.finished = false) :
    (∀ o, (exec cfg codec s i g o).isSome) ∨
      (∃ wake, g.pc = .aheadSleep wake ∧ s.now < wake) ∨
      (∃ d w, g.pc = .coopSelect d w ∧ (s.now : ℤ) < d ∧ s.closed w = false) ∨
      ∃ k c j g', g.pc = .lockSend k c ∧ j ≠ i ∧ s.goroutines[j]? = some g' ∧
        g'.pc.held = some c ∧ g'.pc.rank ≤ 5 ∧ ∀ o, (exec cfg codec s j g' o).isSome := by
  by_cases hen : ∀ o, (exec cfg codec s i g o).isSome
  · exact .inl hen
  obtain ⟨o, ho⟩ := not_forall.1 hen
  rcases exec_blocked (Option.not_isSome_iff_eq_none.1 ho) with hfin | ⟨k, c, hpc, hocc⟩ |
    ⟨c, hc, hocc⟩ | hw | hw
  · exact absurd (hf.symm.trans hfin) Bool.false_ne_true
  · -- the full buffer has a holder, and the holder can step
    obtain ⟨g', hg', hc'⟩ : ∃ g' ∈ s.goroutines, g'.pc.held = some c := by
      by_contra hno
      exact hocc (hs.occ_free fun g' hg' hc' => hno ⟨g', hg', hc'⟩)
    obtain ⟨j, hj⟩ := List.mem_iff_getElem?.1 hg'
    refine .inr (.inr (.inr ⟨k, c, j, g', hpc, ?_, hj, hc', Pc.rank_le_of_held hc', fun o => ?_⟩))
    · rintro rfl
      rw [hg] at hj
      cases hj
      rw [hpc] at hc'
      exact Option.noConfusion hc'
    · obtain ⟨out, h, -⟩ := @exec_held T cfg codec s j g' c hc' hocc o
      rw [h]; rfl
  · exact absurd (hs.occ_held (List.getElem?_mem hg) hc) (by rw [hocc]; exact zero_ne_one)
  · exact .inr (.inl hw)
  · exact .inr (.inr (.inl hw))

theorem no_deadlock_contended :
    ∃ (s : State UInt8) (g : Goroutine UInt8), runActions defaultConfig byteCodec .empty contendedMiss = some s ∧
      s.goroutines[1]? = some g ∧ g.pc.finished = false ∧
      ((∀ o, (exec defaultConfig byteCodec s 1 g o).isSome) ∨
        (∃ wake, g.pc = .aheadSleep wake ∧ s.now < wake) ∨
        (∃ d w, g.pc = .coopSelect d w ∧ (s.now : ℤ) < d ∧ s.closed w = false) ∨
        ∃ k c j g', g.pc = .lockSend k c ∧ j ≠ 1 ∧ s.goroutines[j]? = some g' ∧
          g'.pc.held = some c ∧ g'.pc.rank ≤ 5 ∧ ∀ o, (exec defaultConfig byteCodec s j g' o).isSome) :=
  have hrun : runActions defaultConfig byteCodec .empty contendedMiss = some _ := rfl
  ⟨_, _, hrun, rfl, rfl,
    no_deadlock (Run.runActions (.init State.empty_initial) _ (fun _ _ => trivial) hrun) rfl rfl⟩

/-! ### Started goroutines -/

/-- How many goroutines `missSyncWriteThenReturn`'s caller starts after it returns. -/
def SyncCont.budget : SyncCont → ℕ
  | .plain => 0
  | .refreshAhead _ | .probabilistic => 1

def Critical.budget : Critical T → ℕ
  | .syncMiss κ => κ.budget
  | .coopWait | .missWrite _ | .refresh | .stale => 0

def SetRet.budget : SetRet → ℕ
  | .syncMiss κ _ => κ.budget
  | .call | .backgroundMissWrite _ | .backgroundRefresh _ | .staleRefresh _ | .bestEffort => 0

/-- How many goroutines a goroutine may still start. -/
def Pc.budget : Pc T → ℕ
  | .start .. | .hitRefresh .. | .asyncGen | .staleCheck | .coopStart => 1
  | .lockCh k | .lockSend k _ | .tryCh k | .trySelect k _ => k.budget
  | .syncCheck κ _ | .syncGen κ _ | .syncUnlock κ _ _ => κ.budget
  | .setWrite _ r | .setStamp _ r => r.budget
  | .done _ | .coopSelect .. | .coopGen | .bestGen | .setReturned _
  | .getCall | .waitClose _ | .missWriteExists .. | .refreshCooldown _ | .refreshGen _ | .staleGen _
  | .staleCompanion .. | .unlock .. | .aheadSleep _ | .aheadExists | .probStamp | .exit => 0

@[simp] theorem Critical.first_budget (k : Critical T) (c : ℕ) : (k.first c).budget = k.budget := by
  cases k <;> rfl

@[simp] theorem afterSet_budget (now : ℕ) (v : T) (r : SetRet) (e : Option Err) :
    (afterSet codec now v r e).budget = r.budget := by
  cases r <;> cases e <;> rfl

theorem missPc_budget (p : MissPolicy) (co : CallOpts) : (missPc codec p co).budget ≤ 1 := by
  cases p <;> exact Nat.le_of_ble_eq_true rfl

theorem afterSync_length (now self : ℕ) (g : Goroutine T) (κ : SyncCont) (e : Option Err) :
    (afterSync cfg now self g κ e).length ≤ κ.budget := by
  cases κ <;> cases e <;> exact Nat.le_of_ble_eq_true rfl

theorem afterSync_budget (now self : ℕ) (g : Goroutine T) (κ : SyncCont) (e : Option Err) :
    ∀ g' ∈ afterSync cfg now self g κ e, g'.pc.budget = 0 := by
  intro g' hg'
  obtain ⟨pc, rfl, rfl | ⟨t, rfl⟩⟩ := mem_afterSync hg' <;> rfl

/-- A step starts no more goroutines than the budget it uses up, and the goroutines it
starts may start none. -/
theorem exec_budget {s : State T} {i : ℕ} {g : Goroutine T} {o : Oracle T} {out : Outcome T}
    (h : exec cfg codec s i g o = some out) :
    out.spawns.length + out.pc.budget ≤ g.pc.budget ∧ ∀ g' ∈ out.spawns, g'.pc.budget = 0 := by
  have nospawn : ∀ g' ∈ ([] : List (Goroutine T)), g'.pc.budget = 0 := fun _ h => absurd h (List.not_mem_nil _)
  have one : ∀ (g : Goroutine T) (pc : Pc T), pc.budget = 0 → ∀ g' ∈ [g.child i pc], g'.pc.budget = 0 :=
    fun _ _ hpc _ h => by cases List.mem_singleton.1 h; exact hpc
  obtain ⟨key, ttl, origin, pc⟩ := g
  cases exec_cases h with
  | startHit => split <;> exact ⟨Nat.le_of_ble_eq_true rfl, nospawn⟩
  | startMiss => exact ⟨(Nat.zero_add _).trans_le (missPc_budget _ _), nospawn⟩
  | hitRefresh => split <;> exact ⟨Nat.le_of_ble_eq_true rfl, by first | exact nospawn | exact one _ _ rfl⟩
  | lockSend _ | trySelect _ => exact ⟨(Nat.zero_add _).trans_le (Critical.first_budget _ _).le, nospawn⟩
  | syncUnlock _ => exact ⟨(Nat.add_zero _).trans_le (afterSync_length _ _ _ _ _), afterSync_budget _ _ _ _ _⟩
  | asyncGen _ | staleHit _ | coopStart => exact ⟨le_refl 1, one _ _ rfl⟩
  | setMarshalFail | setFail | setStamp => exact ⟨(Nat.zero_add _).trans_le (afterSet_budget _ _ _ _).le, nospawn⟩
  | _ => exact ⟨by first | exact Nat.le_of_ble_eq_true rfl | exact (Nat.zero_add _).le | exact Nat.zero_le _, nospawn⟩

/-- Whether goroutine `i` started the goroutine. -/
def Origin.childOf (i : ℕ) : Origin T → Bool
  | .spawned p => p == i
  | .call _ => false

/-- How many goroutines a goroutine may start over its life: one for a call, none for a
goroutine another one started. -/
def Origin.allowance : Origin T → ℕ
  | .call _ => 1
  | .spawned _ => 0

/-- How many goroutines goroutine `i` has started. -/
def State.children (s : State T) (i : ℕ) : ℕ := s.goroutines.countP (·.origin.childOf i)

/-- Every goroutine was started by an earlier one, and what each has started and may
still start stays within its allowance. -/
structure SpawnBound (s : State T) : Prop where
  parent_lt : ∀ g ∈ s.goroutines, ∀ p, g.origin = .spawned p → p < s.goroutines.length
  budget : ∀ i g, s.goroutines[i]? = some g → s.children i + g.pc.budget ≤ g.origin.allowance

theorem SpawnBound.children_eq_zero {s : State T} (hb : SpawnBound s) {n : ℕ}
    (hn : s.goroutines.length ≤ n) : s.children n = 0 :=
  List.countP_eq_zero.2 fun g hg hc => by
    cases ho : g.origin with
    | call req => rw [ho] at hc; exact Bool.false_ne_true hc
    | spawned p =>
      rw [ho, Origin.childOf, beq_iff_eq] at hc
      exact absurd (hb.parent_lt g hg p ho) (by omega)

theorem countP_childOf_set {l : List (Goroutine T)} {j : ℕ} {g : Goroutine T} (hg : l[j]? = some g)
    (pc : Pc T) (i : ℕ) :
    (l.set j { g with pc := pc }).countP (·.origin.childOf i) = l.countP (·.origin.childOf i) :=
  List.countP_set_of_eq hg rfl

theorem children_apply {s : State T} {j : ℕ} {g : Goroutine T} {out : Outcome T}
    (hg : s.goroutines[j]? = some g) (hsp : ∀ g' ∈ out.spawns, g'.origin = .spawned j) (i : ℕ) :
    (out.apply s j g).children i = s.children i + if j = i then out.spawns.length else 0 := by
  rw [State.children, Outcome.apply_goroutines, List.countP_append, countP_childOf_set hg]
  congr 1
  split
  · exact List.countP_eq_length.2 fun g' hg' => by simp [hsp g' hg', Origin.childOf, *]
  · exact List.countP_eq_zero.2 fun g' hg' => by simp [hsp g' hg', Origin.childOf, *]

theorem SpawnBound.step {s s' : State T} {a : Action T} (hb : SpawnBound s)
    (h : step cfg codec s a = some s') : SpawnBound s' := by
  cases a with
  | call req =>
    cases h
    have hch : ∀ i, State.children { s with goroutines := s.goroutines ++ [req.goroutine cfg] } i =
        s.children i := fun i => by
      simp only [State.children, List.countP_append, List.countP_singleton]
      cases req <;> rfl
    refine ⟨fun g hg p hp => ?_, fun i g hi => ?_⟩
    · rcases List.mem_append.1 hg with hg | hg
      · have := hb.parent_lt g hg p hp
        simp only [List.length_append, List.length_singleton]; omega
      · rw [List.mem_singleton.1 hg] at hp; cases req <;> cases hp
    · rw [hch]
      rcases List.getElem?_concat_eq_some hi with ⟨-, hi⟩ | ⟨rfl, rfl⟩
      · exact hb.budget i g hi
      · rw [hb.children_eq_zero (le_refl _)]
        cases req <;> exact Nat.le_of_ble_eq_true rfl
  | tick d => cases h; exact ⟨hb.1, hb.2⟩
  | evict key => cases h; exact ⟨hb.1, hb.2⟩
  | run j o =>
    obtain ⟨g, out, hg, hexec, rfl⟩ := step_run h
    obtain ⟨hlen, hzero⟩ := exec_budget hexec
    have hsp : ∀ g' ∈ out.spawns, g'.origin = .spawned j := fun g' h' => (exec_spawns hexec g' h').2.2.1
    have hj := (List.getElem?_eq_some_iff.1 hg).1
    refine ⟨fun g' hg' p hp => ?_, Outcome.forall_apply hg (fun i gi hij hi => ?_) ?_ fun n g' hn => ?_⟩
    · simp only [Outcome.apply_goroutines, List.length_append, List.length_set]
      rcases List.mem_append.1 hg' with hg' | hg'
      · rcases List.mem_or_eq_of_mem_set hg' with hg' | rfl
        · have := hb.parent_lt g' hg' p hp; omega
        · have := hb.parent_lt g (List.getElem?_mem hg) p hp; omega
      · rw [hsp g' hg'] at hp; cases hp; omega
    · rw [children_apply hg hsp, if_neg (Ne.symm hij)]
      exact hb.budget i gi hi
    · rw [children_apply hg hsp, if_pos rfl]
      show s.children j + out.spawns.length + out.pc.budget ≤ g.origin.allowance
      have := hb.budget j g hg
      omega
    · have hn' := (List.getElem?_eq_some_iff.1 hn).1
      rw [children_apply hg hsp, if_neg (by omega), hb.children_eq_zero (Nat.le_add_right _ _),
        hzero g' (List.getElem?_mem hn), hsp g' (List.getElem?_mem hn)]
      exact le_refl _

theorem Run.spawnBound {allowed : State T → Action T → Prop} {s : State T}
    (hs : Run cfg codec allowed s) : SpawnBound s := by
  induction hs with
  | init h0 => exact ⟨by simp [h0.goroutines], by simp [h0.goroutines]⟩
  | step _ _ h ih => exact ih.step h

/-- No goroutine leak: over a whole run, every goroutine starts at most one goroutine,
and a goroutine that another one started starts none. So the handler runs at most one
background goroutine per call. -/
theorem spawn_at_most_one {allowed : State T → Action T → Prop} {s : State T}
    (hs : Run cfg codec allowed s) {i : ℕ} {g : Goroutine T} (hg : s.goroutines[i]? = some g) :
    s.goroutines.countP (·.origin.childOf i) ≤ 1 ∧
      ∀ p, g.origin = .spawned p → s.goroutines.countP (·.origin.childOf i) = 0 := by
  have hb : s.children i + g.pc.budget ≤ g.origin.allowance := hs.spawnBound.budget i g hg
  refine ⟨?_, fun p hp => ?_⟩
  · have ha : g.origin.allowance ≤ 1 := by
      cases g.origin <;> exact Nat.le_of_ble_eq_true rfl
    show s.children i ≤ 1
    omega
  · rw [hp, Origin.allowance] at hb
    show s.children i = 0
    omega

/-- A `ReturnThenAsyncWrite` miss of `"k"`: the call returns and starts its background
write. -/
def asyncMissRun : List (Action UInt8) :=
  [.call (.getOrRefresh "k" [.withCallMissPolicy .returnThenAsyncWrite]), .run 0 (.ok (some 7)),
    .run 0 (.ok (some 7))]

theorem spawn_at_most_one_asyncMiss :
    ∃ (s : State UInt8) (g : Goroutine UInt8),
      runActions defaultConfig byteCodec .empty asyncMissRun = some s ∧ s.goroutines[0]? = some g ∧
      s.goroutines.countP (·.origin.childOf 0) ≤ 1 ∧
        ∀ p, g.origin = .spawned p → s.goroutines.countP (·.origin.childOf 0) = 0 :=
  have hrun : runActions defaultConfig byteCodec .empty asyncMissRun = some _ := rfl
  ⟨_, _, hrun, rfl,
    spawn_at_most_one (Run.runActions (.init State.empty_initial) _ (fun _ _ => trivial) hrun) rfl⟩

/-! ### The handler quiesces -/

/-- The work a goroutine may still do: the steps it has left, and eleven for each goroutine
it may still start, which takes at most ten steps and starts none. -/
def Goroutine.work (g : Goroutine T) : ℕ := g.pc.rank + 11 * g.pc.budget

/-- The work left in a state. -/
def State.work (s : State T) : ℕ := (s.goroutines.map Goroutine.work).sum

def Action.isCall : Action T → Bool
  | .call _ => true
  | _ => false

def Action.isRun : Action T → Bool
  | .run .. => true
  | _ => false

/-- A step leaves less work than the goroutine had, the goroutines it starts included. -/
theorem exec_work {s : State T} {i : ℕ} {g : Goroutine T} {o : Oracle T} {out : Outcome T}
    (h : exec cfg codec s i g o = some out) :
    ({ g with pc := out.pc } : Goroutine T).work + (out.spawns.map Goroutine.work).sum < g.work := by
  have hr := exec_rank h
  obtain ⟨hb, h0⟩ := exec_budget h
  have hsp : (out.spawns.map Goroutine.work).sum ≤ out.spawns.length * 10 := by
    have := List.sum_le_card_nsmul (out.spawns.map Goroutine.work) 10 fun w hw => by
      obtain ⟨g', hg', rfl⟩ := List.mem_map.1 hw
      rw [Goroutine.work, h0 g' hg', Nat.mul_zero, Nat.add_zero]
      exact Pc.rank_le _
    simpa using this
  simp only [Goroutine.work] at *
  omega

/-- A goroutine step lowers the work, a call adds at most 21, and the clock and the backend
leave it as it is. -/
theorem step_work {s s' : State T} {a : Action T} (h : step cfg codec s a = some s') :
    s'.work + (if a.isRun then 1 else 0) ≤ s.work + 21 * (if a.isCall then 1 else 0) := by
  cases a with
  | call req =>
    cases h
    have : (req.goroutine cfg).work ≤ 21 := by cases req <;> exact Nat.le_of_ble_eq_true rfl
    simp only [State.work, List.map_append, List.sum_append, List.map_singleton, List.sum_singleton,
      Action.isRun, Action.isCall, Bool.false_eq_true, ↓reduceIte]
    omega
  | tick d => cases h; exact le_refl _
  | evict key => cases h; exact le_refl _
  | run i o =>
    obtain ⟨g, out, hg, hexec, rfl⟩ := step_run h
    have hw := exec_work hexec
    have hset := Lock.sum_map_set Goroutine.work s.goroutines i { g with pc := out.pc } g hg
    simp only [State.work, Outcome.apply_goroutines, List.map_append, List.sum_append, Action.isRun,
      Action.isCall, Bool.false_eq_true, ↓reduceIte]
    omega

/-- Bounded work: in any run from any state, the goroutine steps and the work left at the
end are at most the work at the start and 21 for each call that arrives. From the empty
handler, a run with `n` calls takes at most `21 * n` goroutine steps. -/
theorem total_steps_le {s s' : State T} {as : List (Action T)}
    (h : runActions cfg codec s as = some s') :
    as.countP Action.isRun + s'.work ≤ s.work + 21 * as.countP Action.isCall := by
  induction as generalizing s with
  | nil => cases h; simp
  | cons a as ih =>
    obtain ⟨s₁, h₁, h⟩ := Option.bind_eq_some.1 h
    have hstep := step_work h₁
    have hrest := ih h
    rw [List.countP_cons, List.countP_cons]
    omega

theorem total_steps_le_syncMiss :
    ∃ s' : State UInt8, runActions defaultConfig byteCodec .empty syncMissRun = some s' ∧
      syncMissRun.countP Action.isRun + s'.work ≤
        (State.empty : State UInt8).work + 21 * syncMissRun.countP Action.isCall :=
  have hrun : runActions defaultConfig byteCodec .empty syncMissRun = some _ := rfl
  ⟨_, hrun, total_steps_le hrun⟩

theorem runActions_cons {s s₁ : State T} {a : Action T} (h : step cfg codec s a = some s₁)
    (as : List (Action T)) : runActions cfg codec s (a :: as) = runActions cfg codec s₁ as := by
  simp only [runActions, h, Option.some_bind]

theorem runActions_tick (s : State T) (d : ℕ) (as : List (Action T)) :
    runActions cfg codec s (.tick d :: as) = runActions cfg codec { s with now := s.now + d } as := rfl

theorem runActions_append (s : State T) (as bs : List (Action T)) :
    runActions cfg codec s (as ++ bs) = (runActions cfg codec s as).bind (runActions cfg codec · bs) := by
  induction as generalizing s with
  | nil => rfl
  | cons a as ih =>
    show (step cfg codec s a).bind (runActions cfg codec · (as ++ bs)) =
      ((step cfg codec s a).bind (runActions cfg codec · as)).bind _
    simp only [Option.bind_assoc, ih]

/-- A goroutine that can step lowers the work by stepping. -/
theorem step_run_work {s : State T} {i : ℕ} {g : Goroutine T} {o : Oracle T}
    (hg : s.goroutines[i]? = some g) (h : (exec cfg codec s i g o).isSome) :
    ∃ s', step cfg codec s (.run i o) = some s' ∧ s'.work < s.work := by
  obtain ⟨out, hout⟩ := Option.isSome_iff_exists.1 h
  have hstep : step cfg codec s (.run i o) = some (out.apply s i g) := by
    simp only [step, hg, hout, Option.map_some']
  have := step_work hstep
  exact ⟨_, hstep, by simpa only [Action.isRun, Action.isCall, if_true, if_false] using this⟩

/-- In a reachable state with a goroutine that has not returned, a clock tick and a step, or
a step alone, lower the work. -/
theorem exists_work_lt {s : State T} (hs : Reachable cfg codec s) {i : ℕ} {g : Goroutine T}
    (hg : s.goroutines[i]? = some g) (hf : g.pc.finished = false) :
    ∃ as s', runActions cfg codec s as = some s' ∧ as.countP Action.isCall = 0 ∧ s'.work < s.work := by
  rcases no_deadlock hs hg hf with hen | ⟨wake, hpc, -⟩ | ⟨d, w, hpc, -, hcl⟩ |
    ⟨-, -, j, g', -, -, hj, -, -, hen⟩
  · obtain ⟨s', h, hw⟩ := step_run_work hg (hen (.ok none))
    exact ⟨[.run i (.ok none)], s', (runActions_cons h _).trans rfl, rfl, hw⟩
  · -- sleep until `wake`
    obtain ⟨s', h, hw⟩ := step_run_work (s := { s with now := s.now + (wake - s.now) }) (o := .ok none)
      hg (by simp only [exec, hpc]; rw [if_pos (by omega)]; rfl)
    refine ⟨[.tick (wake - s.now), .run i (.ok none)], s', ?_, rfl, hw⟩
    rw [runActions_tick, runActions_cons h]
    rfl
  · -- wait for the cooperative deadline
    obtain ⟨s', h, hw⟩ := step_run_work (s := { s with now := s.now + (d - s.now).toNat })
      (o := .ok none) hg (by simp only [exec, hpc]; rw [if_pos ⟨by omega, .inl hcl⟩]; rfl)
    refine ⟨[.tick (d - s.now).toNat, .run i (.ok none)], s', ?_, rfl, hw⟩
    rw [runActions_tick, runActions_cons h]
    rfl
  · -- step the holder of the lock it waits for
    obtain ⟨s', h, hw⟩ := step_run_work hj (hen (.ok none))
    exact ⟨[.run j (.ok none)], s', (runActions_cons h _).trans rfl, rfl, hw⟩

/-- The handler quiesces: from every reachable state, clock ticks and goroutine steps, with
no new call, lead to a state in which every goroutine has returned. -/
theorem eventually_all_return {s : State T} (hs : Reachable cfg codec s) :
    ∃ as s', runActions cfg codec s as = some s' ∧ as.countP Action.isCall = 0 ∧
      ∀ g ∈ s'.goroutines, g.pc.finished = true := by
  obtain ⟨n, hn⟩ : ∃ n, s.work = n := ⟨_, rfl⟩
  induction n using Nat.strong_induction_on generalizing s with
  | _ n ih =>
    by_cases hall : ∀ g ∈ s.goroutines, g.pc.finished = true
    · exact ⟨[], s, rfl, rfl, hall⟩
    push_neg at hall
    obtain ⟨g, hg, hf⟩ := hall
    obtain ⟨i, hi⟩ := List.mem_iff_getElem?.1 hg
    obtain ⟨as, s₁, h₁, hc₁, hw⟩ := exists_work_lt hs hi (Bool.eq_false_iff.2 hf)
    obtain ⟨bs, s₂, h₂, hc₂, hfin⟩ :=
      ih _ (hn ▸ hw) (Run.runActions hs as (fun _ _ => trivial) h₁) rfl
    refine ⟨as ++ bs, s₂, ?_, by rw [List.countP_append, hc₁, hc₂], hfin⟩
    rw [runActions_append, h₁]
    exact h₂

theorem eventually_all_return_contended :
    ∃ s : State UInt8, runActions defaultConfig byteCodec .empty contendedMiss = some s ∧
      ∃ as s', runActions defaultConfig byteCodec s as = some s' ∧ as.countP Action.isCall = 0 ∧
        ∀ g ∈ s'.goroutines, g.pc.finished = true :=
  have hrun : runActions defaultConfig byteCodec .empty contendedMiss = some _ := rfl
  ⟨_, hrun, eventually_all_return (Run.runActions (.init State.empty_initial) _ (fun _ _ => trivial) hrun)⟩

end Cashcov.Handler
