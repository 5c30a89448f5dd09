import Cashcov.Handler

/-!
# The goroutines as tasks of the keyed mutex

Each goroutine is a task of the keyed-mutex model of `Cashcov.Lock`: between the
`ch` and the send of `Lock` or `TryLock` it is `locking` or `trying`, and from the
acquisition to its deferred unlock it holds the releaser of its full key. The
failed `TryLock` drops its no-op releaser, which the task model reads as obtaining
it and invoking it at once. Every handler step is a sequence of keyed-mutex moves
on this projection, so the keyed mutex's invariant holds in every reachable state
of the handler, and at most one goroutine holds the lock of a full key.
-/
namespace Cashcov.Handler

open Cashcov.Lock

variable {T : Type} {cfg : HandlerConfig} {codec : Codec T}

def SetRet.held : SetRet → Option ℕ
  | .syncMiss _ c | .backgroundMissWrite c | .backgroundRefresh c | .staleRefresh c => some c
  | .call | .bestEffort => none

/-- The channel whose releaser the goroutine still has to invoke. -/
def Pc.held : Pc T → Option ℕ
  | .syncCheck _ c | .syncGen _ c | .syncUnlock _ c _ | .waitClose c | .missWriteExists _ c
  | .refreshCooldown c | .refreshGen c | .staleGen c | .staleCompanion _ c | .unlock _ c => some c
  | .setWrite _ r | .setStamp _ r => r.held
  | _ => none

def Pc.client (key : String) : Pc T → Client
  | .lockSend _ c => ⟨.locking key c, []⟩
  | .trySelect _ c => ⟨.trying key c, []⟩
  | pc => ⟨.idle, (pc.held.map (Releaser.unlock key)).toList⟩

def Goroutine.client (cfg : HandlerConfig) (g : Goroutine T) : Client :=
  g.pc.client (fullKey cfg g.key)

def State.system (cfg : HandlerConfig) (s : State T) : System :=
  ⟨s.km, s.goroutines.map (Goroutine.client cfg)⟩

/-- What one step of a goroutine does to its task. -/
def LockMove (km : KeyedMutex) (key : String) (before after : Pc T) : Option (Op T) → Prop
  | some (.chan k) => k = key ∧ before.client key = ⟨.idle, []⟩ ∧
    (after.client key = ⟨.locking key (ch km key).1, []⟩ ∨
      after.client key = ⟨.trying key (ch km key).1, []⟩)
  | some (.acquire _ k c) => k = key ∧ km.occ c = 0 ∧
    (before.client key = ⟨.locking key c, []⟩ ∨ before.client key = ⟨.trying key c, []⟩) ∧
    after.client key = ⟨.idle, [.unlock key c]⟩
  | some (.busy _ k) => k = key ∧ ∃ c, km.occ c ≠ 0 ∧ before.client key = ⟨.trying key c, []⟩ ∧
    after.client key = ⟨.idle, []⟩
  | some (.release _ k c) => k = key ∧ km.occ c ≠ 0 ∧
    before.client key = ⟨.idle, [.unlock key c]⟩ ∧ after.client key = ⟨.idle, []⟩
  | _ => after.client key = before.client key

@[simp] theorem afterSet_client (key : String) (now : ℕ) (v : T) (ret : SetRet) (e : Option Err) :
    (afterSet codec now v ret e).client key = (Pc.setWrite v ret : Pc T).client key := by
  cases ret <;> cases e <;> rfl

@[simp] theorem setStamp_client (key : String) (v : T) (ret : SetRet) :
    (Pc.setStamp v ret : Pc T).client key = (Pc.setWrite v ret : Pc T).client key := by
  cases ret <;> rfl

@[simp] theorem Critical.first_client (key : String) (k : Critical T) (c : ℕ) :
    (k.first c).client key = ⟨.idle, [.unlock key c]⟩ := by
  cases k <;> rfl

@[simp] theorem missPc_client (key : String) (p : MissPolicy) (co : CallOpts) :
    (missPc codec p co).client key = ⟨.idle, []⟩ := by
  cases p <;> rfl

theorem Pc.client_of_isTaskStart {pc : Pc T} (h : pc.isTaskStart) (key : String) :
    pc.client key = ⟨.idle, []⟩ := by
  cases pc <;> first | rfl | cases h

/-- Every goroutine step is a `LockMove`, and starts only idle tasks. -/
theorem exec_lockMove {s : State T} {i : ℕ} {g : Goroutine T} {o : Oracle T} {out : Outcome T}
    (h : exec cfg codec s i g o = some out) :
    LockMove s.km (fullKey cfg g.key) g.pc out.pc out.op ∧
      ∀ g' ∈ out.spawns, g'.client cfg = ⟨.idle, []⟩ := by
  refine ⟨?_, fun g' hg' => Pc.client_of_isTaskStart (exec_spawns h g' hg').2.2.2 _⟩
  obtain ⟨key, ttl, origin, pc⟩ := g
  cases exec_cases h with
  | lockCh => exact ⟨rfl, rfl, .inl rfl⟩
  | tryCh => exact ⟨rfl, rfl, .inr rfl⟩
  | lockSend hfree => exact ⟨rfl, hfree, .inl rfl, Critical.first_client _ _ _⟩
  | trySelect hfree => exact ⟨rfl, hfree, .inr rfl, Critical.first_client _ _ _⟩
  | tryBusy hbusy => exact ⟨rfl, _, hbusy, rfl, rfl⟩
  | syncUnlock hheld | unlock hheld => exact ⟨rfl, hheld, rfl, rfl⟩
  | startHit => split <;> rfl
  | startMiss => exact missPc_client _ _ _
  | setMarshalFail | setFail => exact afterSet_client _ _ _ _ _
  | setWrite => exact setStamp_client _ _ _
  | setStamp => split <;> exact afterSet_client _ _ _ _ _
  | _ => rfl

@[simp] theorem State.system_km (s : State T) : (s.system cfg).km = s.km := rfl

@[simp] theorem Outcome.apply_km_some (s : State T) (i : ℕ) (g : Goroutine T) (pc : Pc T)
    (op : Op T) (spawns : List (Goroutine T)) :
    (Outcome.apply s i g ⟨pc, some op, spawns⟩).km = (op.apply s.now s).km := rfl

theorem Outcome.apply_system (s : State T) (i : ℕ) (g : Goroutine T) (out : Outcome T) :
    (out.apply s i g).system cfg = ⟨(out.apply s i g).km,
      (s.system cfg).clients.set i (out.pc.client (fullKey cfg g.key)) ++
        out.spawns.map (Goroutine.client cfg)⟩ := by
  simp [State.system, Outcome.apply, Goroutine.client, List.map_set]

/-- The task of goroutine `i` moves as its step says; the goroutines it starts join idle. -/
theorem exec_moves {s : State T} {i : ℕ} {g : Goroutine T} {o : Oracle T} {out : Outcome T}
    (hg : s.goroutines[i]? = some g) (h : exec cfg codec s i g o = some out) :
    Moves (s.system cfg) ((out.apply s i g).system cfg) := by
  obtain ⟨hmove, hspawn⟩ := exec_lockMove h
  have hi : (s.system cfg).clients[i]? = some (g.pc.client (fullKey cfg g.key)) := by
    simp [State.system, hg, Goroutine.client]
  have hsys : s.system cfg = ⟨s.km, (s.system cfg).clients⟩ := rfl
  rw [Outcome.apply_system]
  suffices hone : Moves (s.system cfg) ⟨(out.apply s i g).km,
      (s.system cfg).clients.set i (out.pc.client (fullKey cfg g.key))⟩ from
    hone.trans (moves_spawns _ _ _ (by simpa using hspawn))
  obtain ⟨pc', op, spawns⟩ := out
  rcases op with _ | ⟨site, key, r⟩ | ⟨site, key, b, ttl⟩ | ⟨site, key⟩ | ⟨site, key⟩ | key |
    ⟨site, key, c⟩ | ⟨site, key⟩ | ⟨site, key, c⟩ | w
  case chan =>
    obtain ⟨rfl, hidle, hnew | hnew⟩ := hmove <;> rw [hidle] at hi <;> rw [hnew]
    · exact .single (m := .lock i (fullKey cfg g.key)) (by simp [move, hi, Op.apply])
    · exact .single (m := .tryLock i (fullKey cfg g.key)) (by simp [move, hi, Op.apply])
  case acquire =>
    obtain ⟨rfl, h0, hold | hold, hnew⟩ := hmove <;> rw [hold] at hi <;> rw [hnew] <;>
      have hsend : send s.km c = some ⟨s.km.locks, s.km.next, Function.update s.km.occ c 1⟩ :=
        by simp [send, h0]
    · exact .single (m := .send i) (by simp [move, hi, hsend, Op.apply])
    · exact .single (m := .select i) (by simp [move, hi, hsend, Op.apply])
  case busy =>
    obtain ⟨rfl, c, h0, hold, hnew⟩ := hmove
    rw [hold] at hi; rw [hnew]
    have hsend : send s.km c = none := by simp [send, h0]
    have h1 : move (s.system cfg) (.select i) =
        some ⟨s.km, (s.system cfg).clients.set i ⟨.idle, [.noop]⟩⟩ := by simp [move, hi, hsend]
    have hlen := (List.getElem?_eq_some_iff.1 hi).1
    exact .tail (m := .invoke i .noop) (.single h1)
      (by simp [move, List.set_set, Op.apply, List.getElem?_set, hlen])
  case release =>
    obtain ⟨rfl, h0, hold, hnew⟩ := hmove
    rw [hold] at hi; rw [hnew]
    exact .single (m := .invoke i (.unlock (fullKey cfg g.key) c))
      (by simp [move, hi, recv, h0, Op.apply])
  all_goals
    simp only [LockMove] at hmove
    rw [hmove, List.set_of_getElem? hi]
    exact .refl _

/-- The projection of every reachable handler state is a reachable state of the
keyed-mutex task model. -/
theorem Run.system {allowed : State T → Action T → Prop} {s : State T}
    (hs : Run cfg codec allowed s) : Lock.Reachable (s.system cfg) := by
  induction hs with
  | init h0 =>
    simpa [State.system, h0.km, h0.goroutines] using Lock.Reachable.init
  | step _ _ hstep ih =>
    rename_i s s' a _ _
    cases a with
    | call req =>
      cases hstep
      have : (req.goroutine cfg).client cfg = (⟨.idle, []⟩ : Client) := by cases req <;> rfl
      exact ih.moves (.single (m := .spawn) (by simp [move, State.system, this]))
    | tick d => cases hstep; exact ih
    | evict key => cases hstep; exact ih
    | run i o =>
      simp only [Handler.step] at hstep
      split at hstep
      · rename_i g hg
        obtain ⟨out, hexec, rfl⟩ := Option.map_eq_some'.1 hstep
        exact ih.moves (exec_moves hg hexec)
      · cases hstep

section Exclusion

variable {allowed : State T → Action T → Prop} {s : State T}

theorem two_le_sum_map {α : Type} (f : α → ℕ) :
    ∀ (l : List α) (i j : ℕ) (a b : α), i ≠ j → l[i]? = some a → l[j]? = some b →
      0 < f a → 0 < f b → 2 ≤ (l.map f).sum
  | [], _, _, _, _, _, ha, _, _, _ => by simp at ha
  | x :: l, 0, 0, _, _, hij, _, _, _, _ => absurd rfl hij
  | x :: l, 0, j + 1, a, b, _, ha, hb, hfa, hfb => by
    simp only [List.getElem?_cons_zero, Option.some.injEq] at ha; subst ha
    have := List.le_sum_of_mem (List.mem_map_of_mem f (List.getElem?_mem (by simpa using hb))); simp; omega
  | x :: l, i + 1, 0, a, b, _, ha, hb, hfa, hfb => by
    simp only [List.getElem?_cons_zero, Option.some.injEq] at hb; subst hb
    have := List.le_sum_of_mem (List.mem_map_of_mem f (List.getElem?_mem (by simpa using ha))); simp; omega
  | x :: l, i + 1, j + 1, a, b, hij, ha, hb, hfa, hfb => by
    have := two_le_sum_map f l i j a b (by omega) (by simpa using ha) (by simpa using hb) hfa hfb
    simp; omega

theorem Run.lockInv (hs : Run cfg codec allowed s) : Lock.Inv (s.system cfg) := hs.system.inv

theorem State.system_getElem? (cfg : HandlerConfig) {i : ℕ} {g : Goroutine T}
    (hg : s.goroutines[i]? = some g) :
    (s.system cfg).clients[i]? = some (g.client cfg) := by
  simp [State.system, hg]

theorem Pc.client_held (key : String) {pc : Pc T} {c : ℕ} (h : pc.held = some c) :
    pc.client key = ⟨.idle, [.unlock key c]⟩ := by
  cases pc <;> simp_all [Pc.held, Pc.client]

/-- The lock a goroutine holds is the current channel of its full key. -/
theorem Run.held_locks (hs : Run cfg codec allowed s) {g : Goroutine T} (hg : g ∈ s.goroutines)
    {c : ℕ} (h : g.pc.held = some c) : s.km.locks (fullKey cfg g.key) = some c := by
  have hm : g.client cfg ∈ (s.system cfg).clients := List.mem_map_of_mem _ hg
  exact (hs.lockInv.sound _ hm).2 _ _ (by simp [Goroutine.client, Pc.client_held _ h])

/-- Mutual exclusion: two goroutines never hold the lock of one full key. -/
theorem Run.exclusive (hs : Run cfg codec allowed s) {i j : ℕ} {g g' : Goroutine T}
    (hi : s.goroutines[i]? = some g) (hj : s.goroutines[j]? = some g') {c c' : ℕ}
    (hc : g.pc.held = some c) (hc' : g'.pc.held = some c')
    (hk : fullKey cfg g.key = fullKey cfg g'.key) : i = j := by
  by_contra hij
  have e := (hs.held_locks (List.getElem?_mem hi) hc).symm.trans
    (hk ▸ hs.held_locks (List.getElem?_mem hj) hc')
  cases e
  have h2 := two_le_sum_map (fun t => t.held.countP (Releaser.onChan c)) _ i j _ _ hij
    (State.system_getElem? cfg hi) (State.system_getElem? cfg hj)
    (by simp [Goroutine.client, Pc.client_held _ hc, Releaser.onChan])
    (by simp [Goroutine.client, Pc.client_held _ hc', Releaser.onChan])
  have := hs.lockInv.occ_le c; rw [hs.lockInv.occ_eq] at this
  simp only [holdCount] at this; omega

theorem Pc.client_held_eq (key : String) (pc : Pc T) :
    (pc.client key).held = (pc.held.map (Releaser.unlock key)).toList := by
  cases pc <;> rfl

/-- A lock no goroutine holds has an empty buffer. -/
theorem Run.occ_free (hs : Run cfg codec allowed s) {c : ℕ}
    (hfree : ∀ g ∈ s.goroutines, g.pc.held ≠ some c) : s.km.occ c = 0 := by
  rw [show s.km.occ c = holdCount (s.system cfg) c from hs.lockInv.occ_eq c]
  refine List.sum_eq_zero fun n hn => ?_
  obtain ⟨_, ht, rfl⟩ := List.mem_map.1 hn
  refine List.countP_eq_zero.2 fun r hr hon => ?_
  obtain ⟨g, hg, rfl⟩ := List.mem_map.1 ht
  rw [Goroutine.client, Pc.client_held_eq] at hr
  cases hh : g.pc.held with
  | none => simp [hh] at hr
  | some c'' =>
    simp only [hh, Option.map_some', Option.toList_some, List.mem_singleton] at hr
    subst hr
    simp only [Releaser.onChan, beq_iff_eq] at hon
    exact hfree g hg (hon ▸ hh)

/-- A held lock's buffer is full. -/
theorem Run.occ_held (hs : Run cfg codec allowed s) {g : Goroutine T} (hg : g ∈ s.goroutines)
    {c : ℕ} (h : g.pc.held = some c) : s.km.occ c = 1 := by
  have hle : s.km.occ c ≤ 1 := hs.lockInv.occ_le c
  have h1 : (g.client cfg).held.countP (Releaser.onChan c) = 1 := by
    simp [Goroutine.client, Pc.client_held _ h, Releaser.onChan]
  have := List.le_sum_of_mem (List.mem_map_of_mem (fun t : Client => t.held.countP (Releaser.onChan c))
    (List.mem_map_of_mem (Goroutine.client cfg) hg))
  have hocc : s.km.occ c = holdCount (s.system cfg) c := hs.lockInv.occ_eq c
  simp only [h1] at this
  simp only [holdCount, State.system] at hocc
  omega

/-- The handler refines the keyed mutex: in every run, its projection is a reachable state
of the keyed-mutex model of `Cashcov.Lock`. A lock a goroutine holds is the current
channel of its full key, with a full buffer, and no other goroutine holds the lock of
that full key. -/
theorem handler_refines_keyedMutex (hs : Run cfg codec allowed s) :
    Lock.Reachable (s.system cfg) ∧
      ∀ (i : ℕ) (g : Goroutine T) (c : ℕ), s.goroutines[i]? = some g → g.pc.held = some c →
        s.km.locks (fullKey cfg g.key) = some c ∧ s.km.occ c = 1 ∧
          ∀ (j : ℕ) (g' : Goroutine T) (c' : ℕ), s.goroutines[j]? = some g' →
            g'.pc.held = some c' → fullKey cfg g'.key = fullKey cfg g.key → j = i :=
  ⟨hs.system, fun _ _ _ hg hc => ⟨hs.held_locks (List.getElem?_mem hg) hc,
    hs.occ_held (List.getElem?_mem hg) hc, fun _ _ _ hg' hc' hk => hs.exclusive hg' hg hc' hc hk⟩⟩

end Exclusion

/-- A miss of `"k"` on an empty backend that has taken the key's lock. -/
def lockedMiss : List (Action UInt8) :=
  [.call (.getOrRefresh "k" []), .run 0 (.ok none), .run 0 (.ok none), .run 0 (.ok none)]

theorem handler_refines_keyedMutex_lockedMiss :
    ∃ (s : State UInt8) (g : Goroutine UInt8),
      runActions defaultConfig byteCodec .empty lockedMiss = some s ∧ s.goroutines[0]? = some g ∧
      g.pc.held = some 0 ∧ Lock.Reachable (s.system defaultConfig) ∧
      ∀ (i : ℕ) (g : Goroutine UInt8) (c : ℕ), s.goroutines[i]? = some g → g.pc.held = some c →
        s.km.locks (fullKey defaultConfig g.key) = some c ∧ s.km.occ c = 1 ∧
          ∀ (j : ℕ) (g' : Goroutine UInt8) (c' : ℕ), s.goroutines[j]? = some g' →
            g'.pc.held = some c' → fullKey defaultConfig g'.key = fullKey defaultConfig g.key → j = i :=
  have hrun : runActions defaultConfig byteCodec .empty lockedMiss = some _ := rfl
  ⟨_, _, hrun, rfl, rfl,
    handler_refines_keyedMutex (Run.runActions (.init State.empty_initial) _ (fun _ _ => trivial) hrun)⟩

end Cashcov.Handler
