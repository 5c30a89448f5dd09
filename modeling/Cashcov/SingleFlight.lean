import Cashcov.Cooperative
import Cashcov.Stale
import Cashcov.ResultSource
import Cashcov.Progress

/-!
# Single flight on a miss

Concurrent `GetOrRefresh` calls of one key whose miss goes to `missSyncWriteThenReturn`
generate once: the first call to take the key's lock finds the key absent at its
double-check, generates and writes while holding the lock, and every later holder finds
that write. The scenario is the one the code is written for: a backend that starts
without the key, never fails and never expires it, generators that succeed, values that
encode and decode, no other writer of the key, hits only with hit refresh disabled, and
the cooperative select taking `done`. It also needs the delayed refresh of
`scheduleRefreshAhead` not to fire: that task regenerates and writes without the miss
path's double-check, and a call still waiting for the lock then returns its value.

Every call also returns. A holder of the lock can always move and the lock-wait goroutine
of the cooperative select runs until it closes `done`, so while some call has not
returned, a goroutine can take a step that lowers the work left (`State.work`); by
induction on the work, steps of the scenario lead to a state where every call has
returned, and then the generator has been called exactly once.
-/
namespace Cashcov

/-- The policies whose miss goes to `missSyncWriteThenReturn`. -/
def MissPolicy.syncMiss : MissPolicy → Bool
  | .syncWriteThenReturn | .refreshAhead | .staleWhileRevalidate | .cooperativeRefresh
  | .probabilisticRefresh => true
  | _ => false

end Cashcov

namespace Cashcov.Handler

variable {T : Type} {cfg : HandlerConfig} {codec : Codec T}

/-- The actions of the scenario on key `k`: `GetOrRefresh(k)` calls under such a policy,
time passing, and steps against a backend that never fails with generators that always
succeed. Nothing expires. -/
def Action.inScenario (cfg : HandlerConfig) (k : String) : Action T → Bool
  | .call (.getOrRefresh key opts) => key == k && (effectiveMissPolicy cfg (callOpts opts)).syncMiss
  | .call _ | .evict _ => false
  | .tick _ => true
  | .run _ o => !o.fail && o.gen.isSome

/-- The scheduling the scenario assumes besides: a call reads a hit only with hit
refresh disabled, the cooperative select runs once `done` is closed and takes it, and no
refresh-ahead task wakes up. -/
def ScenarioStep (cfg : HandlerConfig) (k : String) (s : State T) (a : Action T) : Prop :=
  a.inScenario cfg k ∧ ∀ i o g, a = .run i o → s.goroutines[i]? = some g →
    (∀ p co, g.pc = .start p co → s.store (fullKey cfg k) ≠ none → co.disableHitRefresh) ∧
    (∀ d w, g.pc = .coopSelect d w → s.closed w ∧ o.timeout = false) ∧
    ∀ t, g.pc ≠ .aheadSleep t

/-- Every call passes `WithoutBackgroundRefresh()`. -/
def Action.withoutHitRefresh : Action T → Bool
  | .call (.getOrRefresh _ opts) => (callOpts opts).disableHitRefresh
  | _ => true

/-- The states reached from `s` by steps that `allowed` admits. -/
inductive Steps (cfg : HandlerConfig) (codec : Codec T) (allowed : State T → Action T → Prop)
    (s : State T) : State T → Prop
  | refl : Steps cfg codec allowed s s
  | tail {s' s'' : State T} {a : Action T} : Steps cfg codec allowed s s' → allowed s' a →
    step cfg codec s' a = some s'' → Steps cfg codec allowed s s''

theorem Steps.head {allowed : State T → Action T → Prop} {s s₁ s₂ : State T} {a : Action T}
    (ha : allowed s a) (h : step cfg codec s a = some s₁) (hs : Steps cfg codec allowed s₁ s₂) :
    Steps cfg codec allowed s s₂ := by
  induction hs with
  | refl => exact .tail .refl ha h
  | tail _ ha' h' ih => exact .tail ih ha' h'

/-- A run of actions that each satisfy `P`. -/
theorem Steps.runActions {P : Action T → Bool} {s s' : State T} {as : List (Action T)}
    (hall : as.all P) (h : runActions cfg codec s as = some s') :
    Steps cfg codec (fun _ a => P a) s s' := by
  induction as generalizing s with
  | nil => cases h; exact .refl
  | cons a as ih =>
    obtain ⟨s₁, h₁, h⟩ := Option.bind_eq_some.1 h
    simp only [List.all_cons, Bool.and_eq_true] at hall
    exact Steps.head hall.1 h₁ (ih hall.2 h)

theorem Steps.run {allowed : State T → Action T → Prop} {s s' : State T} (h0 : s.Initial)
    (h : Steps cfg codec allowed s s') : Run cfg codec allowed s' := by
  induction h with
  | refl => exact .init h0
  | tail _ ha hs ih => exact ih.step ha hs

def Critical.inScenario : Critical T → Bool
  | .syncMiss _ | .coopWait => true
  | _ => false

/-- Where the goroutines of the scenario can be: the calls on their way through
`missSyncWriteThenReturn` (directly, after an empty stale read, or after the cooperative
select), and the tasks they start: lock-wait goroutines, creation stamps and sleeping
refresh-ahead tasks. -/
def Pc.inScenario : Pc T → Bool
  | .start policy _ => policy.syncMiss
  | .staleCheck | .coopStart | .coopSelect .. | .syncCheck .. | .syncGen .. | .syncUnlock ..
  | .waitClose _ | .aheadSleep _ | .probStamp | .exit | .done _ => true
  | .lockCh k | .lockSend k _ => k.inScenario
  | .setWrite _ r | .setStamp _ r => r.isSyncMiss
  | .unlock site _ => site == .cooperativeWait
  | _ => false

/-- Where a goroutine has taken the lock of the miss path and not yet generated. -/
def Pc.checking : Pc T → Bool
  | .syncCheck .. | .syncGen .. => true
  | _ => false

/-- Where the generator of the miss path holds its value and has not written it. -/
def Pc.writing : Pc T → Bool
  | .setWrite _ r => r.isSyncMiss
  | _ => false

/-- Where a goroutine owes nothing to the key: before the lock of the miss path, in a
lock-wait goroutine, or in a task. -/
def Pc.calm : Pc T → Bool
  | .syncCheck .. | .syncGen .. | .syncUnlock .. | .done _ => false
  | .setWrite _ r | .setStamp _ r => !r.isSyncMiss
  | _ => true

/-- An operation that leaves the backend, the generator calls and the lock entries of
`missSyncWriteThenReturn` alone. -/
def Op.calm : Op T → Bool
  | .write .. | .generate .. => false
  | .acquire site _ _ => site != .syncMiss
  | _ => true

/-- A generator call of `missSyncWriteThenReturn` on the full key `fk`. -/
def Op.isSyncGen (fk : String) : Op T → Bool
  | .generate site key _ => site == .syncMiss && key == fk
  | _ => false

/-- `missSyncWriteThenReturn` taking the lock of `fk`. -/
def Op.isSyncAcquire (fk : String) : Op T → Bool
  | .acquire site key _ => site == .syncMiss && key == fk
  | _ => false

theorem Pc.writing_of_calm {pc : Pc T} (h : pc.calm) : pc.writing = false := by
  cases pc <;> try rfl
  simpa only [Pc.calm, Pc.writing, Bool.not_eq_true'] using h

theorem Pc.not_checking_of_calm {pc : Pc T} (h : pc.calm) : ¬ pc.checking := by
  cases pc <;> first | exact Bool.false_ne_true | exact absurd h Bool.false_ne_true

theorem Pc.calm_of_isTaskStart {pc : Pc T} (h : pc.isTaskStart) : pc.calm := by
  cases pc <;> first | rfl | exact absurd h Bool.false_ne_true

theorem Pc.held_of_checking {pc : Pc T} (h : pc.checking) : ∃ c, pc.held = some c := by
  cases pc <;> first | exact absurd h Bool.false_ne_true | exact ⟨_, rfl⟩

theorem Pc.held_of_writing {pc : Pc T} (h : pc.writing) : ∃ c, pc.held = some c := by
  cases pc <;> try exact absurd h Bool.false_ne_true
  rename_i r; cases r <;> first | exact absurd h Bool.false_ne_true | exact ⟨_, rfl⟩

theorem Op.apply_store_of_calm {op : Op T} (h : op.calm) (now : ℕ) (s : State T) :
    (op.apply now s).store = s.store := by
  cases op <;> first | rfl | exact absurd h Bool.false_ne_true

theorem Op.isSyncGen_of_calm {op : Op T} (h : op.calm) (fk : String) : op.isSyncGen fk = false := by
  cases op <;> first | rfl | exact absurd h Bool.false_ne_true

theorem Op.isSyncAcquire_of_calm {op : Op T} (h : op.calm) (fk : String) :
    op.isSyncAcquire fk = false := by
  cases op <;> try rfl
  rename_i site _ _; cases site <;> first | rfl | exact absurd h Bool.false_ne_true

/-- A step of a goroutine of the scenario, by what it does on the key `fk` of its call:
where it goes and the operation it performs. -/
inductive Move (codec : Codec T) (s : State T) (fk : String) : Pc T → Pc T → Option (Op T) → Prop
  /-- The first read hits; the call returns the decoded value. -/
  | hit {policy co b w} : s.store fk = some b → codec.unmarshal b = some w →
    Move codec s fk (.start policy co) (.done (⟨w, true, some s.now⟩, none)) none
  | enter (κ c) :
    Move codec s fk (.lockSend (.syncMiss κ) c) (.syncCheck κ c) (some (.acquire .syncMiss fk c))
  /-- The double-check finds nothing. -/
  | miss {κ c} : s.store fk = none →
    Move codec s fk (.syncCheck κ c) (.syncGen κ c) (some (.absent .syncMiss fk))
  /-- The double-check finds the value another call wrote. -/
  | found {κ c b w} : s.store fk = some b → codec.unmarshal b = some w →
    Move codec s fk (.syncCheck κ c) (.syncUnlock κ c (⟨w, true, some s.now⟩, none)) none
  | generate (κ c v) :
    Move codec s fk (.syncGen κ c) (.setWrite v (.syncMiss κ c)) (some (.generate .syncMiss fk (some v)))
  | write {κ c v b} (ttl) : codec.marshal v = some b →
    Move codec s fk (.setWrite v (.syncMiss κ c)) (.setStamp v (.syncMiss κ c))
      (some (.write .syncMiss fk b ttl))
  | written {κ c v op} : op.all Op.calm →
    Move codec s fk (.setStamp v (.syncMiss κ c)) (.syncUnlock κ c (⟨v, false, some s.now⟩, none)) op
  | unlock {κ c ret op} : op.all Op.calm → Move codec s fk (.syncUnlock κ c ret) (.done ret) op
  /-- Every other step of the scenario: nothing owed before, nothing owed after. -/
  | calm {pc pc' op} : pc.calm → pc'.calm → pc'.inScenario → op.all Op.calm → Move codec s fk pc pc' op

theorem Move.inScenario {s : State T} {fk : String} {pc pc' : Pc T} {op : Option (Op T)}
    (h : Move codec s fk pc pc' op) : pc'.inScenario := by
  cases h <;> first | rfl | assumption

theorem missPc_calm {policy : MissPolicy} (co : CallOpts) (hp : policy.syncMiss) :
    (missPc codec policy co).calm ∧ (missPc codec policy co).inScenario := by
  cases policy <;> first | exact absurd hp Bool.false_ne_true | exact ⟨rfl, rfl⟩

theorem afterSync_inScenario (now self : ℕ) (g : Goroutine T) (κ : SyncCont) (e : Option Err) :
    ∀ g' ∈ afterSync cfg now self g κ e, g'.pc.inScenario := by
  intro g' hg'
  obtain ⟨pc, rfl, rfl | ⟨t, rfl⟩⟩ := mem_afterSync hg' <;> rfl

theorem getReply_hit {x : Option Bytes} {now : ℕ} (h : (getReply codec (some x) now).2 = none) :
    x ≠ none := by
  rintro rfl; simp [getReply] at h

theorem getReply_ok {x : Option Bytes} {now : ℕ} (h : (getReply codec (some x) now).2 = none) :
    ∃ b w, x = some b ∧ codec.unmarshal b = some w ∧
      getReply codec (some x) now = (⟨w, true, some now⟩, none) := by
  cases x with
  | none => simp [getReply] at h
  | some b =>
    cases hw : codec.unmarshal b with
    | none => simp [getReply, hw] at h
    | some w => exact ⟨b, w, rfl, hw, by simp [getReply, hw]⟩

theorem getReply_nil {x : Option Bytes} {now : ℕ}
    (h : (getReply codec (some x) now).2 = some .redisNil) : x = none :=
  @getReply_redisNil T codec false x now h

theorem getReply_err {x : Option Bytes} {now : ℕ} {e : Err}
    (hread : ∀ b, x = some b → ∃ w, codec.unmarshal b = some w)
    (h : (getReply codec (some x) now).2 = some e) : e = .redisNil := by
  cases x with
  | none => simp only [getReply, Option.some.injEq] at h; exact h.symm
  | some b =>
    obtain ⟨w, hw⟩ := hread b rfl
    simp [getReply, hw] at h

/-- What a goroutine of the scenario can do in one step, when the backend answers, the
generator succeeds, every stored value decodes and every value encodes; the goroutines
it starts stay in the scenario. -/
theorem exec_move {s : State T} {i : ℕ} {g : Goroutine T} {o : Oracle T} {out : Outcome T}
    (h : exec cfg codec s i g o = some out) (hg : g.pc.inScenario) (hfail : o.fail = false)
    (hgen : o.gen.isSome)
    (hstart : ∀ p co, g.pc = .start p co → s.store (fullKey cfg g.key) ≠ none → co.disableHitRefresh)
    (hcoop : ∀ d w, g.pc = .coopSelect d w → s.closed w ∧ o.timeout = false)
    (hahead : ∀ t, g.pc ≠ .aheadSleep t) (hstale : s.store (staleKey cfg g.key) = none)
    (hread : ∀ b, s.store (fullKey cfg g.key) = some b → ∃ w, codec.unmarshal b = some w)
    (hmarshal : ∀ v, ∃ b, codec.marshal v = some b) :
    Move codec s (fullKey cfg g.key) g.pc out.pc out.op ∧ ∀ g' ∈ out.spawns, g'.pc.inScenario := by
  have nospawn : ∀ g' ∈ ([] : List (Goroutine T)), g'.pc.inScenario :=
    fun _ h => absurd h (List.not_mem_nil _)
  obtain ⟨key, ttl, origin, pc⟩ := g
  cases exec_cases h with
  | startHit hr hok =>
    simp only [hfail, Bool.false_eq_true, ↓reduceIte] at hr
    subst hr
    obtain ⟨b, w, hb, hw, hres⟩ := getReply_ok hok
    split
    · rw [hres]; exact ⟨.hit hb hw, nospawn⟩
    · exact absurd (hstart _ _ rfl (getReply_hit hok)) ‹_›
  | startMiss => exact ⟨.calm rfl (missPc_calm _ hg).1 (missPc_calm _ hg).2 rfl, nospawn⟩
  | startError herr hne | syncError herr hne =>
    simp only [hfail, Bool.false_eq_true, ↓reduceIte] at herr
    exact absurd (getReply_err hread herr) hne
  | lockCh => exact ⟨.calm rfl rfl hg rfl, nospawn⟩
  | @lockSend k _ _ =>
    cases k <;> first
      | exact absurd hg Bool.false_ne_true
      | exact ⟨.enter _ _, nospawn⟩
      | exact ⟨.calm rfl rfl rfl rfl, nospawn⟩
  | syncHit hr hok =>
    simp only [hfail, Bool.false_eq_true, ↓reduceIte] at hr
    subst hr
    obtain ⟨b, w, hb, hw, hres⟩ := getReply_ok hok
    rw [hres]; exact ⟨.found hb hw, nospawn⟩
  | syncAbsent hnil =>
    simp only [hfail, Bool.false_eq_true, ↓reduceIte] at hnil
    exact ⟨.miss (getReply_nil hnil), nospawn⟩
  | syncGenFail hnone => simp [hnone] at hgen
  | syncGen => exact ⟨.generate _ _ _, nospawn⟩
  | syncUnlock => exact ⟨.unlock rfl, afterSync_inScenario _ _ _ _ _⟩
  | staleHit hv => simp [hfail, hstale, getFromKey] at hv
  | coopStart => exact ⟨.calm rfl rfl rfl rfl, fun _ h => by obtain rfl := List.mem_singleton.1 h; rfl⟩
  | coopTimeout _ hpick =>
    obtain ⟨hc, ht⟩ := hcoop _ _ rfl
    simp [hc, ht] at hpick
  | setMarshalFail hm => exact absurd hm (Option.ne_none_iff_exists'.2 (hmarshal _))
  | setFail _ hf => simp [hfail] at hf
  | @setWrite _ ret _ hm _ =>
    cases ret <;> first | exact absurd hg Bool.false_ne_true | exact ⟨.write _ hm, nospawn⟩
  | @setStamp _ ret =>
    cases ret <;> first
      | exact absurd hg Bool.false_ne_true
      | exact ⟨.written (by split <;> rfl), nospawn⟩
  | aheadWake => exact absurd rfl (hahead _)
  | _ =>
    -- the tasks and the cooperative and stale paths: outside the scenario, or calm
    first | exact absurd hg Bool.false_ne_true | exact ⟨.calm rfl rfl rfl rfl, nospawn⟩

/-- The generator calls of `missSyncWriteThenReturn` on `fk` in the log. -/
def State.syncGens (s : State T) (fk : String) : List (Event T) :=
  s.log.filter (·.op.isSyncGen fk)

/-- Goroutine `i` took the lock of `fk` in `missSyncWriteThenReturn` within `evs`. -/
def TookLock (fk : String) (evs : List (Event T)) (i : ℕ) : Prop :=
  ∃ a ∈ evs, a.gid = i ∧ a.op.isSyncAcquire fk

theorem TookLock.mono {fk : String} {l l' : List (Event T)} {i : ℕ} (h : TookLock fk l i)
    (hl : ∀ a ∈ l, a ∈ l') : TookLock fk l' i :=
  let ⟨a, ha, hai⟩ := h
  ⟨a, hl a ha, hai⟩

/-- `r` holds the value of the one generator call in `gens`, as generated or after a round
trip through the codec. -/
def Served (codec : Codec T) (gens : List (Event T)) (r : Result T) : Prop :=
  ∃ e v b, gens = [e] ∧ e.op.generated = some v ∧ codec.marshal v = some b ∧
    (r.value = v ∨ codec.unmarshal b = some r.value)

theorem not_served_nil {r : Result T} : ¬ Served codec [] r :=
  fun ⟨_, _, _, he, _⟩ => List.cons_ne_nil _ _ he.symm

/-- What goroutine `i` at each place of the miss path knows of the stored entry and the
generator calls of its key. -/
def Pc.Flight (codec : Codec T) (store : Option Bytes) (gens : List (Event T)) (i : ℕ) :
    Pc T → Prop
  | .syncGen .. => gens = []
  | .setWrite v r => r.isSyncMiss → store = none ∧
      ∃ e, gens = [e] ∧ e.gid = i ∧ e.op.generated = some v
  | .setStamp v r => r.isSyncMiss → ∃ b, store = some b ∧ codec.marshal v = some b ∧
      ∃ e, gens = [e] ∧ e.op.generated = some v
  | .syncUnlock _ _ ret | .done ret => ret.2 = none ∧ Served codec gens ret.1
  | _ => True

theorem Pc.flight_of_calm {pc : Pc T} (h : pc.calm) (store : Option Bytes) (gens : List (Event T))
    (i : ℕ) : pc.Flight codec store gens i := by
  cases pc <;> first | trivial | exact absurd h Bool.false_ne_true |
    exact fun hr => absurd h
      (by simp only [Pc.calm, hr, Bool.not_true, Bool.false_eq_true, not_false_eq_true])

/-- Before the generation, only the holder of the lock at `syncGen` owes anything the
generation changes. -/
theorem Pc.Flight.generated {pc : Pc T} {store : Option Bytes} {gens : List (Event T)} {j : ℕ}
    (hgen : ∀ κ c, pc ≠ .syncGen κ c) (h : pc.Flight codec store [] j) :
    pc.Flight codec store gens j := by
  cases pc <;> try trivial
  case syncGen κ c => exact absurd rfl (hgen κ c)
  case setWrite v r => exact fun hr => absurd (h hr).2 fun ⟨_, he, _⟩ => List.cons_ne_nil _ _ he.symm
  case setStamp v r =>
    exact fun hr => absurd (h hr) fun ⟨_, _, _, _, he, _⟩ => List.cons_ne_nil _ _ he.symm
  case syncUnlock => exact absurd h.2 not_served_nil
  case done => exact absurd h.2 not_served_nil

/-- The write of generator `i` changes nothing another goroutine owes. -/
theorem Pc.Flight.wrote {pc : Pc T} {gens : List (Event T)} {e : Event T} {i j : ℕ}
    {b : Bytes} (he : gens = [e]) (hei : e.gid = i) (hji : j ≠ i)
    (h : pc.Flight codec none gens j) : pc.Flight codec (some b) gens j := by
  cases pc <;> try exact h
  case setWrite v r =>
    intro hr
    obtain ⟨-, e', he', hj, -⟩ := h hr
    rw [he, List.singleton_inj] at he'
    exact absurd (hj.symm.trans (he' ▸ hei)) hji
  case setStamp v r => exact fun hr => absurd (h hr) fun ⟨_, hb, _⟩ => Option.noConfusion hb

/-- The key and its generation: nothing stored and nothing generated; nothing stored and a
generator about to write; or the key holding the encoding of the one generated value. -/
def KeyState (codec : Codec T) (s : State T) (fk : String) : Prop :=
  (s.store fk = none ∧ s.syncGens fk = []) ∨
  (s.store fk = none ∧ ∃ (j : ℕ) (gj : Goroutine T), s.goroutines[j]? = some gj ∧ gj.pc.writing) ∨
  ∃ b e v, s.store fk = some b ∧ s.syncGens fk = [e] ∧ e.op.generated = some v ∧
    codec.marshal v = some b

theorem KeyState.served {s : State T} {fk : String} {b : Bytes} {w : T} (hk : KeyState codec s fk)
    (hb : s.store fk = some b) (hw : codec.unmarshal b = some w) (now : ℕ) :
    Served codec (s.syncGens fk) ⟨w, true, some now⟩ := by
  rcases hk with ⟨h, -⟩ | ⟨h, -⟩ | ⟨b', e, v, hb', he, hv, hm⟩
  · cases hb.symm.trans h
  · cases hb.symm.trans h
  · obtain rfl := Option.some.inj (hb.symm.trans hb')
    exact ⟨e, v, b, he, hv, hm, .inr hw⟩

theorem KeyState.gens_ne_nil {s : State T} {fk : String} {b : Bytes} (hk : KeyState codec s fk)
    (hb : s.store fk = some b) : s.syncGens fk ≠ [] := by
  rcases hk with ⟨h, -⟩ | ⟨h, -⟩ | ⟨b', e, v, -, he, -⟩
  · cases hb.symm.trans h
  · cases hb.symm.trans h
  · rw [he]; exact List.cons_ne_nil _ _

/-- Every stored value decodes, when every value encodes to bytes that decode. -/
theorem KeyState.read {s : State T} {fk : String} (hk : KeyState codec s fk)
    (hcodec : ∀ v, ∃ b w, codec.marshal v = some b ∧ codec.unmarshal b = some w) :
    ∀ b, s.store fk = some b → ∃ w, codec.unmarshal b = some w := by
  intro b hb
  rcases hk with ⟨h, -⟩ | ⟨h, -⟩ | ⟨b', e, v, hb', -, -, hm⟩
  · cases hb.symm.trans h
  · cases hb.symm.trans h
  · obtain ⟨b'', w, hm', hw⟩ := hcodec v
    obtain rfl := Option.some.inj (hb.symm.trans hb')
    obtain rfl := Option.some.inj (hm.symm.trans hm')
    exact ⟨w, hw⟩

/-- The invariant of the scenario on key `k`. -/
structure Flight (cfg : HandlerConfig) (codec : Codec T) (k : String) (s : State T) : Prop where
  companion : NoCompanion cfg k s
  keys : ∀ g ∈ s.goroutines, g.key = k ∧ g.pc.inScenario
  key : KeyState codec s (fullKey cfg k)
  pcs : ∀ (i : ℕ) (g : Goroutine T), s.goroutines[i]? = some g →
    g.pc.Flight codec (s.store (fullKey cfg k)) (s.syncGens (fullKey cfg k)) i
  entered : ∀ (i : ℕ) (g : Goroutine T), s.goroutines[i]? = some g → g.pc.checking → TookLock (fullKey cfg k) s.log i
  /-- Before the generation, whoever took the lock is still inside. -/
  fresh : s.syncGens (fullKey cfg k) = [] → ∀ a ∈ s.log, a.op.isSyncAcquire (fullKey cfg k) →
    ∃ g, s.goroutines[a.gid]? = some g ∧ g.pc.checking
  /-- The generator took the lock, and nobody else did before the generation. -/
  first : ∀ pre e post, s.log = pre ++ e :: post → e.op.isSyncGen (fullKey cfg k) →
    TookLock (fullKey cfg k) pre e.gid ∧
      ∀ a ∈ pre, a.op.isSyncAcquire (fullKey cfg k) → a.gid = e.gid

theorem Flight.init {s : State T} {k : String} (h0 : s.Initial)
    (habsent : s.store (fullKey cfg k) = none) (hstale : s.store (staleKey cfg k) = none) :
    Flight cfg codec k s := by
  have hl : s.syncGens (fullKey cfg k) = [] := by simp [State.syncGens, h0.log]
  refine ⟨⟨hstale, by simp [h0.goroutines]⟩, by simp [h0.goroutines], .inl ⟨habsent, hl⟩,
    by simp [h0.goroutines], by simp [h0.goroutines], by simp [h0.log], ?_⟩
  intro pre e post h
  simp [h0.log] at h

/-- Two goroutines of the scenario holding the lock of its key are one. -/
theorem Flight.same_holder {allowed : State T → Action T → Prop} {s : State T} {k : String}
    (hs : Run cfg codec allowed s) (hf : Flight cfg codec k s) {i j : ℕ} {gi gj : Goroutine T}
    (hi : s.goroutines[i]? = some gi) (hj : s.goroutines[j]? = some gj)
    (hci : ∃ c, gi.pc.held = some c) (hcj : ∃ c, gj.pc.held = some c) : i = j :=
  let ⟨_, hc⟩ := hci
  let ⟨_, hc'⟩ := hcj
  hs.exclusive hi hj hc hc' (by rw [(hf.keys gi (List.getElem?_mem hi)).1,
    (hf.keys gj (List.getElem?_mem hj)).1])

theorem Pc.writing_of_checking {pc : Pc T} (h : pc.checking) : pc.writing = false := by
  cases pc <;> first | rfl | exact absurd h Bool.false_ne_true

/-- A holder of the lock that finds the key empty finds no generation either: the
generator keeps the lock until it has written. -/
theorem Flight.gens_nil {allowed : State T → Action T → Prop} {s : State T} {k : String}
    (hs : Run cfg codec allowed s) (hf : Flight cfg codec k s) {i : ℕ} {g : Goroutine T}
    (hg : s.goroutines[i]? = some g) (hc : g.pc.checking) (hn : s.store (fullKey cfg k) = none) :
    s.syncGens (fullKey cfg k) = [] := by
  rcases hf.key with ⟨-, h⟩ | ⟨-, j, gj, hj, hw⟩ | ⟨b, -, -, hb, -⟩
  · exact h
  · obtain rfl := hf.same_holder hs hg hj (Pc.held_of_checking hc) (Pc.held_of_writing hw)
    rw [hg] at hj
    cases hj
    rw [Pc.writing_of_checking hc] at hw
    exact absurd hw Bool.false_ne_true
  · rw [hn] at hb; cases hb

theorem syncGens_apply {s : State T} {i : ℕ} {g : Goroutine T} (out : Outcome T) (fk : String) :
    (out.apply s i g).syncGens fk =
      s.syncGens fk ++ (out.op.map (Event.mk i s.now)).toList.filter (·.op.isSyncGen fk) := by
  simp only [State.syncGens, Outcome.apply_log, List.filter_append]

theorem syncGens_apply_of {s : State T} {i : ℕ} {g : Goroutine T} {out : Outcome T} {fk : String}
    (hng : ∀ op, out.op = some op → op.isSyncGen fk = false) :
    (out.apply s i g).syncGens fk = s.syncGens fk := by
  rw [syncGens_apply]
  cases h : out.op with
  | none => simp
  | some op => simp [hng op h]

theorem Outcome.apply_store_of_calm {s : State T} {i : ℕ} {g : Goroutine T} {out : Outcome T}
    (h : out.op.all Op.calm) : (out.apply s i g).store = s.store := by
  unfold Outcome.apply
  cases hop : out.op with
  | none => rfl
  | some op => rw [hop] at h; exact Op.apply_store_of_calm h _ _

theorem Outcome.apply_getElem?_ne {s : State T} {i j : ℕ} {g gj : Goroutine T}
    (hg : s.goroutines[i]? = some g) (out : Outcome T) (hj : s.goroutines[j]? = some gj)
    (hji : j ≠ i) : (out.apply s i g).goroutines[j]? = some gj := by
  rw [Outcome.apply_getElem? out (List.getElem?_eq_some_iff.1 hg).1, if_neg hji,
    if_pos (List.getElem?_eq_some_iff.1 hj).1, hj]

theorem first_append {fk : String} {P : List (Event T) → Event T → Prop} {l evs : List (Event T)}
    (hfirst : ∀ pre e post, l = pre ++ e :: post → e.op.isSyncGen fk → P pre e)
    (hng : ∀ e ∈ evs, e.op.isSyncGen fk = false) :
    ∀ pre e post, l ++ evs = pre ++ e :: post → e.op.isSyncGen fk → P pre e := by
  intro pre e post h he
  obtain ⟨post', h'⟩ := List.eq_append_cons_of_append h fun hm => by
    rw [hng e hm] at he; exact absurd he Bool.false_ne_true
  exact hfirst pre e post' h' he

theorem mem_apply_log_of_mem {s : State T} {i : ℕ} {g : Goroutine T} {out : Outcome T} (a : Event T)
    (ha : a ∈ s.log) : a ∈ (out.apply s i g).log := by
  rw [Outcome.apply_log]; exact List.mem_append_left _ ha

section RunStep

variable {allowed : State T → Action T → Prop} {s : State T} {k : String} {i : ℕ}
  {g : Goroutine T} {out : Outcome T}
  (hf : Flight cfg codec k s) (hg : s.goroutines[i]? = some g)
  (hcomp : NoCompanion cfg k (out.apply s i g))
  (hkeys : ∀ g' ∈ (out.apply s i g).goroutines, g'.key = k ∧ g'.pc.inScenario)
  (hspawn : ∀ g' ∈ out.spawns, g'.pc.calm)
include hf hg hcomp hkeys hspawn

/-- A step that neither writes the key nor generates keeps the invariant, given what the
stepping goroutine owes at its new place. -/
theorem Flight.quiet
    (hstore : (out.apply s i g).store (fullKey cfg k) = s.store (fullKey cfg k))
    (hng : ∀ op, out.op = some op → op.isSyncGen (fullKey cfg k) = false)
    (hwr : g.pc.writing = false)
    (hself : out.pc.Flight codec (s.store (fullKey cfg k)) (s.syncGens (fullKey cfg k)) i)
    (hent : out.pc.checking → TookLock (fullKey cfg k) (out.apply s i g).log i)
    (hchk : g.pc.checking → s.syncGens (fullKey cfg k) = [] → out.pc.checking)
    (hacq : ∀ op, out.op = some op → op.isSyncAcquire (fullKey cfg k) → out.pc.checking) :
    Flight cfg codec k (out.apply s i g) := by
  have hgens := syncGens_apply_of (s := s) (i := i) (g := g) hng
  have hnew : ∀ a ∈ (out.op.map (Event.mk i s.now)).toList, a.gid = i ∧ out.op = some a.op := by
    cases out.op <;> simp
  refine ⟨hcomp, hkeys, ?_, ?_, ?_, ?_, ?_⟩
  · -- the writer, if any, is another goroutine and has not moved
    rcases hf.key with h | ⟨hn, j, gj, hj, hw⟩ | h
    · exact .inl (hstore ▸ hgens ▸ h)
    · have hji : j ≠ i := by
        rintro rfl
        rw [hg] at hj
        cases hj
        rw [hwr] at hw
        exact absurd hw Bool.false_ne_true
      exact .inr (.inl ⟨hstore ▸ hn, j, gj, Outcome.apply_getElem?_ne hg out hj hji, hw⟩)
    · exact .inr (.inr (hstore ▸ hgens ▸ h))
  · rw [hstore, hgens]
    exact Outcome.forall_apply hg (fun j gj _ hj => hf.pcs j gj hj) hself
      (fun n g' hn => Pc.flight_of_calm (hspawn g' (List.getElem?_mem hn)) _ _ _)
  · exact Outcome.forall_apply hg
      (fun j gj _ hj hc => (hf.entered j gj hj hc).mono mem_apply_log_of_mem)
      hent (fun n g' hn hc => absurd hc (Pc.not_checking_of_calm (hspawn g' (List.getElem?_mem hn))))
  · intro h0 a ha hacq'
    rw [hgens] at h0
    rw [Outcome.apply_log, List.mem_append] at ha
    rcases ha with ha | ha
    · obtain ⟨gj, hj, hc⟩ := hf.fresh h0 a ha hacq'
      by_cases hji : a.gid = i
      · rw [hji] at hj ⊢
        rw [hg] at hj
        cases hj
        exact ⟨_, Outcome.apply_getElem?_self hg out, hchk hc h0⟩
      · exact ⟨gj, Outcome.apply_getElem?_ne hg out hj hji, hc⟩
    · obtain ⟨hai, hop⟩ := hnew a ha
      rw [hai]
      exact ⟨_, Outcome.apply_getElem?_self hg out, hacq _ hop hacq'⟩
  · rw [Outcome.apply_log]
    exact first_append hf.first fun e he => hng _ (hnew e he).2

/-- The generation by the holder of the lock at `syncGen`: the only one, made by the
first goroutine to take the lock. -/
theorem Flight.generate (hs : Run cfg codec allowed s) {κ : SyncCont} {c : ℕ} {v : T}
    (hpc : g.pc = .syncGen κ c) (hout : out.pc = .setWrite v (.syncMiss κ c))
    (hop : out.op = some (.generate .syncMiss (fullKey cfg k) (some v))) :
    Flight cfg codec k (out.apply s i g) := by
  have hG : s.syncGens (fullKey cfg k) = [] := by simpa only [hpc] using hf.pcs i g hg
  have hchk : g.pc.checking := by rw [hpc]; rfl
  have hstore : (out.apply s i g).store = s.store := by unfold Outcome.apply; rw [hop]; rfl
  have hlog : (out.apply s i g).log = s.log ++ [⟨i, s.now, .generate .syncMiss (fullKey cfg k) (some v)⟩] := by
    rw [Outcome.apply_log, hop]; rfl
  have hgens : (out.apply s i g).syncGens (fullKey cfg k) =
      [⟨i, s.now, .generate .syncMiss (fullKey cfg k) (some v)⟩] := by
    rw [syncGens_apply, hG, hop]
    simp only [Option.map_some', Option.toList_some, List.filter_cons, List.filter_nil, Op.isSyncGen,
      beq_self_eq_true, Bool.and_self, ↓reduceIte, List.nil_append]
  have hnone : s.store (fullKey cfg k) = none := by
    rcases hf.key with ⟨h, -⟩ | ⟨h, -⟩ | ⟨b, e, -, -, he, -⟩
    · exact h
    · exact h
    · rw [hG] at he; cases he
  refine ⟨hcomp, hkeys, .inr (.inl ⟨hstore ▸ hnone, i, _, Outcome.apply_getElem?_self hg out,
    by rw [hout]; rfl⟩), ?_, ?_, (fun h => by rw [hgens] at h; cases h), ?_⟩
  · rw [hstore, hgens]
    refine Outcome.forall_apply hg (fun j gj hji hj => (hG ▸ hf.pcs j gj hj).generated fun κ' c' hj' => ?_)
      (by rw [hout]; exact fun _ => ⟨hnone, _, rfl, rfl, rfl⟩)
      (fun n g' hn => Pc.flight_of_calm (hspawn g' (List.getElem?_mem hn)) _ _ _)
    -- two holders of the lock at `syncGen`
    have hc : gj.pc.checking := by rw [hj']; rfl
    exact hji (hf.same_holder hs hj hg (Pc.held_of_checking hc) (Pc.held_of_checking hchk))
  · exact Outcome.forall_apply hg
      (fun j gj _ hj hc => (hf.entered j gj hj hc).mono mem_apply_log_of_mem)
      (fun h => absurd h (by rw [hout]; exact Bool.false_ne_true))
      (fun n g' hn hc => absurd hc (Pc.not_checking_of_calm (hspawn g' (List.getElem?_mem hn))))
  · intro pre e post hl he
    rw [hlog] at hl
    rcases List.snoc_eq_append_cons hl with ⟨rfl, rfl, -⟩ | ⟨post', -, hl'⟩
    · -- whoever took the lock before is still inside, so it is the generator
      refine ⟨hf.entered i g hg hchk, fun a ha hacq => ?_⟩
      obtain ⟨gj, hj, hc⟩ := hf.fresh hG a ha hacq
      exact hf.same_holder hs hj hg (Pc.held_of_checking hc) (Pc.held_of_checking hchk)
    · exact hf.first pre e post' hl' he

/-- The generator's write: the key now holds the encoding of the one generated value. -/
theorem Flight.write {κ : SyncCont} {c : ℕ} {v : T} {b : Bytes} {ttl : ℤ}
    (hpc : g.pc = .setWrite v (.syncMiss κ c)) (hout : out.pc = .setStamp v (.syncMiss κ c))
    (hop : out.op = some (.write .syncMiss (fullKey cfg k) b ttl)) (hb : codec.marshal v = some b) :
    Flight cfg codec k (out.apply s i g) := by
  obtain ⟨hnone, e, he, hei, hv⟩ : s.store (fullKey cfg k) = none ∧
      ∃ e, s.syncGens (fullKey cfg k) = [e] ∧ e.gid = i ∧ e.op.generated = some v := by
    have h := hf.pcs i g hg
    rw [hpc] at h
    exact h rfl
  have hng : ∀ op, out.op = some op → op.isSyncGen (fullKey cfg k) = false := by
    rw [hop]; rintro _ ⟨⟩; rfl
  have hgens := syncGens_apply_of (s := s) (i := i) (g := g) hng
  have hstore : (out.apply s i g).store (fullKey cfg k) = some b := by
    unfold Outcome.apply; rw [hop]; exact Function.update_same _ _ _
  refine ⟨hcomp, hkeys, .inr (.inr ⟨b, e, v, hstore, hgens.trans he, hv, hb⟩), ?_, ?_,
    (fun h => by rw [hgens, he] at h; cases h), ?_⟩
  · rw [hstore, hgens]
    exact Outcome.forall_apply hg (fun j gj hji hj => (hnone ▸ hf.pcs j gj hj).wrote he hei hji)
      (by rw [hout]; exact fun _ => ⟨b, rfl, hb, e, he, hv⟩)
      (fun n g' hn => Pc.flight_of_calm (hspawn g' (List.getElem?_mem hn)) _ _ _)
  · exact Outcome.forall_apply hg
      (fun j gj _ hj hc => (hf.entered j gj hj hc).mono mem_apply_log_of_mem)
      (fun h => absurd h (by rw [hout]; exact Bool.false_ne_true))
      (fun n g' hn hc => absurd hc (Pc.not_checking_of_calm (hspawn g' (List.getElem?_mem hn))))
  · rw [Outcome.apply_log]
    exact first_append hf.first fun e' he' => by
      rw [hop] at he'; simp only [Option.map_some', Option.toList_some, List.mem_singleton] at he'
      rw [he']; rfl

/-- A step whose operation is calm keeps the invariant, given what the stepping goroutine
owes at its new place. -/
theorem Flight.calmStep (hop : out.op.all Op.calm) (hwr : g.pc.writing = false)
    (hself : out.pc.Flight codec (s.store (fullKey cfg k)) (s.syncGens (fullKey cfg k)) i)
    (hent : ¬ out.pc.checking) (hchk : ¬ g.pc.checking) : Flight cfg codec k (out.apply s i g) := by
  have hcalm : ∀ o, out.op = some o → o.calm := fun o ho => by rw [ho] at hop; exact hop
  exact hf.quiet hg hcomp hkeys hspawn (congrFun (Outcome.apply_store_of_calm hop) _)
    (fun o ho => Op.isSyncGen_of_calm (hcalm o ho) _) hwr hself (fun h => absurd h hent)
    (fun h => absurd h hchk) (fun o ho ha => absurd ha (by
      rw [Op.isSyncAcquire_of_calm (hcalm o ho)]; exact Bool.false_ne_true))

end RunStep

theorem ne_stale_key (k : String) : k ≠ k ++ ":stale" := fun h => by
  have := congrArg String.length h
  simp only [String.length_append, self_eq_add_right] at this
  exact absurd this (by decide)

/-- A step of the scenario keeps the invariant. -/
theorem Flight.step {allowed : State T → Action T → Prop} {s s' : State T} {k : String}
    {a : Action T} (hs : Run cfg codec allowed s) (hf : Flight cfg codec k s)
    (hcodec : ∀ v, ∃ b w, codec.marshal v = some b ∧ codec.unmarshal b = some w)
    (ha : ScenarioStep cfg k s a) (h : step cfg codec s a = some s') : Flight cfg codec k s' := by
  have hcomp := hf.companion.step (fun req hreq => by
    subst hreq
    cases req with
    | getOrRefresh key opts =>
      have : key = k :=
        (by simpa only [Action.inScenario, Bool.and_eq_true, beq_iff_eq] using ha.1 : key = k ∧ _).1
      exact this ▸ ne_stale_key key
    | _ => exact absurd ha.1 Bool.false_ne_true) h
  cases a with
  | call req =>
    cases h
    cases req with
    | getOrRefresh key opts =>
      obtain ⟨hkey, hpol⟩ : key = k ∧ (effectiveMissPolicy cfg (callOpts opts)).syncMiss := by
        simpa only [Action.inScenario, Bool.and_eq_true, beq_iff_eq] using ha.1
      have hold : ∀ {j : ℕ} {gj : Goroutine T}, s.goroutines[j]? = some gj →
          (s.goroutines ++ [(Request.getOrRefresh key opts).goroutine cfg])[j]? = some gj :=
        fun hj => by rw [List.getElem?_append_left (List.getElem?_eq_some_iff.1 hj).1]; exact hj
      refine ⟨hcomp, fun g hg => ?_, ?_, fun j gj hj => ?_, fun j gj hj => ?_, fun h0 a ha hacq => ?_,
        hf.first⟩
      · rcases List.mem_append.1 hg with hg | hg
        · exact hf.keys g hg
        · rw [List.mem_singleton.1 hg]; exact ⟨hkey, hpol⟩
      · rcases hf.key with h | ⟨hn, j, gj, hj, hw⟩ | h
        exacts [.inl h, .inr (.inl ⟨hn, j, gj, hold hj, hw⟩), .inr (.inr h)]
      · rcases List.getElem?_concat_eq_some hj with ⟨-, hj⟩ | ⟨-, rfl⟩
        exacts [hf.pcs j gj hj, trivial]
      · rcases List.getElem?_concat_eq_some hj with ⟨-, hj⟩ | ⟨-, rfl⟩
        exacts [hf.entered j gj hj, fun h => absurd h Bool.false_ne_true]
      · obtain ⟨gj, hj, hc⟩ := hf.fresh h0 a ha hacq
        exact ⟨gj, hold hj, hc⟩
    | _ => exact absurd ha.1 Bool.false_ne_true
  | tick d => cases h; exact ⟨hcomp, hf.2, hf.3, hf.4, hf.5, hf.6, hf.7⟩
  | evict key => exact absurd ha.1 Bool.false_ne_true
  | run i o =>
    obtain ⟨g, out, hg, hexec, rfl⟩ := step_run h
    obtain ⟨hgk, hgs⟩ := hf.keys g (List.getElem?_mem hg)
    obtain ⟨hstart, hcoop, hahead⟩ := ha.2 i o g rfl hg
    obtain ⟨hfail, hgen⟩ : o.fail = false ∧ o.gen.isSome := by
      simpa only [Action.inScenario, Bool.and_eq_true, Bool.not_eq_true'] using ha.1
    have hread := hf.key.read hcodec
    have hstale := hf.companion.absent
    rw [← hgk] at hread hstart hstale
    obtain ⟨hm, hsp⟩ := exec_move hexec hgs hfail hgen hstart hcoop hahead hstale hread
      fun v => let ⟨b, _, hb, _⟩ := hcodec v; ⟨b, hb⟩
    have hkeys : ∀ g' ∈ (out.apply s i g).goroutines, g'.key = k ∧ g'.pc.inScenario := by
      intro g' hg'
      simp only [Outcome.apply_goroutines, List.mem_append] at hg'
      rcases hg' with hg' | hg'
      · rcases List.mem_or_eq_of_mem_set hg' with hg' | rfl
        exacts [hf.keys g' hg', ⟨hgk, hm.inScenario⟩]
      · exact ⟨(exec_spawns hexec g' hg').1.trans hgk, hsp g' hg'⟩
    have hspawn : ∀ g' ∈ out.spawns, g'.pc.calm := fun g' hg' =>
      Pc.calm_of_isTaskStart (exec_spawns hexec g' hg').2.2.2
    rw [hgk] at hm
    obtain ⟨pc', op, sp⟩ := out
    obtain ⟨key, ttl, origin, pc⟩ := g
    cases hm with
    | hit hb hw =>
      exact hf.quiet hg hcomp hkeys hspawn rfl (fun _ h => Option.noConfusion h) rfl
        ⟨rfl, hf.key.served hb hw _⟩ (fun h => absurd h Bool.false_ne_true)
        (fun h => absurd h Bool.false_ne_true) (fun _ h => Option.noConfusion h)
    | enter κ c =>
      exact hf.quiet hg hcomp hkeys hspawn rfl (fun _ h => by cases h; rfl) rfl trivial
        (fun _ => ⟨_, List.mem_append_right _ (List.mem_singleton_self _), rfl,
          by simp [Op.isSyncAcquire]⟩)
        (fun h => absurd h Bool.false_ne_true) (fun _ _ _ => rfl)
    | miss hn =>
      exact hf.quiet hg hcomp hkeys hspawn rfl (fun _ h => by cases h; rfl) rfl
        (hf.gens_nil hs hg rfl hn) (fun _ => (hf.entered _ _ hg rfl).mono mem_apply_log_of_mem)
        (fun _ _ => rfl) (fun _ _ _ => rfl)
    | found hb hw =>
      exact hf.quiet hg hcomp hkeys hspawn rfl (fun _ h => Option.noConfusion h) rfl
        ⟨rfl, hf.key.served hb hw _⟩ (fun h => absurd h Bool.false_ne_true)
        (fun _ h0 => absurd h0 (hf.key.gens_ne_nil hb)) (fun _ h => Option.noConfusion h)
    | generate κ c v => exact hf.generate hg hcomp hkeys hspawn hs rfl rfl rfl
    | write ttl hb => exact hf.write hg hcomp hkeys hspawn rfl rfl rfl hb
    | written hop =>
      obtain ⟨b, -, hb, e, he, hv⟩ := hf.pcs _ _ hg rfl
      exact hf.calmStep hg hcomp hkeys hspawn hop rfl ⟨rfl, e, _, b, he, hv, hb, .inl rfl⟩
        Bool.false_ne_true Bool.false_ne_true
    | unlock hop =>
      exact hf.calmStep hg hcomp hkeys hspawn hop rfl (hf.pcs _ _ hg) Bool.false_ne_true
        Bool.false_ne_true
    | calm hpc hpc' _ hop =>
      exact hf.calmStep hg hcomp hkeys hspawn hop (Pc.writing_of_calm hpc)
        (Pc.flight_of_calm hpc' _ _ _) (Pc.not_checking_of_calm hpc') (Pc.not_checking_of_calm hpc)

/-- Every state of a scenario run keeps the invariant. -/
theorem Steps.flight {s₀ s : State T} {k : String} (h0 : s₀.Initial)
    (habsent : s₀.store (fullKey cfg k) = none) (hstale : s₀.store (staleKey cfg k) = none)
    (hcodec : ∀ v, ∃ b w, codec.marshal v = some b ∧ codec.unmarshal b = some w)
    (h : Steps cfg codec (ScenarioStep cfg k) s₀ s) : Flight cfg codec k s := by
  induction h with
  | refl => exact Flight.init h0 habsent hstale
  | tail hprev ha hst ih => exact ih.step (hprev.run h0) hcodec ha hst

/-! ### Every call returns -/

theorem Steps.trans {allowed : State T → Action T → Prop} {s₁ s₂ s₃ : State T}
    (h₁ : Steps cfg codec allowed s₁ s₂) (h₂ : Steps cfg codec allowed s₂ s₃) :
    Steps cfg codec allowed s₁ s₃ := by
  induction h₂ with
  | refl => exact h₁
  | tail _ ha h ih => exact .tail ih ha h

theorem Steps.mono {allowed allowed' : State T → Action T → Prop} {s s' : State T}
    (hmono : ∀ s a, allowed s a → allowed' s a) (h : Steps cfg codec allowed s s') :
    Steps cfg codec allowed' s s' := by
  induction h with
  | refl => exact .refl
  | tail _ ha h ih => exact .tail ih (hmono _ _ ha) h

theorem Steps.exists_runActions {allowed : State T → Action T → Prop} {s s' : State T}
    (h : Steps cfg codec allowed s s') : ∃ as, Handler.runActions cfg codec s as = some s' := by
  induction h with
  | refl => exact ⟨[], rfl⟩
  | @tail s₁ s₂ a _ _ h ih =>
    obtain ⟨as, has⟩ := ih
    exact ⟨as ++ [a], by rw [runActions_append, has, Option.some_bind, runActions_cons h]; rfl⟩

/-- A goroutine keeps its index along steps; only its place changes. -/
theorem Steps.getElem? {allowed : State T → Action T → Prop} {s s' : State T}
    (h : Steps cfg codec allowed s s') {j : ℕ} {g : Goroutine T} (hj : s.goroutines[j]? = some g) :
    ∃ pc, s'.goroutines[j]? = some { g with pc := pc } := by
  induction h with
  | refl => exact ⟨g.pc, hj⟩
  | tail _ _ h ih =>
    obtain ⟨pc, hpc⟩ := ih
    obtain ⟨pc', hpc'⟩ := step_getElem? h hpc
    exact ⟨pc', hpc'⟩

theorem Pc.Sourced.eq_done {fk sk : String} {policy : MissPolicy} {gens : List (Site × String × Option T)}
    {reads : List (Read T)} {pc : Pc T} (h : pc.Sourced codec fk sk policy gens reads)
    (hf : pc.finished) : ∃ ret, pc = .done ret := by
  cases pc <;> first | exact ⟨_, rfl⟩ | exact absurd hf Bool.false_ne_true | exact h.elim

/-- A call of a run is never a sleeping task, and once it has finished it has returned. -/
theorem Steps.callPc {allowed : State T → Action T → Prop} {s₀ s : State T} (h0 : s₀.Initial)
    (h : Steps cfg codec allowed s₀ s) {i : ℕ} {g : Goroutine T} (hg : s.goroutines[i]? = some g)
    {key : String} {opts : List CallOption} (ho : g.origin = .call (.getOrRefresh key opts)) :
    (∀ t, g.pc ≠ .aheadSleep t) ∧ (g.pc.finished → ∃ ret, g.pc = .done ret) := by
  obtain ⟨as, has⟩ := h.exists_runActions
  obtain ⟨-, hsrc⟩ := (CallsSourced.runActions as (@Run.init T cfg codec (fun _ _ => True) s₀ h0).balanced
    (CallsSourced.init h0) has).sourced i g hg key opts ho
  exact ⟨fun t ht => by rw [ht] at hsrc; exact hsrc, Pc.Sourced.eq_done hsrc⟩

/-- Where the lock-wait goroutine of `CooperativeRefresh` is before it closes `done`. -/
def Pc.beforeClose : Pc T → Bool
  | .lockCh .coopWait | .lockSend .coopWait _ | .waitClose _ => true
  | _ => false

theorem Pc.beforeClose_free {pc : Pc T} (h : pc.beforeClose) :
    pc.finished = false ∧ (∀ p co, pc ≠ .start p co) ∧ (∀ d w, pc ≠ .coopSelect d w) ∧
      ∀ t, pc ≠ .aheadSleep t := by
  cases pc <;> (try cases ‹Critical T›) <;>
    first
    | exact absurd h Bool.false_ne_true
    | exact ⟨rfl, fun _ _ => Pc.noConfusion, fun _ _ => Pc.noConfusion, fun _ => Pc.noConfusion⟩

/-- A lock-wait goroutine before closing `done` stays before it, or closes it. -/
theorem exec_beforeClose {s : State T} {i : ℕ} {g : Goroutine T} {o : Oracle T} {out : Outcome T}
    (h : exec cfg codec s i g o = some out) (hb : g.pc.beforeClose) :
    out.pc.beforeClose ∨ out.op = some (.close i) := by
  obtain ⟨key, ttl, origin, pc⟩ := g
  cases exec_cases h with
  | lockCh | lockSend _ =>
    cases ‹Critical T› <;> first | exact absurd hb Bool.false_ne_true | exact .inl rfl
  | waitClose => exact .inr rfl
  | _ => exact absurd hb Bool.false_ne_true

/-- A goroutine arrives at the cooperative select only from `coopStart`, which starts its
lock-wait goroutine after all the others. -/
theorem exec_coopSelect {s : State T} {i : ℕ} {g : Goroutine T} {o : Oracle T} {out : Outcome T}
    (h : exec cfg codec s i g o = some out) {d : ℤ} {w : ℕ} (hc : out.pc = .coopSelect d w) :
    g.pc = .coopStart ∧ w = s.goroutines.length ∧ out.spawns = [g.child i (.lockCh .coopWait)] := by
  obtain ⟨key, ttl, origin, pc⟩ := g
  cases exec_cases h with
  | coopStart => cases hc; exact ⟨rfl, rfl, rfl⟩
  | startHit => split at hc <;> cases hc
  | startMiss => cases ‹MissPolicy› <;> cases hc
  | lockSend _ | trySelect _ => cases ‹Critical T› <;> cases hc
  | setMarshalFail _ | setFail _ _ | setStamp => cases ‹SetRet› <;> cases hc
  | _ => cases hc

theorem Outcome.apply_closed_of {s : State T} {k : ℕ} {g : Goroutine T} (out : Outcome T) {w : ℕ}
    (hw : s.closed w = true) : (out.apply s k g).closed w = true := by
  unfold Outcome.apply
  cases out.op with
  | none => exact hw
  | some op =>
    cases op with
    | close w' =>
      simp only [Op.apply, Function.update_apply]
      split_ifs <;> simp [hw]
    | _ => exact hw

/-- Every call waiting at the cooperative select with `done` open has its lock-wait goroutine
before the close. -/
def WaitersOpen (s : State T) : Prop :=
  ∀ (i : ℕ) (g : Goroutine T), s.goroutines[i]? = some g → ∀ d w, g.pc = .coopSelect d w → s.closed w = false →
    ∃ gw, s.goroutines[w]? = some gw ∧ gw.pc.beforeClose

theorem WaitersOpen.step {s s' : State T} {a : Action T} (hw : WaitersOpen s)
    (h : step cfg codec s a = some s') : WaitersOpen s' := by
  cases a with
  | call req =>
    cases h
    intro i g hi d w hpc hcl
    rcases List.getElem?_concat_eq_some hi with ⟨-, hi⟩ | ⟨-, rfl⟩
    · obtain ⟨gw, hgw, hb⟩ := hw i g hi d w hpc hcl
      exact ⟨gw, by rw [List.getElem?_append_left (List.getElem?_eq_some_iff.1 hgw).1]; exact hgw, hb⟩
    · cases req <;> cases hpc
  | tick d => cases h; exact hw
  | evict key => cases h; exact hw
  | run j o =>
    obtain ⟨g, out, hg, hexec, rfl⟩ := step_run h
    have hlt := (List.getElem?_eq_some_iff.1 hg).1
    refine Outcome.forall_apply hg (fun i gi hij hi d w hpc hcl => ?_) (fun d w hpc hcl => ?_)
      (fun n g' hn d w hpc _ => ?_)
    · -- the lock-wait goroutine of another call has not moved, or is the one that stepped
      have hcl₀ : s.closed w = false := Bool.eq_false_iff.2 fun h => by
        rw [Outcome.apply_closed_of out h] at hcl; cases hcl
      obtain ⟨gw, hgw, hb⟩ := hw i gi hi d w hpc hcl₀
      by_cases hwj : w = j
      · subst hwj
        rw [hg] at hgw
        cases hgw
        rcases exec_beforeClose hexec hb with hb' | hop
        · exact ⟨_, Outcome.apply_getElem?_self hg out, hb'⟩
        · unfold Outcome.apply at hcl
          simp [hop, Op.apply] at hcl
      · exact ⟨gw, Outcome.apply_getElem?_ne hg out hgw hwj, hb⟩
    · -- the call has just started its lock-wait goroutine
      obtain ⟨-, rfl, hsp⟩ := exec_coopSelect hexec hpc
      refine ⟨g.child j (.lockCh .coopWait), ?_, rfl⟩
      rw [Outcome.apply_getElem? out hlt, if_neg (by omega), if_neg (lt_irrefl _), Nat.sub_self, hsp]
      rfl
    · have := (exec_spawns hexec g' (List.getElem?_mem hn)).2.2.2
      rw [hpc] at this
      cases this

theorem Run.waitersOpen {allowed : State T → Action T → Prop} {s : State T}
    (hs : Run cfg codec allowed s) : WaitersOpen s := by
  induction hs with
  | init h0 => intro i g hi; simp [h0.goroutines] at hi
  | step _ _ h ih => exact ih.step h

/-- A step of goroutine `j` that the scenario admits and that lowers the work. -/
def ScenarioMove (cfg : HandlerConfig) (codec : Codec T) (k : String) (s : State T) (j : ℕ) : Prop :=
  ∃ s', ScenarioStep cfg k s (.run j (.ok (some codec.zero))) ∧
    step cfg codec s (.run j (.ok (some codec.zero))) = some s' ∧ s'.work < s.work

section Moves

variable {k : String} {s : State T} {j : ℕ} {g : Goroutine T} (hg : s.goroutines[j]? = some g)
include hg

theorem scenarioMove_of_exec (hex : (exec cfg codec s j g (.ok (some codec.zero))).isSome)
    (hstart : ∀ p co, g.pc = .start p co → s.store (fullKey cfg k) ≠ none → co.disableHitRefresh)
    (hcoop : ∀ d w, g.pc = .coopSelect d w → s.closed w)
    (hahead : ∀ t, g.pc ≠ .aheadSleep t) : ScenarioMove cfg codec k s j := by
  obtain ⟨s', h, hw⟩ := step_run_work hg hex
  refine ⟨s', ⟨rfl, fun i o g' ha hg' => ?_⟩, h, hw⟩
  cases ha
  rw [hg] at hg'
  cases hg'
  exact ⟨hstart, fun d w h => ⟨hcoop d w h, rfl⟩, hahead⟩

/-- A call before its first read can read, when the key is empty or it skips the hit refresh. -/
theorem scenarioMove_of_start {p : MissPolicy} {co : CallOpts} (hpc : g.pc = .start p co)
    (hr : co.disableHitRefresh ∨ s.store (fullKey cfg k) = none) : ScenarioMove cfg codec k s j :=
  scenarioMove_of_exec hg (by simp only [exec, hpc]; split <;> rfl)
    (fun p' co' h hne => by rw [hpc] at h; cases h; exact hr.resolve_right hne)
    (fun d w h => by rw [hpc] at h; cases h) (fun t h => by rw [hpc] at h; cases h)

/-- A holder of a lock can always move. -/
theorem scenarioMove_of_held {allowed : State T → Action T → Prop} (hs : Run cfg codec allowed s)
    {c : ℕ} (hc : g.pc.held = some c) : ScenarioMove cfg codec k s j := by
  obtain ⟨out, h, -⟩ := (lock_holder_progress hs hg hc).2 (.ok (some codec.zero))
  refine scenarioMove_of_exec hg (by rw [h]; rfl) (fun p co hp => ?_) (fun d w hp => ?_)
    (fun t hp => ?_) <;> rw [hp] at hc <;> cases hc

/-- A goroutine that has not returned and is not at a first read, at the select or asleep can
move, or the holder of the lock it waits for can. -/
theorem exists_scenarioMove_of_free {allowed : State T → Action T → Prop}
    (hs : Run cfg codec allowed s) (hfin : g.pc.finished = false) (hst : ∀ p co, g.pc ≠ .start p co)
    (hsel : ∀ d w, g.pc ≠ .coopSelect d w) (hahead : ∀ t, g.pc ≠ .aheadSleep t) :
    ∃ j', ScenarioMove cfg codec k s j' := by
  rcases no_deadlock hs hg hfin with hen | ⟨t, ht, -⟩ | ⟨d, w, hd, -⟩ |
    ⟨-, c, j', g', -, -, hj', hc, -, -⟩
  · exact ⟨j, scenarioMove_of_exec hg (hen _) (fun p co h => absurd h (hst p co))
      (fun d w h => absurd h (hsel d w)) hahead⟩
  · exact absurd ht (hahead t)
  · exact absurd hd (hsel d w)
  · exact ⟨j', scenarioMove_of_held hj' hs hc⟩

/-- No deadlock in the scenario: while a call that is not asleep has not returned and no call
is before its first read, some goroutine can move. A call at the select waits for its
lock-wait goroutine, which can move or waits for a holder of the lock that can. -/
theorem exists_scenarioMove {allowed : State T → Action T → Prop} (hs : Run cfg codec allowed s)
    (hfin : g.pc.finished = false) (hahead : ∀ t, g.pc ≠ .aheadSleep t)
    (hnostart : ∀ g ∈ s.goroutines, ∀ p co, g.pc ≠ .start p co) :
    ∃ j', ScenarioMove cfg codec k s j' := by
  by_cases hsel : ∃ d w, g.pc = .coopSelect d w
  · obtain ⟨d, w, hpc⟩ := hsel
    cases hcl : s.closed w
    · obtain ⟨gw, hgw, hb⟩ := hs.waitersOpen j g hg d w hpc hcl
      obtain ⟨hf, hst, hsel', hah⟩ := Pc.beforeClose_free hb
      exact exists_scenarioMove_of_free hgw hs hf hst hsel' hah
    · refine ⟨j, scenarioMove_of_exec hg ?_ (fun p co h => by rw [hpc] at h; cases h)
        (fun d' w' h => by rw [hpc] at h; cases h; exact hcl) (fun t h => by rw [hpc] at h; cases h)⟩
      simp [exec, hpc, hcl, Oracle.ok]
  · push_neg at hsel
    exact exists_scenarioMove_of_free hg hs hfin (hnostart g (List.getElem?_mem hg)) hsel hahead

end Moves

/-- The calls that have not made their first read can still make it in the scenario: they
pass `WithoutBackgroundRefresh()`, or the key is still empty. -/
def StartsReady (cfg : HandlerConfig) (k : String) (s : State T) : Prop :=
  ∀ g ∈ s.goroutines, ∀ p co, g.pc = .start p co → co.disableHitRefresh ∨ s.store (fullKey cfg k) = none

theorem exec_ne_start {s : State T} {i : ℕ} {g : Goroutine T} {o : Oracle T} {out : Outcome T}
    (h : exec cfg codec s i g o = some out) (p : MissPolicy) (co : CallOpts) : out.pc ≠ .start p co :=
  fun hs => (lt_irrefl 10) (hs ▸ exec_rank h |>.trans_le (Pc.rank_le _))

/-- A move keeps the first reads possible when it is one of them whenever one is pending:
a first read writes nothing, and no step leads to a first read. -/
theorem StartsReady.step {k : String} {s s' : State T} {j : ℕ} {o : Oracle T}
    (hr : StartsReady cfg k s) (h : step cfg codec s (.run j o) = some s')
    (hfirst : (∃ g ∈ s.goroutines, ∃ p co, g.pc = .start p co) →
      ∃ g p co, s.goroutines[j]? = some g ∧ g.pc = .start p co) : StartsReady cfg k s' := by
  obtain ⟨g, out, hg, hexec, rfl⟩ := step_run h
  intro g' hg' p co hpc
  obtain ⟨i, hi⟩ := List.mem_iff_getElem?.1 hg'
  revert hpc
  refine Outcome.forall_apply (P := fun _ g' => g'.pc = .start p co →
    co.disableHitRefresh ∨ (out.apply s j g).store (fullKey cfg k) = none) hg
    (fun i gi _ hi hpc => ?_) (fun h => absurd h (exec_ne_start hexec p co)) (fun n g'' hn hpc => ?_) i g' hi
  · -- a pending first read: the step was a first read too, which leaves the backend alone
    obtain ⟨gj, pj, coj, hj, hpcj⟩ := hfirst ⟨gi, List.getElem?_mem hi, p, co, hpc⟩
    rw [hg] at hj
    cases hj
    have hop : out.op = none := by
      have hc := exec_cases hexec
      rw [hpcj] at hc
      cases hc <;> rfl
    have hstore : (out.apply s j g).store = s.store := by unfold Outcome.apply; rw [hop]
    rw [hstore]
    exact hr gi (List.getElem?_mem hi) p co hpc
  · have := (exec_spawns hexec g'' (List.getElem?_mem hn)).2.2.2
    rw [hpc] at this
    cases this

/-- Every call returns: from every state of the scenario whose pending first reads can still
be made, moves of the scenario, without new calls or clock ticks, lead to a state in which
every call has returned. -/
theorem Steps.all_return {s₀ s : State T} {k : String} (h0 : s₀.Initial)
    (hrun : Steps cfg codec (ScenarioStep cfg k) s₀ s) (hr : StartsReady cfg k s) :
    ∃ s', Steps cfg codec (fun s a => ScenarioStep cfg k s a ∧ a.isRun) s s' ∧
      ∀ (i : ℕ) (g : Goroutine T), s'.goroutines[i]? = some g → ∀ key opts,
        g.origin = .call (.getOrRefresh key opts) → g.pc.finished := by
  obtain ⟨n, hn⟩ : ∃ n, s.work = n := ⟨_, rfl⟩
  induction n using Nat.strong_induction_on generalizing s with
  | _ n ih =>
    by_cases hall : ∀ (i : ℕ) (g : Goroutine T), s.goroutines[i]? = some g → ∀ key opts,
        g.origin = .call (.getOrRefresh key opts) → g.pc.finished
    · exact ⟨s, .refl, hall⟩
    push_neg at hall
    obtain ⟨i, g, hg, key, opts, ho, hfin⟩ := hall
    have hs := hrun.run h0
    -- a pending first read goes first; otherwise the unfinished call, or what it waits for
    obtain ⟨j, ⟨s₁, hstep, h₁, hw⟩, hfirst⟩ : ∃ j, ScenarioMove cfg codec k s j ∧
        ((∃ g ∈ s.goroutines, ∃ p co, g.pc = .start p co) →
          ∃ g p co, s.goroutines[j]? = some g ∧ g.pc = .start p co) := by
      by_cases hst : ∃ g ∈ s.goroutines, ∃ p co, g.pc = .start p co
      · obtain ⟨g', hg', p, co, hpc⟩ := hst
        obtain ⟨j, hj⟩ := List.mem_iff_getElem?.1 hg'
        exact ⟨j, scenarioMove_of_start hj hpc (hr g' hg' p co hpc), fun _ => ⟨g', p, co, hj, hpc⟩⟩
      · push_neg at hst
        obtain ⟨j, hj⟩ := exists_scenarioMove hg hs (Bool.eq_false_iff.2 hfin)
          (Steps.callPc h0 hrun hg ho).1 hst
        exact ⟨j, hj, fun ⟨g', hg', p, co, hpc⟩ => absurd hpc (hst g' hg' p co)⟩
    obtain ⟨s', h', hall'⟩ := ih _ (hn ▸ hw) (.tail hrun hstep h₁) (hr.step h₁ hfirst) rfl
    exact ⟨s', Steps.head ⟨hstep, rfl⟩ h₁ h', hall'⟩

theorem Pc.Flight.gens_of_writing {pc : Pc T} {store : Option Bytes} {gens : List (Event T)}
    {i : ℕ} (hw : pc.writing) (h : pc.Flight codec store gens i) : ∃ e, gens = [e] := by
  cases pc <;> try exact absurd hw Bool.false_ne_true
  exact (h hw).2.imp fun _ he => he.1

theorem Flight.syncGens_length_le {s : State T} {k : String} (hf : Flight cfg codec k s) :
    (s.syncGens (fullKey cfg k)).length ≤ 1 := by
  rcases hf.key with ⟨-, h⟩ | ⟨-, j, gj, hj, hw⟩ | ⟨b, e, v, -, h, -⟩
  · simp [h]
  · obtain ⟨e, h⟩ := (hf.pcs j gj hj).gens_of_writing hw
    simp [h]
  · simp [h]

/-- Single flight on a miss. In a run of the scenario from a backend without the key or
its stale companion, where every value encodes to bytes that decode: the miss path calls
the generator at most once; the goroutine that does took the key's lock in the miss path,
and nobody else took it there before the call; and every call that has returned did so
without error, with the value of that one generator call or its round trip through the
codec. And every call returns: while the calls that have not read yet can still read
(they pass `WithoutBackgroundRefresh()` or the key is still empty), goroutine steps of the
scenario lead to a state where every call has returned so, and if there was a call, the
generator was then called exactly once. -/
theorem sync_miss_generates_once {s₀ s : State T} {k : String} (h0 : s₀.Initial)
    (habsent : s₀.store (fullKey cfg k) = none) (hstale : s₀.store (staleKey cfg k) = none)
    (hcodec : ∀ v, ∃ b w, codec.marshal v = some b ∧ codec.unmarshal b = some w)
    (hrun : Steps cfg codec (ScenarioStep cfg k) s₀ s) :
    (s.syncGens (fullKey cfg k)).length ≤ 1 ∧
    (∀ pre e post, s.log = pre ++ e :: post → e.op.isSyncGen (fullKey cfg k) →
      TookLock (fullKey cfg k) pre e.gid ∧
        ∀ a ∈ pre, a.op.isSyncAcquire (fullKey cfg k) → a.gid = e.gid) ∧
    (∀ (i : ℕ) (g : Goroutine T) (r : Result T) (err : Option Err), s.goroutines[i]? = some g →
      g.pc = .done (r, err) → err = none ∧ Served codec (s.syncGens (fullKey cfg k)) r) ∧
    (StartsReady cfg k s → ∃ s', Steps cfg codec (fun s a => ScenarioStep cfg k s a ∧ a.isRun) s s' ∧
      (∀ (i : ℕ) (g : Goroutine T), s'.goroutines[i]? = some g → ∀ key opts,
        g.origin = .call (.getOrRefresh key opts) →
        ∃ r, g.pc = .done (r, none) ∧ Served codec (s'.syncGens (fullKey cfg k)) r) ∧
      ((∃ (i : ℕ) (g : Goroutine T) (key : String) (opts : List CallOption), s.goroutines[i]? = some g ∧
          g.origin = .call (.getOrRefresh key opts)) →
        (s'.syncGens (fullKey cfg k)).length = 1)) := by
  have hf := Steps.flight h0 habsent hstale hcodec hrun
  have hdone : ∀ {s : State T} (hf : Flight cfg codec k s) (i : ℕ) (g : Goroutine T) (r : Result T)
      (err : Option Err), s.goroutines[i]? = some g → g.pc = .done (r, err) →
      err = none ∧ Served codec (s.syncGens (fullKey cfg k)) r := fun hf i g r err hg hpc => by
    have h := hf.pcs i g hg
    rw [hpc] at h
    exact h
  refine ⟨hf.syncGens_length_le, hf.first, hdone hf, fun hr => ?_⟩
  obtain ⟨s', hsteps, hall⟩ := Steps.all_return h0 hrun hr
  have hrun' := hrun.trans (hsteps.mono fun _ _ h => h.1)
  have hf' := Steps.flight h0 habsent hstale hcodec hrun'
  -- a call that has finished has returned, and then without error
  have hret : ∀ (i : ℕ) (g : Goroutine T), s'.goroutines[i]? = some g → ∀ key opts,
      g.origin = .call (.getOrRefresh key opts) →
      ∃ r, g.pc = .done (r, none) ∧ Served codec (s'.syncGens (fullKey cfg k)) r := by
    intro i g hg key opts ho
    obtain ⟨⟨r, err⟩, hpc⟩ := (Steps.callPc h0 hrun' hg ho).2 (hall i g hg key opts ho)
    obtain ⟨rfl, hs⟩ := hdone hf' i g r err hg hpc
    exact ⟨r, hpc, hs⟩
  refine ⟨s', hsteps, hret, fun ⟨i, g, key, opts, hg, ho⟩ => ?_⟩
  obtain ⟨pc, hpc⟩ := hsteps.getElem? hg
  obtain ⟨r, -, hs⟩ := hret i _ hpc key opts ho
  exact le_antisymm hf'.syncGens_length_le
    (List.length_pos.2 fun h => not_served_nil (h ▸ hs))

/-- Two calls of the default configuration on an empty backend: the first read of each is
still possible, and the scenario runs both to the value of one generator call. -/
theorem sync_miss_generates_once_twoCalls :
    ∃ s : State UInt8, Steps defaultConfig byteCodec (ScenarioStep defaultConfig "k") .empty s ∧
      StartsReady defaultConfig "k" s ∧
      ∃ s', Steps defaultConfig byteCodec
          (fun s a => ScenarioStep defaultConfig "k" s a ∧ a.isRun) s s' ∧
        (∀ (i : ℕ) (g : Goroutine UInt8), s'.goroutines[i]? = some g → ∀ key opts,
          g.origin = .call (.getOrRefresh key opts) →
          ∃ r, g.pc = .done (r, none) ∧ Served byteCodec (s'.syncGens (fullKey defaultConfig "k")) r) ∧
        (s'.syncGens (fullKey defaultConfig "k")).length = 1 := by
  have hsteps : Steps defaultConfig byteCodec (ScenarioStep defaultConfig "k") .empty
      { State.empty with goroutines := [(Request.getOrRefresh "k" []).goroutine defaultConfig,
        (Request.getOrRefresh "k" []).goroutine defaultConfig] } :=
    .tail (.tail (a := .call (.getOrRefresh "k" [])) .refl ⟨rfl, fun _ _ _ h => Action.noConfusion h⟩ rfl)
      (a := .call (.getOrRefresh "k" [])) ⟨rfl, fun _ _ _ h => Action.noConfusion h⟩ rfl
  have hr : StartsReady defaultConfig "k" ({ State.empty with
      goroutines := [(Request.getOrRefresh "k" []).goroutine defaultConfig,
        (Request.getOrRefresh "k" []).goroutine defaultConfig] } : State UInt8) :=
    fun _ _ _ _ _ => .inr rfl
  obtain ⟨s', h, hall, hone⟩ := (@sync_miss_generates_once UInt8 defaultConfig byteCodec _ _ "k"
    State.empty_initial rfl rfl (fun v => ⟨[v], v, rfl, rfl⟩) hsteps).2.2.2 hr
  exact ⟨_, hsteps, hr, s', h, hall, hone ⟨0, _, "k", [], rfl, rfl⟩⟩

theorem Pc.eq_done_of_ret {pc : Pc T} {ret : Ret T} (h : pc.ret = some ret) : pc = .done ret := by
  cases pc <;> first | (cases h; rfl) | exact Option.noConfusion h

set_option exponentiation.threshold 1024 in
/-- Under `RefreshAhead`, with every call passing `WithoutBackgroundRefresh()` and missing
at its first read: the first call generates `5`, writes it and starts its refresh-ahead
task. The second call is not scheduled again until that task has woken 240 s later,
regenerated and written `7`; it then takes the lock, finds `7` at its double-check and
returns it, a value the miss path never generated. -/
theorem refresh_ahead_waiter_returns_refresh :
    ¬ ∀ s : State UInt8, Steps defaultConfig byteCodec
        (fun _ a => a.inScenario defaultConfig "k" && a.withoutHitRefresh) State.empty s →
      ∀ (i : ℕ) (g : Goroutine UInt8) (r : Result UInt8) (err : Option Err),
        s.goroutines[i]? = some g → g.pc = .done (r, err) →
        err = none ∧ Served byteCodec (s.syncGens (fullKey defaultConfig "k")) r := by
  intro h
  let call : Action UInt8 :=
    .call (.getOrRefresh "k" [.withCallMissPolicy .refreshAhead, .withoutBackgroundRefresh])
  let as : List (Action UInt8) :=
    [call, call, .run 1 (.ok (some 9)),
      .run 0 (.ok (some 9)), .run 0 (.ok (some 9)), .run 0 (.ok (some 9)), .run 0 (.ok (some 9)),
      .run 0 (.ok (some 5)), .run 0 (.ok (some 9)), .run 0 (.ok (some 9)), .run 0 (.ok (some 9)),
      .tick 240000000000,
      .run 2 (.ok (some 9)), .run 2 (.ok (some 9)), .run 2 (.ok (some 9)), .run 2 (.ok (some 9)),
      .run 2 (.ok (some 9)), .run 2 (.ok (some 7)), .run 2 (.ok (some 9)), .run 2 (.ok (some 9)),
      .run 2 (.ok (some 9)),
      .run 1 (.ok (some 9)), .run 1 (.ok (some 9)), .run 1 (.ok (some 9)), .run 1 (.ok (some 9))]
  have hall : as.all fun a => a.inScenario defaultConfig "k" && a.withoutHitRefresh := by decide
  have hp : (runActions defaultConfig byteCodec .empty as).any (fun s =>
      (s.goroutines[1]?.bind (·.pc.ret)).map (·.1.value) == some 7 &&
        (s.syncGens "k").map (·.op.generated) == [some 5]) := by
    with_unfolding_all decide
  cases hs : runActions defaultConfig byteCodec .empty as with
  | none => simp [hs] at hp
  | some s =>
    simp only [hs, Option.any_some, Bool.and_eq_true, beq_iff_eq, Option.map_eq_some',
      Option.bind_eq_some] at hp
    obtain ⟨⟨ret, ⟨g, hg, hret⟩, hval⟩, hgens⟩ := hp
    obtain ⟨-, e, v, b, he, hv, hb, hr⟩ :=
      h s (Steps.runActions hall hs) 1 g ret.1 ret.2 hg (Pc.eq_done_of_ret hret)
    rw [show fullKey defaultConfig "k" = "k" from rfl] at he
    rw [he] at hgens
    simp only [List.map_cons, List.map_nil, List.cons.injEq, and_true] at hgens
    rw [hgens] at hv
    cases hv
    cases hb
    rw [hval] at hr
    revert hr
    decide

end Cashcov.Handler
