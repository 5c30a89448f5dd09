import Cashcov.Exclusion

/-!
# Lock discipline

Counted on the log, every goroutine alternates acquisitions and releases of its
key's lock: it starts `Lock` or `TryLock` only while it holds nothing, releases only
the lock it acquired, and has released it once it has returned, so when every
goroutine has returned every lock is free. The releaser of a failed `TryLock` is the
no-op closure, which every caller drops without calling. Ledger accesses are single
steps with no lock operation, so the ledger mutex is never held across one.
-/
namespace Cashcov.Handler

open Cashcov.Lock

variable {T : Type} {cfg : HandlerConfig} {codec : Codec T}

def Op.isAcquire : Op T → Bool
  | .acquire .. => true
  | _ => false

def Op.isRelease : Op T → Bool
  | .release .. => true
  | _ => false

def Op.isBusy : Op T → Bool
  | .busy .. => true
  | _ => false

/-- The operations of `Lock` and `TryLock`: `ch`, the send, the failed `select`. -/
def Op.isLockStep : Op T → Bool
  | .chan _ | .acquire .. | .busy .. => true
  | _ => false

/-- How many operations satisfying `p` goroutine `i` performed in the log. -/
def opCount (p : Op T → Bool) (i : ℕ) (log : List (Event T)) : ℕ :=
  log.countP fun e => e.gid == i && p e.op

/-- Whether the goroutine has returned. -/
def Pc.finished : Pc T → Bool
  | .done _ | .setReturned _ | .exit => true
  | _ => false

theorem opCount_append (p : Op T → Bool) (i : ℕ) (l₁ l₂ : List (Event T)) :
    opCount p i (l₁ ++ l₂) = opCount p i l₁ + opCount p i l₂ := List.countP_append ..

theorem opCount_eq_zero {p : Op T → Bool} {i : ℕ} {l : List (Event T)} (h : ∀ e ∈ l, e.gid ≠ i) :
    opCount p i l = 0 :=
  List.countP_eq_zero.2 fun e he => by simp [h e he]

/-- What a lock move does to the number of releasers the goroutine holds. -/
theorem LockMove.held {km : KeyedMutex} {key : String} {before after : Pc T} {op : Option (Op T)}
    (h : LockMove km key before after op) (i t : ℕ) :
    (before.client key).held.length + opCount Op.isAcquire i (op.map (Event.mk i t)).toList =
      (after.client key).held.length + opCount Op.isRelease i (op.map (Event.mk i t)).toList ∧
    (∀ o ∈ op, o.isLockStep → (before.client key).held = []) ∧
    (∀ o ∈ op, o.isRelease → (before.client key).held.length = 1) := by
  cases op with
  | none => simp only [LockMove] at h; simp [h, opCount]
  | some op =>
    cases op <;> simp only [LockMove] at h <;>
      simp only [opCount, Option.map_some', Option.toList_some, List.countP_cons, List.countP_nil,
        beq_self_eq_true, Bool.true_and, Op.isAcquire, Op.isRelease, Op.isLockStep,
        Option.mem_def, Option.some.injEq, forall_eq']
    case chan => obtain ⟨-, hb, ha | ha⟩ := h <;> simp [hb, ha]
    case acquire => obtain ⟨-, -, hb | hb, ha⟩ := h <;> simp [hb, ha]
    case busy => obtain ⟨-, c, -, hb, ha⟩ := h; simp [hb, ha]
    case release => obtain ⟨-, -, hb, ha⟩ := h; simp [hb, ha]
    all_goals simp [h]

/-- The lock bookkeeping of a state: every event is of an existing goroutine, a
goroutine has acquired once more than it released exactly while it holds its lock, and
each lock step and release happened at the balance the discipline requires. -/
structure Balanced (cfg : HandlerConfig) (s : State T) : Prop where
  gid_lt : ∀ e ∈ s.log, e.gid < s.goroutines.length
  balance : ∀ i g, s.goroutines[i]? = some g →
    opCount Op.isAcquire i s.log = opCount Op.isRelease i s.log + (g.client cfg).held.length
  history : ∀ pre e post, s.log = pre ++ e :: post →
    (e.op.isLockStep → opCount Op.isAcquire e.gid pre = opCount Op.isRelease e.gid pre) ∧
    (e.op.isRelease → opCount Op.isAcquire e.gid pre = opCount Op.isRelease e.gid pre + 1)

theorem Balanced.run {s : State T} (hb : Balanced cfg s) {i : ℕ} {g : Goroutine T} {o : Oracle T}
    {out : Outcome T} (hg : s.goroutines[i]? = some g) (h : exec cfg codec s i g o = some out) :
    Balanced cfg (out.apply s i g) := by
  obtain ⟨hmove, hspawn⟩ := exec_lockMove h
  obtain ⟨hcount, hstep, hrel⟩ := hmove.held i s.now
  have hi := (List.getElem?_eq_some_iff.1 hg).1
  have hnew : ∀ e ∈ (out.op.map (Event.mk i s.now)).toList, e.gid = i := by
    cases out.op <;> simp
  refine ⟨fun e he => ?_, fun j g' hj => ?_, fun pre e post hl => ?_⟩
  · simp only [Outcome.apply_log, List.mem_append] at he
    simp only [Outcome.apply_goroutines, List.length_append, List.length_set]
    rcases he with he | he
    · exact Nat.lt_add_right _ (hb.gid_lt e he)
    · exact hnew e he ▸ Nat.lt_add_right _ hi
  · simp only [Outcome.apply_log, opCount_append]
    simp only [Outcome.apply_goroutines] at hj
    rcases Nat.lt_or_ge j s.goroutines.length with hlt | hge
    · rw [List.getElem?_append_left (by simpa using hlt), List.getElem?_set] at hj
      by_cases e : i = j
      · subst e
        simp only [hi, if_true, Option.some.injEq] at hj; subst hj
        have := hb.balance i g hg
        simp only [Goroutine.client] at this ⊢
        omega
      · simp only [e, if_false] at hj
        have hz : ∀ p : Op T → Bool, opCount p j (out.op.map (Event.mk i s.now)).toList = 0 :=
          fun p => opCount_eq_zero fun e' he' => hnew e' he' ▸ e
        simp only [hz, add_zero]
        exact hb.balance j g' hj
    · rw [List.getElem?_append_right (by simpa using hge)] at hj
      have hg' := hspawn g' (List.getElem?_mem hj)
      have hold : ∀ e ∈ s.log, e.gid ≠ j := fun e he => by have := hb.gid_lt e he; omega
      have hnj : ∀ e ∈ (out.op.map (Event.mk i s.now)).toList, e.gid ≠ j := fun e he => by
        rw [hnew e he]; omega
      simp [hg', opCount_eq_zero hold, opCount_eq_zero hnj]
  · simp only [Outcome.apply_log] at hl
    cases hop : out.op with
    | none => simp only [hop, Option.map_none', Option.toList_none, List.append_nil] at hl; exact hb.history _ _ _ hl
    | some op =>
      simp only [hop, Option.map_some', Option.toList_some] at hl
      rcases List.snoc_eq_append_cons hl with ⟨rfl, rfl, -⟩ | ⟨post', -, hl'⟩
      · have := hb.balance i g hg
        simp only [Goroutine.client] at this
        exact ⟨fun hs => by simp [this, hstep op hop hs], fun hr => by simp [this, hrel op hop hr]⟩
      · exact hb.history _ _ _ hl'

theorem Balanced.step {s s' : State T} {a : Action T} (hb : Balanced cfg s)
    (h : step cfg codec s a = some s') : Balanced cfg s' := by
  cases a with
  | call req =>
    cases h
    refine ⟨fun e he => ?_, fun j g' hj => ?_, hb.history⟩
    · simpa using Nat.lt_succ_of_lt (hb.gid_lt e he)
    · rcases Nat.lt_or_ge j s.goroutines.length with hlt | hge
      · exact hb.balance j g' (by rwa [List.getElem?_append_left hlt] at hj)
      · have hj' : j = s.goroutines.length := by
          have := (List.getElem?_eq_some_iff.1 hj).1; simp at this; omega
        subst hj'
        simp only [List.getElem?_concat_length, Option.some.injEq] at hj; subst hj
        have hold : ∀ e ∈ s.log, e.gid ≠ s.goroutines.length := fun e he => (hb.gid_lt e he).ne
        have : (req.goroutine cfg).client cfg = (⟨.idle, []⟩ : Client) := by cases req <;> rfl
        simp [this, opCount_eq_zero hold]
  | tick d => cases h; exact ⟨hb.1, hb.2, hb.3⟩
  | evict key => cases h; exact ⟨hb.1, hb.2, hb.3⟩
  | run i o =>
    obtain ⟨g, out, hg, hexec, rfl⟩ := step_run h
    exact hb.run hg hexec

theorem Run.balanced {allowed : State T → Action T → Prop} {s : State T}
    (hs : Run cfg codec allowed s) : Balanced cfg s := by
  induction hs with
  | init h0 => exact ⟨by simp [h0.log], by simp [h0.goroutines], by simp [h0.log]⟩
  | step _ _ h ih => exact ih.step h

theorem Pc.held_of_finished {pc : Pc T} (h : pc.finished) : pc.held = none := by
  cases pc <;> simp_all [Pc.finished, Pc.held]

/-- Every goroutine has acquired at most one lock more than it released, starts
`Lock` and `TryLock` only holding nothing, releases only a lock it holds, and has
released all it acquired once it returned; when every goroutine has returned, every
lock is free. -/
theorem lock_discipline {s : State T} (hs : Reachable cfg codec s) :
    (∀ i g, s.goroutines[i]? = some g →
      opCount Op.isRelease i s.log ≤ opCount Op.isAcquire i s.log ∧
      opCount Op.isAcquire i s.log ≤ opCount Op.isRelease i s.log + 1 ∧
      (g.pc.finished → opCount Op.isAcquire i s.log = opCount Op.isRelease i s.log)) ∧
    (∀ pre e post, s.log = pre ++ e :: post →
      (e.op.isLockStep → opCount Op.isAcquire e.gid pre = opCount Op.isRelease e.gid pre) ∧
      (e.op.isRelease → opCount Op.isAcquire e.gid pre = opCount Op.isRelease e.gid pre + 1)) ∧
    ((∀ g ∈ s.goroutines, g.pc.finished) → ∀ c, s.km.occ c = 0) := by
  have hb := hs.balanced
  refine ⟨fun i g hg => ?_, hb.history, fun hfin c => hs.occ_free fun g hg => ?_⟩
  · have hbal := hb.balance i g hg
    have hle : (g.client cfg).held.length ≤ 1 := by
      rw [Goroutine.client, Pc.client_held_eq]; cases g.pc.held <;> simp
    refine ⟨by omega, by omega, fun hf => ?_⟩
    rw [Goroutine.client, Pc.client_held_eq, Pc.held_of_finished hf] at hbal
    simpa using hbal
  · rw [Pc.held_of_finished (hfin g hg)]; simp

/-- The synchronous miss of `syncMissRun` takes the lock of `"k"` once and has released it
once it returned, and at the end every lock is free. -/
theorem lock_discipline_syncMiss :
    ∃ s : State UInt8, runActions defaultConfig byteCodec .empty syncMissRun = some s ∧
      opCount Op.isAcquire 0 s.log = 1 ∧ opCount Op.isRelease 0 s.log = 1 ∧ ∀ c, s.km.occ c = 0 := by
  have hrun : runActions defaultConfig byteCodec .empty syncMissRun = some _ := rfl
  have hd := lock_discipline (Run.runActions (.init State.empty_initial) _ (fun _ _ => trivial) hrun)
  exact ⟨_, hrun, rfl, ((hd.1 0 _ rfl).2.2 rfl).symm.trans rfl, hd.2.2 (List.all_eq_true.1 rfl)⟩

/-- A `ReturnThenAsyncWrite` miss whose background write finds the lock held by a
synchronous miss obtains the no-op releaser and returns without invoking it. -/
theorem noop_releaser_dropped :
    ¬ ∀ s : State UInt8, Reachable defaultConfig byteCodec s → ∀ i g, s.goroutines[i]? = some g →
      g.pc.finished →
        opCount Op.isAcquire i s.log + opCount Op.isBusy i s.log = opCount Op.isRelease i s.log := by
  intro h
  obtain ⟨s, hs, hp⟩ := runActions_any defaultConfig byteCodec
    [.call (.getOrRefresh "k" []), .run 0 (.ok none), .run 0 (.ok none), .run 0 (.ok none),
      .call (.getOrRefresh "k" [.withCallMissPolicy .returnThenAsyncWrite]), .run 1 (.ok none),
      .run 1 (.ok (some 5)), .run 2 (.ok none), .run 2 (.ok none)]
    (p := fun s => s.goroutines[2]?.any fun g => g.pc.finished &&
      opCount Op.isAcquire 2 s.log + opCount Op.isBusy 2 s.log != opCount Op.isRelease 2 s.log)
    (by decide)
  cases hg : s.goroutines[2]? with
  | none => simp [hg] at hp
  | some g =>
    simp only [hg, Option.any_some, Bool.and_eq_true, bne_iff_ne, ne_eq] at hp
    exact hp.2 (h s hs 2 g hg hp.1)

end Cashcov.Handler
