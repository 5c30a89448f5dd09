import Cashcov.Failure
import Cashcov.Operations

/-!
# Cooperative refresh

`missCooperativeRefresh` starts a goroutine that takes the key's lock, closes `done`
and lets the lock go, and selects between `done` and its lock context's deadline. The
`done` branch is `missSyncWriteThenReturn`, which locks and writes; the timeout branch
only calls the generator. Go's `select` may take either case once both are ready, so
what decides whether a call writes is whether `done` was closed when the select ran, not
whether the deadline had passed: every lock operation and write of the call comes after
its lock-wait goroutine closed `done`, and a call that generated on the timeout branch
never locks or writes and returns what that generator call gave.
-/
namespace Cashcov.Handler

variable {T : Type} {cfg : HandlerConfig} {codec : Codec T}

/-- The operations of the `done` branch that the timeout branch never performs: lock
operations, backend writes and ledger stamps. -/
def Op.locksOrWrites (op : Op T) : Bool := op.isLockStep || op.writes

/-- The generator call of the timeout branch. -/
def Op.isCoopGen : Op T → Bool
  | .generate site _ _ => site == .cooperativeGen
  | _ => false

def SyncCont.isPlain : SyncCont → Bool
  | .plain => true
  | _ => false

def Critical.isPlainSync : Critical T → Bool
  | .syncMiss κ => κ.isPlain
  | _ => false

def SetRet.isPlainSync : SetRet → Bool
  | .syncMiss κ _ => κ.isPlain
  | _ => false

theorem SyncCont.eq_plain {κ : SyncCont} (h : κ.isPlain) : κ = .plain := by
  cases κ <;> first | rfl | exact absurd h Bool.noConfusion

theorem Critical.eq_plainSync {k : Critical T} (h : k.isPlainSync) : k = .syncMiss .plain := by
  cases k <;> first | exact absurd h Bool.noConfusion | rw [SyncCont.eq_plain h]

theorem SetRet.eq_plainSync {r : SetRet} (h : r.isPlainSync) : ∃ c, r = .syncMiss .plain c := by
  cases r <;> first | exact absurd h Bool.noConfusion | exact ⟨_, by rw [SyncCont.eq_plain h]⟩

/-- A `GetOrRefresh` call whose effective miss policy is `policy`. -/
def Origin.CallsWith (cfg : HandlerConfig) (policy : MissPolicy) : Origin T → Prop
  | .call (.getOrRefresh _ opts) => effectiveMissPolicy cfg (callOpts opts) = policy
  | _ => False

instance (cfg : HandlerConfig) (policy : MissPolicy) :
    DecidablePred (Origin.CallsWith (T := T) cfg policy)
  | .call (.getOrRefresh _ opts) =>
    inferInstanceAs (Decidable (effectiveMissPolicy cfg (callOpts opts) = policy))
  | .call (.set ..) | .call (.get _) | .spawned _ => isFalse id

/-- Where a cooperative call is: before its select, at the select with lock-wait
goroutine `w`, on the timeout branch, on the `done` branch, or returned. -/
inductive CoopPhase
  | before
  | waiting (w : ℕ)
  | timedOut
  | locked
  | returned

def Pc.coopPhase : Pc T → Option CoopPhase
  | .start policy _ | .hitRefresh policy _ _ =>
    if policy = .cooperativeRefresh then some .before else none
  | .coopStart => some .before
  | .coopSelect _ w => some (.waiting w)
  | .coopGen => some .timedOut
  | .lockCh k | .lockSend k _ => if k.isPlainSync then some .locked else none
  | .syncCheck κ _ | .syncGen κ _ | .syncUnlock κ _ _ => if κ.isPlain then some .locked else none
  | .setWrite _ r | .setStamp _ r => if r.isPlainSync then some .locked else none
  | .done _ => some .returned
  | _ => none

/-- What one step of a cooperative call can do in each phase. -/
def CoopStep (s : State T) (i : ℕ) (g : Goroutine T) (out : Outcome T) :
    CoopPhase → Prop
  | .before => out.op = none ∧ (out.pc.coopPhase = some .before ∨ out.pc.coopPhase = some .returned ∨
      out.pc.coopPhase = some (.waiting s.goroutines.length) ∧ out.spawns = [g.child i (.lockCh .coopWait)])
  | .waiting w => out.op = none ∧
      (out.pc.coopPhase = some .timedOut ∨ s.closed w = true ∧ out.pc.coopPhase = some .locked)
  | .timedOut => out.pc.coopPhase = some .returned ∧ ∀ op, out.op = some op → op.locksOrWrites = false
  | .locked => (out.pc.coopPhase = some .locked ∨ out.pc.coopPhase = some .returned) ∧
      ∀ op, out.op = some op → op.isCoopGen = false
  | .returned => False

theorem exec_coopPhase {s : State T} {i : ℕ} {g : Goroutine T} {o : Oracle T} {out : Outcome T}
    {p : CoopPhase} (h : exec cfg codec s i g o = some out) (hp : g.pc.coopPhase = some p) :
    CoopStep s i g out p := by
  obtain ⟨key, ttl, origin, pc⟩ := g
  cases exec_cases h with
  | startHit =>
    simp only [Pc.coopPhase] at hp
    split at hp <;> cases hp
    subst ‹_ = MissPolicy.cooperativeRefresh›
    split
    · exact ⟨rfl, .inr (.inl rfl)⟩
    · exact ⟨rfl, .inl rfl⟩
  | startMiss | startError | hitRefresh =>
    simp only [Pc.coopPhase] at hp
    split at hp <;> cases hp
    subst ‹_ = MissPolicy.cooperativeRefresh›
    first | exact ⟨rfl, .inl rfl⟩ | exact ⟨rfl, .inr (.inl rfl)⟩
  | coopStart => cases hp; exact ⟨rfl, .inr (.inr ⟨rfl, rfl⟩)⟩
  | coopTimeout => cases hp; exact ⟨rfl, .inl rfl⟩
  | coopDone _ hclosed => cases hp; exact ⟨rfl, .inr ⟨hclosed, rfl⟩⟩
  | coopGenFail _ | coopGen _ => cases hp; exact ⟨rfl, fun _ h => by cases h; rfl⟩
  | setStamp =>
    simp only [Pc.coopPhase] at hp
    split at hp <;> cases hp
    obtain ⟨_, rfl⟩ := SetRet.eq_plainSync ‹_›
    exact ⟨.inl rfl, fun _ h => by split at h <;> cases h; rfl⟩
  | _ =>
    -- the `done` branch, `missSyncWriteThenReturn` without continuation
    simp only [Pc.coopPhase] at hp
    (try split at hp) <;> cases hp <;>
      (try rename_i hk; first
        | obtain rfl := Critical.eq_plainSync hk
        | obtain rfl := SyncCont.eq_plain hk
        | obtain ⟨_, rfl⟩ := SetRet.eq_plainSync hk) <;>
      first
      | exact ⟨.inl rfl, fun _ h => by cases h <;> rfl⟩
      | exact ⟨.inr rfl, fun _ h => by cases h; rfl⟩

/-- The lock-wait goroutine of call `i` closed `done` within `l`. -/
def WaiterClosed (s : State T) (i : ℕ) (l : List (Event T)) : Prop :=
  ∃ e ∈ l, ∃ gw, e.op = .close e.gid ∧ s.goroutines[e.gid]? = some gw ∧ gw.origin = .spawned i

/-- What the log holds of call `i` in each phase. -/
def CoopInv (s : State T) (i : ℕ) : CoopPhase → Prop
  | .before => ∀ e ∈ s.log, e.gid ≠ i
  | .waiting w => (∀ e ∈ s.log, e.gid ≠ i) ∧ ∃ gw, s.goroutines[w]? = some gw ∧ gw.origin = .spawned i
  | .timedOut => ∀ e ∈ s.log, e.gid = i → e.op.locksOrWrites = false
  | .locked => WaiterClosed s i s.log ∧ ∀ e ∈ s.log, e.gid = i → e.op.isCoopGen = false
  | .returned => True

/-- The lock operations and writes of call `i` come after its lock-wait goroutine closed
`done`, and none of them is in a log where `i` generated on the timeout branch. -/
def CoopHistory (s : State T) (i : ℕ) : Prop :=
  (∀ pre e post, s.log = pre ++ e :: post → e.gid = i → e.op.locksOrWrites → WaiterClosed s i pre) ∧
  ∀ e₁ ∈ s.log, ∀ e₂ ∈ s.log, e₁.gid = i → e₂.gid = i → e₁.op.isCoopGen → e₂.op.locksOrWrites = false

theorem List.eq_append_cons_of_append {α : Type} {l evs pre post : List α} {e : α}
    (h : l ++ evs = pre ++ e :: post) (he : e ∉ evs) : ∃ post', l = pre ++ e :: post' := by
  rcases List.append_eq_append_iff.1 h with ⟨a, -, ha⟩ | ⟨c, hl, hc⟩
  · exact absurd (by rw [ha]; exact List.mem_append_right _ (List.mem_cons_self _ _)) he
  · cases c with
    | nil => exact absurd (by rw [← List.nil_append evs, ← hc]; exact List.mem_cons_self _ _) he
    | cons x t => simp only [List.cons_append, List.cons.injEq] at hc; exact ⟨t, hc.1 ▸ hl⟩

section Extension

variable {s s' : State T} {i : ℕ} {evs : List (Event T)}
  (horig : ∀ (w : ℕ) (gw : Goroutine T), s.goroutines[w]? = some gw →
    ∃ gw', s'.goroutines[w]? = some gw' ∧ gw'.origin = gw.origin)
include horig

theorem WaiterClosed.extend {l l' : List (Event T)} (h : WaiterClosed s i l) (hl : l ⊆ l') :
    WaiterClosed s' i l' := by
  obtain ⟨e, he, gw, hop, hw, ho⟩ := h
  obtain ⟨gw', hw', ho'⟩ := horig _ gw hw
  exact ⟨e, hl he, gw', hop, hw', ho'.trans ho⟩

variable (hlog : s'.log = s.log ++ evs) (hevs : ∀ e ∈ evs, e.gid ≠ i)
include hlog hevs

theorem CoopInv.extend {p : CoopPhase} (h : CoopInv s i p) : CoopInv s' i p := by
  have hmem : ∀ e ∈ s'.log, e.gid = i → e ∈ s.log := fun e he hi => by
    rw [hlog, List.mem_append] at he
    exact he.resolve_right fun he' => hevs e he' hi
  cases p with
  | before => exact fun e he hi => h e (hmem e he hi) hi
  | waiting w =>
    obtain ⟨gw, hw, ho⟩ := h.2
    obtain ⟨gw', hw', ho'⟩ := horig _ gw hw
    exact ⟨fun e he hi => h.1 e (hmem e he hi) hi, gw', hw', ho'.trans ho⟩
  | timedOut => exact fun e he hi => h e (hmem e he hi) hi
  | locked =>
    exact ⟨h.1.extend horig (hlog ▸ List.subset_append_left _ _),
      fun e he hi => h.2 e (hmem e he hi) hi⟩
  | returned => trivial

theorem CoopHistory.extend (h : CoopHistory s i) : CoopHistory s' i := by
  have hmem : ∀ e ∈ s'.log, e.gid = i → e ∈ s.log := fun e he hi => by
    rw [hlog, List.mem_append] at he
    exact he.resolve_right fun he' => hevs e he' hi
  refine ⟨fun pre e post hl hi hlw => ?_, fun e₁ h₁ e₂ h₂ hi₁ hi₂ =>
    h.2 e₁ (hmem e₁ h₁ hi₁) e₂ (hmem e₂ h₂ hi₂) hi₁ hi₂⟩
  obtain ⟨post', hl'⟩ := List.eq_append_cons_of_append (hlog ▸ hl) fun he => hevs e he hi
  exact (h.1 pre e post' hl' hi hlw).extend horig (List.Subset.refl _)

end Extension

/-- Appending one event of call `i` keeps its history when the event respects it. -/
theorem CoopHistory.snoc {s s' : State T} {i : ℕ} {e : Event T} (h : CoopHistory s i)
    (hlog : s'.log = s.log ++ [e])
    (horig : ∀ (w : ℕ) (gw : Goroutine T), s.goroutines[w]? = some gw → ∃ gw', s'.goroutines[w]? = some gw' ∧ gw'.origin = gw.origin)
    (hlw : e.op.locksOrWrites → WaiterClosed s i s.log ∧ ∀ e' ∈ s.log, e'.gid = i → e'.op.isCoopGen = false)
    (hgen : e.op.isCoopGen → e.op.locksOrWrites = false ∧
      ∀ e' ∈ s.log, e'.gid = i → e'.op.locksOrWrites = false) :
    CoopHistory s' i := by
  refine ⟨fun pre e₀ post hl hi hlw₀ => ?_, fun e₁ h₁ e₂ h₂ hi₁ hi₂ hg => ?_⟩
  · rw [hlog] at hl
    rcases List.snoc_eq_append_cons hl with ⟨rfl, rfl, -⟩ | ⟨post', -, hl'⟩
    · exact (hlw hlw₀).1.extend horig (List.Subset.refl _)
    · exact (h.1 pre e₀ post' hl' hi hlw₀).extend horig (List.Subset.refl _)
  · rw [hlog, List.mem_append, List.mem_singleton] at h₁ h₂
    rcases h₁ with h₁ | rfl <;> rcases h₂ with h₂ | rfl
    · exact h.2 e₁ h₁ e₂ h₂ hi₁ hi₂ hg
    · exact Bool.eq_false_iff.2 fun hlw₂ => by rw [(hlw hlw₂).2 e₁ h₁ hi₁] at hg; cases hg
    · exact (hgen hg).2 e₂ h₂ hi₂
    · exact (hgen hg).1

/-- `done` is closed only by a lock-wait goroutine's close, and every cooperative call
is in a phase whose invariant and history hold. -/
structure Cooperative (cfg : HandlerConfig) (s : State T) : Prop where
  closed : ∀ w, s.closed w = true → ∃ e ∈ s.log, e.op = .close w ∧ e.gid = w
  call : ∀ i g, s.goroutines[i]? = some g → g.origin.CallsWith cfg .cooperativeRefresh →
    (∃ p, g.pc.coopPhase = some p ∧ CoopInv s i p) ∧ CoopHistory s i

theorem Outcome.apply_closed {s : State T} {k : ℕ} {g : Goroutine T} {out : Outcome T} {o : Oracle T}
    (h : exec cfg codec s k g o = some out) (w : ℕ) (hw : (out.apply s k g).closed w = true) :
    s.closed w = true ∨ out.op = some (.close w) ∧ w = k := by
  unfold Outcome.apply at hw
  cases hop : out.op with
  | none => simp only [hop] at hw; exact .inl hw
  | some op =>
    simp only [hop] at hw
    cases op with
    | close w' =>
      obtain ⟨rfl, -⟩ := exec_opFrom h _ hop
      by_cases hw' : w = w'
      · exact .inr ⟨hw' ▸ rfl, hw'⟩
      · simp only [Op.apply, Function.update_noteq hw'] at hw; exact .inl hw
    | _ => exact .inl hw

/-- The step of a cooperative call itself. -/
theorem Cooperative.call_step {s : State T} {k : ℕ} {g : Goroutine T} {o : Oracle T} {out : Outcome T}
    (hc : Cooperative cfg s) (hg : s.goroutines[k]? = some g)
    (hexec : exec cfg codec s k g o = some out)
    (horig : ∀ (w : ℕ) (gw : Goroutine T), s.goroutines[w]? = some gw →
      ∃ gw', (out.apply s k g).goroutines[w]? = some gw' ∧ gw'.origin = gw.origin)
    (hcall : (∃ p, g.pc.coopPhase = some p ∧ CoopInv s k p) ∧ CoopHistory s k) :
    (∃ p, out.pc.coopPhase = some p ∧ CoopInv (out.apply s k g) k p) ∧
      CoopHistory (out.apply s k g) k := by
  obtain ⟨⟨p, hp, hinv⟩, hh⟩ := hcall
  have hlog := Outcome.apply_log s k g out
  have hk : ∀ e ∈ (out.op.map (Event.mk k s.now)).toList, e.gid = k ∧ out.op = some e.op := by
    cases out.op <;> simp
  have hstep := exec_coopPhase hexec hp
  -- steps without an operation leave the log as it was
  have hquiet : out.op = none → (out.apply s k g).log = s.log := fun hop => by simp [hop]
  cases p with
  | before =>
    obtain ⟨hop, hnext⟩ := hstep
    have hh' := hh.extend horig hlog (by simp [hop])
    have hinv' : ∀ e ∈ (out.apply s k g).log, e.gid ≠ k := by rw [hquiet hop]; exact hinv
    rcases hnext with hn | hn | ⟨hn, hsp⟩
    · exact ⟨⟨_, hn, hinv'⟩, hh'⟩
    · exact ⟨⟨_, hn, trivial⟩, hh'⟩
    · refine ⟨⟨_, hn, hinv', g.child k (.lockCh .coopWait), ?_, rfl⟩, hh'⟩
      rw [Outcome.apply_getElem? out (List.getElem?_eq_some_iff.1 hg).1, hsp,
        if_neg (List.getElem?_eq_some_iff.1 hg).1.ne', if_neg (lt_irrefl _), Nat.sub_self]
      rfl
  | waiting w =>
    obtain ⟨hop, hnext⟩ := hstep
    have hh' := hh.extend horig hlog (by simp [hop])
    rcases hnext with hn | ⟨hw, hn⟩
    · refine ⟨⟨_, hn, fun e he hi => absurd hi (hinv.1 e (hquiet hop ▸ he))⟩, hh'⟩
    · -- `done` was closed, by the lock-wait goroutine of this call
      obtain ⟨e, he, hclose, hgid⟩ := hc.closed w hw
      obtain ⟨gw, hgw, hgo⟩ := hinv.2
      refine ⟨⟨_, hn, WaiterClosed.extend horig ⟨e, he, gw, hgid ▸ hclose, hgid ▸ hgw, hgo⟩
        (List.subset_append_left _ _), fun e he hi => absurd hi (hinv.1 e (hquiet hop ▸ he))⟩, hh'⟩
  | timedOut =>
    obtain ⟨hn, hops⟩ := hstep
    refine ⟨⟨_, hn, trivial⟩, ?_⟩
    cases hop : out.op with
    | none => exact hh.extend horig hlog (by simp [hop])
    | some op =>
      exact hh.snoc (show _ = s.log ++ [⟨k, s.now, op⟩] by simp [hop]) horig (fun hlw => absurd hlw (by simp [hops op hop]))
        fun _ => ⟨hops op hop, hinv⟩
  | locked =>
    obtain ⟨hn, hops⟩ := hstep
    have hcg : ∀ e ∈ (out.apply s k g).log, e.gid = k → e.op.isCoopGen = false := fun e he hi => by
      rw [hlog, List.mem_append] at he
      rcases he with he | he
      · exact hinv.2 e he hi
      · exact hops _ (hk e he).2
    have hh' : CoopHistory (out.apply s k g) k := by
      cases hop : out.op with
      | none => exact hh.extend horig hlog (by simp [hop])
      | some op =>
        exact hh.snoc (show _ = s.log ++ [⟨k, s.now, op⟩] by simp [hop]) horig (fun _ => hinv) fun hg' => by
          rw [hops op hop] at hg'; cases hg'
    rcases hn with hn | hn
    · exact ⟨⟨_, hn, hinv.1.extend horig (hlog ▸ List.subset_append_left _ _), hcg⟩, hh'⟩
    · exact ⟨⟨_, hn, trivial⟩, hh'⟩
  | returned => exact hstep.elim

theorem Cooperative.step {allowed : State T → Action T → Prop} {s s' : State T} {a : Action T}
    (hs : Run cfg codec allowed s) (hc : Cooperative cfg s) (h : step cfg codec s a = some s') :
    Cooperative cfg s' := by
  have horig : ∀ (w : ℕ) (gw : Goroutine T), s.goroutines[w]? = some gw →
      ∃ gw', s'.goroutines[w]? = some gw' ∧ gw'.origin = gw.origin := fun w gw hw => by
    obtain ⟨pc, hpc⟩ := step_getElem? h hw
    exact ⟨_, hpc, rfl⟩
  cases a with
  | call req =>
    cases h
    refine ⟨hc.closed, fun i g hi ho => ?_⟩
    rcases List.getElem?_concat_eq_some hi with ⟨-, hi⟩ | ⟨rfl, rfl⟩
    · obtain ⟨⟨p, hp, hinv⟩, hh⟩ := hc.call i g hi ho
      have hnil : ∀ e ∈ ([] : List (Event T)), e.gid ≠ i := fun _ h => absurd h (List.not_mem_nil _)
      exact ⟨⟨p, hp, hinv.extend horig (List.append_nil _).symm hnil⟩,
        hh.extend horig (List.append_nil _).symm hnil⟩
    · -- a new call has done nothing yet
      have hnone : ∀ e ∈ s.log, e.gid ≠ s.goroutines.length := fun e he => (hs.balanced.gid_lt e he).ne
      cases req with
      | getOrRefresh key opts =>
        refine ⟨⟨.before, by simp only [Request.goroutine, Pc.coopPhase]; exact if_pos ho, hnone⟩,
          fun pre e post hl hi _ => absurd hi (hnone e (hl ▸ by simp)), fun e he _ _ hi => absurd hi (hnone e he)⟩
      | _ => exact ho.elim
  | tick d => cases h; exact ⟨hc.1, hc.2⟩
  | evict key => cases h; exact ⟨hc.1, hc.2⟩
  | run k o =>
    obtain ⟨g, out, hg, hexec, rfl⟩ := step_run h
    have hlog := Outcome.apply_log s k g out
    have hk : ∀ e ∈ (out.op.map (Event.mk k s.now)).toList, e.gid = k ∧ out.op = some e.op := by
      cases out.op <;> simp
    refine ⟨fun w hw => ?_, Outcome.forall_apply hg (fun j gj hjk hj ho => ?_) (fun ho => ?_)
      (fun n g' hn ho => ?_)⟩
    · rcases Outcome.apply_closed hexec w hw with hw | ⟨hop, rfl⟩
      · obtain ⟨e, he, hop, hgid⟩ := hc.closed w hw
        exact ⟨e, by simp [he], hop, hgid⟩
      · exact ⟨⟨w, s.now, .close w⟩, by simp [hop], rfl, rfl⟩
    · -- another call only sees events of the stepping goroutine appended
      have hevs : ∀ e ∈ (out.op.map (Event.mk k s.now)).toList, e.gid ≠ j :=
        fun e he => (hk e he).1 ▸ Ne.symm hjk
      obtain ⟨⟨p, hp, hinv⟩, hh⟩ := hc.call j gj hj ho
      exact ⟨⟨p, hp, hinv.extend horig hlog hevs⟩, hh.extend horig hlog hevs⟩
    · exact hc.call_step hg hexec horig (hc.call k g hg ho)
    · rw [(exec_spawns hexec g' (List.getElem?_mem hn)).2.2.1] at ho
      exact ho.elim

theorem Run.cooperative {allowed : State T → Action T → Prop} {s : State T}
    (hs : Run cfg codec allowed s) : Cooperative cfg s := by
  induction hs with
  | init h0 => exact ⟨by simp [h0.closed], by simp [h0.goroutines]⟩
  | step hs _ h ih => exact ih.step hs h

/-! ### What the timeout branch returns -/

/-- What the timeout branch returns for the generator's answer `r` at time `now`. -/
def coopReturn (codec : Codec T) (now : ℕ) : Option T → Ret T
  | some v => (⟨v, false, some now⟩, none)
  | none => (Result.zero codec, some .generator)

theorem Pc.genSite_cooperativeGen {pc : Pc T} (h : pc.genSite = some .cooperativeGen) :
    pc = .coopGen := by
  cases pc <;> first | rfl | cases h

/-- The generator call of the timeout branch is the call's last step, and what it returns
is what the call returns. -/
theorem exec_coopGen_return {s : State T} {i : ℕ} {g : Goroutine T} {o : Oracle T}
    {out : Outcome T} (h : exec cfg codec s i g o = some out) {k : String} {r : Option T}
    (hop : out.op = some (.generate .cooperativeGen k r)) :
    out.pc = .done (coopReturn codec s.now r) := by
  obtain ⟨key, ttl, origin, pc⟩ := g
  cases exec_cases h with
  | coopGenFail _ | coopGen _ => cases hop; rfl
  | setStamp => split at hop <;> cases hop
  | _ => cases hop

/-- Every goroutine that called the generator on the timeout branch has returned what that
call gave. -/
def TimeoutReturns (codec : Codec T) (s : State T) : Prop :=
  ∀ i g, s.goroutines[i]? = some g → ∀ e ∈ s.log, e.gid = i → ∀ k r,
    e.op = .generate .cooperativeGen k r → g.pc = .done (coopReturn codec e.time r)

theorem TimeoutReturns.step {allowed : State T → Action T → Prop} {s s' : State T} {a : Action T}
    (hs : Run cfg codec allowed s) (ht : TimeoutReturns codec s) (h : step cfg codec s a = some s') :
    TimeoutReturns codec s' := by
  have hb := hs.balanced
  cases a with
  | call req =>
    cases h
    intro i g hi e he hgid k r hop
    rcases List.getElem?_concat_eq_some hi with ⟨-, hi⟩ | ⟨rfl, rfl⟩
    · exact ht i g hi e he hgid k r hop
    · exact absurd hgid (hb.gid_lt e he).ne
  | tick d => cases h; exact ht
  | evict key => cases h; exact ht
  | run j o =>
    obtain ⟨g, out, hg, hexec, rfl⟩ := step_run h
    have hnew : ∀ e ∈ (out.op.map (Event.mk j s.now)).toList,
        e.gid = j ∧ e.time = s.now ∧ out.op = some e.op := by
      cases out.op <;> simp
    refine Outcome.forall_apply hg (fun i gi hij hi e he hgid k r hop => ?_)
      (fun e he hgid k r hop => ?_) (fun n g' _ e he hgid k r hop => ?_) <;>
      rw [Outcome.apply_log, List.mem_append] at he
    · rcases he with he | he
      · exact ht i gi hi e he hgid k r hop
      · exact absurd ((hnew e he).1.symm.trans hgid) (Ne.symm hij)
    · rcases he with he | he
      · -- an earlier generator call of `j` would mean that `j` had returned
        have hc := exec_cases hexec
        rw [ht j g hg e he hgid k r hop] at hc
        cases hc
      · obtain ⟨-, htime, hop'⟩ := hnew e he
        rw [htime]
        exact exec_coopGen_return hexec (hop'.trans (congrArg some hop))
    · have hlt := (List.getElem?_eq_some_iff.1 hg).1
      rcases he with he | he
      · have := hb.gid_lt e he
        omega
      · have := (hnew e he).1
        omega

theorem Run.timeoutReturns {allowed : State T → Action T → Prop} {s : State T}
    (hs : Run cfg codec allowed s) : TimeoutReturns codec s := by
  induction hs with
  | init h0 => intro i g _ e he; simp [h0.log] at he
  | step hs _ h ih => exact ih.step hs h

/-- A `CooperativeRefresh` call locks and writes only after its lock-wait goroutine
closed `done`. A call that generated on the timeout branch never locks or writes, and has
returned what that generator call gave: the value, not from the cache and stamped with the
time of the call, or the generator's error. -/
theorem cooperative_writes_after_close {s : State T} (hs : Reachable cfg codec s) {i : ℕ}
    {g : Goroutine T} (hg : s.goroutines[i]? = some g) (hc : g.origin.CallsWith cfg .cooperativeRefresh) :
    (∀ pre e post, s.log = pre ++ e :: post → e.gid = i → e.op.locksOrWrites → WaiterClosed s i pre) ∧
    (∀ e₁ ∈ s.log, ∀ e₂ ∈ s.log, e₁.gid = i → e₂.gid = i → e₁.op.isCoopGen →
      e₂.op.locksOrWrites = false) ∧
    ∀ e ∈ s.log, e.gid = i → ∀ k r, e.op = .generate .cooperativeGen k r →
      g.pc = .done (coopReturn codec e.time r) :=
  ⟨(hs.cooperative.call i g hg hc).2.1, (hs.cooperative.call i g hg hc).2.2, hs.timeoutReturns i g hg⟩

/-- Two cooperative calls of `"k"` with a timeout of zero. The first selects before its
lock-wait goroutine has run, takes the timeout branch and generates `5`. The second lets its
lock-wait goroutine close `done` first, takes `done`, locks, generates `6` and writes it. -/
def coopRuns : List (Action UInt8) :=
  [.call (.getOrRefresh "k" [.withCallMissPolicy .cooperativeRefresh]), .run 0 (.ok none),
    .run 0 (.ok none), .run 0 (.ok none), .run 0 (.ok (some 5)),
    .call (.getOrRefresh "k" [.withCallMissPolicy .cooperativeRefresh]), .run 2 (.ok none),
    .run 2 (.ok none), .run 3 (.ok none), .run 3 (.ok none), .run 3 (.ok none), .run 3 (.ok none),
    .run 2 (.ok none), .run 2 (.ok none), .run 2 (.ok none), .run 2 (.ok none), .run 2 (.ok (some 6)),
    .run 2 (.ok none), .run 2 (.ok none), .run 2 (.ok none)]

/-- In `coopRuns` the first call neither locks nor writes and returns `5`, and the second
takes the lock only after its lock-wait goroutine closed `done`. -/
theorem cooperative_writes_after_close_coopRuns :
    ∃ (s : State UInt8) (g₀ : Goroutine UInt8),
      runActions (newConfig [.withCooperativeTimeout 0]) byteCodec .empty coopRuns = some s ∧
      s.goroutines[0]? = some g₀ ∧ (∀ e ∈ s.log, e.gid = 0 → e.op.locksOrWrites = false) ∧
      g₀.pc = .done (⟨5, false, some 0⟩, none) ∧ WaiterClosed s 2 (s.log.take 6) := by
  have hrun : runActions (newConfig [.withCooperativeTimeout 0]) byteCodec .empty coopRuns = some _ := rfl
  have hs := Run.runActions (.init State.empty_initial) _ (fun _ _ => trivial) hrun
  have h₀ := cooperative_writes_after_close hs (i := 0) rfl (by decide)
  have h₂ := cooperative_writes_after_close hs (i := 2) rfl (by decide)
  refine ⟨_, _, hrun, rfl, fun e he hi => h₀.2.1 ⟨0, 0, .generate .cooperativeGen "k" (some 5)⟩
    (List.getElem?_mem (n := 0) rfl) e he rfl hi rfl, h₀.2.2 ⟨0, 0, .generate .cooperativeGen "k" (some 5)⟩
    (List.getElem?_mem (n := 0) rfl) rfl "k" (some 5) rfl, h₂.1 _ ⟨2, 0, .acquire .syncMiss "k" 0⟩ _ rfl rfl rfl⟩

/-- With a cooperative timeout of zero, a lock-wait goroutine that closes `done` before
the call's select lets the select take `done`, and the call then writes. -/
theorem done_before_select_writes :
    ¬ ∀ s : State UInt8, Reachable (newConfig [.withCooperativeTimeout 0]) byteCodec s →
      ∀ i g, s.goroutines[i]? = some g →
        g.origin.CallsWith (newConfig [.withCooperativeTimeout 0]) .cooperativeRefresh →
        ∀ e ∈ s.log, e.gid = i → e.op.writes = false := by
  intro h
  obtain ⟨s, hs, hp⟩ := runActions_any (newConfig [.withCooperativeTimeout 0]) byteCodec
    [.call (.getOrRefresh "k" [.withCallMissPolicy .cooperativeRefresh]), .run 0 (.ok none),
      .run 0 (.ok none), .run 1 (.ok none), .run 1 (.ok none), .run 1 (.ok none), .run 1 (.ok none),
      .run 0 (.ok none), .run 0 (.ok none), .run 0 (.ok none), .run 0 (.ok none),
      .run 0 (.ok (some 5)), .run 0 (.ok none)]
    (p := fun s => (s.goroutines[0]?.any fun (g : Goroutine UInt8) =>
      decide (Origin.CallsWith (newConfig [.withCooperativeTimeout 0]) .cooperativeRefresh g.origin)) &&
      s.log.any fun e => e.gid == 0 && e.op.writes)
    (by decide)
  cases hg : s.goroutines[0]? with
  | none => simp [hg] at hp
  | some g =>
    simp only [hg, Option.any_some, Bool.and_eq_true, decide_eq_true_eq, List.any_eq_true,
      beq_iff_eq] at hp
    obtain ⟨hc, e, he, hgid, hw⟩ := hp
    rw [h s hs 0 g hg hc e he hgid] at hw
    cases hw

end Cashcov.Handler
