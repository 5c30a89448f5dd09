import Cashcov.Discipline

/-!
# Failure atomicity

A call that returns an error returns the zero result, and neither it nor a task it
started has written the backend or the ledger: the steps that can still end in an
error write nothing and start only the lock-wait goroutine of `CooperativeRefresh`,
which writes nothing, and a call that has written can no longer fail. Every value a
call or its tasks write was returned by one of their generator calls. In a run where
every generator call fails and nobody calls `Set`, nothing is written at all.
-/
namespace Cashcov.Handler

open Cashcov.Lock

variable {T : Type} {cfg : HandlerConfig} {codec : Codec T}

/-- Whether the operation writes the backend or the ledger. -/
def Op.writes : Op T → Bool
  | .write .. | .stamp .. => true
  | _ => false

/-- The value a generator call returned, when it returned one. -/
def Op.generated : Op T → Option T
  | .generate _ _ r => r
  | _ => none

def Critical.mayFail : Critical T → Bool
  | .syncMiss _ => true
  | _ => false

def Critical.isCoopWait : Critical T → Bool
  | .coopWait => true
  | _ => false

def SetRet.isSyncMiss : SetRet → Bool
  | .syncMiss .. => true
  | _ => false

/-- Whether a goroutine here can still return an error. -/
def Pc.mayFail : Pc T → Bool
  | .start .. | .getCall | .syncCheck .. | .syncGen .. | .asyncGen | .staleCheck | .coopStart
  | .coopSelect .. | .coopGen => true
  | .setWrite _ r => r.isSyncMiss
  | .lockCh k | .lockSend k _ | .tryCh k | .trySelect k _ => k.mayFail
  | .syncUnlock _ _ ret | .done ret => ret.2.isSome
  | _ => false

/-- The lock-wait goroutine of `CooperativeRefresh`. -/
def Pc.waiter : Pc T → Bool
  | .lockCh k | .lockSend k _ => k.isCoopWait
  | .unlock site _ => site == .cooperativeWait
  | .waitClose _ | .exit => true
  | _ => false

/-- An error comes with the zero result. -/
def Ret.errZero (codec : Codec T) (ret : Ret T) : Prop :=
  ret.2.isSome → ret.1 = Result.zero codec

def Pc.errZero (codec : Codec T) : Pc T → Prop
  | .syncUnlock _ _ ret | .done ret => ret.errZero codec
  | _ => True

/-- The goroutines of the call `i`: the call and the tasks it started. -/
def State.family (s : State T) (i j : ℕ) : Prop :=
  j = i ∨ ∃ g, s.goroutines[j]? = some g ∧ g.origin = .spawned i

section Steps

@[simp] theorem afterSet_mayFail (now : ℕ) (v : T) (r : SetRet) (e : Option Err) :
    (afterSet codec now v r e).mayFail = (r.isSyncMiss && e.isSome) := by
  cases r <;> cases e <;> rfl

@[simp] theorem afterSet_waiter (now : ℕ) (v : T) (r : SetRet) (e : Option Err) :
    (afterSet codec now v r e).waiter = false := by
  cases r <;> cases e <;> rfl

@[simp] theorem afterSet_errZero (now : ℕ) (v : T) (r : SetRet) (e : Option Err) :
    (afterSet codec now v r e).errZero codec := by
  cases r <;> cases e <;> simp [afterSet, Pc.errZero, Ret.errZero]

@[simp] theorem missPc_mayFail (p : MissPolicy) (co : CallOpts) :
    (missPc codec p co).mayFail = !(p matches .bestEffort) := by
  cases p <;> rfl

@[simp] theorem missPc_waiter (p : MissPolicy) (co : CallOpts) : (missPc codec p co).waiter = false := by
  cases p <;> rfl

@[simp] theorem missPc_errZero (p : MissPolicy) (co : CallOpts) : (missPc codec p co).errZero codec := by
  cases p <;> simp [missPc, Pc.errZero, Ret.errZero, Result.zero]

@[simp] theorem Critical.first_mayFail (k : Critical T) (c : ℕ) : (k.first c).mayFail = k.mayFail := by
  cases k <;> rfl

@[simp] theorem Critical.first_waiter (k : Critical T) (c : ℕ) : (k.first c).waiter = k.isCoopWait := by
  cases k <;> rfl

@[simp] theorem Critical.first_errZero (k : Critical T) (c : ℕ) : (k.first c).errZero codec := by
  cases k <;> trivial

@[simp] theorem Pc.errZero_done (ret : Ret T) : (Pc.done ret).errZero codec = ret.errZero codec := rfl

theorem getReply_errZero (reply : Option (Option Bytes)) (now : ℕ) :
    (getReply codec reply now).errZero codec := by
  unfold getReply; split <;> (try split) <;> simp [Ret.errZero, Result.zero]

theorem afterSync_of_isSome {now self : ℕ} {g : Goroutine T} {κ : SyncCont} {e : Option Err}
    (h : e.isSome) : afterSync cfg now self g κ e = [] := by
  cases e
  · simp at h
  · cases κ <;> rfl

theorem Pc.errZero_of_isTaskStart {pc : Pc T} (h : pc.isTaskStart) : pc.errZero codec := by
  cases pc <;> trivial

/-- A step keeps an error with the zero result. -/
theorem exec_errZero {s : State T} {i : ℕ} {g : Goroutine T} {o : Oracle T} {out : Outcome T}
    (h : exec cfg codec s i g o = some out) : g.pc.errZero codec → out.pc.errZero codec := by
  have ok : ∀ {res : Ret T}, res.2 = none → res.errZero codec := fun hok hs => by rw [hok] at hs; cases hs
  obtain ⟨key, ttl, origin, pc⟩ := g
  cases exec_cases h with
  | startHit _ hok => split <;> exact fun _ => by first | exact ok hok | trivial
  | syncHit _ hok => exact fun _ => ok hok
  | startMiss => exact fun _ => missPc_errZero ..
  | lockSend _ | trySelect _ => exact fun _ => Critical.first_errZero ..
  | syncUnlock _ => exact id
  | setMarshalFail | setFail | setStamp => exact fun _ => afterSet_errZero ..
  | getCall => exact fun _ => getReply_errZero _ _
  | _ => first | exact fun _ => trivial | exact fun _ _ => rfl | exact fun _ h => absurd h Bool.false_ne_true

/-- A goroutine that can still fail after a step could before it, wrote nothing in it, and
started only lock-wait goroutines. -/
theorem exec_mayFail {s : State T} {i : ℕ} {g : Goroutine T} {o : Oracle T} {out : Outcome T}
    (h : exec cfg codec s i g o = some out) (hm : out.pc.mayFail) :
    g.pc.mayFail ∧ (∀ op, out.op = some op → op.writes = false) ∧ ∀ g' ∈ out.spawns, g'.pc.waiter := by
  have nil : ∀ g' ∈ ([] : List (Goroutine T)), g'.pc.waiter := fun _ h => absurd h (List.not_mem_nil _)
  obtain ⟨key, ttl, origin, pc⟩ := g
  cases exec_cases h with
  | startHit _ hok => split at hm <;> simp [Pc.mayFail, hok] at hm
  | syncHit _ hok => simp [Pc.mayFail, hok] at hm
  | lockCh | tryCh => exact ⟨hm, fun _ h => by cases h; rfl, nil⟩
  | lockSend _ | trySelect _ =>
    exact ⟨(Critical.first_mayFail _ _).symm.trans hm, fun _ h => by cases h; rfl, nil⟩
  | syncUnlock _ =>
    exact ⟨hm, fun _ h => by cases h; rfl, by rw [afterSync_of_isSome hm]; exact nil⟩
  | coopStart => exact ⟨rfl, (fun _ h => by cases h), fun _ h => by cases List.mem_singleton.1 h; rfl⟩
  | setMarshalFail | setFail =>
    rw [afterSet_mayFail, Bool.and_eq_true] at hm
    exact ⟨hm.1, (fun _ h => by cases h), nil⟩
  | setStamp => rw [afterSet_mayFail, Bool.and_eq_true] at hm; cases hm.2
  | _ => first
    | exact absurd hm Bool.false_ne_true
    | exact ⟨rfl, fun _ h => by cases h <;> rfl, nil⟩

/-- The lock-wait goroutine of `CooperativeRefresh` stays one, writes nothing and starts
nothing. -/
theorem exec_waiter {s : State T} {i : ℕ} {g : Goroutine T} {o : Oracle T} {out : Outcome T}
    (h : exec cfg codec s i g o = some out) (hw : g.pc.waiter) :
    out.pc.waiter ∧ (∀ op, out.op = some op → op.writes = false) ∧ out.spawns = [] := by
  obtain ⟨key, ttl, origin, pc⟩ := g
  cases exec_cases h with
  | lockCh => exact ⟨hw, fun _ h => by cases h; rfl, rfl⟩
  | lockSend _ => exact ⟨(Critical.first_waiter _ _).trans hw, fun _ h => by cases h; rfl, rfl⟩
  | waitClose | unlock _ => exact ⟨rfl, fun _ h => by cases h; rfl, rfl⟩
  | _ => exact absurd hw Bool.false_ne_true

end Steps

/-- The failure bookkeeping: parents come before their tasks, errors come with the zero
result, and a goroutine that can still fail has not written, nor has any task it
started, and those tasks are all lock-wait goroutines. -/
structure Atomic (codec : Codec T) (s : State T) : Prop where
  parent_lt : ∀ (j : ℕ) (g : Goroutine T), s.goroutines[j]? = some g → ∀ p, g.origin = .spawned p → p < j
  errZero : ∀ g ∈ s.goroutines, g.pc.errZero codec
  clean : ∀ (i : ℕ) (g : Goroutine T), s.goroutines[i]? = some g → g.pc.mayFail →
    (∀ ev ∈ s.log, s.family i ev.gid → ev.op.writes = false) ∧
    ∀ (j : ℕ) (gj : Goroutine T), s.goroutines[j]? = some gj → gj.origin = .spawned i → gj.pc.waiter

/-- A goroutine that no event and no goroutine refers to yet can fail freely. -/
theorem clean_of_fresh {s : State T} {i : ℕ} (hev : ∀ ev ∈ s.log, ev.gid ≠ i)
    (hch : ∀ (j : ℕ) (gj : Goroutine T), s.goroutines[j]? = some gj → gj.origin ≠ .spawned i) :
    (∀ ev ∈ s.log, s.family i ev.gid → ev.op.writes = false) ∧
    ∀ (j : ℕ) (gj : Goroutine T), s.goroutines[j]? = some gj → gj.origin = .spawned i → gj.pc.waiter := by
  refine ⟨fun ev he hf => ?_, fun j gj hj ho => absurd ho (hch j gj hj)⟩
  rcases hf with hf | ⟨gj, hj, ho⟩
  · exact absurd hf (hev ev he)
  · exact absurd ho (hch _ gj hj)

theorem Atomic.run {s : State T} (ha : Atomic codec s) (hb : Balanced cfg s) {k : ℕ}
    {g : Goroutine T} {o : Oracle T} {out : Outcome T} (hg : s.goroutines[k]? = some g)
    (h : exec cfg codec s k g o = some out) : Atomic codec (out.apply s k g) := by
  have hz := exec_errZero h
  have hsp := exec_spawns h
  have hk := (List.getElem?_eq_some_iff.1 hg).1
  have hget := Outcome.apply_getElem? (g := g) out hk
  -- the origin of an old goroutine is unchanged
  have horig : ∀ j gj, (out.apply s k g).goroutines[j]? = some gj → j < s.goroutines.length →
      ∃ g₀, s.goroutines[j]? = some g₀ ∧ gj.origin = g₀.origin ∧ (j ≠ k → gj = g₀) := by
    intro j gj hj hlt
    rw [hget] at hj
    split_ifs at hj with e
    · subst e; cases hj; exact ⟨g, hg, rfl, fun h => absurd rfl h⟩
    · exact ⟨gj, hj, rfl, fun _ => rfl⟩
  have hnew : ∀ j gj, (out.apply s k g).goroutines[j]? = some gj → s.goroutines.length ≤ j →
      gj ∈ out.spawns := by
    intro j gj hj hle
    rw [hget, if_neg (by omega), if_neg (by omega)] at hj
    exact List.getElem?_mem hj
  have hevs : ∀ ev ∈ (out.apply s k g).log, ev ∈ s.log ∨ (ev.gid = k ∧ out.op = some ev.op) := by
    intro ev he
    simp only [Outcome.apply_log, List.mem_append] at he
    rcases he with he | he
    · exact .inl he
    · cases hop : out.op with
      | none => simp [hop] at he
      | some op =>
        simp only [hop, Option.map_some', Option.toList_some, List.mem_singleton] at he
        subst he; exact .inr ⟨rfl, rfl⟩
  have hpl : ∀ (j : ℕ) (gj : Goroutine T), (out.apply s k g).goroutines[j]? = some gj →
      ∀ p, gj.origin = .spawned p → p < j := by
    intro j gj hj p hp
    rcases Nat.lt_or_ge j s.goroutines.length with hlt | hle
    · obtain ⟨g₀, h₀, ho, -⟩ := horig j gj hj hlt
      exact ha.parent_lt j g₀ h₀ p (ho ▸ hp)
    · obtain ⟨-, -, ho, -⟩ := hsp gj (hnew j gj hj hle)
      rw [ho] at hp; cases hp; omega
  have hfam : ∀ i j, j < s.goroutines.length → (out.apply s k g).family i j → s.family i j := by
    rintro i j hlt (rfl | ⟨gj, hj, ho⟩)
    · exact .inl rfl
    · obtain ⟨g₀, h₀, ho₀, -⟩ := horig j gj hj hlt
      exact .inr ⟨g₀, h₀, ho₀ ▸ ho⟩
  refine ⟨hpl, fun gj hj => ?_, fun i gi hi hmi => ?_⟩
  · obtain ⟨j, hj⟩ := List.getElem?_of_mem hj
    rcases Nat.lt_or_ge j s.goroutines.length with hlt | hle
    · by_cases e : j = k
      · subst e; rw [hget, if_pos rfl] at hj; cases hj
        exact hz (ha.errZero g (List.getElem?_mem hg))
      · obtain ⟨g₀, h₀, -, hg₀⟩ := horig j gj hj hlt
        rw [hg₀ e]; exact ha.errZero g₀ (List.getElem?_mem h₀)
    · exact Pc.errZero_of_isTaskStart (hsp gj (hnew j gj hj hle)).2.2.2
  rcases Nat.lt_or_ge i s.goroutines.length with hlt | hle
  · obtain ⟨g₀, h₀, -, hg₀⟩ := horig i gi hi hlt
    by_cases e : i = k
    · -- the stepping goroutine can still fail, so it could before and wrote nothing now
      subst e
      rw [hget, if_pos rfl] at hi; cases hi
      obtain ⟨hmay, hop, hspw⟩ := exec_mayFail h hmi
      obtain ⟨hold, hch⟩ := ha.clean i g hg hmay
      refine ⟨fun ev he hf => ?_, fun j gj hj ho => ?_⟩
      · rcases hevs ev he with he | ⟨-, hop'⟩
        · exact hold ev he (hfam i ev.gid (hb.gid_lt ev he) hf)
        · exact hop ev.op hop'
      · rcases Nat.lt_or_ge j s.goroutines.length with hj' | hj'
        · obtain ⟨g₁, h₁, ho₁, hg₁⟩ := horig j gj hj hj'
          have hji : j ≠ i := fun e => by
            subst e; have := ha.parent_lt j g₁ h₁ j (ho₁ ▸ ho); omega
          rw [hg₁ hji]; exact hch j g₁ h₁ (ho₁ ▸ ho)
        · exact hspw gj (hnew j gj hj hj')
    · -- another goroutine: only a lock-wait task of `i` could have written, and it does not
      rw [hg₀ e] at hmi
      obtain ⟨hold, hch⟩ := ha.clean i g₀ h₀ hmi
      refine ⟨fun ev he hf => ?_, fun j gj hj ho => ?_⟩
      · rcases hevs ev he with he | ⟨hgid, hop'⟩
        · exact hold ev he (hfam i ev.gid (hb.gid_lt ev he) hf)
        · rcases hfam i k hk (hgid ▸ hf) with hki | ⟨gk, hgk, hok⟩
          · exact absurd hki.symm e
          · rw [hg] at hgk; cases hgk
            exact (exec_waiter h (hch k g hg hok)).2.1 ev.op hop'
      · rcases Nat.lt_or_ge j s.goroutines.length with hj' | hj'
        · obtain ⟨g₁, h₁, ho₁, hg₁⟩ := horig j gj hj hj'
          by_cases ejk : j = k
          · subst ejk; rw [hget, if_pos rfl] at hj; cases hj
            rw [hg] at h₁; cases h₁
            exact (exec_waiter h (hch j g hg ho)).1
          · rw [hg₁ ejk]; exact hch j g₁ h₁ (ho₁ ▸ ho)
        · obtain ⟨-, -, ho', -⟩ := hsp gj (hnew j gj hj hj')
          rw [ho'] at ho; cases ho; exact absurd rfl e
  · -- a goroutine started by this step: no event and no goroutine refers to it yet
    refine clean_of_fresh (fun ev he => ?_) (fun j gj hj ho => ?_)
    · rcases hevs ev he with he | ⟨hgid, -⟩
      · have := hb.gid_lt ev he; omega
      · omega
    · have := hpl j gj hj i ho
      rcases Nat.lt_or_ge j s.goroutines.length with hj' | hj'
      · omega
      · obtain ⟨-, -, ho', -⟩ := hsp gj (hnew j gj hj hj')
        rw [ho'] at ho; cases ho; omega

theorem Request.goroutine_errZero (req : Request T) : (req.goroutine cfg).pc.errZero codec := by
  cases req <;> trivial

theorem Atomic.step {s s' : State T} {a : Action T} (ha : Atomic codec s) (hb : Balanced cfg s)
    (h : step cfg codec s a = some s') : Atomic codec s' := by
  cases a with
  | call req =>
    cases h
    have hcall : ∀ (j : ℕ) (gj : Goroutine T), (s.goroutines ++ [req.goroutine cfg])[j]? = some gj →
        (j < s.goroutines.length ∧ s.goroutines[j]? = some gj) ∨
          (j = s.goroutines.length ∧ ∀ p, gj.origin ≠ .spawned p) := by
      intro j gj hj
      rcases List.getElem?_concat_eq_some hj with hj | ⟨rfl, rfl⟩
      · exact .inl hj
      · exact .inr ⟨rfl, fun p => by cases req <;> nofun⟩
    have hfam : ∀ i j, ({ s with goroutines := s.goroutines ++ [req.goroutine cfg] } : State T).family i j →
        s.family i j := by
      rintro i j (rfl | ⟨gj, hj, ho⟩)
      · exact .inl rfl
      · rcases hcall j gj hj with ⟨-, hj⟩ | ⟨-, hno⟩
        · exact .inr ⟨gj, hj, ho⟩
        · exact absurd ho (hno i)
    refine ⟨fun j gj hj p hp => ?_, fun gj hj => ?_, fun i gi hi hmi => ?_⟩
    · rcases hcall j gj hj with ⟨-, hj⟩ | ⟨-, hno⟩
      · exact ha.parent_lt j gj hj p hp
      · exact absurd hp (hno p)
    · rcases List.mem_append.1 hj with hj | hj
      · exact ha.errZero gj hj
      · rw [List.mem_singleton.1 hj]; exact Request.goroutine_errZero req
    · rcases hcall i gi hi with ⟨hlt, hi⟩ | ⟨rfl, -⟩
      · obtain ⟨hold, hch⟩ := ha.clean i gi hi hmi
        refine ⟨fun ev he hf => hold ev he (hfam i ev.gid hf), fun j gj hj ho => ?_⟩
        rcases hcall j gj hj with ⟨-, hj⟩ | ⟨-, hno⟩
        · exact hch j gj hj ho
        · exact absurd ho (hno i)
      · refine clean_of_fresh (fun ev he => (hb.gid_lt ev he).ne) (fun j gj hj ho => ?_)
        rcases hcall j gj hj with ⟨hlt, hj⟩ | ⟨-, hno⟩
        · have := ha.parent_lt j gj hj _ ho; omega
        · exact hno _ ho
  | tick d => cases h; exact ⟨ha.1, ha.2, ha.3⟩
  | evict key => cases h; exact ⟨ha.1, ha.2, ha.3⟩
  | run i o =>
    obtain ⟨g, out, hg, hexec, rfl⟩ := step_run h
    exact ha.run hb hg hexec

theorem Run.atomic {allowed : State T → Action T → Prop} {s : State T}
    (hs : Run cfg codec allowed s) : Atomic codec s := by
  induction hs with
  | init h0 => exact ⟨by simp [h0.goroutines], by simp [h0.goroutines], by simp [h0.goroutines]⟩
  | step hs _ h ih => exact ih.step hs.balanced h

/-! ### Provenance of written values -/

def Critical.value : Critical T → Option T
  | .missWrite v => some v
  | _ => none

def SetRet.isCall : SetRet → Bool
  | .call => true
  | _ => false

/-- The generated value a goroutine carries to a write; the public `Set` carries none. -/
def Pc.pending : Pc T → Option T
  | .lockCh k | .lockSend k _ | .tryCh k | .trySelect k _ => k.value
  | .missWriteExists v _ | .staleCompanion v _ => some v
  | .setWrite v r | .setStamp v r => if r.isCall then none else some v
  | _ => none

/-- Whether the goroutine is inside a public `Set`. -/
def Pc.isPublicSet : Pc T → Bool
  | .setWrite _ r | .setStamp _ r => r.isCall
  | _ => false

def Origin.isSetCall : Origin T → Bool
  | .call (.set ..) => true
  | _ => false

section Steps

@[simp] theorem afterSet_pending (now : ℕ) (v : T) (r : SetRet) (e : Option Err) :
    (afterSet codec now v r e).pending = if r matches .staleRefresh _ then some v else none := by
  cases r <;> cases e <;> rfl

@[simp] theorem afterSet_isPublicSet (now : ℕ) (v : T) (r : SetRet) (e : Option Err) :
    (afterSet codec now v r e).isPublicSet = false := by
  cases r <;> cases e <;> rfl

@[simp] theorem missPc_pending (p : MissPolicy) (co : CallOpts) : (missPc codec p co).pending = none := by
  cases p <;> rfl

@[simp] theorem missPc_isPublicSet (p : MissPolicy) (co : CallOpts) :
    (missPc codec p co).isPublicSet = false := by
  cases p <;> rfl

@[simp] theorem Critical.first_pending (k : Critical T) (c : ℕ) : (k.first c).pending = k.value := by
  cases k <;> rfl

@[simp] theorem Critical.first_isPublicSet (k : Critical T) (c : ℕ) : (k.first c).isPublicSet = false := by
  cases k <;> rfl

theorem afterSync_pending {now self : ℕ} {g : Goroutine T} {κ : SyncCont} {e : Option Err} :
    ∀ g' ∈ afterSync cfg now self g κ e, g'.pc.pending = none := by
  intro g' hg'
  obtain ⟨pc, rfl, rfl | ⟨t, rfl⟩⟩ := mem_afterSync hg' <;> rfl

theorem exec_pending_pc {s : State T} {i : ℕ} {g : Goroutine T} {o : Oracle T} {out : Outcome T}
    (h : exec cfg codec s i g o = some out) :
    ∀ v, out.pc.pending = some v → g.pc.pending = some v ∨ out.op.bind Op.generated = some v := by
  obtain ⟨key, ttl, origin, pc⟩ := g
  cases exec_cases h with
  | startHit => split <;> exact fun _ hv => Option.noConfusion hv
  | startMiss => exact fun _ hv => by rw [missPc_pending] at hv; cases hv
  | lockCh | tryCh | missWriteAbsent | setWrite => exact fun _ hv => .inl hv
  | lockSend _ | trySelect _ => exact fun _ hv => .inl ((Critical.first_pending _ _).symm.trans hv)
  | syncGen hgen | bestGen hgen | refreshGen hgen | staleGen hgen => exact fun _ hv => .inr hv
  | setMarshalFail | setFail | setStamp =>
    cases ‹SetRet› <;> first | exact fun _ hv => .inl hv | exact fun _ hv => Option.noConfusion hv
  | _ => exact fun _ hv => Option.noConfusion hv

theorem exec_pending_spawns {s : State T} {i : ℕ} {g : Goroutine T} {o : Oracle T} {out : Outcome T}
    (h : exec cfg codec s i g o = some out) :
    ∀ g' ∈ out.spawns, ∀ v, g'.pc.pending = some v → out.op.bind Op.generated = some v := by
  obtain ⟨key, ttl, origin, pc⟩ := g
  cases exec_cases h with
  | hitRefresh =>
    split
    · exact fun _ hg' _ hv => by cases List.mem_singleton.1 hg'; exact Option.noConfusion hv
    · exact fun _ hg' => absurd hg' (List.not_mem_nil _)
  | asyncGen _ => exact fun _ hg' _ hv => by cases List.mem_singleton.1 hg'; exact hv
  | staleHit _ | coopStart =>
    exact fun _ hg' _ hv => by cases List.mem_singleton.1 hg'; exact Option.noConfusion hv
  | syncUnlock _ => exact fun g' hg' _ hv => Option.noConfusion ((afterSync_pending g' hg').symm.trans hv)
  | _ => exact fun _ hg' => absurd hg' (List.not_mem_nil _)

/-- A write is that of a public `Set`, or of the value the goroutine carries. -/
theorem exec_write_pending {s : State T} {i : ℕ} {g : Goroutine T} {o : Oracle T} {out : Outcome T}
    (h : exec cfg codec s i g o = some out) :
    ∀ site k b ttl, out.op = some (.write site k b ttl) →
      (site = .set ∧ g.pc.isPublicSet) ∨ ∃ v, g.pc.pending = some v ∧ codec.marshal v = some b := by
  obtain ⟨key, ttl, origin, pc⟩ := g
  cases exec_cases h with
  | setWrite hm _ =>
    rintro _ _ _ _ ⟨⟩
    cases ‹SetRet› <;> first | exact .inl ⟨rfl, rfl⟩ | exact .inr ⟨_, rfl, hm⟩
  | companionWrite hm _ => rintro _ _ _ _ ⟨⟩; exact .inr ⟨_, rfl, hm⟩
  | setStamp => intro _ _ _ _ hw; split at hw <;> cases hw
  | _ => exact fun _ _ _ _ hw => by cases hw

theorem exec_isPublicSet {s : State T} {i : ℕ} {g : Goroutine T} {o : Oracle T} {out : Outcome T}
    (h : exec cfg codec s i g o = some out) : out.pc.isPublicSet → g.pc.isPublicSet := by
  obtain ⟨key, ttl, origin, pc⟩ := g
  cases exec_cases h with
  | startHit => split <;> exact fun h => absurd h Bool.false_ne_true
  | startMiss => exact fun h => absurd ((missPc_isPublicSet _ _).symm.trans h) Bool.false_ne_true
  | lockSend _ | trySelect _ =>
    exact fun h => absurd ((Critical.first_isPublicSet _ _).symm.trans h) Bool.false_ne_true
  | setMarshalFail | setFail | setStamp =>
    exact fun h => absurd ((afterSet_isPublicSet _ _ _ _).symm.trans h) Bool.false_ne_true
  | setWrite => exact id
  | _ => exact fun h => absurd h Bool.false_ne_true

/-- Where a step takes the value a goroutine carries, and what it writes. -/
theorem exec_pending {s : State T} {i : ℕ} {g : Goroutine T} {o : Oracle T} {out : Outcome T}
    (h : exec cfg codec s i g o = some out) :
    (∀ v, out.pc.pending = some v → g.pc.pending = some v ∨ out.op.bind Op.generated = some v) ∧
    (∀ g' ∈ out.spawns, ∀ v, g'.pc.pending = some v → out.op.bind Op.generated = some v) ∧
    (∀ site k b ttl, out.op = some (.write site k b ttl) →
      (site = .set ∧ g.pc.isPublicSet) ∨ ∃ v, g.pc.pending = some v ∧ codec.marshal v = some b) ∧
    (out.pc.isPublicSet → g.pc.isPublicSet) :=
  ⟨exec_pending_pc h, exec_pending_spawns h, exec_write_pending h, exec_isPublicSet h⟩

end Steps

/-- Every value a goroutine carries to a write was returned by a generator call of the
goroutine or of its parent, only `Set` calls are inside a public `Set`, and every write
outside a public `Set` stores such a value, generated before it. -/
structure Provenance (codec : Codec T) (s : State T) : Prop where
  pending : ∀ (j : ℕ) (g : Goroutine T), s.goroutines[j]? = some g → ∀ v, g.pc.pending = some v →
    ∃ ev ∈ s.log, ev.op.generated = some v ∧ (ev.gid = j ∨ g.origin = .spawned ev.gid)
  publicSet : ∀ (j : ℕ) (g : Goroutine T), s.goroutines[j]? = some g → g.pc.isPublicSet →
    g.origin.isSetCall
  history : ∀ pre ev post, s.log = pre ++ ev :: post → ∀ site k b ttl, ev.op = .write site k b ttl →
    (site = .set ∧ ∃ g, s.goroutines[ev.gid]? = some g ∧ g.origin.isSetCall) ∨
    ∃ v, codec.marshal v = some b ∧ ∃ ev' ∈ pre, ev'.op.generated = some v ∧
      (ev'.gid = ev.gid ∨ ∃ g, s.goroutines[ev.gid]? = some g ∧ g.origin = .spawned ev'.gid)

/-- Facts about an old goroutine carry over a step, which changes only program counters. -/
theorem exists_getElem?_step {s s' : State T} {a : Action T} (h : step cfg codec s a = some s')
    {j : ℕ} {P : Goroutine T → Prop} (hP : ∀ g pc, P g → P { g with pc := pc })
    (hj : ∃ g, s.goroutines[j]? = some g ∧ P g) : ∃ g, s'.goroutines[j]? = some g ∧ P g := by
  obtain ⟨g, hg, hp⟩ := hj
  obtain ⟨pc, hpc⟩ := step_getElem? h hg
  exact ⟨_, hpc, hP g pc hp⟩

theorem Pc.isPublicSet_of_isTaskStart {pc : Pc T} (h : pc.isTaskStart) : pc.isPublicSet = false := by
  cases pc <;> trivial

theorem Provenance.step {s s' : State T} {a : Action T} (hp : Provenance codec s)
    (h : step cfg codec s a = some s') : Provenance codec s' := by
  have hist : ∀ pre ev post, s.log = pre ++ ev :: post → ∀ site k b ttl, ev.op = .write site k b ttl →
      (site = .set ∧ ∃ g, s'.goroutines[ev.gid]? = some g ∧ g.origin.isSetCall) ∨
      ∃ v, codec.marshal v = some b ∧ ∃ ev' ∈ pre, ev'.op.generated = some v ∧
        (ev'.gid = ev.gid ∨ ∃ g, s'.goroutines[ev.gid]? = some g ∧ g.origin = .spawned ev'.gid) := by
    intro pre ev post hl site k b ttl hw
    rcases hp.history pre ev post hl site k b ttl hw with ⟨hs, hg⟩ | ⟨v, hb, ev', he', hgen, hor⟩
    · exact .inl ⟨hs, exists_getElem?_step h (fun _ _ h => h) hg⟩
    · refine .inr ⟨v, hb, ev', he', hgen, hor.imp id fun hg => ?_⟩
      exact exists_getElem?_step h (fun _ _ h => h) hg
  cases a with
  | call req =>
    cases h
    refine ⟨fun j g hj v hv => ?_, fun j g hj hs => ?_, hist⟩
    · rcases List.getElem?_concat_eq_some hj with ⟨-, hj⟩ | ⟨-, rfl⟩
      · exact hp.pending j g hj v hv
      · cases req <;> exact Option.noConfusion hv
    · rcases List.getElem?_concat_eq_some hj with ⟨-, hj⟩ | ⟨-, rfl⟩
      · exact hp.publicSet j g hj hs
      · cases req <;> first | rfl | exact absurd hs Bool.false_ne_true
  | tick d => cases h; exact ⟨hp.1, hp.2, hp.3⟩
  | evict key => cases h; exact ⟨hp.1, hp.2, hp.3⟩
  | run k o =>
    obtain ⟨g, out, hg, hexec, rfl⟩ := step_run h
    obtain ⟨hpend, hspawn, hwrite, hpub⟩ := exec_pending hexec
    have hsp := exec_spawns hexec
    have hk := (List.getElem?_eq_some_iff.1 hg).1
    -- the event of this step, if any, and the log grows by it
    have hnew : ∀ v, out.op.bind Op.generated = some v →
        ∃ ev ∈ (out.apply s k g).log, ev.op.generated = some v ∧ ev.gid = k := by
      intro v hv
      cases hop : out.op with
      | none => simp [hop] at hv
      | some op => exact ⟨⟨k, s.now, op⟩, by simp [hop], by simpa [hop] using hv, rfl⟩
    have hlog : ∀ ev ∈ s.log, ev ∈ (out.apply s k g).log := fun ev he => by simp [he]
    refine ⟨Outcome.forall_apply hg (fun j gj _ hj v hv => ?_) (fun v hv => ?_) (fun n g' hn v hv => ?_),
      Outcome.forall_apply hg (fun j gj _ hj hs => hp.publicSet j gj hj hs)
        (fun hs => hp.publicSet k g hg (hpub hs))
        (fun n g' hn hs => absurd hs (by
          rw [Pc.isPublicSet_of_isTaskStart (hsp g' (List.getElem?_mem hn)).2.2.2]; decide)),
      fun pre ev post hl site kk b ttl hw => ?_⟩
    · obtain ⟨ev, he, hgen, hor⟩ := hp.pending j gj hj v hv
      exact ⟨ev, hlog ev he, hgen, hor⟩
    · rcases hpend v hv with hv | hv
      · obtain ⟨ev, he, hgen, hor⟩ := hp.pending k g hg v hv
        exact ⟨ev, hlog ev he, hgen, hor⟩
      · obtain ⟨ev, he, hgen, hid⟩ := hnew v hv
        exact ⟨ev, he, hgen, .inl hid⟩
    · obtain ⟨ev, he, hgen, hid⟩ := hnew v (hspawn g' (List.getElem?_mem hn) v hv)
      exact ⟨ev, he, hgen, .inr (hid ▸ (hsp g' (List.getElem?_mem hn)).2.2.1)⟩
    · simp only [Outcome.apply_log] at hl
      cases hop : out.op with
      | none =>
        simp only [hop, Option.map_none', Option.toList_none, List.append_nil] at hl
        exact hist pre ev post hl site kk b ttl hw
      | some op =>
        simp only [hop, Option.map_some', Option.toList_some] at hl
        rcases List.snoc_eq_append_cons hl with ⟨rfl, rfl, -⟩ | ⟨post', -, hl'⟩
        · have hself : (out.apply s k g).goroutines[k]? = some { g with pc := out.pc } := by
            rw [Outcome.apply_getElem? out hk, if_pos rfl]
          rcases hwrite site kk b ttl (hop.trans (congrArg some hw)) with ⟨hs, hpubg⟩ | ⟨v, hv, hb⟩
          · exact .inl ⟨hs, _, hself, hp.publicSet k g hg hpubg⟩
          · obtain ⟨ev', he', hgen, hor⟩ := hp.pending k g hg v hv
            exact .inr ⟨v, hb, ev', he', hgen, hor.imp id fun ho => ⟨_, hself, ho⟩⟩
        · exact hist pre ev post' hl' site kk b ttl hw

theorem Run.provenance {allowed : State T → Action T → Prop} {s : State T}
    (hs : Run cfg codec allowed s) : Provenance codec s := by
  induction hs with
  | init h0 => exact ⟨by simp [h0.goroutines], by simp [h0.goroutines], by simp [h0.log]⟩
  | step _ _ h ih => exact ih.step h

/-! ### Runs in which every generator call fails -/

/-- The actions of a run in which every generator call fails and nobody calls `Set`. -/
def Action.generatorFails : Action T → Prop
  | .call (.set ..) => False
  | .run _ o => o.gen = none
  | _ => True

def Critical.quiet (absent : Bool) : Critical T → Bool
  | .syncMiss _ => absent
  | .missWrite _ => false
  | _ => true

/-- Where a goroutine can be when every generator call fails and nobody calls `Set`,
given whether its key is absent from the backend: nowhere with a value to write or a
stamp to make, on the synchronous miss path only while the key is absent, and past
the double-check only with an error. -/
def Pc.quiet (absent : Bool) : Pc T → Bool
  | .setWrite .. | .setStamp .. | .staleCompanion .. | .missWriteExists .. | .probStamp => false
  | .lockCh k | .lockSend k _ | .tryCh k | .trySelect k _ => k.quiet absent
  | .syncCheck .. | .staleCheck | .coopStart | .coopSelect .. => absent
  | .syncUnlock _ _ ret => ret.2.isSome
  | _ => true

section Steps

@[simp] theorem missPc_quiet (p : MissPolicy) (co : CallOpts) : (missPc codec p co).quiet true := by
  cases p <;> rfl

@[simp] theorem Critical.first_quiet (k : Critical T) (c : ℕ) (a : Bool) :
    (k.first c).quiet a = k.quiet a := by
  cases k <;> rfl

theorem getReply_ok_isSome {f : Bool} {x : Option Bytes} {now : ℕ}
    (h : (getReply codec (if f then none else some x) now).2 = none) : x.isSome := by
  cases f <;> cases x <;> first | exact Option.noConfusion h | rfl

theorem Pc.quiet_mono {pc : Pc T} (h : pc.quiet false) : pc.quiet true := by
  cases pc with
  | lockCh k => cases k <;> trivial
  | lockSend k _ => cases k <;> trivial
  | tryCh k => cases k <;> trivial
  | trySelect k _ => cases k <;> trivial
  | _ => trivial

/-- A goroutine step in such a run writes nothing and stays where it can be. -/
theorem exec_quiet {s : State T} {i : ℕ} {g : Goroutine T} {o : Oracle T} {out : Outcome T}
    (h : exec cfg codec s i g o = some out) (hgen : o.gen = none)
    (hq : g.pc.quiet (s.store (fullKey cfg g.key)).isNone) :
    out.pc.quiet (s.store (fullKey cfg g.key)).isNone ∧ out.op.all (!·.writes) ∧
      out.spawns.all (·.pc.quiet (s.store (fullKey cfg g.key)).isNone) := by
  obtain ⟨key, ttl, origin, pc⟩ := g
  cases exec_cases h with
  | startHit | hitRefresh => split <;> exact ⟨rfl, rfl, rfl⟩
  | startMiss hnil => rw [getReply_redisNil hnil]; exact ⟨missPc_quiet _ _, rfl, rfl⟩
  | lockSend _ | trySelect _ => exact ⟨(Critical.first_quiet _ _ _).trans hq, rfl, rfl⟩
  | syncHit hr hok =>
    -- the double-check read found the key, which a quiet goroutine there has seen absent
    have hq' : (s.store (fullKey cfg _)).isNone = true := hq
    rw [← hr] at hok
    have := getReply_ok_isSome hok
    rw [Option.isNone_iff_eq_none.1 hq'] at this
    cases this
  | syncUnlock _ => exact ⟨rfl, rfl, by rw [afterSync_of_isSome hq]; rfl⟩
  | syncGen hg | asyncGen hg | coopGen hg | bestGen hg | refreshGen hg | staleGen hg =>
    cases hgen.symm.trans hg
  | _ => first | exact absurd hq Bool.false_ne_true | exact ⟨rfl, rfl, rfl⟩ | exact ⟨hq, rfl, rfl⟩

end Steps

@[simp] theorem Op.apply_store_of_writes {op : Op T} (h : op.writes = false) (now : ℕ) (s : State T) :
    (op.apply now s).store = s.store := by
  cases op <;> first | rfl | exact absurd h Bool.noConfusion

/-- Nothing has been written, and every goroutine is where such a run allows. -/
structure Quiet (cfg : HandlerConfig) (s : State T) : Prop where
  log : ∀ ev ∈ s.log, ev.op.writes = false
  pcs : ∀ g ∈ s.goroutines, g.pc.quiet (s.store (fullKey cfg g.key)).isNone

theorem Quiet.step {s s' : State T} {a : Action T} (hq : Quiet cfg s) (ha : a.generatorFails)
    (h : step cfg codec s a = some s') : Quiet cfg s' := by
  cases a with
  | call req =>
    cases h
    refine ⟨hq.log, fun g hg => ?_⟩
    rcases List.mem_append.1 hg with hg | hg
    · exact hq.pcs g hg
    · rw [List.mem_singleton.1 hg]
      cases req with
      | set => exact absurd ha id
      | _ => rfl
  | tick d => cases h; exact ⟨hq.1, hq.2⟩
  | evict key =>
    cases h
    refine ⟨hq.log, fun g hg => ?_⟩
    have hmono : ∀ b : Bool, g.pc.quiet b → g.pc.quiet true := fun b hb => by
      cases b
      exacts [Pc.quiet_mono hb, hb]
    simp only [Function.update_apply]
    split
    · exact hmono _ (hq.pcs g hg)
    · exact hq.pcs g hg
  | run k o =>
    obtain ⟨g, out, hg, hexec, rfl⟩ := step_run h
    obtain ⟨hpc, hop, hsp⟩ := exec_quiet hexec ha (hq.pcs g (List.getElem?_mem hg))
    have hw : ∀ op, out.op = some op → op.writes = false := fun op h => by simpa [h] using hop
    have hstore : (out.apply s k g).store = s.store := by
      unfold Outcome.apply
      cases h : out.op with
      | none => rfl
      | some op => exact Op.apply_store_of_writes (hw op h) _ _
    refine ⟨fun ev he => ?_, fun g' hg' => ?_⟩
    · simp only [Outcome.apply_log, List.mem_append] at he
      rcases he with he | he
      · exact hq.log ev he
      · cases h : out.op with
        | none => simp [h] at he
        | some op => simp only [h, Option.map_some', Option.toList_some, List.mem_singleton] at he
                     subst he; exact hw op h
    · rw [hstore]
      obtain ⟨j, hj⟩ := List.getElem?_of_mem hg'
      revert hj
      refine Outcome.forall_apply (P := fun _ g' => g'.pc.quiet (s.store (fullKey cfg g'.key)).isNone)
        hg (fun j gj _ hj => hq.pcs gj (List.getElem?_mem hj)) hpc (fun n g'' hn => ?_) j g'
      have := (exec_spawns hexec g'' (List.getElem?_mem hn)).1
      beta_reduce; rw [this]
      exact List.all_eq_true.1 hsp g'' (List.getElem?_mem hn)

/-- A `GetOrRefresh` call that returns an error returns the zero result, and neither it
nor a task it started has written the backend or the ledger; every value the call or
its tasks write was returned by one of their generator calls earlier; and in a run in
which every generator call fails and nobody calls `Set`, nothing is written at all. -/
theorem failure_atomicity :
    (∀ s : State T, Reachable cfg codec s → ∀ i g key opts, s.goroutines[i]? = some g →
      g.origin = .call (.getOrRefresh key opts) →
      (∀ r e, g.pc = .done (r, some e) →
        r = Result.zero codec ∧ ∀ ev ∈ s.log, s.family i ev.gid → ev.op.writes = false) ∧
      (∀ pre ev post, s.log = pre ++ ev :: post → s.family i ev.gid → ∀ site k b ttl,
        ev.op = .write site k b ttl → ∃ v, codec.marshal v = some b ∧
          ∃ ev' ∈ pre, s.family i ev'.gid ∧ ev'.op.generated = some v)) ∧
    ∀ s : State T, Run cfg codec (fun _ a => a.generatorFails) s → ∀ ev ∈ s.log, ev.op.writes = false := by
  refine ⟨fun s hs i g key opts hg ho => ⟨fun r e hd => ?_, fun pre ev post hl hf site k b ttl hw => ?_⟩,
    fun s hs => ?_⟩
  · have ha := hs.atomic
    have hz := ha.errZero g (List.getElem?_mem hg)
    rw [hd] at hz
    exact ⟨hz rfl, (ha.clean i g hg (by rw [hd]; rfl)).1⟩
  · -- the writer is the call or one of its tasks, so not a public `Set`
    have hnotset : ∀ gw, s.goroutines[ev.gid]? = some gw → gw.origin.isSetCall = false := by
      intro gw hgw
      rcases hf with hf | ⟨gj, hj, hoj⟩
      · rw [hf, hg] at hgw; cases hgw; rw [ho]; rfl
      · rw [hj] at hgw; cases hgw; rw [hoj]; rfl
    rcases hs.provenance.history pre ev post hl site k b ttl hw with ⟨-, gw, hgw, hset⟩ |
      ⟨v, hb, ev', he', hgen, hor⟩
    · exact absurd hset (by rw [hnotset gw hgw]; decide)
    · refine ⟨v, hb, ev', he', ?_, hgen⟩
      rcases hor with hid | ⟨gw, hgw, hpar⟩
      · exact hid ▸ hf
      · rcases hf with hf | ⟨gj, hj, hoj⟩
        · rw [hf, hg] at hgw; cases hgw; rw [ho] at hpar; cases hpar
        · rw [hj] at hgw; cases hgw; rw [hoj] at hpar; cases hpar; exact .inl rfl
  · induction hs with
    | init h0 => simp [h0.log]
    | step hs' ha h ih =>
      rename_i s₁ s₂ a
      have hq : Quiet cfg s₁ := by
        clear ih h ha
        induction hs' with
        | init h0 => exact ⟨by simp [h0.log], by simp [h0.goroutines]⟩
        | step _ ha h ih => exact ih.step ha h
      exact (hq.step ha h).log

/-- The error of `failFastRun` comes with the zero result and no write of the call's family,
and the write of `syncMissRun` stores a value that the call's generator returned before it. -/
theorem failure_atomicity_runs :
    (∃ (s : State UInt8) (g : Goroutine UInt8),
      runActions defaultConfig byteCodec .empty failFastRun = some s ∧ s.goroutines[0]? = some g ∧
      ∃ r e, g.pc = .done (r, some e) ∧ r = Result.zero byteCodec ∧
        ∀ ev ∈ s.log, s.family 0 ev.gid → ev.op.writes = false) ∧
    ∃ s : State UInt8, runActions defaultConfig byteCodec .empty syncMissRun = some s ∧
      s.log = [⟨0, 0, .chan "k"⟩, ⟨0, 0, .acquire .syncMiss "k" 0⟩, ⟨0, 0, .absent .syncMiss "k"⟩,
        ⟨0, 0, .generate .syncMiss "k" (some 7)⟩] ++
        ⟨0, 0, .write .syncMiss "k" [7] (5 * minute)⟩ :: [⟨0, 0, .release .syncMiss "k" 0⟩] ∧
      ∃ v, byteCodec.marshal v = some [7] ∧ ∃ ev' ∈ [⟨0, 0, .chan "k"⟩, ⟨0, 0, .acquire .syncMiss "k" 0⟩,
        ⟨0, 0, .absent .syncMiss "k"⟩, (⟨0, 0, .generate .syncMiss "k" (some 7)⟩ : Event UInt8)],
        s.family 0 ev'.gid ∧ ev'.op.generated = some v := by
  have h := @failure_atomicity UInt8 defaultConfig byteCodec
  have hf : runActions defaultConfig byteCodec .empty failFastRun = some _ := rfl
  have hm : runActions defaultConfig byteCodec .empty syncMissRun = some _ := rfl
  have hfs := Run.runActions (.init State.empty_initial) _ (fun _ _ => trivial) hf
  have hms := Run.runActions (.init State.empty_initial) _ (fun _ _ => trivial) hm
  refine ⟨⟨_, _, hf, rfl, _, _, rfl, (h.1 _ hfs 0 _ "k" _ rfl rfl).1 _ _ rfl⟩, _, hm, rfl,
    (h.1 _ hms 0 _ "k" [] rfl rfl).2 [⟨0, 0, .chan "k"⟩, ⟨0, 0, .acquire .syncMiss "k" 0⟩,
      ⟨0, 0, .absent .syncMiss "k"⟩, ⟨0, 0, .generate .syncMiss "k" (some 7)⟩]
      ⟨0, 0, .write .syncMiss "k" [7] (5 * minute)⟩ [⟨0, 0, .release .syncMiss "k" 0⟩] rfl (.inl rfl)
      _ _ _ _ rfl⟩

end Cashcov.Handler
