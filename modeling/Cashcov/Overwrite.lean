import Cashcov.Operations

/-!
# Writes that follow an absence check

`missSyncWriteThenReturn` writes after its double-check found the key absent, and
`spawnBackgroundMissWrite` after its `Exists` found it absent; both hold the key's lock
from the check to the write. Every other write of a main key under the key's lock
(a background refresh, a stale refresh) is excluded in between, but `Set` and the `Set`
of `BestEffort` take no lock, and the stale companion of another key can be the same
backend key, so those can write in between.
-/
namespace Cashcov.Handler

variable {T : Type} {cfg : HandlerConfig} {codec : Codec T}

def Op.isAbsent : Op T → Bool
  | .absent .. => true
  | _ => false

/-- The site of the operation if it writes the backend key `key`. -/
def Op.writesTo (key : String) : Op T → Option Site
  | .write site k _ _ => if k = key then some site else none
  | _ => none

/-- The writes made holding the lock of the key they write. -/
def Site.locked : Site → Bool
  | .syncMiss | .backgroundMissWrite | .backgroundRefresh | .staleRefresh => true
  | _ => false

/-- `e₂` is a write of a miss path to `key` by the goroutine whose latest absence check
before it is `e₁`; `mid` is what happened in between. -/
def CheckedWrite (key : String) (e₁ : Event T) (mid : List (Event T)) (e₂ : Event T) : Prop :=
  e₁.gid = e₂.gid ∧ (∃ site, e₁.op = .absent site key) ∧
  (e₂.op.writesTo key = some .syncMiss ∨ e₂.op.writesTo key = some .backgroundMissWrite) ∧
  ∀ e ∈ mid, e.gid = e₁.gid → e.op.isAbsent = false

/-- A goroutine between an absence check and the write that follows it. -/
def Pc.afterCheck : Pc T → Bool
  | .syncGen .. => true
  | .setWrite _ (.syncMiss ..) | .setWrite _ (.backgroundMissWrite _) => true
  | _ => false

theorem Pc.held_of_afterCheck {pc : Pc T} (h : pc.afterCheck) : ∃ c, pc.held = some c := by
  cases pc with
  | syncGen κ c => exact ⟨c, rfl⟩
  | setWrite v r => cases r <;> first | exact ⟨_, rfl⟩ | exact absurd h Bool.noConfusion
  | _ => exact absurd h Bool.noConfusion

theorem SetRet.held_of_locked {r : SetRet} (h : r.site.locked) : ∃ c, r.held = some c := by
  cases r <;> first | exact ⟨_, rfl⟩ | exact absurd h Bool.noConfusion

@[simp] theorem afterSet_afterCheck (now : ℕ) (v : T) (r : SetRet) (e : Option Err) :
    (afterSet codec now v r e).afterCheck = false := by
  cases r <;> cases e <;> rfl

/-- A goroutine enters the stretch between a check and its write only by the check, and
inside it performs only its generator call. -/
theorem exec_afterCheck {s : State T} {i : ℕ} {g : Goroutine T} {o : Oracle T} {out : Outcome T}
    (h : exec cfg codec s i g o = some out) (ha : out.pc.afterCheck) :
    (∃ site, out.op = some (.absent site (fullKey cfg g.key))) ∨
      (g.pc.afterCheck ∧ ∀ op, out.op = some op → op.isAbsent = false ∧ op.writesTo (fullKey cfg g.key) = none) := by
  obtain ⟨key, ttl, origin, pc⟩ := g
  cases exec_cases h with
  | syncAbsent _ | missWriteAbsent _ => exact .inl ⟨_, rfl⟩
  | syncGen _ => exact .inr ⟨rfl, fun _ h => by cases h; exact ⟨rfl, rfl⟩⟩
  | startHit => split at ha <;> exact absurd ha Bool.noConfusion
  | startMiss => cases ‹MissPolicy› <;> exact absurd ha Bool.noConfusion
  | lockSend _ | trySelect _ => cases ‹Critical T› <;> exact absurd ha Bool.noConfusion
  | setMarshalFail | setFail | setStamp => exact absurd ((afterSet_afterCheck _ _ _ _).symm.trans ha) Bool.noConfusion
  | _ => exact absurd ha Bool.noConfusion

theorem Op.writesTo_eq_some {op : Op T} {key : String} {site : Site}
    (h : op.writesTo key = some site) : ∃ b ttl, op = .write site key b ttl := by
  cases op with
  | write site' k b ttl =>
    simp only [Op.writesTo] at h
    split at h <;> cases h
    exact ⟨b, ttl, by subst_vars; rfl⟩
  | _ => exact Option.noConfusion h

/-- A write under the lock of the key it writes is the `SET` of a `Set` called inside
that lock. -/
theorem exec_lockedWrite {s : State T} {i : ℕ} {g : Goroutine T} {o : Oracle T}
    {out : Outcome T} {site : Site} {key : String} {b : Bytes} {ttl : ℤ}
    (h : exec cfg codec s i g o = some out) (hop : out.op = some (.write site key b ttl))
    (hl : site.locked) : key = fullKey cfg g.key ∧ ∃ v r, g.pc = .setWrite v r ∧ site = r.site := by
  rcases exec_opFrom h _ hop with ⟨v, r, hpc, hsr, hkey, -⟩ | ⟨-, -, -, rfl, -⟩
  · exact ⟨hkey, v, r, hpc, hsr⟩
  · exact absurd hl Bool.noConfusion

/-- Every other write is the `SET` of a public `Set`, of the `Set` of `BestEffort`, or of
a stale companion. -/
theorem exec_unlockedWrite {s : State T} {i : ℕ} {g : Goroutine T} {o : Oracle T}
    {out : Outcome T} {site : Site} {key : String} {b : Bytes} {ttl : ℤ}
    (h : exec cfg codec s i g o = some out) (hop : out.op = some (.write site key b ttl))
    (hl : site.locked = false) : site = .set ∨ site = .bestEffort ∨ site = .staleCompanion := by
  rcases exec_opFrom h _ hop with ⟨-, r, -, rfl, -⟩ | ⟨-, -, -, rfl, -⟩
  · cases r <;> first | exact .inl rfl | exact .inr (.inl rfl) | exact absurd hl Bool.noConfusion
  · exact .inr (.inr rfl)

theorem Pc.afterCheck_setWrite {v : T} {r : SetRet}
    (h : r.site = .syncMiss ∨ r.site = .backgroundMissWrite) : (Pc.setWrite v r).afterCheck := by
  cases r <;> first | rfl | (rcases h with h | h <;> cases h)

/-- Two splittings of a list at an element satisfying `p`, with no such element after
it, have the same tail. -/
theorem List.tail_eq_of_last {α : Type} {p : α → Prop} {pre mid pre' mid' : List α} {a a' : α}
    (h : pre ++ a :: mid = pre' ++ a' :: mid') (ha : p a) (ha' : p a') (hm : ∀ x ∈ mid, ¬ p x)
    (hm' : ∀ x ∈ mid', ¬ p x) : mid = mid' := by
  rcases List.append_eq_append_iff.1 h with ⟨c, -, hc⟩ | ⟨c, -, hc⟩
  · cases c with
    | nil => simp only [List.nil_append, List.cons.injEq] at hc; exact hc.2
    | cons x t =>
      simp only [List.cons_append, List.cons.injEq] at hc
      exact absurd ha' (hm a' (hc.2 ▸ List.mem_append_right _ (List.mem_cons_self _ _)))
  · cases c with
    | nil => simp only [List.nil_append, List.cons.injEq] at hc; exact hc.2.symm
    | cons x t =>
      simp only [List.cons_append, List.cons.injEq] at hc
      exact absurd ha (hm' a (hc.2 ▸ List.mem_append_right _ (List.mem_cons_self _ _)))

/-- The writes of a key made without its lock. -/
def UnlockedWrites (key : String) (evs : List (Event T)) : Prop :=
  ∀ e ∈ evs, ∀ site, e.op.writesTo key = some site →
    site = .set ∨ site = .bestEffort ∨ site = .staleCompanion

/-- The log since the latest absence check of `key` by goroutine `i`: there is one, and
no write of `key` under its lock has happened since. -/
def Stretch (log : List (Event T)) (i : ℕ) (key : String) : Prop :=
  ∃ pre e₁ mid, log = pre ++ e₁ :: mid ∧ e₁.gid = i ∧ (∃ site, e₁.op = .absent site key) ∧
    (∀ e ∈ mid, e.gid = i → e.op.isAbsent = false) ∧ UnlockedWrites key mid

theorem Stretch.append {log evs : List (Event T)} {i : ℕ} {key : String} (h : Stretch log i key)
    (habs : ∀ e ∈ evs, e.gid = i → e.op.isAbsent = false)
    (hw : UnlockedWrites key evs) : Stretch (log ++ evs) i key := by
  obtain ⟨pre, e₁, mid, rfl, hid, hab, hmid, hwm⟩ := h
  refine ⟨pre, e₁, mid ++ evs, by simp, hid, hab, fun e he => ?_, fun e he => ?_⟩ <;>
    rcases List.mem_append.1 he with he | he
  exacts [hmid e he, habs e he, hwm e he, hw e he]

/-- Any splitting of the log at an absence check of `key` by `i` with none by `i` after
it is the stretch's, so nothing after it writes `key` under its lock. -/
theorem Stretch.locked_free {log pre mid : List (Event T)} {e₁ : Event T} {i : ℕ} {key : String}
    (h : Stretch log i key) (hl : log = pre ++ e₁ :: mid) (hid : e₁.gid = i)
    (hab : ∃ site, e₁.op = .absent site key) (hmid : ∀ e ∈ mid, e.gid = i → e.op.isAbsent = false) :
    UnlockedWrites key mid := by
  obtain ⟨pre', e₁', mid', hl', hid', ⟨_, hab'⟩, hmid', hw'⟩ := h
  obtain ⟨_, hab⟩ := hab
  have : mid = mid' := List.tail_eq_of_last (p := fun e : Event T => e.gid = i ∧ e.op.isAbsent)
    (hl.symm.trans hl') ⟨hid, by rw [hab]; rfl⟩ ⟨hid', by rw [hab']; rfl⟩
    (fun x hx hp => Bool.noConfusion ((hmid x hx hp.1).symm.trans hp.2))
    (fun x hx hp => Bool.noConfusion ((hmid' x hx hp.1).symm.trans hp.2))
  exact this ▸ hw'

/-- Every goroutine between a check and its write is in its stretch, and every checked
write so far was made with no write of its key under the key's lock since its check. -/
structure Checked (cfg : HandlerConfig) (s : State T) : Prop where
  pending : ∀ (i : ℕ) (g : Goroutine T), s.goroutines[i]? = some g → g.pc.afterCheck →
    Stretch s.log i (fullKey cfg g.key)
  history : ∀ pre e₁ mid e₂ post key, s.log = pre ++ e₁ :: (mid ++ e₂ :: post) →
    CheckedWrite key e₁ mid e₂ → UnlockedWrites key mid

theorem Checked.step {allowed : State T → Action T → Prop} {s s' : State T} {a : Action T}
    (hs : Run cfg codec allowed s) (hc : Checked cfg s) (h : step cfg codec s a = some s') :
    Checked cfg s' := by
  cases a with
  | call req =>
    cases h
    refine ⟨fun i g hi ha => ?_, hc.history⟩
    rcases List.getElem?_concat_eq_some hi with ⟨-, hi⟩ | ⟨-, rfl⟩
    · exact hc.pending i g hi ha
    · cases req <;> exact absurd ha Bool.noConfusion
  | tick d => cases h; exact ⟨hc.1, hc.2⟩
  | evict key => cases h; exact ⟨hc.1, hc.2⟩
  | run k o =>
    obtain ⟨g, out, hg, hexec, rfl⟩ := step_run h
    have hnew : ∀ e ∈ (out.op.map (Event.mk k s.now)).toList, e.gid = k ∧ out.op = some e.op := by
      cases out.op <;> simp
    refine ⟨Outcome.forall_apply hg (fun i gi hik hi ha => ?_) (fun ha => ?_)
      (fun n g' hn ha => ?_), fun pre e₁ mid e₂ post key hl hcw => ?_⟩
    · -- another goroutine in its stretch: the lock it holds keeps locked writes out
      refine (hc.pending i gi hi ha).append (fun e he hei => absurd ((hnew e he).1.symm.trans hei)
        (Ne.symm hik)) fun e he site hws => ?_
      obtain ⟨b, ttl, hop⟩ := Op.writesTo_eq_some hws
      have hop : out.op = some (.write site _ b ttl) := hop ▸ (hnew e he).2
      cases hl' : site.locked
      · exact exec_unlockedWrite hexec hop hl'
      obtain ⟨hkey, v, r, hpc, rfl⟩ := exec_lockedWrite hexec hop hl'
      obtain ⟨c, hc₁⟩ := SetRet.held_of_locked hl'
      obtain ⟨c', hc₂⟩ := Pc.held_of_afterCheck ha
      exact absurd (hs.exclusive hi hg hc₂ (by rw [hpc]; exact hc₁) hkey) hik
    · -- the stepping goroutine: it just checked, or it was already in its stretch
      rcases exec_afterCheck hexec ha with ⟨site, hop⟩ | ⟨ha₀, hops⟩
      · exact ⟨s.log, ⟨k, s.now, .absent site (fullKey cfg g.key)⟩, [], by simp [hop], rfl,
          ⟨site, rfl⟩, by simp, by simp [UnlockedWrites]⟩
      · refine (hc.pending k g hg ha₀).append (fun e he _ => (hops e.op (hnew e he).2).1)
          fun e he site hws => ?_
        rw [(hops e.op (hnew e he).2).2] at hws; cases hws
    · have := (exec_spawns hexec g' (List.getElem?_mem hn)).2.2.2
      revert ha this; generalize g'.pc = pc; intro ha this
      cases pc <;> first | exact absurd ha Bool.noConfusion | exact absurd this Bool.noConfusion
    · -- a new checked write is made in the writer's stretch
      have hl₀ : s.log ++ (out.op.map (Event.mk k s.now)).toList = (pre ++ e₁ :: mid) ++ e₂ :: post := by
        simpa using hl
      cases hop : out.op with
      | none =>
        simp only [hop, Option.map_none', Option.toList_none, List.append_nil] at hl₀
        exact hc.history pre e₁ mid e₂ post key (by simpa using hl₀) hcw
      | some op =>
        simp only [hop, Option.map_some', Option.toList_some] at hl₀
        rcases List.snoc_eq_append_cons hl₀ with ⟨hpre, rfl, -⟩ | ⟨post', -, hl'⟩
        · obtain ⟨hgid, hab, hwr, hmid⟩ := hcw
          obtain ⟨site, hws, hsite⟩ : ∃ site, op.writesTo key = some site ∧
              (site = .syncMiss ∨ site = .backgroundMissWrite) := by
            rcases hwr with hw | hw <;> exact ⟨_, hw, by simp⟩
          obtain ⟨b, ttl, rfl⟩ := Op.writesTo_eq_some hws
          obtain ⟨rfl, v, r, hpc, rfl⟩ :=
            exec_lockedWrite hexec hop (by rcases hsite with h | h <;> rw [h] <;> rfl)
          exact (hc.pending k g hg (hpc ▸ Pc.afterCheck_setWrite hsite)).locked_free hpre.symm hgid
            hab fun e he hk => hmid e he (hk.trans hgid.symm)
        · exact hc.history pre e₁ mid e₂ post' key (by simpa using hl') hcw

theorem Run.checked {allowed : State T → Action T → Prop} {s : State T}
    (hs : Run cfg codec allowed s) : Checked cfg s := by
  induction hs with
  | init h0 => exact ⟨by simp [h0.goroutines], by simp [h0.log]⟩
  | step hs _ h ih => exact ih.step hs h

/-- Between the absence check of `missSyncWriteThenReturn` or `spawnBackgroundMissWrite`
and the write that follows it, the key is written only by a public `Set`, the `Set` of
`BestEffort` or the stale companion of another key, none of which takes the key's lock. -/
theorem checked_write_unlocked_only {s : State T} (hs : Reachable cfg codec s) :
    ∀ pre e₁ mid e₂ post key, s.log = pre ++ e₁ :: (mid ++ e₂ :: post) →
      CheckedWrite key e₁ mid e₂ → UnlockedWrites key mid :=
  hs.checked.history

/-- A synchronous miss of `"k"` that has found the key absent at its double-check, then a
public `Set` of `9`, then the miss generating `5` and writing it. -/
def checkThenSet : List (Action UInt8) :=
  [.call (.getOrRefresh "k" []), .run 0 (.ok none), .run 0 (.ok none), .run 0 (.ok none),
    .run 0 (.ok none), .call (.set "k" 9 []), .run 1 (.ok none), .run 0 (.ok (some 5)),
    .run 0 (.ok none)]

/-- In `checkThenSet`, the write between the double-check and the miss's write is the
public `Set`, which takes no lock. -/
theorem checked_write_unlocked_only_checkThenSet :
    ∃ s : State UInt8, runActions defaultConfig byteCodec .empty checkThenSet = some s ∧
      s.log = [⟨0, 0, .chan "k"⟩, ⟨0, 0, .acquire .syncMiss "k" 0⟩] ++
        ⟨0, 0, .absent .syncMiss "k"⟩ :: ([⟨1, 0, .write .set "k" [9] (5 * minute)⟩,
          ⟨0, 0, .generate .syncMiss "k" (some 5)⟩] ++ [⟨0, 0, .write .syncMiss "k" [5] (5 * minute)⟩]) ∧
      CheckedWrite "k" ⟨0, 0, .absent .syncMiss "k"⟩ [⟨1, 0, .write .set "k" [9] (5 * minute)⟩,
          ⟨0, 0, .generate .syncMiss "k" (some 5)⟩] (⟨0, 0, .write .syncMiss "k" [5] (5 * minute)⟩ : Event UInt8) ∧
      UnlockedWrites "k" [⟨1, 0, .write .set "k" [9] (5 * minute)⟩,
        (⟨0, 0, .generate .syncMiss "k" (some 5)⟩ : Event UInt8)] := by
  have hrun : runActions defaultConfig byteCodec .empty checkThenSet = some _ := rfl
  have hcw : CheckedWrite "k" ⟨0, 0, .absent .syncMiss "k"⟩ [⟨1, 0, .write .set "k" [9] (5 * minute)⟩,
      ⟨0, 0, .generate .syncMiss "k" (some 5)⟩] (⟨0, 0, .write .syncMiss "k" [5] (5 * minute)⟩ : Event UInt8) :=
    ⟨rfl, ⟨_, rfl⟩, .inl (by decide), by decide⟩
  exact ⟨_, hrun, rfl, hcw, checked_write_unlocked_only
    (Run.runActions (.init State.empty_initial) _ (fun _ _ => trivial) hrun)
    [⟨0, 0, .chan "k"⟩, ⟨0, 0, .acquire .syncMiss "k" 0⟩] _ _ _ [] "k" rfl hcw⟩

/-- A public `Set` of `"k"` lands between the double-check of a synchronous miss and its
write, which then overwrites it. -/
theorem set_between_check_and_write :
    ¬ ∀ s : State UInt8, Reachable defaultConfig byteCodec s → ∀ pre e₁ mid e₂ post key,
      s.log = pre ++ e₁ :: (mid ++ e₂ :: post) → CheckedWrite key e₁ mid e₂ →
        ∀ e ∈ mid, e.op.writesTo key = none := by
  intro h
  have hrun : runActions defaultConfig byteCodec .empty checkThenSet = some _ := rfl
  exact Option.noConfusion (h _ (Run.runActions (.init State.empty_initial) _ (fun _ _ => trivial) hrun)
    [⟨0, 0, .chan "k"⟩, ⟨0, 0, .acquire .syncMiss "k" 0⟩] ⟨0, 0, .absent .syncMiss "k"⟩
    [⟨1, 0, .write .set "k" [9] (5 * minute)⟩, ⟨0, 0, .generate .syncMiss "k" (some 5)⟩]
    ⟨0, 0, .write .syncMiss "k" [5] (5 * minute)⟩ [] "k" rfl
    ⟨rfl, ⟨_, rfl⟩, .inl (by decide), by decide⟩ _ (List.mem_cons_self _ _))

end Cashcov.Handler
