import Cashcov.Handler

/-!
# The errors `GetOrRefresh` returns

Read off the code: the first `Get` can fail with `redis get` or `unmarshal` (a
`redis.Nil` sends the call down the miss path), and each miss helper adds its own.
`missSyncWriteThenReturn` repeats the read and adds the generator's error and those of
`Set`. `missReturnThenAsyncWrite` and the timed-out cooperative select add only the
generator's. `missFailFast` returns `ErrCacheMissFailFast`, the unknown policy its own
error, and `missBestEffort` none. The stale read of `StaleWhileRevalidate` drops its
error.

`Pc.errors` lists the errors a goroutine can still return from where it is, and no step
adds to it. So in every run, every error a `GetOrRefresh` call returns is one its policy
allows; in particular it is never the bare `redis.Nil` sentinel that `Get` returns on a
miss. An error is kept by its wrapper alone (`Err`), so this says nothing of what a wrapped
error wraps: a generator that fails with `redis.Nil` makes the call return
`generator: redis: nil`, which `errors.Is` still matches.
-/
namespace Cashcov.Handler

/-- The errors of `Set`. -/
def setErrors : List Err := [.marshal, .redisSet]

/-- The errors of `missSyncWriteThenReturn` once its locked `Get` found nothing: the
generator's, then those of `Set`. -/
def genErrors : List Err := .generator :: setErrors

/-- The errors of `missSyncWriteThenReturn`: its locked `Get`, then the rest. -/
def syncErrors : List Err := .redisGet :: .unmarshal :: genErrors

end Cashcov.Handler

namespace Cashcov

open Handler

/-- The errors a miss under the policy adds to those of the first read. -/
def MissPolicy.missErrors : MissPolicy → List Err
  | .syncWriteThenReturn | .staleWhileRevalidate | .refreshAhead | .cooperativeRefresh
  | .probabilisticRefresh => syncErrors
  | .returnThenAsyncWrite => [.generator]
  | .failFast => [.cacheMissFailFast]
  | .bestEffort => []
  | .other n h => [.unknownMissPolicy (.other n h)]

end Cashcov

namespace Cashcov.Handler

variable {T : Type} {cfg : HandlerConfig} {codec : Codec T}

/-- The errors a goroutine can still return from where it is. -/
def Pc.errors : Pc T → List Err
  | .start p _ => .redisGet :: .unmarshal :: p.missErrors
  | .done (_, some e) | .syncUnlock _ _ (_, some e) => [e]
  | .lockCh (.syncMiss _) | .lockSend (.syncMiss _) _ | .tryCh (.syncMiss _)
  | .trySelect (.syncMiss _) _ | .syncCheck .. | .staleCheck | .coopStart | .coopSelect .. => syncErrors
  | .syncGen .. => genErrors
  | .setWrite _ (.syncMiss ..) => setErrors
  | .asyncGen | .coopGen => [.generator]
  | .getCall => [.redisGet, .redisNil, .unmarshal]
  | _ => []

/-- The error of a failed read other than `redis.Nil`. -/
theorem read_error_mem {reply : Option (Option Bytes)} {now : ℕ} {e : Err}
    (h : (getReply codec reply now).2 = some e) (hne : e = .redisNil → False) (l : List Err) :
    e ∈ Err.redisGet :: Err.unmarshal :: l := by
  unfold getReply at h
  split at h
  · cases h; exact List.mem_cons_self _ _
  · cases h; exact absurd rfl hne
  · split at h
    · cases h; exact List.mem_cons_of_mem _ (List.mem_cons_self _ _)
    · exact Option.noConfusion h

theorem done_errors_of_ok {r : Ret T} (h : r.2 = none) : (Pc.done r).errors = [] := by
  obtain ⟨_, _ | _⟩ := r
  · rfl
  · exact Option.noConfusion h

theorem syncUnlock_errors_of_ok {κ : SyncCont} {c : ℕ} {r : Ret T} (h : r.2 = none) :
    (Pc.syncUnlock κ c r).errors = [] := by
  obtain ⟨_, _ | _⟩ := r
  · rfl
  · exact Option.noConfusion h

theorem syncUnlock_errors (κ : SyncCont) (c : ℕ) (r : Ret T) :
    (Pc.syncUnlock κ c r).errors = (Pc.done r).errors := by
  obtain ⟨_, _ | _⟩ := r <;> rfl

/-- `Get` can also return `redis.Nil`. -/
theorem getReply_errors (reply : Option (Option Bytes)) (now : ℕ) :
    ∀ e ∈ (Pc.done (getReply codec reply now) : Pc T).errors, e ∈ [.redisGet, .redisNil, .unmarshal] := by
  unfold getReply
  split
  · exact fun _ h => by cases List.mem_singleton.1 h; exact List.mem_cons_self _ _
  · exact fun _ h => by cases List.mem_singleton.1 h; exact List.mem_cons_of_mem _ (List.mem_cons_self _ _)
  · split
    · exact fun _ h => by
        cases List.mem_singleton.1 h
        exact List.mem_cons_of_mem _ (List.mem_cons_of_mem _ (List.mem_cons_self _ _))
    · exact fun _ h => absurd h (List.not_mem_nil _)

theorem missPc_errors (p : MissPolicy) (co : CallOpts) :
    ∀ e ∈ (missPc codec p co).errors, e ∈ p.missErrors := by
  cases p <;> exact fun _ h => h

/-- No step adds an error the goroutine could return. -/
theorem exec_errors {s : State T} {i : ℕ} {g : Goroutine T} {o : Oracle T} {out : Outcome T}
    (h : exec cfg codec s i g o = some out) : ∀ e ∈ out.pc.errors, e ∈ g.pc.errors := by
  have gen : ∀ e ∈ [Err.generator], e ∈ syncErrors := fun _ h => by
    cases List.mem_singleton.1 h; exact List.mem_cons_of_mem _ (List.mem_cons_of_mem _ (List.mem_cons_self _ _))
  obtain ⟨key, ttl, origin, pc⟩ := g
  cases exec_cases h with
  | startHit _ hok =>
    split
    · exact fun _ h => absurd ((done_errors_of_ok hok) ▸ h) (List.not_mem_nil _)
    · exact fun _ h => absurd h (List.not_mem_nil _)
  | startMiss => exact fun _ h => List.mem_cons_of_mem _ (List.mem_cons_of_mem _ (missPc_errors _ _ _ h))
  | startError herr hne | syncError herr hne =>
    exact fun _ h => by cases List.mem_singleton.1 h; exact read_error_mem herr hne _
  | lockCh | lockSend _ | tryCh | trySelect _ => cases ‹Critical T› <;> exact fun _ h => h
  | syncHit _ hok => exact fun _ h => absurd ((syncUnlock_errors_of_ok hok) ▸ h) (List.not_mem_nil _)
  | syncAbsent => exact fun _ h => List.mem_cons_of_mem _ (List.mem_cons_of_mem _ h)
  | syncGenFail => exact fun _ h => by cases List.mem_singleton.1 h; exact List.mem_cons_self _ _
  | syncGen => exact fun _ h => List.mem_cons_of_mem _ h
  | syncUnlock _ => exact fun _ h => (syncUnlock_errors _ _ _) ▸ h
  | coopTimeout => exact gen
  | setMarshalFail | setFail | setStamp =>
    cases ‹SetRet› <;> first
      | exact fun _ h => absurd h (List.not_mem_nil _)
      | exact fun _ h => by cases List.mem_singleton.1 h; first
          | exact List.mem_cons_self _ _
          | exact List.mem_cons_of_mem _ (List.mem_cons_self _ _)
  | getCall => exact getReply_errors _ _
  | _ => first | exact fun _ h => h | exact fun _ h => absurd h (List.not_mem_nil _)

/-- Every `GetOrRefresh` call can return only errors its policy allows. -/
def CallErrors (cfg : HandlerConfig) (s : State T) : Prop :=
  ∀ (i : ℕ) (g : Goroutine T), s.goroutines[i]? = some g →
    ∀ (key : String) (opts : List CallOption), g.origin = .call (.getOrRefresh key opts) →
      ∀ e ∈ g.pc.errors, e ∈ (Pc.start (effectiveMissPolicy cfg (callOpts opts)) (callOpts opts) : Pc T).errors

theorem CallErrors.step {s s' : State T} {a : Action T} (hc : CallErrors cfg s)
    (h : step cfg codec s a = some s') : CallErrors cfg s' := by
  cases a with
  | call req =>
    cases h
    intro i g hi key opts horigin
    rcases List.getElem?_concat_eq_some hi with ⟨-, hi⟩ | ⟨-, rfl⟩
    · exact hc i g hi key opts horigin
    · cases req <;> cases horigin
      exact fun _ h => h
  | tick d => cases h; exact hc
  | evict key => cases h; exact hc
  | run j o =>
    obtain ⟨g, out, hg, hexec, rfl⟩ := step_run h
    refine Outcome.forall_apply hg (fun i gi _ hi => hc i gi hi) ?_ fun n g' hn => ?_
    · exact fun key opts horigin e he => hc j g hg key opts horigin e (exec_errors hexec e he)
    · intro key opts horigin
      rw [(exec_spawns hexec g' (List.getElem?_mem hn)).2.2.1] at horigin
      cases horigin

theorem Run.callErrors {allowed : State T → Action T → Prop} {s : State T}
    (hs : Run cfg codec allowed s) : CallErrors cfg s := by
  induction hs with
  | init h0 => intro i g hi; simp [h0.goroutines] at hi
  | step _ _ h ih => exact ih.step h

theorem redisNil_not_mem_missErrors (p : MissPolicy) : Err.redisNil ∉ p.missErrors := by
  cases p <;> simp [MissPolicy.missErrors, syncErrors, genErrors, setErrors]

/-- The errors of `GetOrRefresh`: in every run, an error a call returns comes from its
first read (`redis get`, `unmarshal`) or is one its miss policy adds; it is never the bare
`redis.Nil` sentinel of `Get`. Under `BestEffort` only the first read can fail. -/
theorem getOrRefresh_errors {allowed : State T → Action T → Prop} {s : State T}
    (hs : Run cfg codec allowed s) {i : ℕ} {g : Goroutine T} {key : String}
    {opts : List CallOption} {r : Result T} {e : Err} (hg : s.goroutines[i]? = some g)
    (horigin : g.origin = .call (.getOrRefresh key opts)) (hdone : g.pc = .done (r, some e)) :
    e ≠ .redisNil ∧
      (e = .redisGet ∨ e = .unmarshal ∨ e ∈ (effectiveMissPolicy cfg (callOpts opts)).missErrors) := by
  have he : e ∈ Err.redisGet :: Err.unmarshal :: (effectiveMissPolicy cfg (callOpts opts)).missErrors :=
    hs.callErrors i g hg key opts horigin e (by rw [hdone]; exact List.mem_singleton_self e)
  refine ⟨?_, by simpa only [List.mem_cons] using he⟩
  rintro rfl
  rcases List.mem_cons.1 he with h | h
  · exact Err.noConfusion h
  rcases List.mem_cons.1 h with h | h
  · exact Err.noConfusion h
  · exact redisNil_not_mem_missErrors _ h

theorem getOrRefresh_errors_failFast :
    ∃ (s : State UInt8) (g : Goroutine UInt8),
      runActions defaultConfig byteCodec .empty failFastRun = some s ∧ s.goroutines[0]? = some g ∧
      (Err.cacheMissFailFast ≠ .redisNil ∧ (Err.cacheMissFailFast = .redisGet ∨
        Err.cacheMissFailFast = .unmarshal ∨ Err.cacheMissFailFast ∈
          (effectiveMissPolicy defaultConfig (callOpts [.withCallMissPolicy .failFast])).missErrors)) := by
  have hrun : runActions defaultConfig byteCodec .empty failFastRun = some _ := rfl
  refine ⟨_, _, hrun, rfl, ?_⟩
  exact @getOrRefresh_errors UInt8 defaultConfig byteCodec _ _
    (Run.runActions (.init State.empty_initial) _ (fun _ _ => trivial) hrun) 0 _ _ _ _ _ rfl rfl rfl

end Cashcov.Handler
