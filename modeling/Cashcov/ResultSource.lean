import Cashcov.Discipline

/-!
# Where a call's result comes from

`GetOrRefresh` returns what it decoded, with `FromCache` set, or what it produced. It
decodes at three places: the first `Get` of the key, the double-check of
`missSyncWriteThenReturn` under the key's lock, and the read of the stale companion in
`missStaleWhileRevalidate`. It produces a value only by its own generator call, in
`missSyncWriteThenReturn`, `missReturnThenAsyncWrite`, the timeout branch of
`missCooperativeRefresh` and `missBestEffort`; a failed call of the last still returns
the zero value without error. The tasks a call starts run as goroutines of their own.

Reads leave nothing in the log, so the decodes of a goroutine are recorded along a run
by `readsOf`, which follows `runActions` step by step; generator calls are events of the
log. `Pc.Sourced` says, for each place a call can be, which decodes and generator calls
it has made, and `exec_sourced` that every step keeps it.
-/
namespace Cashcov.Handler

variable {T : Type} {cfg : HandlerConfig} {codec : Codec T}

/-- A successful decode: the key read, the bytes it held and the value they decode to. -/
structure Read (T : Type) where
  key : String
  bytes : Bytes
  value : T

/-- The decode of a read of `key`, when the backend answers and the bytes there decode. -/
def readAt (codec : Codec T) (s : State T) (o : Oracle T) (key : String) : Option (Read T) :=
  if o.fail then none
  else
    match s.store key with
    | some b => (codec.unmarshal b).map (Read.mk key b)
    | none => none

/-- The decode a step of `g` makes: `Get` at the first read and at the double-check,
`getFromKey` at the stale companion. -/
def stepRead (cfg : HandlerConfig) (codec : Codec T) (s : State T) (g : Goroutine T)
    (o : Oracle T) : Option (Read T) :=
  match g.pc with
  | .start .. | .syncCheck .. => readAt codec s o (fullKey cfg g.key)
  | .staleCheck => readAt codec s o (staleKey cfg g.key)
  | _ => none

/-- The decode goroutine `i` makes in action `a`. -/
def actionRead (cfg : HandlerConfig) (codec : Codec T) (s : State T) (i : ℕ) :
    Action T → Option (Read T)
  | .run j o => if j = i then s.goroutines[i]?.bind fun g => stepRead cfg codec s g o else none
  | _ => none

/-- The decodes of goroutine `i` along the actions `as` from `s`, in order. -/
def readsOf (cfg : HandlerConfig) (codec : Codec T) (i : ℕ) (s : State T) :
    List (Action T) → List (Read T)
  | [] => []
  | a :: as =>
    match step cfg codec s a with
    | some s' => (actionRead cfg codec s i a).toList ++ readsOf cfg codec i s' as
    | none => []

/-- The generator call an operation records: site, key and result. -/
def Op.generation : Op T → Option (Site × String × Option T)
  | .generate site key r => some (site, key, r)
  | _ => none

/-- The generator calls of goroutine `i` in a log, in order. -/
def gensOf (i : ℕ) (log : List (Event T)) : List (Site × String × Option T) :=
  log.filterMap fun e => if e.gid = i then e.op.generation else none

/-- Where a result comes from, given the decodes and generator calls of its call: one
decode of the key `fk`, or under StaleWhileRevalidate of its stale companion `sk`, with
`FromCache` set; or, with `FromCache` clear and no decode, one generator call that
returned the value, or under BestEffort one that failed, with the zero value. -/
def Result.Sourced (codec : Codec T) (fk sk : String) (policy : MissPolicy) (res : Result T)
    (gens : List (Site × String × Option T)) (reads : List (Read T)) : Prop :=
  (res.fromCache = true ∧ gens = [] ∧ ∃ rd, reads = [rd] ∧ rd.value = res.value ∧
      (rd.key = fk ∨ rd.key = sk ∧ policy = .staleWhileRevalidate)) ∨
  (res.fromCache = false ∧ reads = [] ∧ ((∃ site, gens = [(site, fk, some res.value)]) ∨
      policy = .bestEffort ∧ res.value = codec.zero ∧ gens = [(.bestEffort, fk, none)]))

/-- A `Set` inside a call, after its one generator call returned `v`: the write of
`missSyncWriteThenReturn` or of `missBestEffort`. -/
def SetRet.Sourced (fk : String) (policy : MissPolicy) (v : T)
    (gens : List (Site × String × Option T)) (reads : List (Read T)) : SetRet → Prop
  | .syncMiss _ _ => reads = [] ∧ gens = [(.syncMiss, fk, some v)]
  | .bestEffort => policy = .bestEffort ∧ reads = [] ∧ gens = [(.bestEffort, fk, some v)]
  | _ => False

/-- The decodes and generator calls a `GetOrRefresh` call of policy `policy` has made at
each place it can be; `False` at the places of the tasks it starts. -/
def Pc.Sourced (codec : Codec T) (fk sk : String) (policy : MissPolicy)
    (gens : List (Site × String × Option T)) (reads : List (Read T)) : Pc T → Prop
  | .start p _ => p = policy ∧ gens = [] ∧ reads = []
  | .hitRefresh _ _ res => res.Sourced codec fk sk policy gens reads
  | .done (res, none) | .syncUnlock _ _ (res, none) => res.Sourced codec fk sk policy gens reads
  | .done (_, some _) | .syncUnlock _ _ (_, some _) => gens.length ≤ 1
  | .lockCh (.syncMiss _) | .lockSend (.syncMiss _) _ | .syncCheck _ _ | .syncGen _ _
  | .asyncGen | .coopStart | .coopSelect _ _ | .coopGen => gens = [] ∧ reads = []
  | .staleCheck => policy = .staleWhileRevalidate ∧ gens = [] ∧ reads = []
  | .bestGen => policy = .bestEffort ∧ gens = [] ∧ reads = []
  | .setWrite v r | .setStamp v r => r.Sourced fk policy v gens reads
  | _ => False

/-! ### Reads -/

theorem readAt_spec {s : State T} {o : Oracle T} {key : String} {rd : Read T}
    (h : readAt codec s o key = some rd) :
    o.fail = false ∧ rd.key = key ∧ s.store key = some rd.bytes ∧
      codec.unmarshal rd.bytes = some rd.value := by
  unfold readAt at h
  split_ifs at h with hf
  split at h
  · next b hb =>
    obtain ⟨v, hv, rfl⟩ := Option.map_eq_some'.1 h
    exact ⟨by simpa using hf, rfl, hb, hv⟩
  · cases h

/-- A read that decodes is a successful `Get` of the decoded value. -/
theorem getReply_of_readAt {s : State T} {o : Oracle T} {key : String} {rd : Read T}
    (h : readAt codec s o key = some rd) (now : ℕ) :
    getReply codec (if o.fail then none else some (s.store key)) now =
      (⟨rd.value, true, some now⟩, none) := by
  obtain ⟨hf, -, hb, hv⟩ := readAt_spec h
  simp [hf, hb, getReply, hv]

theorem readAt_of_getReply {s : State T} {o : Oracle T} {key : String} {now : ℕ}
    (h : (getReply codec (if o.fail then none else some (s.store key)) now).2 = none) :
    ∃ rd, readAt codec s o key = some rd := by
  unfold readAt
  cases hf : o.fail <;> simp only [hf] at h ⊢
  · cases hb : s.store key with
    | none => simp [getReply, hb] at h
    | some b => cases hv : codec.unmarshal b <;> simp_all [getReply]
  · simp [getReply] at h

theorem readAt_eq_none {s : State T} {o : Oracle T} {key : String} {now : ℕ} {e : Err}
    (h : (getReply codec (if o.fail then none else some (s.store key)) now).2 = some e) :
    readAt codec s o key = none := by
  cases hrd : readAt codec s o key with
  | none => rfl
  | some rd => rw [getReply_of_readAt hrd] at h; cases h

theorem getFromKey_readAt (s : State T) (o : Oracle T) (key : String) :
    getFromKey codec (if o.fail then none else some (s.store key)) =
      (readAt codec s o key).map Read.value := by
  unfold readAt
  cases o.fail
  · cases s.store key <;> simp [getFromKey, Option.map_map, Function.comp_def]
  · rfl

/-! ### Generator calls -/

@[simp] theorem gensOf_nil (i : ℕ) : gensOf i ([] : List (Event T)) = [] := rfl

theorem gensOf_append (i : ℕ) (l l' : List (Event T)) :
    gensOf i (l ++ l') = gensOf i l ++ gensOf i l' := List.filterMap_append l l' _

/-- The event of a step of goroutine `j` adds a generator call to `j`'s only. -/
theorem gensOf_event (i j now : ℕ) (op : Option (Op T)) :
    gensOf i (op.map (Event.mk j now)).toList =
      if j = i then (op.bind Op.generation).toList else [] := by
  by_cases h : j = i
  · subst h
    cases op with
    | none => simp [gensOf]
    | some op => cases hg : op.generation <;> simp [gensOf, hg]
  · cases op <;> simp [gensOf, h]

theorem gensOf_eq_nil {i : ℕ} {log : List (Event T)} (h : ∀ e ∈ log, e.gid ≠ i) :
    gensOf i log = [] :=
  List.filterMap_eq_nil_iff.2 fun e he => if_neg (h e he)

/-! ### One step of a call -/

theorem Result.Sourced.decoded {fk sk : String} {policy : MissPolicy} {rd : Read T} {now : ℕ}
    (hk : rd.key = fk ∨ rd.key = sk ∧ policy = .staleWhileRevalidate) :
    Result.Sourced codec fk sk policy ⟨rd.value, true, some now⟩ [] [rd] :=
  .inl ⟨rfl, rfl, rd, rfl, rfl, hk⟩

theorem Result.Sourced.generated {fk sk : String} {policy : MissPolicy} {site : Site} {v : T}
    {now : ℕ} : Result.Sourced codec fk sk policy ⟨v, false, some now⟩ [(site, fk, some v)] [] :=
  .inr ⟨rfl, rfl, .inl ⟨site, rfl⟩⟩

theorem missPc_sourced {fk sk : String} (policy : MissPolicy) (co : CallOpts) :
    (missPc codec policy co).Sourced codec fk sk policy [] [] := by
  cases policy <;> first | exact ⟨rfl, rfl⟩ | exact ⟨rfl, rfl, rfl⟩ | exact Nat.zero_le _

theorem afterSet_sourced {fk sk : String} {policy : MissPolicy} {v : T} {r : SetRet}
    {gens : List (Site × String × Option T)} (hr : r.Sourced fk policy v gens []) (now : ℕ)
    (e : Option Err) : (afterSet codec now v r e).Sourced codec fk sk policy gens [] := by
  cases r <;> simp only [SetRet.Sourced] at hr
  case syncMiss =>
    obtain ⟨-, rfl⟩ := hr
    cases e
    · exact Result.Sourced.generated
    · exact le_refl _
  case bestEffort =>
    obtain ⟨-, -, rfl⟩ := hr
    exact Result.Sourced.generated

/-- A step that neither generates nor reads keeps `Pc.Sourced` as it is. -/
theorem Pc.Sourced.append_nil {pc : Pc T} {fk sk : String} {policy : MissPolicy}
    {gens : List (Site × String × Option T)} {reads : List (Read T)}
    (h : pc.Sourced codec fk sk policy gens reads) :
    pc.Sourced codec fk sk policy (gens ++ []) (reads ++ []) := by
  rwa [List.append_nil, List.append_nil]

/-- Every step of a call keeps `Pc.Sourced`, with the generator call and the decode it
makes appended. -/
theorem exec_sourced {s : State T} {i : ℕ} {g : Goroutine T} {o : Oracle T} {out : Outcome T}
    {policy : MissPolicy} {gens : List (Site × String × Option T)} {reads : List (Read T)}
    (h : exec cfg codec s i g o = some out)
    (hg : g.pc.Sourced codec (fullKey cfg g.key) (staleKey cfg g.key) policy gens reads) :
    out.pc.Sourced codec (fullKey cfg g.key) (staleKey cfg g.key) policy
      (gens ++ (out.op.bind Op.generation).toList) (reads ++ (stepRead cfg codec s g o).toList) := by
  obtain ⟨key, ttl, origin, pc⟩ := g
  cases pc with
  | start p co =>
    obtain ⟨rfl, rfl, rfl⟩ := hg
    simp only [exec, stepRead] at h ⊢
    split at h
    · next hres =>
      obtain ⟨rd, hrd⟩ := readAt_of_getReply hres
      cases h
      rw [getReply_of_readAt hrd, hrd]
      have : Result.Sourced codec (fullKey cfg key) (staleKey cfg key) p
          ⟨rd.value, true, some s.now⟩ [] [rd] :=
        Result.Sourced.decoded (.inl (readAt_spec hrd).2.1)
      split_ifs <;> exact this
    · next hres =>
      cases h
      rw [readAt_eq_none hres]
      exact missPc_sourced p co
    · next e hres _ =>
      cases h
      exact Nat.zero_le _
  | hitRefresh p co res => cases h; exact Pc.Sourced.append_nil hg
  | done ret => cases h
  | lockCh k =>
    cases k <;> try exact hg.elim
    cases h; exact Pc.Sourced.append_nil hg
  | lockSend k c =>
    cases k <;> try exact hg.elim
    simp only [exec] at h
    split_ifs at h; cases h
    exact Pc.Sourced.append_nil hg
  | syncCheck κ c =>
    obtain ⟨rfl, rfl⟩ := hg
    simp only [exec, stepRead] at h ⊢
    split at h
    · next hres =>
      obtain ⟨rd, hrd⟩ := readAt_of_getReply hres
      cases h
      rw [getReply_of_readAt hrd, hrd]
      exact Result.Sourced.decoded (.inl (readAt_spec hrd).2.1)
    · next hres =>
      cases h
      rw [readAt_eq_none hres]
      exact ⟨rfl, rfl⟩
    · next e hres _ =>
      cases h
      exact Nat.zero_le _
  | syncGen κ c =>
    obtain ⟨rfl, rfl⟩ := hg
    simp only [exec] at h
    split at h <;> cases h
    · exact le_refl _
    · exact ⟨rfl, rfl⟩
  | syncUnlock κ c ret =>
    simp only [exec] at h
    split_ifs at h; cases h
    obtain ⟨res, _ | e⟩ := ret <;> exact Pc.Sourced.append_nil hg
  | asyncGen =>
    obtain ⟨rfl, rfl⟩ := hg
    simp only [exec] at h
    split at h <;> cases h
    · exact le_refl _
    · exact Result.Sourced.generated
  | staleCheck =>
    obtain ⟨hp, rfl, rfl⟩ := hg
    simp only [exec, stepRead, getFromKey_readAt] at h ⊢
    cases hrd : readAt codec s o (staleKey cfg key) with
    | some rd =>
      simp only [hrd, Option.map_some'] at h
      cases h
      exact Result.Sourced.decoded (.inr ⟨(readAt_spec hrd).2.1, hp⟩)
    | none =>
      simp only [hrd, Option.map_none'] at h
      cases h
      exact ⟨rfl, rfl⟩
  | coopStart => cases h; exact Pc.Sourced.append_nil hg
  | coopSelect deadline w =>
    simp only [exec] at h
    split_ifs at h <;> cases h <;> exact Pc.Sourced.append_nil hg
  | coopGen =>
    obtain ⟨rfl, rfl⟩ := hg
    simp only [exec] at h
    split at h <;> cases h
    · exact le_refl _
    · exact Result.Sourced.generated
  | bestGen =>
    obtain ⟨hp, rfl, rfl⟩ := hg
    simp only [exec] at h
    split at h <;> cases h
    · exact .inr ⟨rfl, rfl, .inr ⟨hp, rfl, rfl⟩⟩
    · exact ⟨hp, rfl, rfl⟩
  | setWrite v r =>
    have hr : r.Sourced (fullKey cfg key) policy v gens reads := hg
    obtain rfl : reads = [] := by cases r <;> first | exact hr.elim | exact hr.1 | exact hr.2.1
    simp only [exec] at h
    split at h
    · cases h; exact Pc.Sourced.append_nil (afterSet_sourced hr s.now _)
    · split_ifs at h <;> cases h
      · exact Pc.Sourced.append_nil (afterSet_sourced hr s.now _)
      · exact Pc.Sourced.append_nil hr
  | setStamp v r =>
    have hr : r.Sourced (fullKey cfg key) policy v gens reads := hg
    obtain rfl : reads = [] := by cases r <;> first | exact hr.elim | exact hr.1 | exact hr.2.1
    cases h
    split <;> exact Pc.Sourced.append_nil (afterSet_sourced hr s.now none)
  | _ => exact hg.elim

/-! ### Every call of a run -/

/-- A `GetOrRefresh` call, of key `key` with options `opts`, keeps its key and is where
`Pc.Sourced` allows, given its generator calls in `log` and its decodes `reads`. -/
def Goroutine.Sourced (cfg : HandlerConfig) (codec : Codec T) (i : ℕ) (log : List (Event T))
    (reads : List (Read T)) (g : Goroutine T) : Prop :=
  ∀ key opts, g.origin = .call (.getOrRefresh key opts) → g.key = key ∧
    g.pc.Sourced codec (fullKey cfg key) (staleKey cfg key)
      (effectiveMissPolicy cfg (callOpts opts)) (gensOf i log) reads

/-- Every call of the state is sourced, given the decodes `reads` of each goroutine. -/
structure CallsSourced (cfg : HandlerConfig) (codec : Codec T) (s : State T)
    (reads : ℕ → List (Read T)) : Prop where
  fresh : ∀ i, s.goroutines.length ≤ i → reads i = []
  sourced : ∀ i (g : Goroutine T), s.goroutines[i]? = some g →
    g.Sourced cfg codec i s.log (reads i)

theorem CallsSourced.init {s : State T} (h0 : s.Initial) : CallsSourced cfg codec s fun _ => [] :=
  ⟨fun _ _ => rfl, fun i g hg => by simp [h0.goroutines] at hg⟩

theorem CallsSourced.step {s s' : State T} {reads : ℕ → List (Read T)} {a : Action T}
    (hb : Balanced cfg s) (hc : CallsSourced cfg codec s reads)
    (h : step cfg codec s a = some s') :
    CallsSourced cfg codec s' fun i => reads i ++ (actionRead cfg codec s i a).toList := by
  cases a with
  | call req =>
    cases h
    simp only [actionRead, Option.toList_none, List.append_nil]
    refine ⟨fun i hi => hc.fresh i (by simp at hi; omega), fun j g hj => ?_⟩
    rcases List.getElem?_concat_eq_some hj with ⟨-, hj⟩ | ⟨rfl, rfl⟩
    · exact hc.sourced j g hj
    · intro key opts horigin
      cases req <;> cases horigin
      refine ⟨rfl, rfl, gensOf_eq_nil fun e he => (hb.gid_lt e he).ne, hc.fresh _ le_rfl⟩
  | tick d => cases h; simpa [actionRead] using ⟨hc.fresh, hc.sourced⟩
  | evict key => cases h; simpa [actionRead] using ⟨hc.fresh, hc.sourced⟩
  | run j o =>
    obtain ⟨g, out, hg, hexec, rfl⟩ := step_run h
    have hlt := (List.getElem?_eq_some_iff.1 hg).1
    refine ⟨fun i hi => ?_, Outcome.forall_apply hg (fun i gi hij hi => ?_) ?_ fun n g' hn => ?_⟩
    · simp only [Outcome.apply_goroutines, List.length_append, List.length_set] at hi
      simp [hc.fresh i (by omega), actionRead, show j ≠ i by omega]
    · intro key opts horigin
      simpa [actionRead, hij.symm, gensOf_append, gensOf_event] using
        hc.sourced i gi hi key opts horigin
    · intro key opts horigin
      obtain ⟨hkey, hsrc⟩ := hc.sourced j g hg key opts horigin
      subst hkey
      simpa [actionRead, hg, gensOf_append, gensOf_event] using exec_sourced hexec hsrc
    · intro key opts horigin
      cases (exec_spawns hexec g' (List.getElem?_mem hn)).2.2.1 ▸ horigin

/-- Along a run, each goroutine's decodes are those `readsOf` records. -/
theorem CallsSourced.runActions {s s' : State T} {reads : ℕ → List (Read T)}
    (as : List (Action T)) (hb : Balanced cfg s) (hc : CallsSourced cfg codec s reads)
    (h : runActions cfg codec s as = some s') :
    CallsSourced cfg codec s' fun i => reads i ++ readsOf cfg codec i s as := by
  induction as generalizing s reads with
  | nil => cases h; simpa [readsOf] using hc
  | cons a as ih =>
    obtain ⟨s₁, h₁, h⟩ := Option.bind_eq_some.1 h
    simpa [readsOf, h₁] using ih (hb.step h₁) (hc.step hb h₁) h

/-- Every decode `readsOf` records is of bytes that decode to its value. -/
theorem readsOf_decodes {s : State T} {i : ℕ} {as : List (Action T)} {rd : Read T}
    (h : rd ∈ readsOf cfg codec i s as) : codec.unmarshal rd.bytes = some rd.value := by
  induction as generalizing s with
  | nil => cases h
  | cons a as ih =>
    simp only [readsOf] at h
    split at h
    · rcases List.mem_append.1 h with h | h
      · cases a <;> simp only [actionRead, Option.toList_none, List.not_mem_nil] at h
        split_ifs at h
        · obtain ⟨g, -, hg⟩ := Option.bind_eq_some.1 (Option.mem_toList.1 h)
          unfold stepRead at hg
          split at hg <;> first | cases hg | exact (readAt_spec hg).2.2.2
        · simp at h
      · exact ih h
    · cases h

theorem getOrRefresh_result_source {s₀ s : State T} {as : List (Action T)} (h0 : s₀.Initial)
    (hrun : runActions cfg codec s₀ as = some s) {i : ℕ} {g : Goroutine T} {key : String}
    {opts : List CallOption} {r : Result T} (hg : s.goroutines[i]? = some g)
    (horigin : g.origin = .call (.getOrRefresh key opts)) (hdone : g.pc = .done (r, none)) :
    (r.fromCache = true ↔ ∃ rd ∈ readsOf cfg codec i s₀ as,
        codec.unmarshal rd.bytes = some r.value ∧ (rd.key = fullKey cfg key ∨
          rd.key = staleKey cfg key ∧
            effectiveMissPolicy cfg (callOpts opts) = .staleWhileRevalidate)) ∧
    (r.fromCache = false → (∃ site, gensOf i s.log = [(site, fullKey cfg key, some r.value)]) ∨
      effectiveMissPolicy cfg (callOpts opts) = .bestEffort ∧ r.value = codec.zero ∧
        gensOf i s.log = [(.bestEffort, fullKey cfg key, none)]) ∧
    (gensOf i s.log).length ≤ 1 := by
  have hc := CallsSourced.runActions as
    (@Run.init T cfg codec (fun _ _ => True) s₀ h0).balanced
    (CallsSourced.init h0) hrun
  obtain ⟨-, hsrc⟩ := hc.sourced i g hg key opts horigin
  rw [hdone, List.nil_append] at hsrc
  rcases (hsrc : r.Sourced codec _ _ _ _ _) with
    ⟨hfc, hgens, rd, hreads, hval, hkey⟩ | ⟨hfc, hreads, hgen⟩
  · have hmem : rd ∈ readsOf cfg codec i s₀ as := hreads ▸ List.mem_singleton_self rd
    refine ⟨iff_of_true hfc ⟨rd, hmem, hval ▸ readsOf_decodes hmem, hkey⟩,
      fun h => Bool.noConfusion (hfc.symm.trans h), ?_⟩
    rw [hgens]; exact Nat.zero_le _
  · refine ⟨iff_of_false (by rw [hfc]; decide) ?_, fun _ => hgen, ?_⟩
    · rintro ⟨rd, hm, -⟩
      rw [hreads] at hm
      cases hm
    · rcases hgen with ⟨site, hgen⟩ | ⟨-, -, hgen⟩ <;> rw [hgen] <;> exact le_rfl

theorem getOrRefresh_result_source_hit :
    ∃ rd ∈ readsOf defaultConfig byteCodec 0
        { State.empty with store := fun key => if key = "k" then some [5] else none }
        [.call (.getOrRefresh "k" [.withoutBackgroundRefresh]), .run 0 (Oracle.ok none)],
      byteCodec.unmarshal rd.bytes = some 5 ∧ (rd.key = fullKey defaultConfig "k" ∨
        rd.key = staleKey defaultConfig "k" ∧ effectiveMissPolicy defaultConfig
          (callOpts [.withoutBackgroundRefresh]) = .staleWhileRevalidate) :=
  (@getOrRefresh_result_source UInt8 defaultConfig byteCodec
    { State.empty with store := fun key => if key = "k" then some [5] else none } _
    [.call (.getOrRefresh "k" [.withoutBackgroundRefresh]), .run 0 (Oracle.ok none)]
    ⟨rfl, rfl, rfl, rfl⟩ rfl 0 _ _ _ _ rfl rfl rfl).1.1 rfl

end Cashcov.Handler
