import Cashcov.Cooperative
import Cashcov.Overwrite
import Cashcov.Stale

/-!
# The creation stamp of probabilistic refresh

`missProbabilisticRefresh` runs `missSyncWriteThenReturn` and, on success, starts
`enableProbabilisticRefresh`, which sets `fullKey + "@created"` to the current time. The
hit path reads that stamp as the age of the data. A background refresh writes the main
key and leaves the stamp alone, so the age it measures is the time since the last
probabilistic miss, not since the last write. What holds is the miss path's half: once a
probabilistic call has returned and the tasks it started have finished, the stamp is
no earlier than the call's own write.
-/
namespace Cashcov.Handler

variable {T : Type} {cfg : HandlerConfig} {codec : Codec T}

def SyncCont.isProb : SyncCont → Bool
  | .probabilistic => true
  | _ => false

def Critical.isProbSync : Critical T → Bool
  | .syncMiss κ => κ.isProb
  | _ => false

def SetRet.isProbSync : SetRet → Bool
  | .syncMiss κ _ => κ.isProb
  | _ => false

/-- Where a probabilistic call is: not yet past its write, written and not yet returned,
or returned. -/
inductive ProbPhase
  | quiet
  | written
  | returned

def Pc.probPhase : Pc T → Option ProbPhase
  | .start policy _ | .hitRefresh policy _ _ =>
    if policy = .probabilisticRefresh then some .quiet else none
  | .lockCh k | .lockSend k _ => if k.isProbSync then some .quiet else none
  | .syncCheck κ _ | .syncGen κ _ => if κ.isProb then some .quiet else none
  | .setWrite _ r => if r.isProbSync then some .quiet else none
  | .setStamp _ r => if r.isProbSync then some .written else none
  | .syncUnlock κ _ ret =>
    if κ.isProb then (if ret.2.isNone then some .written else some .quiet) else none
  | .done _ => some .returned
  | _ => none

theorem Pc.probPhase_of_finished {pc : Pc T} {p : ProbPhase} (h : pc.finished)
    (hp : pc.probPhase = some p) : p = .returned := by
  cases pc <;> first | exact absurd h Bool.false_ne_true | (cases hp; rfl) | cases hp

/-- What one step of a probabilistic call can do in each phase. -/
def ProbStep (cfg : HandlerConfig) (i : ℕ) (g : Goroutine T) (out : Outcome T) : ProbPhase → Prop
  | .quiet => out.pc.probPhase = some .written ∨
      ((out.pc.probPhase = some .quiet ∨ out.pc.probPhase = some .returned) ∧
        ∀ op, out.op = some op → op.writesTo (fullKey cfg g.key) = none)
  | .written => out.pc.probPhase = some .written ∨
      (out.pc.probPhase = some .returned ∧ out.spawns = [g.child i .probStamp])
  | .returned => False

theorem exec_probPhase {s : State T} {i : ℕ} {g : Goroutine T} {o : Oracle T} {out : Outcome T}
    {p : ProbPhase} (h : exec cfg codec s i g o = some out) (hp : g.pc.probPhase = some p) :
    ProbStep cfg i g out p := by
  obtain ⟨key, ttl, origin, pc⟩ := g
  cases exec_cases h with
  | startHit =>
    cases ‹MissPolicy› <;> cases hp
    split
    · exact .inr ⟨.inr rfl, fun _ h => Option.noConfusion h⟩
    · exact .inr ⟨.inl rfl, fun _ h => Option.noConfusion h⟩
  | syncHit _ hok =>
    cases ‹SyncCont› <;> cases hp
    exact .inl (by simp only [Pc.probPhase, SyncCont.isProb, hok, Option.isNone_none, if_true])
  | @syncUnlock κ _ ret _ =>
    -- after a write it returns and starts the stamp task; after an error it only returns
    obtain ⟨_, _ | _⟩ := ret <;> cases κ <;> cases hp
    · exact .inr ⟨rfl, rfl⟩
    · exact .inr ⟨.inr rfl, fun _ h => by cases h; rfl⟩
  | _ =>
    -- the other steps of `missSyncWriteThenReturn` keep the call quiet until its write
    (try cases ‹MissPolicy›) <;> (try cases ‹Critical T›) <;> (try cases ‹SetRet›) <;>
      (try cases ‹SyncCont›) <;> cases hp <;>
      first
      | exact .inl rfl
      | exact .inr ⟨.inl rfl, fun _ h => by cases h <;> rfl⟩
      | exact .inr ⟨.inr rfl, fun _ h => by cases h⟩

/-- The creation stamp of `key`, made by a task of call `i` no earlier than `e`, or that
task still to make it. -/
def StampPending (cfg : HandlerConfig) (s : State T) (i : ℕ) (key : String) (e : Event T) : Prop :=
  ∃ j gj, s.goroutines[j]? = some gj ∧ gj.origin = .spawned i ∧ gj.key = key ∧
    (gj.pc = .probStamp ∨
      ∃ e' ∈ s.log, e'.gid = j ∧ e'.op = .stamp .probabilistic (createdKey cfg key) ∧ e.time ≤ e'.time)

/-- What the log holds of probabilistic call `i` of `key` in each phase. -/
def ProbInv (cfg : HandlerConfig) (s : State T) (i : ℕ) (key : String) : ProbPhase → Prop
  | .quiet => ∀ e ∈ s.log, e.gid = i → e.op.writesTo (fullKey cfg key) = none
  | .written => True
  | .returned => ∀ e ∈ s.log, e.gid = i → e.op.writesTo (fullKey cfg key) ≠ none →
      StampPending cfg s i key e

/-- Every probabilistic call is in a phase whose invariant holds. -/
structure Stamped (cfg : HandlerConfig) (s : State T) : Prop where
  call : ∀ i g, s.goroutines[i]? = some g → g.origin.CallsWith cfg .probabilisticRefresh →
    ∃ p, g.pc.probPhase = some p ∧ ProbInv cfg s i g.key p

theorem StampPending.run {s : State T} {k : ℕ} {g : Goroutine T} {o : Oracle T} {out : Outcome T}
    {i : ℕ} {key : String} {e : Event T} (hc : Clock s) (he : e ∈ s.log)
    (hg : s.goroutines[k]? = some g) (hexec : exec cfg codec s k g o = some out)
    (h : StampPending cfg s i key e) : StampPending cfg (out.apply s k g) i key e := by
  obtain ⟨j, gj, hj, ho, hk, hpc⟩ := h
  have hlt := (List.getElem?_eq_some_iff.1 hg).1
  have hlog : ∀ e' ∈ s.log, e' ∈ (out.apply s k g).log := fun e' he' => by simp [he']
  by_cases hjk : j = k
  · subst hjk
    rw [hg] at hj
    cases hj
    refine ⟨j, { g with pc := out.pc }, by rw [Outcome.apply_getElem? out hlt, if_pos rfl], ho, hk, ?_⟩
    rcases hpc with hpc | ⟨e', he', hgid, hop, hle⟩
    · -- the stamp task stamps now, no earlier than every event so far
      have hc := exec_cases hexec
      rw [hpc] at hc
      cases hc
      exact .inr ⟨⟨j, s.now, .stamp .probabilistic (createdKey cfg g.key)⟩, by simp, rfl,
        by rw [hk], hc.le_now e he⟩
    · exact .inr ⟨e', hlog e' he', hgid, hop, hle⟩
  · refine ⟨j, gj, ?_, ho, hk, hpc.imp id fun ⟨e', he', h'⟩ => ⟨e', hlog e' he', h'⟩⟩
    rw [Outcome.apply_getElem? out hlt, if_neg hjk, if_pos (List.getElem?_eq_some_iff.1 hj).1]
    exact hj

theorem Stamped.step {allowed : State T → Action T → Prop} {s s' : State T} {a : Action T}
    (hs : Run cfg codec allowed s) (hst : Stamped cfg s) (h : step cfg codec s a = some s') :
    Stamped cfg s' := by
  cases a with
  | call req =>
    cases h
    refine ⟨fun i g hi hc => ?_⟩
    rcases List.getElem?_concat_eq_some hi with ⟨-, hi⟩ | ⟨rfl, rfl⟩
    · obtain ⟨p, hp, hinv⟩ := hst.call i g hi hc
      refine ⟨p, hp, ?_⟩
      cases p with
      | quiet => exact hinv
      | written => trivial
      | returned =>
        intro e he hie hw
        obtain ⟨j, gj, hj, ho, hk, hpc⟩ := hinv e he hie hw
        exact ⟨j, gj, by rw [List.getElem?_append_left (List.getElem?_eq_some_iff.1 hj).1]; exact hj,
          ho, hk, hpc⟩
    · -- a new call has done nothing yet
      cases req with
      | getOrRefresh key opts =>
        exact ⟨.quiet, by simp only [Request.goroutine, Pc.probPhase]; exact if_pos hc,
          fun e he hie => absurd hie (hs.balanced.gid_lt e he).ne⟩
      | _ => exact hc.elim
  | tick d => cases h; exact ⟨hst.1⟩
  | evict key => cases h; exact ⟨hst.1⟩
  | run k o =>
    obtain ⟨g, out, hg, hexec, rfl⟩ := step_run h
    have hc := hs.clock
    have hnew : ∀ e ∈ (out.op.map (Event.mk k s.now)).toList, e.gid = k ∧ out.op = some e.op := by
      cases out.op <;> simp
    refine ⟨Outcome.forall_apply hg (fun j gj hjk hj hcj => ?_) (fun hcg => ?_) (fun n g' hn hcg => ?_)⟩
    · -- another call: its events and its stamp task are as they were, or its task stamped
      obtain ⟨p, hp, hinv⟩ := hst.call j gj hj hcj
      have hmem : ∀ e ∈ (out.apply s k g).log, e.gid = j → e ∈ s.log := fun e he hje => by
        rw [Outcome.apply_log, List.mem_append] at he
        exact he.resolve_right fun he' => hjk ((hnew e he').1 ▸ hje).symm
      refine ⟨p, hp, ?_⟩
      cases p with
      | quiet => exact fun e he hje => hinv e (hmem e he hje) hje
      | written => trivial
      | returned =>
        exact fun e he hje hw => (hinv e (hmem e he hje) hje hw).run hc (hmem e he hje) hg hexec
    · -- the call itself
      obtain ⟨p, hp, hinv⟩ := hst.call k g hg hcg
      have hlt := (List.getElem?_eq_some_iff.1 hg).1
      cases p with
      | quiet =>
        rcases exec_probPhase hexec hp with hn | ⟨hn, hops⟩
        · exact ⟨_, hn, trivial⟩
        · have hq : ∀ e ∈ (out.apply s k g).log, e.gid = k →
              e.op.writesTo (fullKey cfg g.key) = none := fun e he hke => by
            rw [Outcome.apply_log, List.mem_append] at he
            rcases he with he | he
            · exact hinv e he hke
            · exact hops _ (hnew e he).2
          rcases hn with hn | hn
          · exact ⟨_, hn, hq⟩
          · exact ⟨_, hn, fun e he hke hw => absurd (hq e he hke) hw⟩
      | written =>
        rcases exec_probPhase hexec hp with hn | ⟨hn, hsp⟩
        · exact ⟨_, hn, trivial⟩
        · -- the call returns and starts its stamp task
          refine ⟨_, hn, fun e _ _ _ => ⟨s.goroutines.length, g.child k .probStamp, ?_, rfl, rfl, .inl rfl⟩⟩
          rw [Outcome.apply_getElem? out hlt, if_neg hlt.ne', if_neg (lt_irrefl _), Nat.sub_self, hsp]
          rfl
      | returned => exact (exec_probPhase hexec hp).elim
    · rw [(exec_spawns hexec g' (List.getElem?_mem hn)).2.2.1] at hcg
      exact hcg.elim

theorem Run.stamped {allowed : State T → Action T → Prop} {s : State T}
    (hs : Run cfg codec allowed s) : Stamped cfg s := by
  induction hs with
  | init h0 => exact ⟨by simp [h0.goroutines]⟩
  | step hs _ h ih => exact ih.step hs h

/-- Once a `ProbabilisticRefresh` call has returned and every task it started has
finished, the `@created` stamp of its key is no earlier than each write of the main key
the call made itself. -/
theorem created_after_miss_write {s : State T} (hs : Reachable cfg codec s) {i : ℕ} {g : Goroutine T}
    (hg : s.goroutines[i]? = some g) (hc : g.origin.CallsWith cfg .probabilisticRefresh)
    (hfin : g.pc.finished)
    (htasks : ∀ (j : ℕ) (gj : Goroutine T), s.goroutines[j]? = some gj → gj.origin = .spawned i →
      gj.pc.finished) :
    ∀ e ∈ s.log, e.gid = i → e.op.writesTo (fullKey cfg g.key) ≠ none →
      ∃ t, s.ledger (createdKey cfg g.key) = some t ∧ e.time ≤ t := by
  obtain ⟨p, hp, hinv⟩ := hs.stamped.call i g hg hc
  obtain rfl := Pc.probPhase_of_finished hfin hp
  intro e he hie hw
  obtain ⟨j, gj, hj, ho, -, hpc⟩ := hinv e he hie hw
  rcases hpc with hpc | ⟨e', he', -, hop, hle⟩
  · have := htasks j gj hj ho
    rw [hpc] at this
    exact absurd this Bool.false_ne_true
  · obtain ⟨t, ht, hle'⟩ := hs.clock.ledger e' he' _ _ hop
    exact ⟨t, ht, hle.trans hle'⟩

theorem created_after_miss_write_p :
    ∃ s : State UInt8, Reachable defaultConfig byteCodec s ∧ ∃ e ∈ s.log, e.gid = 0 ∧
      e.op.writesTo "p" ≠ none ∧ ∃ t, s.ledger "p@created" = some t ∧ e.time ≤ t := by
  obtain ⟨s, hs, hp⟩ := runActions_any defaultConfig byteCodec
    [.call (.getOrRefresh "p" [.withCallMissPolicy .probabilisticRefresh]), .run 0 (.ok none),
      .run 0 (.ok none), .run 0 (.ok none), .run 0 (.ok none), .run 0 (.ok (some 5)),
      .run 0 (.ok none), .run 0 (.ok none), .run 0 (.ok none), .run 1 (.ok none)]
    (p := fun s => (s.goroutines[0]?.any fun (g : Goroutine UInt8) => g.key == "p" &&
        decide (g.origin.CallsWith defaultConfig .probabilisticRefresh) && g.pc.finished) &&
      (s.goroutines.all fun g => g.pc.finished) &&
      s.log.any fun e => e.gid == 0 && e.op.writesTo "p" != none)
    (by decide)
  cases hg : s.goroutines[0]? with
  | none => simp [hg] at hp
  | some g =>
    simp only [hg, Option.any_some, Bool.and_eq_true, beq_iff_eq, decide_eq_true_eq,
      List.all_eq_true, List.any_eq_true, bne_iff_ne, ne_eq] at hp
    obtain ⟨⟨⟨⟨hkey, hc⟩, hfin⟩, hall⟩, e, he, hgid, hw⟩ := hp
    have hw' : e.op.writesTo (fullKey defaultConfig g.key) ≠ none := by rw [hkey]; exact hw
    obtain ⟨t, ht, hle⟩ := created_after_miss_write hs hg hc hfin
      (fun j gj hj _ => hall gj (List.getElem?_mem hj)) e he hgid hw'
    exact ⟨s, hs, e, he, hgid, hw, t, by rw [← ht, hkey]; rfl, hle⟩

/-- A background refresh of `"p"` started by a probabilistic hit writes a new value at time
1000 and leaves the `@created` stamp at the time 0 of the miss. -/
theorem background_refresh_keeps_stamp :
    ¬ ∀ s : State UInt8, Reachable defaultConfig byteCodec s →
      (∀ g ∈ s.goroutines, ∀ req, g.origin = .call req →
        req.key = "p" ∧ (Origin.call req).CallsWith defaultConfig .probabilisticRefresh) →
      (∀ g ∈ s.goroutines, g.pc.finished) →
      ∀ e ∈ s.log, e.op.writesTo (fullKey defaultConfig "p") ≠ none →
        ∃ t, s.ledger (createdKey defaultConfig "p") = some t ∧ e.time ≤ t := by
  intro h
  obtain ⟨s, hs, hp⟩ := runActions_any defaultConfig byteCodec
    [.call (.getOrRefresh "p" [.withCallMissPolicy .probabilisticRefresh]), .run 0 (.ok none),
      .run 0 (.ok none), .run 0 (.ok none), .run 0 (.ok none), .run 0 (.ok (some 5)),
      .run 0 (.ok none), .run 0 (.ok none), .run 0 (.ok none), .run 1 (.ok none), .tick 1000,
      .call (.getOrRefresh "p" [.withCallMissPolicy .probabilisticRefresh]), .run 2 (.ok none),
      .run 2 (.ok none), .run 3 (.ok none), .run 3 (.ok none), .run 3 (.ok none),
      .run 3 (.ok (some 7)), .run 3 (.ok none), .run 3 (.ok none), .run 3 (.ok none)]
    (p := fun s => (s.goroutines.all fun (g : Goroutine UInt8) => g.pc.finished && match g.origin with
        | .call req => req.key == "p" &&
          decide ((Origin.call req).CallsWith defaultConfig .probabilisticRefresh)
        | .spawned _ => true) &&
      s.ledger "p@created" == some 0 && s.log.any fun e => e.op.writesTo "p" != none && e.time == 1000)
    (by with_unfolding_all decide)
  simp only [Bool.and_eq_true, List.all_eq_true, List.any_eq_true, beq_iff_eq, bne_iff_ne,
    ne_eq] at hp
  obtain ⟨⟨hall, hled⟩, e, he, hw, htime⟩ := hp
  obtain ⟨t, ht, hle⟩ := h s hs (fun g hg req hreq => by
      have := (hall g hg).2
      rw [hreq] at this
      simpa using this)
    (fun g hg => (hall g hg).1) e he hw
  rw [show createdKey defaultConfig "p" = "p@created" from rfl, hled] at ht
  cases ht
  omega

end Cashcov.Handler
