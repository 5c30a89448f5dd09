import Cashcov.Exclusion

/-!
# Where each operation comes from, and the clock of the log

A write is the `SET` of `Set` or the stale companion's `SET`, a stamp is the ledger
update of `Set` or the creation stamp of `enableProbabilisticRefresh`, a generator call
comes from one of six places, an absence is found by the double-check of
`missSyncWriteThenReturn` or by the `Exists` of `spawnBackgroundMissWrite`, and a
`done` channel is closed by its lock-wait goroutine. The log is ordered by time, never
ahead of the clock, and the ledger holds, for every stamped key, a time no earlier than
its stamps.
-/
namespace Cashcov.Handler

variable {T : Type} {cfg : HandlerConfig} {codec : Codec T}

/-- The site of the generator call a goroutine makes here. -/
def Pc.genSite : Pc T → Option Site
  | .syncGen .. => some .syncMiss
  | .asyncGen => some .asyncMiss
  | .coopGen => some .cooperativeGen
  | .bestGen => some .bestEffort
  | .refreshGen _ => some .backgroundRefresh
  | .staleGen _ => some .staleRefresh
  | _ => none

/-- What a goroutine `g` at index `self` was doing when its step performed `op`, leading
to `out`. -/
def OpFrom (cfg : HandlerConfig) (codec : Codec T) (s : State T) (self : ℕ) (g : Goroutine T)
    (out : Outcome T) : Op T → Prop
  | .write site key b _ =>
    (∃ v r, g.pc = .setWrite v r ∧ site = r.site ∧ key = fullKey cfg g.key ∧
      codec.marshal v = some b ∧ out.pc = .setStamp v r) ∨
    (∃ v c, g.pc = .staleCompanion v c ∧ site = .staleCompanion ∧ key = staleKey cfg g.key ∧
      codec.marshal v = some b ∧ out.pc = .unlock .staleRefresh c)
  | .stamp site key =>
    (∃ v r, g.pc = .setStamp v r ∧ site = r.site ∧ key = fullKey cfg g.key ∧
      out.pc = afterSet codec s.now v r none) ∨
    (g.pc = .probStamp ∧ site = .probabilistic ∧ key = createdKey cfg g.key ∧ out.pc = .exit)
  | .generate site key _ => g.pc.genSite = some site ∧ key = fullKey cfg g.key
  | .absent site key => key = fullKey cfg g.key ∧ s.store key = none ∧
    ((∃ κ c, g.pc = .syncCheck κ c ∧ site = .syncMiss ∧ out.pc = .syncGen κ c) ∨
      (∃ v c, g.pc = .missWriteExists v c ∧ site = .backgroundMissWrite ∧
        out.pc = .setWrite v (.backgroundMissWrite c)))
  | .close w => w = self ∧ ∃ c, g.pc = .waitClose c ∧ out.pc = .unlock .cooperativeWait c
  | _ => True

theorem exec_opFrom {s : State T} {i : ℕ} {g : Goroutine T} {o : Oracle T} {out : Outcome T}
    (h : exec cfg codec s i g o = some out) : ∀ op, out.op = some op → OpFrom cfg codec s i g out op := by
  obtain ⟨key, ttl, origin, pc⟩ := g
  cases exec_cases h with
  | setWrite hm _ => rintro _ ⟨⟩; exact .inl ⟨_, _, rfl, rfl, rfl, hm, rfl⟩
  | companionWrite hm _ => rintro _ ⟨⟩; exact .inr ⟨_, _, rfl, rfl, rfl, hm, rfl⟩
  | setStamp => intro _ hop; split at hop <;> cases hop; exact .inl ⟨_, _, rfl, rfl, rfl, rfl⟩
  | probStamp => rintro _ ⟨⟩; exact .inr ⟨rfl, rfl, rfl, rfl⟩
  | syncAbsent hnil => rintro _ ⟨⟩; exact ⟨rfl, getReply_redisNil hnil, .inl ⟨_, _, rfl, rfl, rfl⟩⟩
  | missWriteAbsent hskip => rintro _ ⟨⟩; exact ⟨rfl, by simp_all, .inr ⟨_, _, rfl, rfl, rfl⟩⟩
  | waitClose => rintro _ ⟨⟩; exact ⟨rfl, _, rfl, rfl⟩
  | _ => first
    | exact fun _ h => Option.noConfusion h
    | (rintro _ ⟨⟩; trivial)

theorem Pc.genSite_backgroundRefresh {pc : Pc T} (h : pc.genSite = some .backgroundRefresh) :
    ∃ c, pc = .refreshGen c := by
  cases pc <;> simp_all [Pc.genSite]

/-- The log is ordered by time and not ahead of the clock, and every stamped ledger
entry holds a time no earlier than its stamps. -/
structure Clock (s : State T) : Prop where
  le_now : ∀ e ∈ s.log, e.time ≤ s.now
  sorted : s.log.Pairwise fun a b => a.time ≤ b.time
  ledger : ∀ e ∈ s.log, ∀ site key, e.op = .stamp site key → ∃ t, s.ledger key = some t ∧ e.time ≤ t

theorem Clock.step {s s' : State T} {a : Action T} (hc : Clock s)
    (h : step cfg codec s a = some s') : Clock s' := by
  cases a with
  | call req => cases h; exact ⟨hc.1, hc.2, hc.3⟩
  | tick d =>
    cases h
    exact ⟨fun e he => Nat.le_add_right_of_le (hc.le_now e he), hc.sorted, hc.ledger⟩
  | evict key => cases h; exact ⟨hc.1, hc.2, hc.3⟩
  | run i o =>
    obtain ⟨g, out, -, -, rfl⟩ := step_run h
    have hev : ∀ e ∈ (out.op.map (Event.mk i s.now)).toList, e.time = s.now ∧ out.op = some e.op := by
      cases out.op <;> simp
    refine ⟨fun e he => ?_, ?_, fun e he site key hst => ?_⟩
    · simp only [Outcome.apply_log, List.mem_append] at he
      rcases he with he | he
      · simpa using hc.le_now e he
      · simp [(hev e he).1]
    · simp only [Outcome.apply_log, List.pairwise_append]
      refine ⟨hc.sorted, ?_, fun a ha b hb => (hev b hb).1 ▸ hc.le_now a ha⟩
      cases out.op <;> simp
    · -- a stamp sets the ledger to the current time; nothing else touches the ledger
      have hled : ∀ k, (out.apply s i g).ledger k = s.ledger k ∨
          ∃ site, out.op = some (.stamp site k) ∧ (out.apply s i g).ledger k = some s.now := by
        intro k
        unfold Outcome.apply
        cases hop : out.op with
        | none => exact .inl rfl
        | some op =>
          cases op with
          | stamp site' key' =>
            by_cases hk : k = key'
            · subst hk; exact .inr ⟨site', rfl, by simp [Op.apply]⟩
            · exact .inl (by simp [Op.apply, Function.update_noteq hk])
          | _ => exact .inl rfl
      simp only [Outcome.apply_log, List.mem_append] at he
      rcases he with he | he
      · obtain ⟨t, ht, hle⟩ := hc.ledger e he site key hst
        rcases hled key with hk | ⟨-, -, hk⟩
        · exact ⟨t, hk ▸ ht, hle⟩
        · exact ⟨s.now, hk, hc.le_now e he⟩
      · obtain ⟨htime, hop⟩ := hev e he
        refine ⟨s.now, ?_, htime.le⟩
        unfold Outcome.apply
        rw [hop, hst]
        simp [Op.apply]

theorem Run.clock {allowed : State T → Action T → Prop} {s : State T}
    (hs : Run cfg codec allowed s) : Clock s := by
  induction hs with
  | init h0 => exact ⟨by simp [h0.log], by simp [h0.log], by simp [h0.log]⟩
  | step _ _ h ih => exact ih.step h

end Cashcov.Handler
