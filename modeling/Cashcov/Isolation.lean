import Cashcov.Handler

/-!
# Per-key isolation

A user key names four entries: its main key and its stale companion in the backend,
its cooldown entry and its creation stamp in the refresh ledger. A goroutine of a
key touches no other entry, and its steps read no other entry. The names are not
injective: the main key of `k ++ ":stale"` is the stale companion of `k`, and the
cooldown entry of `k ++ "@created"` is the creation stamp of `k`. Every other pair
of distinct keys has disjoint entries, so a step of one leaves the other's alone.
-/
namespace Cashcov

inductive Entry
  | main
  | stale
  | cooldown
  | created
  deriving DecidableEq

/-- Whether the entry lives in the refresh ledger rather than in the backend. -/
def Entry.inLedger : Entry → Bool
  | .cooldown | .created => true
  | .main | .stale => false

/-- The backend or ledger key of an entry, as the code spells it. -/
def Entry.name (cfg : HandlerConfig) : Entry → String → String
  | .main, k | .cooldown, k => fullKey cfg k
  | .stale, k => staleKey cfg k
  | .created, k => createdKey cfg k

/-- What the entry appends to the user key before the prefix is added. -/
def Entry.suffix : Entry → String
  | .main | .cooldown => ""
  | .stale => ":stale"
  | .created => "@created"

/-- Keys one of which is the other followed by the suffix of an entry. -/
def Confusable (k₁ k₂ : String) : Prop :=
  k₁ = k₂ ++ ":stale" ∨ k₁ = k₂ ++ "@created" ∨ k₂ = k₁ ++ ":stale" ∨ k₂ = k₁ ++ "@created"

theorem fullKey_append (cfg : HandlerConfig) (k x : String) :
    fullKey cfg (k ++ x) = fullKey cfg k ++ x := by
  unfold fullKey; split <;> simp [String.append_assoc]

theorem fullKey_injective (cfg : HandlerConfig) : Function.Injective (fullKey cfg) := by
  intro a b h
  unfold fullKey at h
  split at h
  · exact h
  · simpa [String.ext_iff] using h

theorem Entry.name_eq (cfg : HandlerConfig) (e : Entry) (k : String) :
    e.name cfg k = fullKey cfg (k ++ e.suffix) := by
  cases e <;> simp [Entry.name, Entry.suffix, staleKey, createdKey, fullKey_append]

/-- Entries of one store and of distinct keys that are not confusable differ. -/
theorem Entry.name_ne (cfg : HandlerConfig) {k₁ k₂ : String} (hne : k₁ ≠ k₂)
    (hc : ¬ Confusable k₁ k₂) {e₁ e₂ : Entry} (hl : e₁.inLedger = e₂.inLedger) :
    e₁.name cfg k₁ ≠ e₂.name cfg k₂ := by
  rw [Entry.name_eq, Entry.name_eq]
  intro h
  have h := fullKey_injective cfg h
  cases e₁ <;> cases e₂ <;> simp only [Entry.inLedger, Entry.suffix, reduceCtorEq] at hl h <;>
    simp only [String.append_empty, String.append_left_inj] at h <;> unfold Confusable at hc <;>
    tauto

end Cashcov

namespace Cashcov.Handler

variable {T : Type} {cfg : HandlerConfig} {codec : Codec T}

/-- The entries an operation of a goroutine of `key` writes are entries of `key`; its
other operations act on the full key of `key`. -/
def Op.OnKey (cfg : HandlerConfig) (key : String) : Op T → Prop
  | .write _ k _ _ => k = Entry.main.name cfg key ∨ k = Entry.stale.name cfg key
  | .stamp _ k => k = Entry.cooldown.name cfg key ∨ k = Entry.created.name cfg key
  | .generate _ k _ | .absent _ k | .chan k | .acquire _ k _ | .busy _ k | .release _ k _ =>
    k = fullKey cfg key
  | .close _ => True

theorem exec_onKey {s : State T} {i : ℕ} {g : Goroutine T} {o : Oracle T} {out : Outcome T}
    (h : exec cfg codec s i g o = some out) {op : Op T} (hop : out.op = some op) :
    op.OnKey cfg g.key := by
  obtain ⟨key, ttl, origin, pc⟩ := g
  cases exec_cases h with
  | setWrite => cases hop; exact .inl rfl
  | companionWrite => cases hop; exact .inr rfl
  | setStamp => split at hop <;> cases hop; exact .inl rfl
  | probStamp => cases hop; exact .inr rfl
  | waitClose => cases hop; trivial
  | _ => cases hop <;> rfl

/-- A step of a goroutine changes the backend only at its main key and stale companion,
and the ledger only at its cooldown entry and creation stamp. -/
theorem step_frame {s s' : State T} {i : ℕ} {o : Oracle T} {g : Goroutine T}
    (hg : s.goroutines[i]? = some g) (h : step cfg codec s (.run i o) = some s') (k : String) :
    ((∀ e : Entry, e.inLedger = false → k ≠ e.name cfg g.key) → s'.store k = s.store k) ∧
    ((∀ e : Entry, e.inLedger = true → k ≠ e.name cfg g.key) → s'.ledger k = s.ledger k) := by
  obtain ⟨g', out, hg', hexec, rfl⟩ := step_run h
  rw [hg] at hg'; cases hg'
  unfold Outcome.apply
  cases hop : out.op with
  | none => exact ⟨fun _ => rfl, fun _ => rfl⟩
  | some op =>
    have hon := exec_onKey hexec hop
    refine ⟨fun hk => ?_, fun hk => ?_⟩ <;> cases op <;> simp only [Op.OnKey] at hon <;>
      simp only [Op.apply] <;> rcases hon with rfl | rfl <;>
      exact Function.update_noteq (by exact hk _ rfl) _ _

/-- For distinct keys neither of which is the other followed by `":stale"` or
`"@created"`, the entries of the two differ, and a step of a goroutine of the first
leaves every entry of the second as it was. -/
theorem key_isolation {k₁ k₂ : String} (hne : k₁ ≠ k₂) (hc : ¬ Confusable k₁ k₂) :
    (∀ e₁ e₂ : Entry, e₁.inLedger = e₂.inLedger → e₁.name cfg k₁ ≠ e₂.name cfg k₂) ∧
    ∀ (s s' : State T) (i : ℕ) (o : Oracle T) (g : Goroutine T), s.goroutines[i]? = some g →
      g.key = k₁ → step cfg codec s (.run i o) = some s' → ∀ e : Entry,
        (e.inLedger = false → s'.store (e.name cfg k₂) = s.store (e.name cfg k₂)) ∧
        (e.inLedger = true → s'.ledger (e.name cfg k₂) = s.ledger (e.name cfg k₂)) := by
  refine ⟨fun e₁ e₂ => Entry.name_ne cfg hne hc, fun s s' i o g hg hk h e => ?_⟩
  subst hk
  have hc' : ¬ Confusable k₂ g.key := fun h => hc (by unfold Confusable at *; tauto)
  have hf := step_frame hg h (e.name cfg k₂)
  exact ⟨fun hl => hf.1 fun e' hl' => Entry.name_ne cfg (Ne.symm hne) hc' (hl.trans hl'.symm),
    fun hl => hf.2 fun e' hl' => Entry.name_ne cfg (Ne.symm hne) hc' (hl.trans hl'.symm)⟩

theorem key_isolation_a_b : ("a" ≠ "b" ∧ ¬ Confusable "a" "b") ∧
    Entry.stale.name defaultConfig "a" ≠ Entry.main.name defaultConfig "b" :=
  have hc : ¬ Confusable "a" "b" := by unfold Confusable; decide
  ⟨⟨by decide, hc⟩, (@key_isolation UInt8 defaultConfig byteCodec _ _ (by decide) hc).1 .stale .main rfl⟩

/-- The main key of `"a:stale"` is the stale companion of `"a"` and the cooldown entry
of `"a@created"` is the creation stamp of `"a"`, under every prefix; and a
`StaleWhileRevalidate` miss of `"a"` serves what `Set("a:stale", 7)` wrote. -/
theorem stale_companion_collision :
    (∀ cfg, Entry.main.name cfg "a:stale" = Entry.stale.name cfg "a") ∧
    (∀ cfg, Entry.cooldown.name cfg "a@created" = Entry.created.name cfg "a") ∧
    ((runActions defaultConfig byteCodec .empty
      [.call (.set "a:stale" 7 []), .run 0 (.ok none),
        .call (.getOrRefresh "a" [.withCallMissPolicy .staleWhileRevalidate]),
        .run 1 (.ok none), .run 1 (.ok none)]).bind fun s => s.goroutines[1]?.bind (·.pc.ret)) =
      some (⟨7, true, some 0⟩, none) :=
  ⟨fun _ => rfl, fun cfg => fullKey_append cfg "a" "@created", by decide⟩

end Cashcov.Handler
