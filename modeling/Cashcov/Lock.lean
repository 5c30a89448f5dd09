import Mathlib

/-!
# The in-memory keyed mutex

`keyedMutex` maps each key to a channel with a one-slot buffer. `ch` looks the
channel up and creates it when it is absent, as one step under `km.mu`. `Lock`
sends into the channel and blocks while the buffer is full; `TryLock` sends in a
`select` whose `default` case returns a no-op releaser; a releaser receives.
Channels are numbered in creation order, so a channel is a number.

The task model runs any number of tasks. A task is idle, or between the `ch`
and the send of a `Lock` or `TryLock`, and it keeps the releasers it obtained
and has not invoked yet. A releaser records the key it was obtained for: the
code keeps only the channel, the key is ghost.
-/
namespace Cashcov.Lock

structure KeyedMutex where
  locks : String → Option ℕ
  next : ℕ
  occ : ℕ → ℕ

def newKeyedMutex : KeyedMutex := ⟨fun _ => none, 0, fun _ => 0⟩

/-- `ch`: the lookup and the lazy creation, one step under `km.mu`. -/
def ch (km : KeyedMutex) (key : String) : ℕ × KeyedMutex :=
  match km.locks key with
  | some c => (c, km)
  | none => (km.next, ⟨Function.update km.locks key (some km.next), km.next + 1, km.occ⟩)

/-- `ch <- struct{}{}` into the one-slot buffer; `none` while it is full. -/
def send (km : KeyedMutex) (c : ℕ) : Option KeyedMutex :=
  if km.occ c = 0 then some ⟨km.locks, km.next, Function.update km.occ c 1⟩ else none

/-- `<-ch`, the body of a releaser; `none` while the buffer is empty. -/
def recv (km : KeyedMutex) (c : ℕ) : Option KeyedMutex :=
  if km.occ c = 0 then none
  else some ⟨km.locks, km.next, Function.update km.occ c (km.occ c - 1)⟩

theorem ch_of_some {km : KeyedMutex} {key : String} {c : ℕ} (h : km.locks key = some c) :
    ch km key = (c, km) := by simp [ch, h]

@[simp] theorem ch_occ (km : KeyedMutex) (key : String) : (ch km key).2.occ = km.occ := by
  unfold ch; split <;> rfl

@[simp] theorem ch_locks_self (km : KeyedMutex) (key : String) :
    (ch km key).2.locks key = some (ch km key).1 := by
  unfold ch; split <;> simp_all

theorem ch_locks_of_some {km : KeyedMutex} {key k : String} {c : ℕ} (h : km.locks k = some c) :
    (ch km key).2.locks k = some c := by
  unfold ch; split
  · exact h
  · rename_i hn
    have : k ≠ key := by rintro rfl; simp_all
    simpa [Function.update_noteq this] using h

theorem ch_fresh {km : KeyedMutex} {key : String} (h : km.locks key = none) :
    (ch km key).1 = km.next ∧ (ch km key).2.next = km.next + 1 := by simp [ch, h]

theorem ch_next_le (km : KeyedMutex) (key : String) : km.next ≤ (ch km key).2.next := by
  unfold ch; split <;> simp

theorem send_eq {km km' : KeyedMutex} {c : ℕ} (h : send km c = some km') :
    km.occ c = 0 ∧ km' = ⟨km.locks, km.next, Function.update km.occ c 1⟩ := by
  unfold send at h; split at h <;> simp_all [eq_comm]

theorem recv_eq {km km' : KeyedMutex} {c : ℕ} (h : recv km c = some km') :
    km.occ c ≠ 0 ∧ km' = ⟨km.locks, km.next, Function.update km.occ c (km.occ c - 1)⟩ := by
  unfold recv at h; split at h <;> simp_all [eq_comm]

/-- `unlock key c` is `func() { <-ch }` for the channel `c` of `key`; `noop` is `func() {}`. -/
inductive Releaser
  | unlock (key : String) (c : ℕ)
  | noop
  deriving DecidableEq

def Releaser.onChan (c : ℕ) : Releaser → Bool
  | .unlock _ c' => c' == c
  | .noop => false

def Releaser.isFor (key : String) : Releaser → Bool
  | .unlock key' _ => key' == key
  | .noop => false

/-- Where a task is in `Lock` or `TryLock`: after `ch` returned the channel `c`. -/
inductive Phase
  | idle
  | locking (key : String) (c : ℕ)
  | trying (key : String) (c : ℕ)
  deriving DecidableEq

structure Client where
  phase : Phase
  held : List Releaser

structure System where
  km : KeyedMutex
  clients : List Client

/-- The steps of the task model; `lock` and `tryLock` are the `ch` call that opens
`Lock` and `TryLock`, `send` and `select` the channel operation that ends them. -/
inductive Move
  | spawn
  | lock (i : ℕ) (key : String)
  | tryLock (i : ℕ) (key : String)
  | send (i : ℕ)
  | select (i : ℕ)
  | invoke (i : ℕ) (r : Releaser)

def move (s : System) : Move → Option System
  | .spawn => some ⟨s.km, s.clients ++ [⟨.idle, []⟩]⟩
  | .lock i key =>
    match s.clients[i]? with
    | some ⟨.idle, held⟩ =>
      some ⟨(ch s.km key).2, s.clients.set i ⟨.locking key (ch s.km key).1, held⟩⟩
    | _ => none
  | .tryLock i key =>
    match s.clients[i]? with
    | some ⟨.idle, held⟩ =>
      some ⟨(ch s.km key).2, s.clients.set i ⟨.trying key (ch s.km key).1, held⟩⟩
    | _ => none
  | .send i =>
    match s.clients[i]? with
    | some ⟨.locking key c, held⟩ =>
      (send s.km c).map fun km => ⟨km, s.clients.set i ⟨.idle, held ++ [.unlock key c]⟩⟩
    | _ => none
  | .select i =>
    match s.clients[i]? with
    | some ⟨.trying key c, held⟩ =>
      match send s.km c with
      | some km => some ⟨km, s.clients.set i ⟨.idle, held ++ [.unlock key c]⟩⟩
      | none => some ⟨s.km, s.clients.set i ⟨.idle, held ++ [.noop]⟩⟩
    | _ => none
  | .invoke i r =>
    match s.clients[i]? with
    | some ⟨.idle, held⟩ =>
      if r ∈ held then
        match r with
        | .unlock _ c =>
          (recv s.km c).map fun km => ⟨km, s.clients.set i ⟨.idle, held.erase r⟩⟩
        | .noop => some ⟨s.km, s.clients.set i ⟨.idle, held.erase r⟩⟩
      else none
    | _ => none

inductive Reachable : System → Prop
  | init : Reachable ⟨newKeyedMutex, []⟩
  | step {s s' : System} (m : Move) : Reachable s → move s m = some s' → Reachable s'

/-- Zero or more moves. -/
inductive Moves : System → System → Prop
  | refl (s : System) : Moves s s
  | tail {s₁ s₂ s₃ : System} (m : Move) : Moves s₁ s₂ → move s₂ m = some s₃ → Moves s₁ s₃

theorem Moves.trans {s₁ s₂ s₃ : System} (h₁ : Moves s₁ s₂) (h₂ : Moves s₂ s₃) : Moves s₁ s₃ := by
  induction h₂ with
  | refl => exact h₁
  | tail m _ hm ih => exact .tail m ih hm

theorem Moves.single {s s' : System} {m : Move} (h : move s m = some s') : Moves s s' :=
  .tail m (.refl s) h

theorem Reachable.moves {s s' : System} (hs : Reachable s) (h : Moves s s') : Reachable s' := by
  induction h with
  | refl => exact hs
  | tail m _ hm ih => exact .step m ih hm

/-- Tasks that start idle and hold nothing join by `spawn` moves. -/
theorem moves_spawns (km : KeyedMutex) (cs : List Client) :
    ∀ ts : List Client, (∀ t ∈ ts, t = ⟨.idle, []⟩) → Moves ⟨km, cs⟩ ⟨km, cs ++ ts⟩
  | [], _ => by simpa using Moves.refl _
  | t :: ts, h => by
    have := moves_spawns km (cs ++ [t]) ts fun u hu => h u (List.mem_cons_of_mem _ hu)
    rw [h t (List.mem_cons_self _ _)] at this ⊢
    rw [← List.singleton_append, ← List.append_assoc]
    exact (Moves.single (m := .spawn) rfl).trans this

/-- The releasers of channel `c` not yet invoked, over all tasks. -/
def holdCount (s : System) (c : ℕ) : ℕ := (s.clients.map fun t => t.held.countP (Releaser.onChan c)).sum

/-- The tasks currently holding `key`. -/
def holders (s : System) (key : String) : ℕ :=
  (s.clients.filter fun t => t.held.any (Releaser.isFor key)).length

/-- Every channel a task mentions is the current channel of its key. -/
def Client.Sound (locks : String → Option ℕ) (t : Client) : Prop :=
  (∀ key c, t.phase = .locking key c ∨ t.phase = .trying key c → locks key = some c) ∧
    ∀ key c, Releaser.unlock key c ∈ t.held → locks key = some c

/-- The invariant of the task model: channels are numbered below `next` and never
shared by two keys, tasks only mention current channels, and a channel's buffer
holds exactly as many values as there are uninvoked releasers for it, at most one. -/
structure Inv (s : System) : Prop where
  bounded : ∀ key c, s.km.locks key = some c → c < s.km.next
  injective : ∀ k k' c, s.km.locks k = some c → s.km.locks k' = some c → k = k'
  sound : ∀ t ∈ s.clients, t.Sound s.km.locks
  occ_eq : ∀ c, s.km.occ c = holdCount s c
  occ_le : ∀ c, s.km.occ c ≤ 1

section Invariant

theorem sum_map_set {α : Type} (f : α → ℕ) (l : List α) (i : ℕ) (a t : α) (h : l[i]? = some t) :
    ((l.set i a).map f).sum + f t = (l.map f).sum + f a := by
  induction l generalizing i with
  | nil => simp at h
  | cons b l ih =>
    cases i with
    | zero =>
      simp only [List.getElem?_cons_zero, Option.some.injEq] at h; subst h
      simp only [List.set_cons_zero, List.map_cons, List.sum_cons]; omega
    | succ i =>
      have := ih i (by simpa using h)
      simp only [List.set_cons_succ, List.map_cons, List.sum_cons]; omega

theorem Client.Sound.mono {locks locks' : String → Option ℕ} {t : Client} (h : t.Sound locks)
    (hext : ∀ k c, locks k = some c → locks' k = some c) : t.Sound locks' :=
  ⟨fun key c hp => hext _ _ (h.1 key c hp), fun key c hr => hext _ _ (h.2 key c hr)⟩

/-- Replacing one task and the mutex keeps the invariant when the new mutex extends the
map, keeps it numbered and injective, and its buffers count the change of releasers. -/
theorem Inv.update {s : System} (hs : Inv s) {i : ℕ} {t t' : Client} (hi : s.clients[i]? = some t)
    {km : KeyedMutex} (hext : ∀ k c, s.km.locks k = some c → km.locks k = some c)
    (hbounded : ∀ key c, km.locks key = some c → c < km.next)
    (hinj : ∀ k k' c, km.locks k = some c → km.locks k' = some c → k = k')
    (ht' : t'.Sound km.locks)
    (hocc : ∀ c, km.occ c + t.held.countP (Releaser.onChan c) =
      s.km.occ c + t'.held.countP (Releaser.onChan c))
    (hle : ∀ c, km.occ c ≤ 1) : Inv ⟨km, s.clients.set i t'⟩ where
  bounded := hbounded
  injective := hinj
  sound u hu := by
    rcases List.mem_or_eq_of_mem_set hu with hu | rfl
    · exact (hs.sound u hu).mono hext
    · exact ht'
  occ_eq c := by
    have := sum_map_set (fun t => t.held.countP (Releaser.onChan c)) s.clients i t' t hi
    have := hocc c; have := hs.occ_eq c
    simp only [holdCount] at *; omega
  occ_le := hle

theorem ch_bounded {km : KeyedMutex} {key : String}
    (hb : ∀ k c, km.locks k = some c → c < km.next) :
    ∀ k c, (ch km key).2.locks k = some c → c < (ch km key).2.next := by
  unfold ch; split
  · exact hb
  · intro k c h
    by_cases hk : k = key
    · subst hk; simp_all
    · simp only [Function.update_noteq hk] at h; have := hb k c h; simp only; omega

theorem ch_injective {km : KeyedMutex} {key : String}
    (hb : ∀ k c, km.locks k = some c → c < km.next)
    (hinj : ∀ k k' c, km.locks k = some c → km.locks k' = some c → k = k') :
    ∀ k k' c, (ch km key).2.locks k = some c → (ch km key).2.locks k' = some c → k = k' := by
  unfold ch; split
  · exact hinj
  · intro k k' c h h'
    simp only [Function.update_apply] at h h'
    split_ifs at h h' with hk hk' hk'
    · exact hk.trans hk'.symm
    · cases h; exact absurd (hb _ _ h') (Nat.lt_irrefl _)
    · cases h'; exact absurd (hb _ _ h) (Nat.lt_irrefl _)
    · exact hinj _ _ _ h h'

/-- A `ch` step followed by setting the task's phase keeps the invariant. -/
theorem Inv.ch_phase {s : System} (hs : Inv s) {i : ℕ} {t : Client} (hi : s.clients[i]? = some t)
    (key : String) (p : Phase)
    (hp : ∀ k c, p = .locking k c ∨ p = .trying k c → k = key ∧ c = (ch s.km key).1) :
    Inv ⟨(ch s.km key).2, s.clients.set i ⟨p, t.held⟩⟩ := by
  refine hs.update hi (fun _ _ => ch_locks_of_some) (ch_bounded hs.bounded)
    (ch_injective hs.bounded hs.injective) ⟨fun k c h => ?_, fun k c h => ?_⟩ (by simp)
    (by simpa using hs.occ_le)
  · obtain ⟨rfl, rfl⟩ := hp k c h; exact ch_locks_self _ _
  · exact ch_locks_of_some ((hs.sound t (List.getElem?_mem hi)).2 k c h)

/-- A successful send of a task into the channel of `key` keeps the invariant. -/
theorem Inv.acquire {s : System} (hs : Inv s) {i : ℕ} {t : Client} (hi : s.clients[i]? = some t)
    {key : String} {c : ℕ} (hc : s.km.locks key = some c) {km : KeyedMutex}
    (hsend : send s.km c = some km) :
    Inv ⟨km, s.clients.set i ⟨.idle, t.held ++ [.unlock key c]⟩⟩ := by
  obtain ⟨h0, rfl⟩ := send_eq hsend
  refine hs.update hi (fun _ _ h => h) hs.bounded hs.injective
    ⟨fun k c' h => by simp at h, fun k c' h => ?_⟩ (fun c' => ?_) (fun c' => ?_)
  · rcases List.mem_append.1 h with h | h
    · exact (hs.sound t (List.getElem?_mem hi)).2 k c' h
    · simp only [List.mem_singleton, Releaser.unlock.injEq] at h; obtain ⟨rfl, rfl⟩ := h; exact hc
  · by_cases e : c' = c
    · subst e; simp [Releaser.onChan, h0, Nat.add_comm]
    · simp [Releaser.onChan, Function.update_noteq e, Ne.symm e]
  · by_cases e : c' = c
    · subst e; simp
    · simpa [Function.update_noteq e] using hs.occ_le c'

theorem Inv.spawn {s : System} (hs : Inv s) : Inv ⟨s.km, s.clients ++ [⟨.idle, []⟩]⟩ where
  bounded := hs.bounded
  injective := hs.injective
  sound u hu := by
    rcases List.mem_append.1 hu with hu | hu
    · exact hs.sound u hu
    · simp only [List.mem_singleton] at hu; subst hu; exact ⟨by simp, by simp⟩
  occ_eq c := by simpa [holdCount, List.sum_append] using hs.occ_eq c
  occ_le := hs.occ_le

theorem countP_erase {r : Releaser} {held : List Releaser} (h : r ∈ held) (p : Releaser → Bool) :
    held.countP p = (held.erase r).countP p + if p r then 1 else 0 := by
  rw [(List.perm_cons_erase h).countP_eq, List.countP_cons]

theorem Inv.step {s s' : System} (hs : Inv s) {m : Move} (h : move s m = some s') : Inv s' := by
  cases m with
  | spawn => cases h; exact hs.spawn
  | lock i key =>
    simp only [move] at h; split at h <;> cases h
    rename_i held hi
    exact hs.ch_phase hi key _ (by simp)
  | tryLock i key =>
    simp only [move] at h; split at h <;> cases h
    rename_i held hi
    exact hs.ch_phase hi key _ (by simp)
  | send i =>
    simp only [move] at h; split at h
    · rename_i key c held hi
      obtain ⟨km, hsend, rfl⟩ := Option.map_eq_some'.1 h
      exact hs.acquire hi ((hs.sound _ (List.getElem?_mem hi)).1 key c (by simp)) hsend
    · cases h
  | select i =>
    simp only [move] at h; split at h
    · rename_i key c held hi
      have hc := (hs.sound _ (List.getElem?_mem hi)).1 key c (by simp)
      split at h <;> cases h
      · rename_i km hsend; exact hs.acquire hi hc hsend
      · refine hs.update hi (fun _ _ h => h) hs.bounded hs.injective
          ⟨fun k c' h => by simp at h, fun k c' h => ?_⟩ (by simp [Releaser.onChan]) hs.occ_le
        simpa using (hs.sound _ (List.getElem?_mem hi)).2 k c' (by simpa using h)
    · cases h
  | invoke i r =>
    simp only [move] at h; split at h
    · rename_i held hi
      split at h
      · rename_i hr
        have hsound := hs.sound _ (List.getElem?_mem hi)
        have hsnd : ∀ k c, Releaser.unlock k c ∈ held.erase r → s.km.locks k = some c :=
          fun k c h' => hsound.2 k c (List.mem_of_mem_erase h')
        split at h
        · rename_i key c
          obtain ⟨km, hrecv, rfl⟩ := Option.map_eq_some'.1 h
          obtain ⟨h0, rfl⟩ := recv_eq hrecv
          refine hs.update hi (fun _ _ h => h) hs.bounded hs.injective
            ⟨fun k c' h => by simp at h, hsnd⟩ (fun c' => ?_) (fun c' => ?_)
          · have := countP_erase hr (Releaser.onChan c')
            by_cases e : c' = c
            · subst e; simp only [Releaser.onChan, beq_self_eq_true, if_true] at this
              simp only [Function.update_same]; omega
            · simp only [Releaser.onChan, beq_iff_eq, Ne.symm e, if_false] at this
              simp only [Function.update_noteq e]; omega
          · by_cases e : c' = c
            · subst e; simp only [Function.update_same]; have := hs.occ_le c'; omega
            · simpa [Function.update_noteq e] using hs.occ_le c'
        · cases h
          refine hs.update hi (fun _ _ h => h) hs.bounded hs.injective
            ⟨fun k c' h => by simp at h, hsnd⟩ (fun c' => ?_) hs.occ_le
          have := countP_erase hr (Releaser.onChan c'); simp [Releaser.onChan] at this ⊢; omega
      · cases h
    · cases h

theorem Reachable.inv {s : System} (h : Reachable s) : Inv s := by
  induction h with
  | init => exact ⟨by simp [newKeyedMutex], by simp [newKeyedMutex], by simp,
      fun c => by simp [newKeyedMutex, holdCount], by simp [newKeyedMutex]⟩
  | step m _ hm ih => exact ih.step hm

end Invariant

section Contract

theorem move_locks {s s' : System} {m : Move} (h : move s m = some s') {key : String} {c : ℕ}
    (hc : s.km.locks key = some c) : s'.km.locks key = some c := by
  cases m with
  | spawn => cases h; exact hc
  | lock i k | tryLock i k =>
    simp only [move] at h; split at h <;> cases h; exact ch_locks_of_some hc
  | send i =>
    simp only [move] at h; split at h
    · obtain ⟨km, hsend, rfl⟩ := Option.map_eq_some'.1 h; rw [(send_eq hsend).2]; exact hc
    · cases h
  | select i =>
    simp only [move] at h; split at h
    · split at h <;> cases h
      · rename_i km hsend; rw [(send_eq hsend).2]; exact hc
      · exact hc
    · cases h
  | invoke i r =>
    simp only [move] at h; split at h
    · split at h
      · split at h
        · obtain ⟨km, hrecv, rfl⟩ := Option.map_eq_some'.1 h; rw [(recv_eq hrecv).2]; exact hc
        · cases h; exact hc
      · cases h
    · cases h

theorem length_filter_pos {α : Type} (f : α → ℕ) (l : List α) (h : (l.map f).sum ≤ 1) :
    (l.filter fun a => 0 < f a).length = (l.map f).sum := by
  induction l with
  | nil => rfl
  | cons a l ih =>
    simp only [List.map_cons, List.sum_cons] at h ⊢
    by_cases ha : f a = 0
    · simp only [List.filter_cons, ha, Nat.lt_irrefl, decide_False]; simpa using ih (by omega)
    · have hl : (l.map f).sum = 0 := by omega
      simp only [List.filter_cons, Nat.pos_of_ne_zero ha, decide_True, if_true,
        List.length_cons, ih (by omega), hl]; omega

/-- A task holds `key` exactly when it holds a releaser of `key`'s channel. -/
theorem Inv.any_isFor {s : System} (hs : Inv s) {t : Client} (ht : t ∈ s.clients) {key : String}
    {c : ℕ} (hc : s.km.locks key = some c) :
    t.held.any (Releaser.isFor key) = decide (0 < t.held.countP (Releaser.onChan c)) := by
  have hsound := (hs.sound t ht).2
  apply Bool.eq_iff_iff.2
  simp only [List.any_eq_true, decide_eq_true_eq, List.countP_pos_iff]
  constructor
  · rintro ⟨r, hr, hk⟩
    cases r with
    | noop => simp [Releaser.isFor] at hk
    | unlock k c' =>
      simp only [Releaser.isFor, beq_iff_eq] at hk; subst hk
      have := hsound _ _ hr; rw [hc] at this; cases this
      exact ⟨_, hr, by simp [Releaser.onChan]⟩
  · rintro ⟨r, hr, hk⟩
    cases r with
    | noop => simp [Releaser.onChan] at hk
    | unlock k c' =>
      simp only [Releaser.onChan, beq_iff_eq] at hk; subst hk
      have := hs.injective _ _ _ (hsound _ _ hr) hc; subst this
      exact ⟨_, hr, by simp [Releaser.isFor]⟩

theorem Inv.holders_eq {s : System} (hs : Inv s) {key : String} {c : ℕ}
    (hc : s.km.locks key = some c) : holders s key = s.km.occ c := by
  have hle : holdCount s c ≤ 1 := hs.occ_eq c ▸ hs.occ_le c
  rw [hs.occ_eq, holders, holdCount, ← length_filter_pos _ _ hle]
  exact congrArg List.length (List.filter_congr fun t ht => hs.any_isFor ht hc)

theorem Inv.occ_fresh {s : System} (hs : Inv s) {c : ℕ} (hc : s.km.next ≤ c) : s.km.occ c = 0 := by
  rw [hs.occ_eq]
  refine List.sum_eq_zero fun n hn => ?_
  obtain ⟨t, ht, rfl⟩ := List.mem_map.1 hn
  refine List.countP_eq_zero.2 fun r hr hon => ?_
  cases r with
  | noop => simp [Releaser.onChan] at hon
  | unlock k c' =>
    simp only [Releaser.onChan, beq_iff_eq] at hon; subst hon
    have := hs.bounded _ _ ((hs.sound t ht).2 _ _ hr); omega

/-- In every reachable state of the task model and for every key: the key's channel,
once created, is never replaced, and every task that is acquiring or holding the key
uses it; its buffer holds one value per task holding the key, at most one; and when no
task holds the key, every pending `Lock` send and `TryLock` select on it succeeds, as
does a fresh `ch` followed by the send. -/
theorem keyedMutex_exclusive {s : System} (hs : Reachable s) (key : String) :
    (∀ m s' c, move s m = some s' → s.km.locks key = some c → s'.km.locks key = some c) ∧
    (∀ t ∈ s.clients, ∀ c, t.phase = .locking key c ∨ t.phase = .trying key c ∨
        Releaser.unlock key c ∈ t.held → s.km.locks key = some c) ∧
    (∀ c, s.km.locks key = some c → s.km.occ c = holders s key ∧ s.km.occ c ≤ 1) ∧
    (holders s key = 0 →
      (∀ i c held, s.clients[i]? = some ⟨.locking key c, held⟩ → (move s (.send i)).isSome) ∧
      (∀ i c held, s.clients[i]? = some ⟨.trying key c, held⟩ →
        ∃ km, move s (.select i) = some ⟨km, s.clients.set i ⟨.idle, held ++ [.unlock key c]⟩⟩) ∧
      (send (ch s.km key).2 (ch s.km key).1).isSome) := by
  have hi := hs.inv
  have hchan : ∀ t ∈ s.clients, ∀ c, t.phase = .locking key c ∨ t.phase = .trying key c ∨
      Releaser.unlock key c ∈ t.held → s.km.locks key = some c := by
    rintro t ht c (h | h | h)
    · exact (hi.sound t ht).1 key c (.inl h)
    · exact (hi.sound t ht).1 key c (.inr h)
    · exact (hi.sound t ht).2 key c h
  refine ⟨fun m s' c h hc => move_locks h hc, hchan,
    fun c hc => ⟨(hi.holders_eq hc).symm, hi.occ_le c⟩, fun h0 => ?_⟩
  have hfree : ∀ c, s.km.locks key = some c → send s.km c = some ⟨s.km.locks, s.km.next,
      Function.update s.km.occ c 1⟩ := fun c hc => by
    simp [send, ← hi.holders_eq hc, h0]
  refine ⟨fun i c held h => ?_, fun i c held h => ?_, ?_⟩
  · have hc := hchan _ (List.getElem?_mem h) c (.inl rfl)
    simp [move, h, hfree c hc]
  · have hc := hchan _ (List.getElem?_mem h) c (.inr (.inl rfl))
    exact ⟨_, by simp only [move, h, hfree c hc]; rfl⟩
  · cases hk : s.km.locks key with
    | some c => rw [ch_of_some hk, hfree c hk]; rfl
    | none =>
      obtain ⟨h1, -⟩ := ch_fresh hk
      simp [send, h1, hi.occ_fresh (le_refl _)]

/-- The state after one task has run `Lock("k")`. -/
def lockedK : System :=
  ⟨⟨Function.update (fun _ => none) "k" (some 0), 1, Function.update (fun _ => 0) 0 1⟩,
    [⟨.idle, [.unlock "k" 0]⟩]⟩

theorem keyedMutex_exclusive_lockedK :
    Reachable lockedK ∧ holders lockedK "k" = 1 ∧
      lockedK.km.occ 0 = holders lockedK "k" ∧ lockedK.km.occ 0 ≤ 1 :=
  have hr : Reachable lockedK := .step (.send 0) (.step (.lock 0 "k") (.step .spawn .init rfl) rfl) rfl
  ⟨hr, by decide, (keyedMutex_exclusive hr "k").2.2.1 0 (by decide)⟩

end Contract

end Cashcov.Lock
