import Outlay.Shim.Workers

/-!
# The lifecycle of the subscribe tasks

The main loop stores the task of each live sub_id, and signals a task when it
removes it. So no task is orphaned, none is signalled twice, and no two tasks of
one sub_id are live (`supervised`); and a signal is never lost, whenever it
arrives, until the task consumes it or returns.

* `Ledger` is the invariant that ties the stored tasks to the signals sent: the
  tasks not signalled are exactly those `Pending`.
* `Heard` is the invariant of one task and its signal.

A task that consumes its signal aborts the stream of its call. But a task also
returns, without doing so, when it cannot send a chunk because the writer has
given up (`not_abortedOnReturn`); where this does not happen, no stream is left
open (`abortedOnReturn`).
-/

namespace Outlay.Shim

open Async

namespace Conn

variable {decode : String → Option Json} {s s' : Conn} {n : ℕ}

/-! ## Stored tasks and signals -/

/-- The task `n` is still to be signalled: it is stored under its sub_id, or the
    cleanup has not reached it yet. -/
def Pending (s : Conn) (n : ℕ) : Prop :=
  match s.main with
  | .cleanup rest => n ∈ rest
  | m => m.looping = true ∧ s.subs.lookup (s.tasks n).subId = some n

/-- The tasks stored, and the signals sent. -/
structure Ledger (s : Conn) : Prop where
  /-- A stored task was spawned for its sub_id. -/
  stored : s.main.looping = true → ∀ k m, s.subs.lookup k = some m →
    (s.tasks m).subId = k ∧ (s.tasks m).stage ≠ .absent
  /-- The cleanup has to signal every task once. -/
  listed : ∀ rest, s.main = .cleanup rest →
    rest.Nodup ∧ ∀ m ∈ rest, (s.tasks m).stage ≠ .absent
  /-- The tasks pending are those not signalled, and the others were signalled once. -/
  signals : ∀ n, (s.tasks n).stage ≠ .absent →
    (s.Pending n ∧ (s.tasks n).signals = 0) ∨ (¬s.Pending n ∧ (s.tasks n).signals = 1)

theorem pending_of_looping (h : s.main.looping = true) :
    s.Pending n ↔ s.subs.lookup (s.tasks n).subId = some n := by
  rw [Pending]
  split
  next hm => rw [hm] at h; cases h
  next => exact and_iff_right h

theorem not_looping_cleanup {rest : List ℕ} (h : s.main.looping = true)
    (hm : s.main = .cleanup rest) : False := by rw [hm] at h; cases h

/-- The main loop has been left, and the cleanup has signalled every task. -/
def Cleaned (s : Conn) : Prop :=
  s.main = .cleanup [] ∨ s.main = .joining ∨ s.main = .returned

theorem Cleaned.not_pending (h : s.Cleaned) : ¬s.Pending n := by
  rcases h with h | h | h <;> simp [Pending, h, Main.looping]

/-- The ledger while the main loop runs. -/
theorem Ledger.of_looping (hl : s.main.looping = true)
    (hstored : ∀ k m, s.subs.lookup k = some m →
      (s.tasks m).subId = k ∧ (s.tasks m).stage ≠ .absent)
    (hsignals : ∀ n, (s.tasks n).stage ≠ .absent →
      (s.subs.lookup (s.tasks n).subId = some n ∧ (s.tasks n).signals = 0) ∨
        (s.subs.lookup (s.tasks n).subId ≠ some n ∧ (s.tasks n).signals = 1)) : Ledger s :=
  ⟨fun _ => hstored, fun _ hr => (not_looping_cleanup hl hr).elim, fun n hn => by
    rw [pending_of_looping hl]; exact hsignals n hn⟩

/-- While the main loop runs, the tasks not signalled are those stored. -/
theorem Ledger.stored_or_signalled (h : Ledger s) (hl : s.main.looping = true)
    (hn : (s.tasks n).stage ≠ .absent) :
    (s.subs.lookup (s.tasks n).subId = some n ∧ (s.tasks n).signals = 0) ∨
      (s.subs.lookup (s.tasks n).subId ≠ some n ∧ (s.tasks n).signals = 1) := by
  have := h.signals n hn
  rwa [pending_of_looping hl] at this

/-- The ledger depends on the main loop, on the stored tasks, and on what the
    tasks were spawned with and their signals. -/
theorem Ledger.congr (h : Ledger s)
    (hm : s'.main = s.main ∨ (s.main.looping = true ∧ s'.main.looping = true))
    (hsubs : s'.subs = s.subs)
    (ht : ∀ n, ((s'.tasks n).stage = .absent ↔ (s.tasks n).stage = .absent) ∧
      (s'.tasks n).subId = (s.tasks n).subId ∧ (s'.tasks n).signals = (s.tasks n).signals) :
    Ledger s' := by
  have hloop : s'.main.looping = s.main.looping := by
    rcases hm with hm | ⟨h₁, h₂⟩
    · rw [hm]
    · rw [h₁, h₂]
  have hpend : ∀ n, s'.Pending n ↔ s.Pending n := fun n => by
    rcases hm with hm | ⟨h₁, h₂⟩
    · rw [Pending, Pending, hm, hsubs, (ht n).2.1]
    · rw [pending_of_looping h₁, pending_of_looping h₂, hsubs, (ht n).2.1]
  constructor
  · intro hl k m hk
    rw [(ht m).2.1, ne_eq, (ht m).1]
    exact h.stored (hloop ▸ hl) k m (hsubs ▸ hk)
  · intro rest hr
    rcases hm with hm | ⟨-, h₂⟩
    · simpa only [ne_eq, ht] using h.listed rest (hm ▸ hr)
    · exact absurd hr (fun hr => not_looping_cleanup h₂ hr)
  · intro n hn
    rw [hpend, (ht n).2.2]
    exact h.signals n (by rwa [ne_eq, ← (ht n).1])

/-- Removing a sub_id signals its task, which is not stored any more. -/
theorem Ledger.remove (h : Ledger s) (hl : s.main.looping = true) (subId : String) :
    Ledger (s.remove subId) ∧ (s.remove subId).subs.lookup subId = none := by
  rw [Conn.remove]
  split
  next m hm =>
    obtain ⟨hsub, hsp⟩ := h.stored hl subId m hm
    have hm0 : (s.tasks m).signals = 0 := by
      rcases h.stored_or_signalled hl hsp with ⟨-, h0⟩ | ⟨hp, -⟩
      · exact h0
      · exact absurd (hsub ▸ hm) hp
    refine ⟨.of_looping hl (fun k m' hk => ?_) (fun n hn => ?_), AList.lookup_erase _ _⟩
    · -- What is still stored was stored under another sub_id.
      have hks : k ≠ subId := by
        rintro rfl
        rw [AList.lookup_erase] at hk
        cases hk
      rw [AList.lookup_erase_ne hks] at hk
      obtain ⟨hsub', hsp'⟩ := h.stored hl k m' hk
      have hmm : m' ≠ m := by
        rintro rfl
        exact hks (hsub'.symm.trans hsub)
      simpa [Function.update_of_ne hmm] using And.intro hsub' hsp'
    · by_cases hnm : n = m
      · subst hnm
        refine .inr ⟨?_, by simp [Task.signal, hm0]⟩
        simp only [Task.signal]
        rw [Function.update_self, hsub, AList.lookup_erase]
        exact Option.some_ne_none n ∘ Eq.symm
      · simp only [Function.update_of_ne hnm] at hn ⊢
        rw [Function.update_of_ne hnm]
        have hold := h.stored_or_signalled hl hn
        by_cases hns : (s.tasks n).subId = subId
        · -- The task stored under the sub_id was the one removed, not this one.
          rw [hns, hm] at hold
          rw [hns, AList.lookup_erase]
          simpa [Ne.symm hnm] using hold
        · rwa [AList.lookup_erase_ne hns]
  next hnone => exact ⟨h, hnone⟩

/-- Storing the task spawned for the item being read, under a sub_id not stored. -/
theorem Ledger.subscribe (h : Ledger s) (hl : s.main.looping = true) {subId : String}
    (hnone : s.subs.lookup subId = none) (hlen : (s.tasks s.inbound.length).stage = .absent)
    (filters : List Json) : Ledger (s.subscribe subId filters) := by
  refine .of_looping hl (fun k m hk => ?_) (fun n hn => ?_)
  · by_cases hks : k = subId
    · subst hks
      obtain rfl : s.inbound.length = m := by
        simpa [Conn.subscribe, AList.lookup_insert] using hk
      simp [Conn.subscribe, Task.spawn]
    · simp only [Conn.subscribe, AList.lookup_insert_ne hks] at hk
      obtain ⟨hsub, hsp⟩ := h.stored hl k m hk
      have hm : m ≠ s.inbound.length := by
        rintro rfl
        exact hsp hlen
      simpa [Conn.subscribe, Function.update_of_ne hm] using And.intro hsub hsp
  · by_cases hnl : n = s.inbound.length
    · subst hnl
      refine .inl ⟨?_, by simp [Conn.subscribe, Task.spawn, Task.absent]⟩
      simp only [Conn.subscribe]
      rw [Function.update_self, Task.spawn, AList.lookup_insert]
    · simp only [Conn.subscribe, Function.update_of_ne hnl] at hn ⊢
      rw [Function.update_of_ne hnl]
      have hold := h.stored_or_signalled hl hn
      by_cases hns : (s.tasks n).subId = subId
      · -- Nothing was stored under the sub_id.
        rw [hns, hnone] at hold
        rw [hns, AList.lookup_insert]
        simpa [Ne.symm hnl] using hold
      · rwa [AList.lookup_insert_ne hns]

/-- Leaving the main loop, the tasks stored are those to be signalled. -/
theorem Ledger.leave (h : Ledger s) (hl : s.main.looping = true) : Ledger s.leave := by
  have hmem : ∀ m, m ∈ s.subs.entries.map Sigma.snd ↔
      (s.tasks m).stage ≠ .absent ∧ s.subs.lookup (s.tasks m).subId = some m := fun m => by
    simp only [List.mem_map, Sigma.exists]
    constructor
    · rintro ⟨k, _, hk, rfl⟩
      have hk := AList.mem_lookup_iff.2 hk
      obtain ⟨hsub, hsp⟩ := h.stored hl k _ hk
      exact ⟨hsp, hsub ▸ hk⟩
    · rintro ⟨-, hk⟩
      exact ⟨_, m, AList.mem_lookup_iff.1 hk, rfl⟩
  refine ⟨fun hl' => (by cases hl'), fun rest hr => ?_, fun n hn => ?_⟩
  · obtain rfl := Main.cleanup.inj hr
    refine ⟨List.Nodup.map_on ?_ s.subs.nodupKeys.nodup, fun m hm => ((hmem m).1 hm).1⟩
    -- Two entries of one task have the sub_id it was spawned for.
    rintro ⟨k, m⟩ hk ⟨k', m'⟩ hk' hmm
    obtain rfl : m = m' := hmm
    have h₁ := (h.stored hl k m (AList.mem_lookup_iff.2 hk)).1
    have h₂ := (h.stored hl k' m (AList.mem_lookup_iff.2 hk')).1
    rw [← h₁, ← h₂]
  · have hpend : s.leave.Pending n ↔ s.Pending n := by
      rw [pending_of_looping hl]
      exact (hmem n).trans (and_iff_right hn)
    rw [hpend]
    exact h.signals n hn

/-- Handling an item keeps the ledger. -/
theorem Ledger.handle (h : Ledger s) (hm : s.main = .reading)
    (hlen : (s.tasks s.inbound.length).stage = .absent) (f : Inbound) :
    Ledger (s.handle decode f) := by
  have hl : s.main.looping = true := by rw [hm]; rfl
  cases f with
  | text t =>
    simp only [Conn.handle]
    rcases parseClientFrame decode t with _ | ⟨subId, filters⟩ | subId | event
    · exact h.congr (.inr ⟨hl, rfl⟩) rfl fun _ => ⟨Iff.rfl, rfl, rfl⟩
    · obtain ⟨hr, hnone⟩ := h.remove hl subId
      refine hr.subscribe (by rwa [remove_main]) hnone ?_ filters
      rw [remove_inbound]
      rcases remove_tasks s subId s.inbound.length with ht | ht <;> rw [ht] <;> exact hlen
    · exact (h.remove hl subId).1
    · exact h.congr (.inl rfl) rfl fun _ => ⟨Iff.rfl, rfl, rfl⟩
  | close | error | eof => exact h.leave hl
  | other => exact h

/-- Every step keeps the ledger. -/
theorem Ledger.step {a : ConnAction} (hs : (system decode).Reachable s) (h : Ledger s)
    (hst : Step decode s a s') : Ledger s' := by
  have hmove := hst.taskMove
  cases hst with
  | inbound f hm =>
    exact (h.handle hm (absent_of_le hs le_rfl).1 f).congr (.inl rfl) rfl
      fun _ => ⟨Iff.rfl, rfl, rfl⟩
  | notice hm hc => exact h.congr (.inr ⟨by rw [hm]; rfl, rfl⟩) rfl fun _ => ⟨Iff.rfl, rfl, rfl⟩
  | @signal m rest hm hmem =>
    -- The task is listed once: it was not signalled before, and is not pending any more.
    obtain ⟨hnd, hsp⟩ := h.listed _ hm
    have hpend : ∀ n, s.Pending n ↔ n ∈ rest := fun n => by simp only [Pending, hm]
    refine ⟨fun hl => (by cases hl), fun rest' hr => ?_, fun n hn => ?_⟩
    · obtain rfl := Main.cleanup.inj hr
      refine ⟨hnd.erase m, fun k hk => ?_⟩
      obtain ⟨hkm, hk⟩ := hnd.mem_erase_iff.1 hk
      simpa [Function.update_of_ne hkm] using hsp k hk
    · change (n ∈ rest.erase m ∧ _) ∨ (n ∉ rest.erase m ∧ _)
      by_cases hnm : n = m
      · subst hnm
        rcases h.signals n (hsp n hmem) with ⟨-, h0⟩ | ⟨hp, -⟩
        · exact .inr ⟨hnd.not_mem_erase, by simp [Task.signal, h0]⟩
        · exact absurd ((hpend n).2 hmem) hp
      · simp only [Function.update_of_ne hnm] at hn ⊢
        simpa only [hpend, List.mem_erase_of_ne hnm] using h.signals n hn
  | cleaned hm =>
    refine ⟨fun hl => (by cases hl), fun _ hr => (by cases hr), fun n hn => .inr ?_⟩
    rcases h.signals n hn with ⟨hp, -⟩ | ⟨-, h1⟩
    · exact absurd hp (Cleaned.not_pending (.inl hm))
    · exact ⟨Cleaned.not_pending (.inr (.inl rfl)), h1⟩
  | join hm hw =>
    refine ⟨fun hl => (by cases hl), fun _ hr => (by cases hr), fun n hn => .inr ?_⟩
    rcases h.signals n hn with ⟨hp, -⟩ | ⟨-, h1⟩
    · exact absurd hp (Cleaned.not_pending (.inr (.inl hm)))
    · exact ⟨Cleaned.not_pending (.inr (.inr rfl)), h1⟩
  | task ht | send hs hc =>
    refine h.congr (.inl rfl) rfl fun n => ?_
    have hkeep := (hmove n).keeps (fun _ h => by cases h)
    refine ⟨hkeep.1, hkeep.2.1, ?_⟩
    simp only [Function.update_apply]
    split_ifs with hn
    · subst hn
      first | rfl | (cases ht <;> rfl)
    · rfl
  | published | ack | recv | drained | wrote | broke | closed =>
    exact h.congr (.inl rfl) rfl fun _ => ⟨Iff.rfl, rfl, rfl⟩

/-- The ledger is always kept. -/
theorem ledger (hs : (system decode).Reachable s) : Ledger s := by
  refine hs.invariant (P := Ledger) ?_ fun s a s' hs h _ hst => h.step hs (step_cases hst)
  exact ⟨fun _ k m hk => (by cases hk), fun _ hr => (by cases hr), fun n hn => absurd rfl hn⟩

/-! ## A signal is never lost -/

end Conn

/-- A signal sent to the task is available to it, unless it has consumed it or returned. -/
def Task.Heard (t : Task) : Prop :=
  0 < t.signals → t.running = true → t.taken = false → t.cancel.available = true

/-- What is available stays available when the wait is registered or dropped; it
    is only gone once consumed. -/
theorem Task.Heard.step {t t' : Task} {a : TaskAction} (h : t.Heard) (hst : TaskStep t a t') :
    t'.Heard := by
  cases hst with
  | arm hs hc =>
    intro hsig _ htaken
    -- Nothing to consume, so no signal was sent.
    have hnone := (Notify.available_of_register hc).1
    rw [h hsig (by rcases hs with hs | hs <;> simp [running, hs]) htaken] at hnone
    cases hnone
  | established hs | refused hs | chunk hs | error hs =>
    intro hsig _ htaken
    rw [Notify.available_dropWaiter]
    exact h hsig (by simp [running, hs]) htaken
  | finish _ | aborted _ => intro _ hr; simp [running] at hr
  | bail _ _ | abort _ _ => intro _ _ htaken; cases htaken

/-- A task that was not signalled has nothing to consume, and has consumed nothing. -/
def Task.Undisturbed (t : Task) : Prop :=
  t.signals = 0 → t.cancel.available = false ∧ t.taken = false

/-- Without a signal, no step of the task consumes one. -/
theorem Task.Undisturbed.step {t t' : Task} {a : TaskAction} (h : t.Undisturbed)
    (hst : TaskStep t a t') : t'.Undisturbed := by
  cases hst with
  | arm _ hc => exact fun hsig => ⟨(Notify.available_of_register hc).2, (h hsig).2⟩
  | established _ | refused _ | chunk _ | error _ | finish _ =>
    exact fun hsig => ⟨by rw [Notify.available_dropWaiter]; exact (h hsig).1, (h hsig).2⟩
  | bail _ hc | abort _ hc =>
    intro hsig
    exact absurd (Notify.available_of_consume hc) (by simp [(h hsig).1])
  | aborted _ => exact h

namespace Conn

variable {decode : String → Option Json} {s s' : Conn} {n : ℕ}

/-- A signal sent to a task stays available to it. -/
theorem heard (hs : (system decode).Reachable s) (n : ℕ) : (s.tasks n).Heard := by
  refine task_invariant (P := Task.Heard) (fun hsig => absurd hsig (lt_irrefl 0))
    (fun _ _ hsig => absurd hsig (lt_irrefl 0)) (fun t _ _ _ _ => t.cancel.available_notifyOne)
    (fun _ _ _ h hst => h.step hst) (fun s frame last _ h hf hsig _ htaken => ?_) hs
  exact h hsig (by simp [Task.running, hf]) htaken

/-- A task that was not signalled has consumed no signal. -/
theorem not_taken (hs : (system decode).Reachable s) (h : (s.tasks n).signals = 0) :
    (s.tasks n).taken = false := by
  have hU : (s.tasks n).Undisturbed := by
    refine task_invariant (P := Task.Undisturbed) (fun _ => ⟨rfl, rfl⟩) (fun _ _ _ => ⟨rfl, rfl⟩)
      (fun t _ hsig => ?_) (fun _ _ _ h hst => h.step hst) (fun _ _ _ _ h _ => h) hs
    exact absurd hsig (Nat.succ_ne_zero _)
  exact (hU h).2

/-- A running task that has not been signalled. -/
def Live (s : Conn) (n : ℕ) : Prop := (s.tasks n).running = true ∧ (s.tasks n).signals = 0

/-- No task is orphaned, and no two tasks of one sub_id are live. -/
structure Supervised (s : Conn) : Prop where
  /-- While the main loop runs, each sub_id has one live task at most. -/
  unique : s.main.looping = true → ∀ m n, s.Live m → s.Live n →
    (s.tasks m).subId = (s.tasks n).subId → m = n
  /-- While the main loop runs, a live task is the one stored under its sub_id. -/
  stored : s.main.looping = true → ∀ n, s.Live n → s.subs.lookup (s.tasks n).subId = some n
  /-- Each task is signalled at most once. -/
  once : ∀ n, (s.tasks n).stage ≠ .absent → (s.tasks n).signals ≤ 1
  /-- A signal stays available to the task until it consumes it or returns. -/
  heard : ∀ n, (s.tasks n).Heard
  /-- After the cleanup, every task ever spawned has been signalled, once. -/
  cleaned : s.Cleaned → ∀ n, (s.tasks n).stage ≠ .absent → (s.tasks n).signals = 1

/-- A task that runs was spawned. -/
theorem Live.spawned (h : s.Live n) : (s.tasks n).stage ≠ .absent :=
  (of_decide_eq_true h.1).1

/-- In every state of every run, no task is orphaned, and no two tasks of one
    sub_id are live. -/
theorem supervised (hs : (system decode).Reachable s) : Supervised s := by
  have h := ledger hs
  have hstored : s.main.looping = true → ∀ n, s.Live n →
      s.subs.lookup (s.tasks n).subId = some n := fun hl n hn => by
    rcases h.stored_or_signalled hl hn.spawned with ⟨hk, -⟩ | ⟨-, h1⟩
    · exact hk
    · exact absurd hn.2 (by rw [h1]; exact one_ne_zero)
  refine ⟨fun hl m n hm hn hmn => ?_, hstored, fun n hn => ?_, heard hs, fun hm n hn => ?_⟩
  · have hk := hstored hl m hm
    rw [hmn, hstored hl n hn] at hk
    exact (Option.some.inj hk).symm
  · rcases h.signals n hn with ⟨-, h0⟩ | ⟨-, h1⟩ <;> omega
  · rcases h.signals n hn with ⟨hp, -⟩ | ⟨-, h1⟩
    · exact absurd hp hm.not_pending
    · exact h1

/-- The decoding of the texts of a client that subscribes, publishes and unsubscribes. -/
def sample (text : String) : Option Json :=
  if text = "[\"REQ\",\"s\"]" then some (.arr [.str "REQ", .str "s"])
  else if text = "[\"CLOSE\",\"s\"]" then some (.arr [.str "CLOSE", .str "s"])
  else if text = "[\"EVENT\",\x7b\"id\":\"e\"\x7d]" then
    some (.arr [.str "EVENT", .obj [("id", .str "e")]])
  else none

/-- The client subscribes. -/
def req : ConnAction := .inbound (.text "[\"REQ\",\"s\"]")

/-- The client subscribes twice with one sub_id, and leaves: both tasks are
    signalled, one of them while it waits for its call. -/
theorem supervised_replace : ∃ s : Conn, s.main = .joining ∧
    (s.tasks 0).cancel.available = true ∧ (s.tasks 1).cancel.available = true ∧
      Supervised s := by
  obtain ⟨s, hs, hp⟩ := System.exists_reachableBy (M := system sample) (C := fun _ _ => True)
    [req, .task 0 .arm, req, .inbound .eof, .signal 1, .cleanup]
    (fun s => decide (s.main = .joining ∧ (s.tasks 0).cancel.available = true ∧
      (s.tasks 1).cancel.available = true)) (by decide)
  obtain ⟨hm, h₀, h₁⟩ := of_decide_eq_true hp
  exact ⟨s, hm, h₀, h₁, supervised hs⟩

/-! ## Aborting the stream -/

end Conn

/-- A task that has returned, of an established call whose stream is still open,
    has issued `handle.cancel` for it, once. -/
def Task.AbortedOnReturn (t : Task) : Prop :=
  t.stage = .returned → t.call = .streaming → t.aborts = 1

/-- The task is sending a chunk of its stream. -/
def Task.forwarding (t : Task) : Bool :=
  match t.stage with
  | .sending _ last => !last
  | _ => false

/-- How far the call of a task is, and what has been aborted, stage by stage. -/
def Task.Tidy (t : Task) : Prop :=
  match t.stage with
  | .absent | .setup => t.call = .connecting ∧ t.aborts = 0
  | .pumping => t.call = .streaming ∧ t.aborts = 0
  | .sending _ last => if last then t.call ≠ .streaming else t.call = .streaming ∧ t.aborts = 0
  | .cancelling => t.call = .streaming ∧ t.aborts = 1
  | .returned => t.call = .streaming → t.aborts = 1

/-- Every step of a task keeps its call tidy. -/
theorem Task.Tidy.step {t t' : Task} {a : TaskAction} (h : t.Tidy) (hst : TaskStep t a t') :
    t'.Tidy := by
  cases hst with
  | arm hs _ => exact h
  | established hs | chunk hs | abort hs _ =>
    simp only [Tidy, hs] at h
    simp [Tidy, h]
  | refused hs | error hs | finish hs => simp [Tidy]
  | bail hs _ | aborted hs =>
    simp only [Tidy, hs] at h
    simp [Tidy, h]

namespace Conn

variable {decode : String → Option Json} {s s' : Conn} {n : ℕ}

/-- The sends of the task `n` deliver the chunks of its stream: the receiver of
    the channel has not been dropped. -/
def Delivers (n : ℕ) (s : Conn) : ConnAction → Prop
  | .send m => m = n → (s.tasks n).forwarding = true → s.channel.alive = true
  | _ => True

instance (s : Conn) : DecidablePred (Delivers n s)
  | .send _ => inferInstanceAs (Decidable (_ → _ → _))
  | .inbound _ | .notice | .signal _ | .cleanup | .join | .task _ _ | .published _ _ | .ack _
  | .recv | .wrote _ | .closed => instDecidableTrue

/-- In every run in which the sends of the task `n` deliver the chunks of its
    stream, it does not return leaving its stream open. -/
theorem abortedOnReturn (hs : (system decode).ReachableBy (Delivers n) s) :
    (s.tasks n).AbortedOnReturn := by
  have htidy : (s.tasks n).Tidy := by
    refine task_invariant (C := Delivers n) (P := Task.Tidy) ⟨rfl, rfl⟩ (fun _ _ => ⟨rfl, rfl⟩)
      (fun _ h => h) (fun _ _ _ h hst => h.step hst) (fun s frame last hC h hf => ?_) hs
    simp only [Task.Tidy, hf] at h
    cases last with
    | true => simpa [Task.Tidy, Task.afterSend] using fun hc => absurd hc h
    | false =>
      -- A chunk delivered, and the loop goes on.
      have hfwd : (s.tasks n).forwarding = true := by simp [Task.forwarding, hf]
      simpa [Task.Tidy, Task.afterSend, hC rfl hfwd] using h
  intro hr
  simpa only [Task.Tidy, hr] using htidy

/-- A call established, and a chunk of its stream. -/
def established : List ConnAction := [req, .task 0 .established, .task 0 (.chunk "x")]

/-- A task delivers its chunk, is signalled, and aborts its stream. -/
theorem abortedOnReturn_closed : ∃ s : Conn, (s.tasks 0).stage = .returned ∧
    (s.tasks 0).call = .streaming ∧ (s.tasks 0).AbortedOnReturn := by
  obtain ⟨s, hs, hp⟩ := System.exists_reachableBy (M := system sample) (C := Delivers 0)
    (established ++ [.send 0, .inbound (.text "[\"CLOSE\",\"s\"]"), .task 0 .takeCancel,
      .task 0 .aborted])
    (fun s => decide ((s.tasks 0).stage = .returned ∧ (s.tasks 0).call = .streaming)) (by decide)
  obtain ⟨hr, hc⟩ := of_decide_eq_true hp
  exact ⟨s, hr, hc, abortedOnReturn hs⟩

/-- The client's socket fails on the first chunk, and the writer drops the
    receiver: sending the next chunk fails, and the task returns, with its stream
    open and nothing aborted. -/
theorem not_abortedOnReturn : ¬∀ (decode : String → Option Json) (s : Conn) (n : ℕ),
    (system decode).Reachable s → (s.tasks n).AbortedOnReturn := by
  intro h
  obtain ⟨s, hs, hp⟩ := System.exists_reachableBy (M := system sample) (C := fun _ _ => True)
    (established ++ [.send 0, .recv, .wrote false, .closed, .task 0 (.chunk "y"), .send 0])
    (fun s => decide ((s.tasks 0).stage = .returned ∧ (s.tasks 0).call = .streaming ∧
      (s.tasks 0).aborts = 0)) (by decide)
  obtain ⟨hr, hc, ha⟩ := of_decide_eq_true hp
  exact absurd (h _ s 0 hs hr hc) (by rw [ha]; exact zero_ne_one)

end Conn

end Outlay.Shim
