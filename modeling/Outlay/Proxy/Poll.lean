import Outlay.Proxy.Unwind

/-!
# Noticing a dead client

The loop of a call waits for the next notification or for a timer of
`sinkActivePoll`, after which it polls its sink. The timer is armed afresh
whenever an iteration of the loop begins: every notification that reaches the
call, be it of another subscription, puts the poll off. So a call may run on for
as long as there is traffic after its client has gone (`not_noticed`).

It does notice in time when no iteration begins after its sink became inactive
(`Undisturbed`): the poll of the iteration then running finds the sink dead
(`noticed`).

The system is that of the calls, with a clock, and the timer of one call. Time
passes while nothing happens; at its `select!` the call never waits past a
notification or its timer.
-/

namespace Outlay.Proxy

open Async

/-- How often the loop polls the sink: one second, in nanoseconds. -/
def sinkActivePoll : ℕ := 1000000000

/-- The loop is at its `select!`. -/
def Stage.atSelect : Stage → Bool
  | .selecting => true
  | _ => false

/-- The loop is writing to its sink. -/
def Stage.isWriting : Stage → Bool
  | .writing _ => true
  | _ => false

/-- At its `select!`, the loop is not writing. -/
theorem Stage.isWriting_of_atSelect {s : Stage} (h : s.atSelect = true) : s.isWriting = false := by
  cases s with
  | writing _ => cases h
  | _ => rfl

/-- The loop is running. -/
def Stage.looping (s : Stage) : Bool := s.atSelect || s.isWriting

/-- The clock, and what is timed of one call. -/
structure Watch where
  /-- In nanoseconds. -/
  now : ℕ
  /-- When the timer of the present iteration was armed. -/
  armed : ℕ
  /-- When the last write to the sink began. -/
  writeFrom : ℕ
  /-- When the sink became inactive. -/
  died : Option ℕ

/-- The watch after a step of the call. -/
def Watch.after {Filter : Type*} (w : Watch) (c c' : Call Filter) : CallAction → Watch
  | .deactivate => if c.active then { w with died := some w.now } else w
  -- Every iteration arms its own timer.
  | .recv => if c'.stage.atSelect then { w with armed := w.now } else { w with writeFrom := w.now }
  | _ => if c'.stage.atSelect then { w with armed := w.now } else w

/-- The state of the system with a clock. -/
structure Clocked (Filter : Type*) where
  base : State Filter
  watch : Watch

/-- The actions of the system with a clock. -/
inductive ClockedAction
  | act (a : Action)
  /-- Time passes. -/
  | elapse (d : ℕ)

namespace Setup

variable {Filter : Type*} (env : Setup Filter) (i : ℕ)

/-- The timer of the call `i` only fires once it has run out. -/
def Due (w : Watch) : Action → Prop
  | .call j .poll => j = i → w.armed + sinkActivePoll ≤ w.now
  | _ => True

instance (w : Watch) : DecidablePred (Due i w)
  | .call _ .poll => inferInstanceAs (Decidable (_ → _ ≤ _))
  | .call _ .begin | .call _ .issue | .call _ (.answer _) | .call _ .start | .call _ .recv
  | .call _ (.write _) | .call _ .deactivate | .call _ .unsubscribe | .call _ .finish
  | .notify _ | .close => instDecidableTrue

/-- The call `i` does nothing for the time `d`: at its `select!`, there is nothing
    to receive, and the timer does not run out before. -/
def Idles (s : Clocked Filter) (d : ℕ) : Prop :=
  (s.base.calls i).stage.atSelect = true →
    (s.base.bus.recv env.cap (s.base.calls i).pos).isNone = true ∧
      s.watch.now + d ≤ s.watch.armed + sinkActivePoll

instance (s : Clocked Filter) (d : ℕ) : Decidable (env.Idles i s d) :=
  inferInstanceAs (Decidable (_ → _ ∧ _))

/-- The watch of the call `i` after an action of the system. -/
def watchAfter (s : Clocked Filter) (base : State Filter) : Action → Watch
  | .call j a => if j = i then s.watch.after (s.base.calls i) (base.calls i) a else s.watch
  | _ => s.watch

/-- The system of the calls and the pool, with a clock that times the call `i`. -/
def clocked : System (Clocked Filter) ClockedAction where
  init := { base := env.system.init, watch := ⟨0, 0, 0, none⟩ }
  step s
    | .act a =>
      if Due i s.watch a then
        (env.system.step s.base a).map fun base => { base, watch := watchAfter i s base a }
      else none
    | .elapse d =>
      if env.Idles i s d then some { s with watch := { s.watch with now := s.watch.now + d } }
      else none

variable {env i}

/-- The clock only restricts the runs of the system. -/
theorem base_reachable {C : Clocked Filter → ClockedAction → Prop} {s : Clocked Filter}
    (hs : (env.clocked i).ReachableBy C s) : env.system.Reachable s.base := by
  refine hs.project (N := env.system) rfl fun s a s' hst => ?_
  cases a with
  | act a =>
    simp only [clocked] at hst
    split_ifs at hst
    obtain ⟨base, hb, rfl⟩ := Option.map_eq_some_iff.1 hst
    exact .inr ⟨a, hb⟩
  | elapse d =>
    simp only [clocked] at hst
    split_ifs at hst
    obtain rfl := Option.some.inj hst
    exact .inl rfl

/-- What holds at first, and is preserved as time passes and by the steps of the
    call (that meet the condition), always holds of the call and its watch. -/
theorem watch_invariant {C : Clocked Filter → ClockedAction → Prop}
    {P : Watch → Call Filter → Prop} (h₀ : P ⟨0, 0, 0, none⟩ (.idle Filter))
    (helapse : ∀ s d, C s (.elapse d) → P s.watch (s.base.calls i) → env.Idles i s d →
      P { s.watch with now := s.watch.now + d } (s.base.calls i))
    (hstep : ∀ s a c, C s (.act (.call i a)) → P s.watch (s.base.calls i) →
      CallStep env s.base.bus i (s.base.calls i) a c →
        P (s.watch.after (s.base.calls i) c a) c)
    {s : Clocked Filter} (hs : (env.clocked i).ReachableBy C s) : P s.watch (s.base.calls i) := by
  refine hs.invariant (P := fun s => P s.watch (s.base.calls i)) h₀ fun s a s' _ hP hC hst => ?_
  cases a with
  | elapse d =>
    simp only [clocked] at hst
    split_ifs at hst with hd
    obtain rfl := Option.some.inj hst
    exact helapse s d hC hP hd
  | act a =>
    simp only [clocked] at hst
    split_ifs at hst
    obtain ⟨base, hb, rfl⟩ := Option.map_eq_some_iff.1 hst
    obtain ⟨n, rfl, _, rfl⟩ | ⟨rfl, rfl⟩ | ⟨j, b, c, rfl, hc, rfl⟩ := step_cases hb
    · exact hP
    · exact hP
    · by_cases hj : j = i
      · subst hj
        simpa [watchAfter] using hstep s b c hC hP hc
      · simpa [watchAfter, hj, Function.update_of_ne (Ne.symm hj)] using hP

/-! ## Noticing -/

variable (env i)

/-- Once the poll interval has passed since its sink became inactive, the call
    does not run on with its upstream subscription open, but for a write that was
    in progress then. -/
def Noticed (s : Clocked Filter) : Prop :=
  ∀ t, s.watch.died = some t → t + sinkActivePoll < s.watch.now →
    (s.base.calls i).stage.looping = true → env.upstreamId i ∈ s.base.opened →
      (s.base.calls i).stage.isWriting = true ∧ s.watch.writeFrom ≤ t

/-- What the call `i` receives next is not forwarded: a notification that does not
    belong to it, or the loss of some. -/
def passesOver (s : State Filter) : Bool :=
  match s.bus.recv env.cap (s.calls i).pos with
  | some (.value n, _) => (mapNotification n (env.upstreamId i) (env.clientSub i)).isNone
  | some (.lagged _, _) => true
  | _ => false

/-- No iteration begins at a time after the sink became inactive: the loop is not
    entered, and it receives nothing that it does not forward. A write begun after
    that does not outlast the poll interval. -/
def Undisturbed (s : Clocked Filter) : ClockedAction → Prop
  | .elapse d => (s.base.calls i).stage.isWriting = true → ∀ t ∈ s.watch.died,
      t < s.watch.writeFrom → s.watch.now + d ≤ t + sinkActivePoll
  | .act (.call j .start) => j = i → ∀ t ∈ s.watch.died, s.watch.now ≤ t
  | .act (.call j .recv) => j = i → env.passesOver i s.base = true →
      ∀ t ∈ s.watch.died, s.watch.now ≤ t
  | _ => True

/-- What is timed of the call, when no iteration begins after its sink became inactive. -/
structure Timely (w : Watch) (c : Call Filter) : Prop where
  armed_le : w.armed ≤ w.now
  writeFrom_le : w.writeFrom ≤ w.now
  /-- The loop never waits past its timer. -/
  waits : c.stage.atSelect = true → w.now ≤ w.armed + sinkActivePoll
  inactive : ∀ t, w.died = some t → c.active = false
  /-- The iteration running began before the sink became inactive. -/
  began : c.stage.atSelect = true → ∀ t, w.died = some t → w.armed ≤ t
  writes : c.stage.isWriting = true → ∀ t, w.died = some t →
    w.writeFrom ≤ t ∨ w.now ≤ t + sinkActivePoll

variable {env i}

/-- An iteration that begins on an active sink, or when it becomes inactive. -/
theorem Timely.begin {w : Watch} {c c' : Call Filter} (h : Timely w c)
    (ha : c'.active = c.active) (hs : c'.stage.atSelect = true)
    (hn : ∀ t, w.died = some t → w.now ≤ t) : Timely { w with armed := w.now } c' where
  armed_le := le_rfl
  writeFrom_le := h.writeFrom_le
  waits _ := Nat.le_add_right _ _
  inactive t ht := ha.trans (h.inactive t ht)
  began _ := hn
  writes hw := absurd hw (by simp [Stage.isWriting_of_atSelect hs])

/-- A step that leaves the call outside its loop. -/
theorem Timely.leave {w : Watch} {c c' : Call Filter} (h : Timely w c)
    (ha : c'.active = c.active) (hs : c'.stage.looping = false) : Timely w c' := by
  obtain ⟨hs, hw⟩ := Bool.or_eq_false_iff.1 hs
  exact {
    armed_le := h.armed_le
    writeFrom_le := h.writeFrom_le
    waits := fun hs' => absurd hs' (by simp [hs])
    inactive := fun t ht => ha.trans (h.inactive t ht)
    began := fun hs' => absurd hs' (by simp [hs])
    writes := fun hw' => absurd hw' (by simp [hw]) }

/-- A call that is still at its `select!` after receiving has passed over what it received. -/
theorem passesOver_of_recv {s : State Filter} {c : Call Filter}
    (hc : CallStep env s.bus i (s.calls i) .recv c) (hs : c.stage.atSelect = true) :
    env.passesOver i s = true := by
  rw [passesOver, Broadcast.recv]
  cases hc with
  | take _ _ _ | drained _ => cases hs
  | lag _ hl => rw [if_pos hl]
  | skip _ hn hb =>
    by_cases hl : (s.calls i).pos < s.bus.oldest env.cap
    · rw [if_pos hl]
    · rw [if_neg hl]
      simp only [hn, mapNotification_eq, hb, Option.map_none, Option.isNone_none]

/-- A call that receives something it writes, or the end of the channel. -/
theorem Timely.receive {w : Watch} {c c' : Call Filter} (h : Timely w c)
    (hs : c.stage.atSelect = true) (ha : c'.active = c.active) (hs' : c'.stage.atSelect = false) :
    Timely { w with writeFrom := w.now } c' where
  armed_le := h.armed_le
  writeFrom_le := le_rfl
  waits h' := absurd h' (by simp [hs'])
  inactive t ht := ha.trans (h.inactive t ht)
  began h' := absurd h' (by simp [hs'])
  -- The iteration that ends here began in time.
  writes _ t ht := .inr ((h.waits hs).trans (Nat.add_le_add_right (h.began hs t ht) _))

/-- A call whose sink becomes inactive. -/
theorem Timely.deactivate {w : Watch} {c : Call Filter} (h : Timely w c) :
    Timely (w.after c { c with active := false } .deactivate) { c with active := false } := by
  rw [Watch.after]
  split_ifs with ha
  · exact {
      armed_le := h.armed_le
      writeFrom_le := h.writeFrom_le
      waits := h.waits
      inactive := fun _ _ => rfl
      began := fun _ _ ht => Option.some.inj ht ▸ h.armed_le
      writes := fun _ _ ht => .inl (Option.some.inj ht ▸ h.writeFrom_le) }
  · exact {
      armed_le := h.armed_le
      writeFrom_le := h.writeFrom_le
      waits := h.waits
      inactive := fun _ _ => rfl
      began := h.began
      writes := h.writes }

/-- On an active sink, none has become inactive. -/
theorem Timely.not_died {w : Watch} {c : Call Filter} (h : Timely w c) (ha : c.active = true)
    (t : ℕ) (ht : w.died = some t) : w.now ≤ t :=
  absurd ha (by simp [h.inactive t ht])

/-- Every step of the call keeps it timely, if no iteration begins after its sink
    became inactive. -/
theorem Timely.step {s : Clocked Filter} {a : CallAction} {c : Call Filter}
    (h : Timely s.watch (s.base.calls i)) (hu : env.Undisturbed i s (.act (.call i a)))
    (hc : CallStep env s.base.bus i (s.base.calls i) a c) :
    Timely (s.watch.after (s.base.calls i) c a) c := by
  have hpass : CallStep env s.base.bus i (s.base.calls i) .recv c → c.stage.atSelect = true →
      env.passesOver i s.base = true := passesOver_of_recv
  generalize s.base.calls i = c₀ at *
  cases hc with
  | reject _ _ | register _ _ | issue _ | accepted _ | refused _ | dead _ _ | unsubscribe _
  | finish _ => exact h.leave rfl rfl
  | start _ => exact h.begin rfl rfl (hu rfl)
  | take hs _ _ => exact h.receive (by rw [hs]; rfl) rfl rfl
  | drained hs => exact h.receive (by rw [hs]; rfl) rfl rfl
  | skip hs hn hb =>
    have hsel : c₀.stage.atSelect = true := by rw [hs]; rfl
    simp only [Watch.after, hsel, if_true]
    exact h.begin rfl hsel (hu rfl (hpass (.skip hs hn hb) hsel))
  | lag hs hl =>
    have hsel : c₀.stage.atSelect = true := by rw [hs]; rfl
    simp only [Watch.after, hsel, if_true]
    exact h.begin rfl hsel (hu rfl (hpass (.lag hs hl) hsel))
  | @write f ok hs =>
    rcases f.next_cases (ok && c₀.active) with hf | hf
    · -- The loop only goes on after a write to an active sink.
      have ha : c₀.active = true := by
        cases f with
        | cont _ => by_contra ha; simp [Forward.next, ha] at hf
        | stop _ => cases hf
      simp only [Watch.after, hf, Stage.atSelect, if_true]
      exact h.begin rfl rfl (h.not_died ha)
    · simp only [Watch.after, hf, Stage.atSelect, Bool.false_eq_true, if_false]
      exact h.leave rfl rfl
  | alive hs ha =>
    have hsel : c.stage.atSelect = true := by rw [hs]; rfl
    simp only [Watch.after, hsel, if_true]
    exact h.begin rfl hsel (h.not_died ha)
  | deactivate => exact h.deactivate

/-- As time passes a call stays timely, if its writes do not outlast the interval. -/
theorem Timely.elapse {s : Clocked Filter} {d : ℕ} (h : Timely s.watch (s.base.calls i))
    (hu : env.Undisturbed i s (.elapse d)) (hd : env.Idles i s d) :
    Timely { s.watch with now := s.watch.now + d } (s.base.calls i) where
  armed_le := h.armed_le.trans (Nat.le_add_right _ _)
  writeFrom_le := h.writeFrom_le.trans (Nat.le_add_right _ _)
  waits hs := (hd hs).2
  inactive := h.inactive
  began := h.began
  writes hw t ht := by
    by_cases hlt : t < s.watch.writeFrom
    · exact .inr (hu hw t ht hlt)
    · exact .inl (not_lt.1 hlt)

/-- In every run in which no iteration begins after the sink became inactive, and
    no write begun after that outlasts the interval, the dead client is noticed. -/
theorem noticed {s : Clocked Filter}
    (hs : (env.clocked i).ReachableBy (env.Undisturbed i) s) : env.Noticed i s := by
  intro t ht hlate hloop _
  have h : Timely s.watch (s.base.calls i) := watch_invariant (P := Timely)
    ⟨le_rfl, le_rfl, nofun, nofun, nofun, nofun⟩ (fun _ _ hu h hd => h.elapse hu hd)
    (fun _ _ _ hu h hc => h.step hu hc) hs
  rcases Bool.or_eq_true_iff.1 hloop with hsel | hw
  · -- The iteration running began before the sink became inactive, and is over by now.
    have := (h.waits hsel).trans (Nat.add_le_add_right (h.began hsel t ht) _)
    omega
  · exact ⟨hw, (h.writes hw t ht).resolve_right (by omega)⟩

/-- As long as its loop is running, a call holds its upstream subscription open. -/
theorem mem_opened_of_looping {C : Clocked Filter → ClockedAction → Prop} {s : Clocked Filter}
    (hs : (env.clocked i).ReachableBy C s) (hl : (s.base.calls i).stage.looping = true) :
    env.upstreamId i ∈ s.base.opened := by
  refine ((opened (base_reachable hs)).mem_iff i).2 ?_
  cases hst : (s.base.calls i).stage <;> rw [hst] at hl
  case selecting | writing _ => rfl
  all_goals cases hl

instance (s : Clocked Filter) : DecidablePred (env.Undisturbed i s)
  | .elapse _ => inferInstanceAs (Decidable (_ → ∀ _ ∈ _, _ → _ ≤ _))
  | .act (.call _ .start) => inferInstanceAs (Decidable (_ → ∀ _ ∈ _, _ ≤ _))
  | .act (.call _ .recv) => inferInstanceAs (Decidable (_ → _ → ∀ _ ∈ _, _ ≤ _))
  | .act (.call _ .begin) | .act (.call _ .issue) | .act (.call _ (.answer _))
  | .act (.call _ .poll) | .act (.call _ (.write _)) | .act (.call _ .deactivate)
  | .act (.call _ .unsubscribe) | .act (.call _ .finish) | .act (.notify _) | .act .close =>
    instDecidableTrue

/-- A call that opens, and whose client goes away half a second later. -/
def silentAbort : List ClockedAction :=
  [.act (.call 0 .begin), .act (.call 0 .issue), .act (.call 0 (.answer (.ok ()))),
    .act (.call 0 .start), .elapse 500000000, .act (.call 0 .deactivate)]

/-- Without further traffic, the loop is left at the next poll. -/
theorem noticed_silentAbort : ∃ s : Clocked Json, s.watch.died = some 500000000 ∧
    s.watch.now = 2000000000 ∧ (s.base.calls 0).stage.ended = true ∧
      (sameSub 4 (by decide)).Noticed 0 s := by
  obtain ⟨s, hs, hp⟩ := System.exists_reachableBy (M := (sameSub 4 (by decide)).clocked 0)
    (C := (sameSub 4 (by decide)).Undisturbed 0)
    (silentAbort ++ [.elapse 500000000, .act (.call 0 .poll), .elapse 1000000000])
    (fun s => decide (s.watch.died = some 500000000 ∧ s.watch.now = 2000000000 ∧
      (s.base.calls 0).stage.ended = true)) (by decide)
  obtain ⟨hd, hn, he⟩ := of_decide_eq_true hp
  exact ⟨s, hd, hn, he, noticed hs⟩

/-- A notice of the upstream, 0.4 s after the client has gone, puts the poll off:
    1.2 s after that moment, the loop is still running. -/
theorem not_noticed : ¬∀ (env : Setup Json) (i : ℕ) (s : Clocked Json),
    (env.clocked i).Reachable s → env.Noticed i s := by
  intro h
  obtain ⟨s, hs, hp⟩ := System.exists_reachableBy (M := (sameSub 4 (by decide)).clocked 0)
    (C := fun _ _ => True)
    (silentAbort ++ [.elapse 400000000, .act (.notify (.message "wss://up" (.notice "busy"))),
      .act (.call 0 .recv), .elapse 800000000])
    (fun s => decide (s.watch.died = some 500000000 ∧ s.watch.now = 1700000000 ∧
      (s.base.calls 0).stage.atSelect = true ∧ s.base.opened = ["u"])) (by decide)
  obtain ⟨hd, hn, hsel, ho⟩ := of_decide_eq_true hp
  have hw := (h _ 0 s hs _ hd (by rw [hn]; decide) (by rw [Stage.looping, hsel]; rfl)
    (by rw [ho]; exact List.mem_singleton.2 rfl)).1
  exact absurd hw (by simp [Stage.isWriting_of_atSelect hsel])

end Setup

end Outlay.Proxy
