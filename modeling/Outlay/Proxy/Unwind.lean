import Outlay.Data.Sequence
import Outlay.Proxy.Demux

/-!
# Unwinding

A call opens one upstream subscription, or none: it returns an error before that,
or else, whichever way it leaves its loop, unsubscribes its own id once. Hence
the upstream subscriptions open are, at every moment, those of the calls between
the two (`atomically_unwound`).

* `Unwinds` is the invariant of one call: what it has done, stage by stage.
* `Opened` relates the calls to the upstream subscriptions open.
-/

namespace Outlay.Proxy

open Async Sequence

/-- The call holds its upstream subscription open: `subscribe_with_id` has
    succeeded, and it has not unsubscribed yet. -/
def Stage.holds : Stage → Bool
  | .starting | .selecting | .writing _ | .unwinding => true
  | _ => false

/-- The call is past its `subscribe_with_id`, which has succeeded. -/
def Stage.opened : Stage → Bool
  | .closing | .returned (.ok _) => true
  | s => s.holds

theorem Stage.opened_of_holds {s : Stage} (h : s.holds = true) : s.opened = true := by
  cases s with
  | starting | selecting | writing _ | unwinding => rfl
  | idle | registered | subscribing | closing | returned _ => cases h

namespace Setup

variable {Filter : Type*} (env : Setup Filter)

/-- What the call `i` has done, stage by stage. -/
def Unwinds (i : ℕ) (c : Call Filter) : Prop :=
  match c.stage with
  | .idle | .registered | .subscribing | .starting | .returned (.error _) =>
    c.starts = 0 ∧ c.written = [] ∧ c.unsubscribed = [] ∧ c.closes = 0
  | .selecting | .writing _ | .unwinding => c.unsubscribed = [] ∧ c.closes = 0
  | .closing => c.unsubscribed = [env.upstreamId i] ∧ c.closes = 0
  | .returned (.ok _) => c.unsubscribed = [env.upstreamId i] ∧ c.closes ≤ 1

variable {env} {i : ℕ}

/-- Every step of a call keeps what it has done as it should be. -/
theorem Unwinds.step {bus : Broadcast RelayPoolNotification} {c c' : Call Filter}
    {a : CallAction} (h : env.Unwinds i c) (hc : CallStep env bus i c a c') :
    env.Unwinds i c' := by
  cases hc with
  | reject hs _ | register hs _ | issue hs | accepted hs | refused hs =>
    simpa only [Unwinds, hs] using h
  | start hs =>
    simp only [Unwinds, hs] at h
    exact ⟨h.2.2.1, h.2.2.2⟩
  | take hs _ _ | skip hs _ _ | lag hs _ | drained hs | dead hs _ =>
    simpa only [Unwinds, hs] using h
  | @write f ok hs =>
    simp only [Unwinds, hs] at h
    rcases f.next_cases (ok && c.active) with hf | hf <;> simpa only [Unwinds, hf] using h
  | alive _ _ | deactivate => exact h
  | unsubscribe hs =>
    simp only [Unwinds, hs] at h
    simp [Unwinds, h.1, h.2]
  | finish hs =>
    simp only [Unwinds, hs] at h
    refine ⟨h.1, ?_⟩
    dsimp only
    split_ifs <;> simp [h.2]

/-- What every call has done, in every run. -/
theorem unwinds {s : State Filter} (hs : env.system.Reachable s) (i : ℕ) :
    env.Unwinds i (s.calls i) :=
  call_invariant (P := fun _ c => env.Unwinds i c) ⟨rfl, rfl, rfl, rfl⟩ (fun _ _ _ h => h)
    (fun _ _ h => h) (fun _ _ _ _ _ h hc => h.step hc) hs

/-- A call unsubscribes its own id, once, or nothing yet. -/
theorem Unwinds.unsubscribed {c : Call Filter} (h : env.Unwinds i c) :
    c.unsubscribed = [] ∨ c.unsubscribed = [env.upstreamId i] := by
  rw [Unwinds] at h
  split at h
  case h_1 | h_2 | h_3 | h_4 | h_5 => exact .inl h.2.2.1
  case h_6 | h_7 | h_8 => exact .inl h.1
  case h_9 | h_10 => exact .inr h.1

/-- A call closes its sink at most once. -/
theorem Unwinds.closes_le {c : Call Filter} (h : env.Unwinds i c) : c.closes ≤ 1 := by
  rw [Unwinds] at h
  split at h
  case h_1 | h_2 | h_3 | h_4 | h_5 => simp [h.2.2.2]
  case h_6 | h_7 | h_8 | h_9 => simp [h.2]
  case h_10 => exact h.2

/-! ## The upstream subscriptions open -/

/-- A step of a call opens its upstream subscription, or unsubscribes it, or
    neither. -/
theorem CallStep.opens {bus : Broadcast RelayPoolNotification} {c c' : Call Filter}
    {a : CallAction} (hc : CallStep env bus i c a c') (opened : List SubscriptionId) :
    (c.stage.holds = false ∧ c'.stage.holds = true ∧
        env.openedAfter i opened a = env.upstreamId i :: opened) ∨
      (c'.stage.holds = false ∧ env.openedAfter i opened a = opened.erase (env.upstreamId i)) ∨
        (c'.stage.holds = c.stage.holds ∧ env.openedAfter i opened a = opened) := by
  cases hc with
  | accepted hs => exact .inl ⟨by rw [hs]; rfl, rfl, rfl⟩
  | unsubscribe hs => exact .inr (.inl ⟨rfl, rfl⟩)
  | @write f ok hs =>
    rcases f.next_cases (ok && c.active) with hf | hf
    all_goals exact .inr (.inr ⟨by rw [hs, hf]; rfl, rfl⟩)
  | alive hs _ | deactivate => exact .inr (.inr ⟨rfl, rfl⟩)
  | reject hs _ | register hs _ | issue hs | refused hs | start hs | take hs _ _ | skip hs _ _
  | lag hs _ | drained hs | dead hs _ | finish hs =>
    exact .inr (.inr ⟨by simp [hs, Stage.holds], rfl⟩)

/-- The upstream subscriptions open are those the calls hold, without duplicates. -/
structure Opened (env : Setup Filter) (s : State Filter) : Prop where
  nodup : s.opened.Nodup
  mem_iff : ∀ i, env.upstreamId i ∈ s.opened ↔ (s.calls i).stage.holds = true
  /-- Nobody else opens any. -/
  of_mem : ∀ id ∈ s.opened, ∃ i, env.upstreamId i = id

/-- A step of a call keeps the upstream subscriptions open those that are held. -/
theorem Opened.call {s : State Filter} {c : Call Filter} {a : CallAction} (h : Opened env s)
    (hc : CallStep env s.bus i (s.calls i) a c) :
    Opened env { s with
      issued := env.issuedAfter i s.issued a
      opened := env.openedAfter i s.opened a
      calls := Function.update s.calls i c } := by
  -- The ids of the other calls are different ones.
  have hne : ∀ {j}, j ≠ i → env.upstreamId j ≠ env.upstreamId i :=
    fun hj h => hj (env.upstreamId_injective h)
  obtain ⟨hs, hs', ho⟩ | ⟨hs', ho⟩ | ⟨hs', ho⟩ := hc.opens s.opened
  · have hnot : env.upstreamId i ∉ s.opened := fun hm => by simp [(h.mem_iff i).1 hm] at hs
    refine ⟨?_, fun j => ?_, fun id hid => ?_⟩
    · exact ho ▸ List.nodup_cons.2 ⟨hnot, h.nodup⟩
    · rw [ho, List.mem_cons]
      by_cases hj : j = i
      · subst hj; simp [hs']
      · simpa [hj, hne hj] using h.mem_iff j
    · rw [ho] at hid
      rcases List.mem_cons.1 hid with rfl | hid
      exacts [⟨i, rfl⟩, h.of_mem id hid]
  · refine ⟨?_, fun j => ?_, fun id hid => h.of_mem id ?_⟩
    · exact ho ▸ h.nodup.erase _
    · rw [ho, h.nodup.mem_erase_iff]
      by_cases hj : j = i
      · subst hj; simp [hs']
      · simpa [hj, hne hj] using h.mem_iff j
    · exact List.mem_of_mem_erase (ho ▸ hid)
  · refine ⟨ho.symm ▸ h.nodup, fun j => ?_, fun id hid => h.of_mem id (ho ▸ hid)⟩
    rw [ho]
    by_cases hj : j = i
    · subst hj; simpa [hs'] using h.mem_iff j
    · simpa [hj] using h.mem_iff j

/-- The upstream subscriptions open are those held, in every run. -/
theorem opened {s : State Filter} (hs : env.system.Reachable s) : Opened env s := by
  refine hs.invariant ⟨List.nodup_nil, fun i => by simp [system, Call.idle, Stage.holds],
    by simp [system]⟩ fun s a s' _ h _ hst => ?_
  obtain ⟨n, rfl, _, rfl⟩ | ⟨rfl, rfl⟩ | ⟨i, b, c, rfl, hc, rfl⟩ := step_cases hst
  · exact ⟨h.nodup, h.mem_iff, h.of_mem⟩
  · exact ⟨h.nodup, h.mem_iff, h.of_mem⟩
  · exact h.call hc

/-! ## The law -/

/-- The arguments of a call pass its checks if and only if it carries a writer,
    it has filters, and all of them decode. -/
theorem checkArgs_eq_ok {fs : List Filter} : env.checkArgs i = .ok fs ↔
    env.writer i = true ∧ fs ≠ [] ∧
      List.Forall₂ (fun f f' => env.decodeFilter f = .ok f') (env.params i).filters fs := by
  rw [checkArgs, ← mapM_eq_ok]
  by_cases hw : env.writer i = true
  · rw [if_pos hw]
    cases hm : (env.params i).filters.mapM env.decodeFilter with
    | error e => simp
    | ok fs' =>
      cases fs' with
      | nil => simp only [hw, Except.ok.injEq, true_and, reduceCtorEq, false_iff]; tauto
      | cons f fs' =>
        simp only [hw, Except.ok.injEq, true_and]
        exact ⟨fun h => ⟨h ▸ List.cons_ne_nil _ _, h⟩, fun h => h.2⟩
  · simp [hw]

/-- Past its `subscribe_with_id`, a call stays so. -/
theorem opened_of_leads {s s' : State Filter} (hs : env.system.Reachable s)
    (ho : (s.calls i).stage.opened = true) (hl : env.system.Leads s s') :
    (s'.calls i).stage.opened = true := by
  refine call_leads (P := fun c => c.stage.opened = true) (fun bus c a c' h hc => ?_) hs ho hl
  cases hc with
  | reject hs _ | register hs _ | issue hs | refused hs => rw [hs] at h; cases h
  | @write f ok hs => rcases f.next_cases (ok && c.active) with hf | hf <;> rw [hf] <;> rfl
  | alive _ _ | deactivate => exact h
  | skip hs _ _ | lag hs _ => rw [hs]; rfl
  | accepted | start | take | drained | dead | unsubscribe | finish => rfl

/-- Once unsubscribed, a call writes nothing more, and unsubscribes nothing else. -/
theorem quiet_of_leads {s s' : State Filter} (hs : env.system.Reachable s)
    (hu : (s.calls i).unsubscribed ≠ []) (hl : env.system.Leads s s') :
    (s'.calls i).written = (s.calls i).written ∧
      (s'.calls i).unsubscribed = (s.calls i).unsubscribed := by
  suffices h : env.Unwinds i (s'.calls i) ∧ (s'.calls i).written = (s.calls i).written ∧
      (s'.calls i).unsubscribed = (s.calls i).unsubscribed from h.2
  refine call_leads (P := fun c => env.Unwinds i c ∧ c.written = (s.calls i).written ∧
    c.unsubscribed = (s.calls i).unsubscribed) (fun bus c a c' h hc => ?_) hs
      ⟨unwinds hs i, rfl, rfl⟩ hl
  obtain ⟨hun, hw, hu'⟩ := h
  refine ⟨hun.step hc, ?_⟩
  have hne : c.unsubscribed ≠ [] := hu' ▸ hu
  cases hc with
  -- A call that still writes, or unsubscribes, has not unsubscribed yet.
  | write ok hs => simp only [Unwinds, hs] at hun; exact absurd hun.1 hne
  | unsubscribe hs => simp only [Unwinds, hs] at hun; exact absurd hun.1 hne
  | _ => exact ⟨hw, hu'⟩

/-- A call whose arguments do not pass the checks is not made yet, or has
    returned the error. -/
theorem returned_of_checkArgs {e : String} (he : env.checkArgs i = .error e) {s : State Filter}
    (hs : env.system.Reachable s) :
    (s.calls i).stage = .idle ∨ (s.calls i).stage = .returned (.error e) := by
  refine call_invariant (P := fun _ c => c.stage = .idle ∨ c.stage = .returned (.error e))
    (.inl rfl) (fun _ _ _ h => h) (fun _ _ h => h) (fun s a c _ _ h hc => ?_) hs
  cases hc with
  | reject _ he' => obtain rfl := Except.error.inj (he.symm.trans he'); exact .inr rfl
  | register _ he' => cases he.symm.trans he'
  | deactivate => exact h
  | issue hs | accepted hs | refused hs | start hs | take hs _ _ | skip hs _ _ | lag hs _
  | drained hs | write _ hs | alive hs _ | dead hs _ | unsubscribe hs | finish hs =>
    rcases h with h | h <;> cases hs.symm.trans h

/-- A call that has returned an error has left no trace: it never held its
    upstream subscription, did not start its sink and wrote nothing. -/
structure Rejected (env : Setup Filter) (s : State Filter) (i : ℕ) : Prop where
  never_opened : ∀ s₀, env.system.Reachable s₀ → env.system.Leads s₀ s →
    env.upstreamId i ∉ s₀.opened
  starts : (s.calls i).starts = 0
  written : (s.calls i).written = []

/-- What the call `i` has unwound. -/
structure Unwound (env : Setup Filter) (s : State Filter) (i : ℕ) : Prop where
  /-- A call whose arguments do not pass the checks returns the error at once. -/
  checks : ∀ e, env.checkArgs i = .error e →
    (s.calls i).stage = .idle ∨ (s.calls i).stage = .returned (.error e)
  rejected : ∀ e, (s.calls i).stage = .returned (.error e) → Rejected env s i
  /-- A call that has returned otherwise has unsubscribed its own id, once. -/
  unsubscribed : ∀ r, (s.calls i).stage = .returned (.ok r) →
    (s.calls i).unsubscribed = [env.upstreamId i]
  /-- At no moment has it unsubscribed another id, or twice. -/
  once : (s.calls i).unsubscribed = [] ∨ (s.calls i).unsubscribed = [env.upstreamId i]
  /-- Once it has unsubscribed, it writes nothing more. -/
  quiet : (s.calls i).unsubscribed ≠ [] → ∀ s', env.system.Leads s s' →
    (s'.calls i).written = (s.calls i).written
  closes_le : (s.calls i).closes ≤ 1
  /-- It closes its sink only while that is active. -/
  closes : ∀ a s', env.system.step s a = some s' →
    (s'.calls i).closes ≠ (s.calls i).closes → (s.calls i).active = true

/-- A call that has returned an error has left no trace. -/
theorem rejected {s : State Filter} (hs : env.system.Reachable s) {e : String}
    (he : (s.calls i).stage = .returned (.error e)) : Rejected env s i := by
  have hun := unwinds hs i
  simp only [Unwinds, he] at hun
  refine ⟨fun s₀ hs₀ hl hm => ?_, hun.1, hun.2.1⟩
  -- Had it ever held its subscription, it would have stayed past that point.
  have hholds := ((opened hs₀).mem_iff i).1 hm
  have hopened := opened_of_leads hs₀ (Stage.opened_of_holds hholds) hl
  rw [he] at hopened
  cases hopened

/-- A call closes its sink only while that is active. -/
theorem active_of_closes {s s' : State Filter} {a : Action}
    (hst : env.system.step s a = some s') (hc : (s'.calls i).closes ≠ (s.calls i).closes) :
    (s.calls i).active = true := by
  obtain ⟨n, rfl, _, rfl⟩ | ⟨rfl, rfl⟩ | ⟨j, b, c, rfl, hcs, rfl⟩ := step_cases hst
  · exact absurd rfl hc
  · exact absurd rfl hc
  · by_cases hj : j = i
    · subst hj
      simp only [Function.update_self] at hc
      cases hcs with
      | finish _ => by_contra ha; exact hc (if_neg ha)
      | _ => exact absurd rfl hc
    · exact absurd (by simp [Function.update_of_ne (Ne.symm hj)]) hc

/-- Upstream subscriptions are opened and unwound atomically: in every run, every
    call unwinds what it has done, and the upstream subscriptions open are those
    of the calls between their `subscribe_with_id` and their `unsubscribe`. -/
theorem atomically_unwound {s : State Filter} (hs : env.system.Reachable s) :
    (∀ i, Unwound env s i) ∧ s.opened.Nodup ∧
      ∀ id, id ∈ s.opened ↔ ∃ i, (s.calls i).stage.holds = true ∧ env.upstreamId i = id := by
  refine ⟨fun i => ?_, (opened hs).nodup, fun id => ⟨fun hid => ?_, ?_⟩⟩
  · exact {
      checks := fun e he => returned_of_checkArgs he hs
      rejected := fun e he => Setup.rejected hs he
      unsubscribed := fun r hr => by
        have hun := unwinds hs i
        simp only [Unwinds, hr] at hun
        exact hun.1
      once := (unwinds hs i).unsubscribed
      quiet := fun hu s' hl => (quiet_of_leads hs hu hl).1
      closes_le := (unwinds hs i).closes_le
      closes := fun _ _ hst hc => active_of_closes hst hc }
  · obtain ⟨i, rfl⟩ := (opened hs).of_mem id hid
    exact ⟨i, ((opened hs).mem_iff i).1 hid, rfl⟩
  · rintro ⟨i, hi, rfl⟩
    exact ((opened hs).mem_iff i).2 hi

/-- A call whose client aborts, one refused by the upstream, and one that goes on. -/
def threeCalls : List Action :=
  [.call 0 .begin, .call 0 .issue, .call 0 (.answer (.ok ())), .call 1 .begin, .call 1 .issue,
    .call 0 .start, .call 2 .begin, .call 1 (.answer (.error "auth-required")), .call 2 .issue,
    .call 2 (.answer (.ok ())), .call 0 .deactivate, .call 0 .poll, .call 0 .unsubscribe,
    .call 0 .finish]

/-- Of the three calls, the last one holds its upstream subscription. -/
theorem atomically_unwound_threeCalls : ∃ s : State Json,
    (s.calls 0).unsubscribed = ["u"] ∧ (s.calls 0).closes = 0 ∧
      (s.calls 1).stage.ended = true ∧ s.opened = ["uuu"] ∧
        (∀ i, Unwound (sameSub 4 (by decide)) s i) ∧ s.opened.Nodup ∧
          ∀ id, id ∈ s.opened ↔ ∃ i, (s.calls i).stage.holds = true ∧
            (sameSub 4 (by decide)).upstreamId i = id := by
  obtain ⟨s, hs, hp⟩ := System.exists_reachableBy (M := (sameSub 4 (by decide)).system)
    (C := fun _ _ => True) threeCalls (fun s => decide
      ((s.calls 0).unsubscribed = ["u"] ∧ (s.calls 0).closes = 0 ∧
        (s.calls 1).stage.ended = true ∧ s.opened = ["uuu"])) (by decide)
  obtain ⟨hu, hc, he, ho⟩ := of_decide_eq_true hp
  exact ⟨s, hu, hc, he, ho, atomically_unwound hs⟩

end Setup

end Outlay.Proxy
