import Outlay.Shim.Conn

/-!
# The workers of a connection, one by one

What a step of the connection does to one of its workers (`Step.taskMove`,
`Step.publishMove`), so that a property of every task is proved from the steps of
a single one (`task_invariant`); and which item of the client's stream has which
worker (`Assigned`): an item is answered by the subscribe task spawned for it if
it is a REQ, by the publish task spawned for it if it is an EVENT, and by none
otherwise.
-/

namespace Outlay.Shim

open Async

namespace Conn

variable {decode : String → Option Json} {s s' : Conn} {n : ℕ}

/-! ## Handling an item -/

/-- The frame of an item, if it is a text: a client message, or none. -/
def asked (decode : String → Option Json) : Inbound → Option (Option ClientMsg)
  | .text t => some (parseClientFrame decode t)
  | _ => none

section Remove

variable (s) (subId : String)

/-- Removing a sub_id changes the stored tasks only. -/
theorem remove_eq : s.remove subId = { s with
    subs := (s.remove subId).subs, tasks := (s.remove subId).tasks } := by
  rw [remove]
  split <;> rfl

@[simp] theorem remove_inbound : (s.remove subId).inbound = s.inbound := by rw [remove_eq]
@[simp] theorem remove_main : (s.remove subId).main = s.main := by rw [remove_eq]
@[simp] theorem remove_publishes : (s.remove subId).publishes = s.publishes := by rw [remove_eq]
@[simp] theorem remove_channel : (s.remove subId).channel = s.channel := by rw [remove_eq]
@[simp] theorem remove_writer : (s.remove subId).writer = s.writer := by rw [remove_eq]
@[simp] theorem remove_given : (s.remove subId).given = s.given := by rw [remove_eq]
@[simp] theorem remove_sinkFailed : (s.remove subId).sinkFailed = s.sinkFailed := by rw [remove_eq]

/-- Removing a sub_id signals a task or leaves it as it is. -/
theorem remove_tasks (n : ℕ) :
    (s.remove subId).tasks n = s.tasks n ∨ (s.remove subId).tasks n = (s.tasks n).signal := by
  rw [remove]
  split
  next m hm =>
    by_cases hn : n = m
    · subst hn; exact .inr (by simp)
    · exact .inl (by simp [Function.update_of_ne hn])
  next => exact .inl rfl

end Remove

section Handle

variable (decode) (s) (f : Inbound)

/-- Handling an item changes the main loop, the stored tasks and the workers only. -/
theorem handle_eq : s.handle decode f = { s with
    main := (s.handle decode f).main
    subs := (s.handle decode f).subs
    tasks := (s.handle decode f).tasks
    publishes := (s.handle decode f).publishes } := by
  cases f with
  | text t =>
    simp only [handle]
    rcases parseClientFrame decode t with _ | ⟨subId, filters⟩ | subId | event
    · rfl
    · simp [dispatch, subscribe]
    · simpa [dispatch] using remove_eq s subId
    · rfl
  | close | error | other | eof => rfl

@[simp] theorem handle_channel : (s.handle decode f).channel = s.channel := by rw [handle_eq]
@[simp] theorem handle_writer : (s.handle decode f).writer = s.writer := by rw [handle_eq]
@[simp] theorem handle_given : (s.handle decode f).given = s.given := by rw [handle_eq]
@[simp] theorem handle_sinkFailed : (s.handle decode f).sinkFailed = s.sinkFailed := by
  rw [handle_eq]

end Handle

/-! ## What a step does to one worker -/

/-- What a step of the connection does to its task `n`. -/
inductive TaskMove (s : Conn) (n : ℕ) : ConnAction → Task → Prop
  | stay {a : ConnAction} : TaskMove s n a (s.tasks n)
  | spawn {f : Inbound} (subId : String) (filters : List Json) (hn : n = s.inbound.length) :
      TaskMove s n (.inbound f) (.spawn subId filters)
  | signal {a : ConnAction} : TaskMove s n a (s.tasks n).signal
  | step {a : TaskAction} {t : Task} (ht : TaskStep (s.tasks n) a t) : TaskMove s n (.task n a) t
  | send {frame : String} {last : Bool} (hs : (s.tasks n).stage = .sending frame last) :
      TaskMove s n (.send n)
        { s.tasks n with stage := Task.afterSend last s.channel.alive }

/-- What handling an item does to the task `n`. -/
theorem handle_taskMove (f : Inbound) (n : ℕ) :
    TaskMove s n (.inbound f) ((s.handle decode f).tasks n) := by
  have hremove : ∀ subId, TaskMove s n (.inbound f) ((s.remove subId).tasks n) := fun subId => by
    rcases remove_tasks s subId n with h | h <;> rw [h]
    · exact .stay
    · exact .signal
  cases f with
  | text t =>
    simp only [handle]
    rcases parseClientFrame decode t with _ | ⟨subId, filters⟩ | subId | event
    · exact .stay
    · by_cases hn : n = s.inbound.length
      · subst hn
        simpa [dispatch, subscribe] using TaskMove.spawn subId filters rfl
      · simpa [dispatch, subscribe, Function.update_of_ne hn] using hremove subId
    · exact hremove subId
    · exact .stay
  | close | error | other | eof => exact .stay

/-- Handling an item sends a notice for this item only, if its frame is not recognized. -/
theorem handle_noticing {f : Inbound} (hm : s.main = .reading)
    (h : (s.handle decode f).main = .noticing n) :
    n = s.inbound.length ∧ asked decode f = some none := by
  cases f with
  | text t =>
    simp only [handle] at h
    rcases hp : parseClientFrame decode t with _ | ⟨subId, filters⟩ | subId | event
    · rw [hp] at h
      obtain rfl := Main.noticing.inj h
      exact ⟨rfl, by rw [asked, hp]⟩
    all_goals
      rw [hp] at h
      simp [dispatch, subscribe, publish, hm] at h
  | close | error | eof => cases h
  | other => rw [handle, hm] at h; cases h

/-- Every step of the connection moves the task `n` in one of these ways. -/
theorem Step.taskMove {a : ConnAction} (h : Step decode s a s') (n : ℕ) :
    TaskMove s n a (s'.tasks n) := by
  cases h with
  | inbound f _ => exact handle_taskMove f n
  -- A step of a worker is one of the task `n`, or leaves it as it is.
  | @signal m _ _ _ =>
    by_cases hn : n = m
    · subst hn; simpa using TaskMove.signal
    · simpa [Function.update_of_ne hn] using TaskMove.stay
  | @task m a t ht =>
    by_cases hn : n = m
    · subst hn; simpa using TaskMove.step ht
    · simpa [Function.update_of_ne hn] using TaskMove.stay
  | @send m frame last ok ch hs hc =>
    by_cases hn : n = m
    · subst hn
      obtain rfl := Mpsc.alive_of_send hc
      simpa using TaskMove.send hs
    · simpa [Function.update_of_ne hn] using TaskMove.stay
  | notice | cleaned | join | published | ack | recv | drained | wrote | broke | closed =>
    exact .stay

/-- Handling an item leaves the workers of the others as they are, but may signal one. -/
theorem handle_of_ne (f : Inbound) (hn : n ≠ s.inbound.length) :
    ((s.handle decode f).tasks n = s.tasks n ∨
      (s.handle decode f).tasks n = (s.tasks n).signal) ∧
        (s.handle decode f).publishes n = s.publishes n := by
  constructor
  · have h : TaskMove s n (.inbound f) ((s.handle decode f).tasks n) := handle_taskMove f n
    generalize (s.handle decode f).tasks n = t at h
    cases h with
    | stay => exact .inl rfl
    | signal => exact .inr rfl
    | spawn _ _ hl => exact absurd hl hn
  · cases f with
    | text t =>
      simp only [handle]
      rcases parseClientFrame decode t with _ | ⟨subId, filters⟩ | subId | event
      · rfl
      · simp [dispatch, subscribe]
      · simp [dispatch]
      · simp [dispatch, publish, Function.update_of_ne hn]
    | close | error | other | eof => rfl

/-- What holds of a task just spawned, and is preserved by signals, by its steps
    and by its sends (that meet the condition), always holds of the task `n`. -/
theorem task_invariant {C : Conn → ConnAction → Prop} {P : Task → Prop} (h₀ : P .absent)
    (hspawn : ∀ subId filters, P (.spawn subId filters)) (hsignal : ∀ t, P t → P t.signal)
    (hstep : ∀ t a t', P t → TaskStep t a t' → P t')
    (hsend : ∀ s frame last, C s (.send n) → P (s.tasks n) →
      (s.tasks n).stage = .sending frame last →
        P { s.tasks n with stage := Task.afterSend last s.channel.alive })
    (hs : (system decode).ReachableBy C s) : P (s.tasks n) := by
  refine hs.invariant (P := fun s => P (s.tasks n)) h₀ fun s a s' _ hP hC hst => ?_
  have hmove := (step_cases hst).taskMove n
  generalize s'.tasks n = t at hmove
  -- One case for each way the task can move.
  cases hmove with
  | stay => exact hP
  | spawn subId filters _ => exact hspawn _ _
  | signal => exact hsignal _ hP
  | step ht => exact hstep _ _ _ hP ht
  | send hf => exact hsend _ _ _ hC hP hf

/-- What a step of the connection does to its publish task `n`. -/
inductive PublishMove (s : Conn) (n : ℕ) : ConnAction → Publish → Prop
  | stay {a : ConnAction} : PublishMove s n a (s.publishes n)
  | spawn {f : Inbound} (event : Json) (hn : n = s.inbound.length) :
      PublishMove s n (.inbound f) (.spawn event)
  | complete {r : Except String (Option Json)} (hs : (s.publishes n).stage = .calling) :
      PublishMove s n (.published n r) { s.publishes n with stage := .sending, outcome := some r }
  | ack {r : Except String (Option Json)} (hs : (s.publishes n).stage = .sending)
      (ho : (s.publishes n).outcome = some r) :
      PublishMove s n (.ack n) { s.publishes n with stage := .returned }

/-- Every step of the connection moves the publish task `n` in one of these ways. -/
theorem Step.publishMove {a : ConnAction} (h : Step decode s a s') (n : ℕ) :
    PublishMove s n a (s'.publishes n) := by
  cases h with
  | inbound f _ =>
    by_cases hn : n = s.inbound.length
    · subst hn
      cases f with
      | text t =>
        simp only [handle]
        rcases parseClientFrame decode t with _ | ⟨subId, filters⟩ | subId | event
        · exact .stay
        · simpa [dispatch, subscribe] using PublishMove.stay
        · simpa [dispatch] using PublishMove.stay
        · simpa [dispatch, publish] using PublishMove.spawn event rfl
      | close | error | other | eof => exact .stay
    · simpa [(handle_of_ne f hn).2] using PublishMove.stay
  | @published m r hs =>
    by_cases hn : n = m
    · subst hn; simpa using PublishMove.complete hs
    · simpa [Function.update_of_ne hn] using PublishMove.stay
  | @ack m r ok ch hs ho _ =>
    by_cases hn : n = m
    · subst hn; simpa using PublishMove.ack hs ho
    · simpa [Function.update_of_ne hn] using PublishMove.stay
  | notice | signal | cleaned | join | task | send | recv | drained | wrote | broke | closed =>
    exact .stay

/-! ## Which item has which worker -/

/-- What the item `n` asks for, if it has been read and is a text. -/
def request (decode : String → Option Json) (s : Conn) (n : ℕ) : Option (Option ClientMsg) :=
  s.inbound[n]?.bind (asked decode)

/-- The workers of an item that asks for `r`. -/
def Workers (t : Task) (p : Publish) : Option (Option ClientMsg) → Prop
  | some (some (.req subId filters)) => t.stage ≠ .absent ∧ t.subId = subId ∧
      t.args = subscribeArgs subId filters ∧ p.stage = .absent
  | some (some (.publish event)) => t.stage = .absent ∧ p.stage ≠ .absent ∧ p.event = event ∧
      p.args = publishArgs event
  | _ => t.stage = .absent ∧ p.stage = .absent

/-- The item `n` has the workers spawned for it, and no others. -/
def Assigned (decode : String → Option Json) (s : Conn) (n : ℕ) : Prop :=
  Workers (s.tasks n) (s.publishes n) (s.request decode n)

/-- A task that moves, without being spawned, keeps what it was spawned with. -/
theorem TaskMove.keeps {a : ConnAction} {t : Task} (h : TaskMove s n a t)
    (ha : ∀ f, a = .inbound f → n ≠ s.inbound.length) :
    (t.stage = .absent ↔ (s.tasks n).stage = .absent) ∧ t.subId = (s.tasks n).subId ∧
      t.args = (s.tasks n).args := by
  cases h with
  | stay | signal => exact ⟨Iff.rfl, rfl, rfl⟩
  | spawn _ _ hn => exact absurd hn (ha _ rfl)
  | step ht =>
    cases ht with
    | arm hs _ => exact ⟨Iff.rfl, rfl, rfl⟩
    | established hs | refused hs | chunk hs | error hs | finish hs | bail hs _ | abort hs _
    | aborted hs => exact ⟨by simp [hs], rfl, rfl⟩
  | @send frame last hs =>
    refine ⟨?_, rfl, rfl⟩
    cases last <;> cases s.channel.alive <;> simp [hs, Task.afterSend]

/-- A publish task that moves, without being spawned, keeps what it was spawned with. -/
theorem PublishMove.keeps {a : ConnAction} {p : Publish} (h : PublishMove s n a p)
    (ha : ∀ f, a = .inbound f → n ≠ s.inbound.length) :
    (p.stage = .absent ↔ (s.publishes n).stage = .absent) ∧ p.event = (s.publishes n).event ∧
      p.args = (s.publishes n).args := by
  cases h with
  | stay => exact ⟨Iff.rfl, rfl, rfl⟩
  | spawn _ hn => exact absurd hn (ha _ rfl)
  | complete hs | ack hs _ => exact ⟨by simp [hs], rfl, rfl⟩

/-- Workers that keep what they were spawned with are still those of their item. -/
theorem Workers.of_keeps {t t' : Task} {p p' : Publish} {r : Option (Option ClientMsg)}
    (h : Workers t p r)
    (ht : (t'.stage = .absent ↔ t.stage = .absent) ∧ t'.subId = t.subId ∧ t'.args = t.args)
    (hp : (p'.stage = .absent ↔ p.stage = .absent) ∧ p'.event = p.event ∧ p'.args = p.args) :
    Workers t' p' r := by
  obtain ⟨ht, hsub, hargs⟩ := ht
  obtain ⟨hp, hev, hpargs⟩ := hp
  rcases r with _ | _ | ⟨subId, filters⟩ | subId | event
  all_goals simpa only [Workers, ne_eq, ht, hp, hsub, hargs, hev, hpargs] using h

/-- Reading an item does not change what the others ask for. -/
theorem request_of_ne {f : Inbound} (hs' : s'.inbound = s.inbound ++ [f])
    (hn : n ≠ s.inbound.length) : s'.request decode n = s.request decode n := by
  have : s'.inbound[n]? = s.inbound[n]? := by
    rw [hs']
    rcases lt_or_gt_of_ne hn with h | h
    · exact List.getElem?_append_left h
    · rw [List.getElem?_eq_none (by simp; omega), List.getElem?_eq_none h.le]
  rw [request, request, this]

/-- Handling an item assigns it its workers, if it had none. -/
theorem Workers.handle (f : Inbound) (ht : (s.tasks s.inbound.length).stage = .absent)
    (hp : (s.publishes s.inbound.length).stage = .absent) :
    Workers ((s.handle decode f).tasks s.inbound.length)
      ((s.handle decode f).publishes s.inbound.length) (asked decode f) := by
  have hremove : ∀ subId, ((s.remove subId).tasks s.inbound.length).stage = .absent :=
    fun subId => by rcases remove_tasks s subId s.inbound.length with h | h <;> rw [h] <;> exact ht
  cases f with
  | text t =>
    simp only [Conn.handle, asked]
    rcases parseClientFrame decode t with _ | ⟨subId, filters⟩ | subId | event
    · exact ⟨ht, hp⟩
    · simpa [dispatch, subscribe, Workers, Task.spawn] using hp
    · exact ⟨hremove subId, by simpa [dispatch] using hp⟩
    · simpa [dispatch, publish, Workers, Publish.spawn] using ht
  | close | error | other | eof => exact ⟨ht, hp⟩

/-- Every item has the workers spawned for it, and no others. -/
theorem assigned (hs : (system decode).Reachable s) (n : ℕ) : s.Assigned decode n := by
  refine hs.invariant (P := fun s => ∀ n, s.Assigned decode n) (fun n => ⟨rfl, rfl⟩)
    (fun s a s' _ hA _ hst n => ?_) n
  have hstep := step_cases hst
  by_cases hi : ∃ f, a = .inbound f ∧ n = s.inbound.length
  · -- The item read in this step.
    obtain ⟨f, rfl, rfl⟩ := hi
    cases hstep with
    | inbound f hm =>
      have hnone : s.request decode s.inbound.length = none := by
        rw [request, List.getElem?_eq_none le_rfl, Option.bind_none]
      have hW := hA s.inbound.length
      rw [Assigned, hnone] at hW
      have hreq : ({ s.handle decode f with inbound := s.inbound ++ [f] } : Conn).request decode
          s.inbound.length = asked decode f := by
        simp only [request, List.getElem?_concat_length, Option.bind_some]
      rw [Assigned, hreq]
      exact Workers.handle f hW.1 hW.2
  · have hne : ∀ f, a = .inbound f → n ≠ s.inbound.length := fun f hf hn => hi ⟨f, hf, hn⟩
    have hreq : s'.request decode n = s.request decode n := by
      cases hstep with
      | inbound f hm => exact request_of_ne rfl (hne f rfl)
      | notice | signal | cleaned | join | task | send | published | ack | recv | drained | wrote
      | broke | closed => rfl
    rw [Assigned, hreq]
    exact (hA n).of_keeps ((hstep.taskMove n).keeps hne) ((hstep.publishMove n).keeps hne)

/-- An item with a subscribe task is a REQ. -/
theorem Assigned.req (h : s.Assigned decode n) (ht : (s.tasks n).stage ≠ .absent) :
    ∃ subId filters, s.request decode n = some (some (.req subId filters)) ∧
      (s.tasks n).subId = subId := by
  rw [Assigned] at h
  rcases hr : s.request decode n with _ | _ | ⟨subId, filters⟩ | subId | event
  all_goals rw [hr] at h
  case some.some.req => exact ⟨subId, filters, rfl, h.2.1⟩
  all_goals exact absurd h.1 ht

/-- An item with a publish task is an EVENT. -/
theorem Assigned.publish (h : s.Assigned decode n) (hp : (s.publishes n).stage ≠ .absent) :
    ∃ event, s.request decode n = some (some (.publish event)) ∧
      (s.publishes n).event = event := by
  rw [Assigned] at h
  rcases hr : s.request decode n with _ | _ | ⟨subId, filters⟩ | subId | event
  all_goals rw [hr] at h
  case some.some.publish => exact ⟨event, rfl, h.2.2.1⟩
  case some.some.req => exact absurd h.2.2.2 hp
  all_goals exact absurd h.2 hp

/-- Items not read yet have no workers. -/
theorem absent_of_le (hs : (system decode).Reachable s) (hn : s.inbound.length ≤ n) :
    (s.tasks n).stage = .absent ∧ (s.publishes n).stage = .absent := by
  have h := assigned hs n
  rw [Assigned, request, List.getElem?_eq_none hn, Option.bind_none] at h
  exact h

end Conn

end Outlay.Shim
