import Outlay.Async.Potential
import Outlay.Shim.Served

/-!
# Waiting for a transport

Visits of one outlay wait for each other: the first one builds its transport, and the
others wait for what becomes of the build, each on its own call of the cache they share.
Nobody waits for anything else (`attended`): a visit that has not come to its end can do
a step, or waits for a build of the outlay it has named, or for the answer of this outlay;
and the cache has only so many steps left, but for the calls still to be made.

* `work`: the steps that the calls of the cache have left. A call that waits is counted
  with a build of its own, until its cell is filled.
* `Owned`: a call that a visit waits for is not dropped, as it is its own.
-/

namespace Outlay.Shim

open Async

namespace TransportCache

variable {env : TransportCache} {s s' : State env.cap} {g : ℕ}

/-- The steps a call has left. -/
def State.workOf {cap : ℕ} (s : State cap) (g : ℕ) : ℕ :=
  match (s.gets g).stage with
  | .waiting => if (s.cellOf g).value.isSome then 1 else 3
  | .building => 2
  | .absent | .returned _ | .dropped => 0

/-- The steps the calls of a cache have left. -/
def State.work {cap : ℕ} (s : State cap) : ℕ := ∑ g ∈ Finset.range s.started, s.workOf g

theorem workOf_le (g : ℕ) : s.workOf g ≤ 3 := by
  rw [State.workOf]
  split
  · split_ifs <;> omega
  all_goals omega

/-- A call that accesses the map has three steps to do at most, and leaves the others theirs. -/
theorem work_access (hC : Consistent env s) {parsed : ParsedPath}
    (h : Step env s (.access parsed) s') : s'.work ≤ s.work + 3 := by
  have hstarted : s'.started = s.started + 1 := by
    cases h with
    | hit _ | miss _ => rfl
    | move hm => cases hm
  have hold : ∀ g ∈ Finset.range s.started, s'.workOf g = s.workOf g := fun g hg => by
    have hlt := Finset.mem_range.1 hg
    have hcell := (hC.cell g hlt).1
    cases h with
    | hit _ =>
      simp only [State.workOf, State.cellOf, start_gets_of_ne hlt.ne, State.start_cells]
    | miss _ =>
      have hgets : (((s.create parsed.hex).start (s.entries.put parsed.hex s.created) parsed
          s.created).gets g) = s.gets g := start_gets_of_ne (s := s.create parsed.hex) hlt.ne
      simp only [State.workOf, State.cellOf, hgets, State.start_cells,
        create_cells_of_ne hcell.ne]
    | move hm => cases hm
  rw [State.work, State.work, hstarted, Finset.sum_range_succ, Finset.sum_congr rfl hold]
  exact Nat.add_le_add_left (workOf_le _) _

/-- A call that moves leaves no call more steps than it had, and has one less itself. -/
theorem work_move (hC : Consistent env s) {g : ℕ} {a : Action} {stage : GetStage} {cell : Cell}
    (hm : Move env s g a stage cell) : (s.move g stage cell).work + 1 ≤ s.work := by
  have hg : g ∈ Finset.range s.started := Finset.mem_range.2 <|
    hC.started_of_stage fun h => by simpa [h, GetStage.inProgress] using hm.inProgress
  have hself : (s.move g stage cell).workOf g < s.workOf g := by
    simp only [State.workOf, State.cellOf, move_stage, move_cell, move_cells_self]
    cases hm with
    | build hs hv _ => simp [hs, hv]
    | filled hs | failed hs | abandon hs => simp [hs]
    | leave hs => simp only [hs]; split_ifs <;> omega
    | ret hs hv => simp [hs, hv]
  have hall : ∀ k ∈ Finset.range s.started, (s.move g stage cell).workOf k ≤ s.workOf k := by
    intro k _
    by_cases hk : k = g
    · exact hk ▸ hself.le
    · -- The cell of another call may have been filled, which spares it a build.
      have hcell : (s.cellOf k).value.isSome = true →
          ((s.move g stage cell).cellOf k).value.isSome = true := fun hv => by
        rw [State.cellOf, move_cell]
        by_cases hc : (s.gets k).cell = (s.gets g).cell
        · rw [State.cellOf, hc] at hv
          rw [hc, move_cells_self]
          rcases hC.move_value hm with he | ⟨hn, -⟩
          · rwa [he]
          · rw [State.cellOf] at hn
            rw [hn] at hv
            cases hv
        · rwa [move_cells_of_ne hc]
      simp only [State.workOf, move_gets_of_ne hk]
      cases (s.gets k).stage with
      | waiting =>
        dsimp only
        split_ifs with h₁ h₂ h₂
        · exact le_rfl
        · omega
        · exact absurd (hcell h₂) h₁
        · exact le_rfl
      | absent | building | returned _ | dropped => exact le_rfl
  exact Finset.sum_lt_sum hall ⟨g, hg, hself⟩

/-- What can be done for a call: it can go on itself, or the one that builds its cell can. -/
inductive Helps (s : State env.cap) (g : ℕ) : Action → Prop
  | ret : Helps s g (.ret g)
  | build : Helps s g (.build g)
  | built {k : ℕ} {r : Except String Unit} (hk : (s.gets k).stage = .building)
      (hc : (s.gets k).cell = (s.gets g).cell) : Helps s g (.built k r)

/-- A call in progress can go on, or waits for the build of its cell, which may end in any
    way. -/
theorem exists_helps (hC : Consistent env s) {g : ℕ} (hg : (s.gets g).stage.inProgress = true) :
    ∃ a, Helps s g a ∧ (env.system.step s a).isSome = true := by
  cases hst : (s.gets g).stage with
  | absent | returned _ | dropped => simp [hst, GetStage.inProgress] at hg
  | building => exact ⟨.built g (.ok ()), .built hst rfl, by simp [system, step, hst]⟩
  | waiting =>
    cases hv : (s.cellOf g).value with
    | some t => exact ⟨.ret g, .ret, by simp [system, step, hst, hv]⟩
    | none =>
      cases hb : (s.cellOf g).builder with
      | none => exact ⟨.build g, .build, by simp [system, step, hst, hv, hb]⟩
      | some k =>
        obtain ⟨hk, hc⟩ := hC.builder _ k hb
        exact ⟨.built k (.ok ()), .built hk hc, by simp [system, step, hk]⟩

/-- A call that is in progress, or has returned. -/
def State.Awaited (s : State env.cap) (g : ℕ) : Prop :=
  (s.gets g).stage.inProgress = true ∨ ∃ r, (s.gets g).stage = .returned r

/-- A call that accesses the map is in progress. -/
theorem awaited_of_access {parsed : ParsedPath} (h : Step env s (.access parsed) s') :
    s'.Awaited s.started := by
  cases h with
  | hit _ | miss _ => exact .inl (by simp [GetStage.inProgress])
  | move hm => cases hm

/-- A call is awaited until it is dropped. -/
theorem State.Awaited.step {a : Action} (h : s.Awaited g) (hC : Consistent env s)
    (hst : Step env s a s') (ha : a ≠ .drop g) : s'.Awaited g := by
  have hlt : g ≠ s.started := by
    rintro rfl
    rcases h with h | ⟨r, h⟩ <;> rw [hC.absent _ le_rfl] at h <;> cases h
  cases hst with
  | hit _ => simpa [State.Awaited, Function.update_of_ne hlt] using h
  | @miss parsed _ =>
    have hgets : (((s.create parsed.hex).start (s.entries.put parsed.hex s.created) parsed
        s.created).gets g) = s.gets g := start_gets_of_ne (s := s.create parsed.hex) hlt
    simpa only [State.Awaited, hgets] using h
  | @move k _ stage cell hm =>
    by_cases hk : g = k
    · subst hk
      simp only [State.Awaited, move_stage]
      cases hm with
      | build _ _ _ | filled _ => exact .inl rfl
      | failed _ | ret _ _ => exact .inr ⟨_, rfl⟩
      | leave _ | abandon _ => exact absurd rfl ha
    · rw [State.Awaited, move_gets_of_ne hk]
      exact h

end TransportCache

/-- The visit has still to come to its end. -/
def VisitStage.pending : VisitStage → Bool
  | .entering _ | .getting _ _ | .asking _ _ | .noticing _ | .closing => true
  | .absent | .bridged _ _ | .piped | .done => false

namespace Server

variable {PublicKey RelayUrl : Type*} {server : Server PublicKey RelayUrl} {s s' : server.State}

/-! ## The calls of the visits -/

/-- The call that a visit waits for is its own. -/
theorem call_of_getting (hs : server.system.Reachable s) {v g : ℕ} {p : ParsedPath}
    (hg : (s.visits v).stage = .getting p g) : (s.visits v).call = some g := by
  have hstage := (handled hs v).stage
  rw [hg] at hstage
  exact hstage.2.1

/-- The calls that visits wait for are not dropped. -/
def Owned (s : server.State) : Prop :=
  ∀ v p g, (s.visits v).stage = .getting p g → s.cache.Awaited g

/-- A visit only waits for a call of `get` that it has made. -/
theorem Move.getting {v : ℕ} {a : Action} {visit : Visit}
    {cache : TransportCache.State server.cache.cap} (h : server.Move s v a visit cache)
    {p : ParsedPath} {g : ℕ} (hg : visit.stage = .getting p g) :
    a = .enter v ∧ g = s.cache.started ∧
      server.cache.system.step s.cache (.access p) = some cache := by
  cases h with
  | enter _ hc =>
    obtain ⟨rfl, rfl⟩ := VisitStage.getting.inj hg
    exact ⟨rfl, rfl, hc⟩
  | arrive _ =>
    obtain ⟨stage, reply, hne, heq⟩ := exists_router_eq server _
    rw [heq] at hg
    exact absurd hg (hne _ _)
  | resume _ _ =>
    obtain ⟨stage, reply, hne, heq⟩ := exists_resume_eq (s.visits v) _ _
    rw [heq] at hg
    exact absurd hg (hne _ _)
  | bridge hst _ => rw [show _ = _ from hst] at hg; cases hg
  | answer _ | notice _ | close _ | abandon _ _ _ => cases hg

/-- Every step leaves the visits the calls that they wait for. -/
theorem Owned.step (hs : server.system.Reachable s) (h : Owned s) {a : Action}
    (hst : server.system.step s a = some s') : Owned s' := by
  have hC := TransportCache.consistent (cache_reachable hs)
  obtain ⟨b, cache, -, -, hdrop, hc, rfl⟩ | ⟨v, visit, cache, hm, rfl⟩ := step_cases hst
  · exact fun w p g hg => (h w p g hg).step hC (TransportCache.step_cases hc) (hdrop _)
  · intro w p g hw
    change cache.Awaited g
    by_cases hwv : w = v
    · subst hwv
      simp only [Function.update_self] at hw
      obtain ⟨-, rfl, hc⟩ := hm.getting hw
      exact TransportCache.awaited_of_access (TransportCache.step_cases hc)
    · simp only [Function.update_of_ne hwv] at hw
      have hstep : ∀ {b}, server.cache.system.step s.cache b = some cache → b ≠ .drop g →
          cache.Awaited g := fun hc hb =>
        (h w p g hw).step hC (TransportCache.step_cases hc) hb
      cases hm with
      | enter _ hc => exact hstep hc nofun
      | abandon _ _ hc =>
        rcases hc with rfl | ⟨q, k, hk, hc⟩
        · exact h w p g hw
        · -- Only the visit that is abandoned has made the call that is dropped.
          refine hstep hc fun hkg => hwv ?_
          obtain rfl := TransportCache.Action.drop.inj hkg
          exact call_unique hs (call_of_getting hs hw) (call_of_getting hs hk)
      | arrive _ | resume _ _ | answer _ | notice _ | close _ | bridge _ _ => exact h w p g hw

/-- No call that a visit waits for is dropped, in every run. -/
theorem owned (hs : server.system.Reachable s) : Owned s :=
  hs.invariant (P := Owned) (fun _ _ _ h => (by cases h)) fun _ _ _ hs h _ hst => h.step hs hst

/-! ## Helping a visit on -/

/-- What can be done for a visit: it can go on itself, its outlay can answer it, or the call
    that it waits for can be helped on. -/
inductive Helps (s : server.State) (v : ℕ) : Action → Prop
  | enter : Helps s v (.enter v)
  | resume : Helps s v (.resume v)
  | answer {r : Except String (Option Json)} : Helps s v (.answer v r)
  | notice {ok : Bool} : Helps s v (.notice v ok)
  | close : Helps s v (.close v)
  | cache {parsed : ParsedPath} {g : ℕ} {a : TransportCache.Action}
      (hst : (s.visits v).stage = .getting parsed g) (ha : TransportCache.Helps s.cache g a) :
      Helps s v (.cache a)

/-- What helps a call on is done by the cache itself. -/
theorem cache_of_helps {g : ℕ} {a : TransportCache.Action} (h : TransportCache.Helps s.cache g a)
    (hst : (server.cache.system.step s.cache a).isSome = true) :
    (server.system.step s (.cache a)).isSome = true := by
  cases h <;> simpa [system, step] using hst

/-- A visit that has still to come to its end can be helped on. -/
theorem exists_helps (hs : server.system.Reachable s) {v : ℕ}
    (hv : (s.visits v).stage.pending = true) :
    ∃ a, Helps s v a ∧ (server.system.step s a).isSome = true := by
  have hC := TransportCache.consistent (cache_reachable hs)
  cases hst : (s.visits v).stage with
  | absent | bridged _ _ | piped | done => simp [hst, VisitStage.pending] at hv
  | entering parsed =>
    refine ⟨.enter v, .enter, ?_⟩
    cases hpeek : s.cache.entries.get parsed.hex <;>
      simp [system, step, hst, TransportCache.system, TransportCache.step, hpeek]
  | asking parsed t => exact ⟨.answer v (.ok none), .answer, by simp [system, step, hst]⟩
  | noticing text => exact ⟨.notice v true, .notice, by simp [system, step, hst]⟩
  | closing => exact ⟨.close v, .close, by simp [system, step, hst]⟩
  | getting parsed g =>
    rcases owned hs _ _ _ hst with hg | ⟨r, hg⟩
    · obtain ⟨a, ha, hsome⟩ := TransportCache.exists_helps hC hg
      exact ⟨.cache a, .cache hst ha, cache_of_helps ha hsome⟩
    · exact ⟨.resume v, .resume, by simp [system, step, hst, hg]⟩

/-! ## The law -/

/-- A step of the cache. -/
def Action.cost : Action → ℕ
  | .cache _ => 1
  | _ => 0

/-- What a visit that enters adds to the steps of the cache. -/
def Action.gain : Action → ℕ
  | .enter _ => 3
  | _ => 0

/-- The steps of the cache are paid for. -/
theorem amortized : System.Amortized server.system server.system.Reachable
    (fun s => s.cache.work) Action.cost Action.gain where
  closed h hst := h.next hst
  pays {s a s'} h hst := by
    have hC := TransportCache.consistent (cache_reachable h)
    obtain ⟨b, cache, rfl, haccess, -, hc, rfl⟩ | ⟨v, visit, cache, hm, rfl⟩ := step_cases hst
    · cases TransportCache.step_cases hc with
      | hit _ | miss _ => exact absurd rfl (haccess _)
      | move hm => exact TransportCache.work_move hC hm
    · cases hm with
      | enter _ hc => exact TransportCache.work_access hC (TransportCache.step_cases hc)
      | abandon _ _ hc =>
        rcases hc with rfl | ⟨_, _, _, hc⟩
        · exact le_rfl
        · cases TransportCache.step_cases hc with
          | move hm => exact Nat.le_of_succ_le (TransportCache.work_move hC hm)
      | arrive _ | resume _ _ | answer _ | notice _ | close _ | bridge _ _ => exact le_rfl

/-- What the visits wait for. -/
structure Attended (server : Server PublicKey RelayUrl) (s : server.State) : Prop where
  /-- The cache has only so many steps left, but for visits that still enter it. -/
  bounded : ∀ l s', server.system.runBy (fun _ _ => True) s l = some s' →
    (l.map Action.cost).sum ≤ s.cache.work + (l.map Action.gain).sum
  /-- A visit that has still to come to its end can be helped on, in every state to come; -/
  progress : ∀ s' v, server.system.Leads s s' → (s'.visits v).stage.pending = true →
    ∃ a, Helps s' v a ∧ (server.system.step s' a).isSome = true
  /-- and the builds that it waits for are those of the outlay it has named. -/
  own : ∀ v parsed g k, (s.visits v).stage = .getting parsed g →
    (s.cache.gets k).stage = .building → (s.cache.gets k).cell = (s.cache.gets g).cell →
      s.cache.hex k = parsed.hex

/-- Whatever the interleaving, no visit is stuck. -/
theorem attended (hs : server.system.Reachable s) : Attended server s where
  bounded l s' hl := by
    have h := amortized.sum_cost_le hs hl
    omega
  progress s' v hlead hv := exists_helps (hs.leads hlead) hv
  own v parsed g k hst hk hcell := by
    have hC := TransportCache.consistent (cache_reachable hs)
    have hg := ((handled hs v).call g (call_of_getting hs hst)).1
    have hstage := (handled hs v).stage
    rw [hst] at hstage
    obtain ⟨-, -, rfl⟩ := hstage
    have hlt := hC.started_of_stage (g := k) (by simp [hk])
    -- The two calls hold one cell, and a cell is of one outlay.
    have hk' := (hC.cell k hlt).2
    rw [TransportCache.State.cellOf, hcell] at hk'
    exact hk'.symm.trans (hC.cell g hg).2

/-- Two visitors of one outlay, one of which waits for the build of the other. -/
def twoWait : List Action :=
  [.arrive 0 ⟨some NostrCodec.sampleNpub, true, .ok (), none⟩,
    .arrive 1 ⟨some NostrCodec.sampleKey.1, false, .ok (), none⟩, .enter 1, .enter 0,
    .cache (.build 1)]

/-- The cache has five steps left at most, if no other visits come. -/
theorem attended_twoWait : ∃ s : sample.State, s.cache.work = 5 ∧
    (s.visits 0).stage.pending = true ∧ (s.visits 1).stage.pending = true ∧
      Attended sample s := by
  obtain ⟨s, hs, hp⟩ := System.exists_reachableBy (M := sample.system) (C := fun _ _ => True)
    twoWait (fun s => decide (s.cache.work = 5 ∧ (s.visits 0).stage.pending = true ∧
      (s.visits 1).stage.pending = true)) (by decide +kernel)
  obtain ⟨hw, h₀, h₁⟩ := of_decide_eq_true hp
  exact ⟨s, hw, h₀, h₁, attended hs⟩

end Server

end Outlay.Shim
