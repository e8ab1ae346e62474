import Outlay.Async.Lru
import Outlay.Async.System
import Outlay.Shim.Transport

/-!
# The transport cache

The calls of `TransportCache::get`, as a system of concurrent parties. A call
first *accesses* the map, in one step: it takes the cell of its identity, or puts
a new one there, which may evict another. Then it *waits* on the cell: the first
to come builds the transport, for an arbitrarily long time, while the others wait
for the outcome; a build that fails, or whose call is dropped, leaves the cell
empty for the next. Once the cell is filled, every call waiting on it *returns*
clones of its transport.

* The calls are numbered in the order in which they access the map.
* A cell lives as long as the map or a call in progress holds it (`Alive`), and
  the transport in it, or being built for it, lives with it (`Live`).

`Step` lists, once and for all, what a step of the cache can do.
-/

namespace Outlay.Shim

open Async

/-- What the calls on a transport cache depend on. -/
structure TransportCache where
  /-- The capacity of the map. -/
  cap : ℕ
  one_le_cap : 1 ≤ cap
  cfg : ShimConfig
  loopbackUrl : Option String
  /-- The normalisation of relay URLs. -/
  normUrl : String → Option String

namespace TransportCache

/-- A transport: the call that built it, which builds no other, and what it was
    built with. -/
structure Transport where
  builder : ℕ
  config : TransportConfig
  deriving DecidableEq

/-- A cell: the identity it was created for, the transport in it, and the call
    that is building one. -/
structure Cell where
  hex : String
  value : Option Transport
  builder : Option ℕ
  deriving DecidableEq

/-- A new cell. -/
def Cell.fresh (hex : String) : Cell := ⟨hex, none, none⟩

/-- There is a transport in the cell, or one being built for it. -/
def Cell.occupied (c : Cell) : Bool := c.value.isSome || c.builder.isSome

/-- Where a call is. -/
inductive GetStage
  /-- Not made yet. -/
  | absent
  /-- Waiting on its cell. -/
  | waiting
  /-- Building the transport of its cell. -/
  | building
  | returned (r : Except String Transport)
  /-- Dropped by its caller. -/
  | dropped
  deriving DecidableEq

/-- The call holds its cell. -/
def GetStage.inProgress : GetStage → Bool
  | .waiting | .building => true
  | _ => false

/-- A call of `get`: where it is, the path it is for, and its cell. -/
structure Get where
  stage : GetStage
  path : ParsedPath
  cell : ℕ

/-- The state of a cache of capacity `cap`. -/
structure State (cap : ℕ) where
  entries : Lru String ℕ cap
  cells : ℕ → Cell
  /-- The number of cells created. -/
  created : ℕ
  gets : ℕ → Get
  /-- The number of calls that have accessed the map. -/
  started : ℕ

/-- The actions of a cache. -/
inductive Action
  /-- A call for a path accesses the map. -/
  | access (parsed : ParsedPath)
  /-- A call starts to build the transport of its cell. -/
  | build (g : ℕ)
  /-- A build succeeds or fails. -/
  | built (g : ℕ) (r : Except String Unit)
  /-- A call is dropped by its caller. -/
  | drop (g : ℕ)
  /-- A call returns clones of the transport in its cell. -/
  | ret (g : ℕ)

namespace State

variable {cap : ℕ} (s : State cap)

/-- The identity a call is for. -/
abbrev hex (g : ℕ) : String := (s.gets g).path.hex

/-- The cell of a call. -/
abbrev cellOf (g : ℕ) : Cell := s.cells (s.gets g).cell

/-- A call moves to another stage, and changes the content of its cell. -/
@[simps] def move (g : ℕ) (stage : GetStage) (cell : Cell) : State cap := { s with
  gets := Function.update s.gets g { s.gets g with stage }
  cells := Function.update s.cells (s.gets g).cell cell }

/-- A call for a path has accessed the map, and waits on the cell `c`. -/
@[simps] def start (entries : Lru String ℕ cap) (parsed : ParsedPath) (c : ℕ) : State cap :=
  { s with
    entries
    gets := Function.update s.gets s.started ⟨.waiting, parsed, c⟩
    started := s.started + 1 }

/-- A new cell for an identity. -/
@[simps] def create (hex : String) : State cap :=
  { s with
    cells := Function.update s.cells s.created (.fresh hex)
    created := s.created + 1 }

/-- The map holds the cell `c`. -/
def Mapped (c : ℕ) : Prop := ∃ e ∈ s.entries.entries, e.2 = c

/-- A call in progress holds the cell `c`. -/
def Held (c : ℕ) : Prop :=
  ∃ g < s.started, (s.gets g).stage.inProgress = true ∧ (s.gets g).cell = c

/-- The cell `c` has not been dropped: the map or a call in progress holds it. -/
def Alive (c : ℕ) : Prop := s.Mapped c ∨ s.Held c

/-- The transport of the cell `c` is being built, or is built and not yet dropped. -/
def Live (c : ℕ) : Prop := s.Alive c ∧ (s.cells c).occupied = true

instance (c : ℕ) : Decidable (s.Mapped c) := inferInstanceAs (Decidable (∃ e ∈ _, _))
instance (c : ℕ) : Decidable (s.Held c) := inferInstanceAs (Decidable (∃ g < _, _))
instance (c : ℕ) : Decidable (s.Alive c) := inferInstanceAs (Decidable (_ ∨ _))
instance (c : ℕ) : Decidable (s.Live c) := inferInstanceAs (Decidable (_ ∧ _))

end State

variable (env : TransportCache)

/-- The relays a transport for a path is to dial. -/
def relaysOf (parsed : ParsedPath) : List String :=
  resolveRelayUrls env.normUrl env.cfg parsed env.loopbackUrl

/-- What the transport for a path is built with. -/
def configOf (parsed : ParsedPath) : TransportConfig :=
  clientConfig env.normUrl env.cfg parsed env.loopbackUrl

/-- A step of the cache. -/
def step (s : State env.cap) : Action → Option (State env.cap)
  | .access parsed =>
    match s.entries.get parsed.hex with
    | some (cell, entries) => some (s.start entries parsed cell)
    -- A new identity: the least recently used one is evicted if there is no room.
    | none => some ((s.create parsed.hex).start (s.entries.put parsed.hex s.created) parsed
        s.created)
  | .build g =>
    match (s.gets g).stage, (s.cellOf g).value, (s.cellOf g).builder with
    -- One build of a cell at a time, and none once it is filled.
    | .waiting, none, none => some (s.move g .building { s.cellOf g with builder := some g })
    | _, _, _ => none
  | .built g r =>
    match (s.gets g).stage with
    | .building =>
      match r with
      | .ok _ => some (s.move g .waiting { s.cellOf g with
          value := some ⟨g, env.configOf (s.gets g).path⟩, builder := none })
      -- The cell is left empty, and the next call retries.
      | .error e => some (s.move g (.returned (.error e)) { s.cellOf g with builder := none })
    | _ => none
  | .drop g =>
    match (s.gets g).stage with
    | .waiting => some (s.move g .dropped (s.cellOf g))
    | .building => some (s.move g .dropped { s.cellOf g with builder := none })
    | _ => none
  | .ret g =>
    match (s.gets g).stage, (s.cellOf g).value with
    | .waiting, some t => some (s.move g (.returned (.ok t)) (s.cellOf g))
    | _, _ => none

/-- A cache no call has accessed yet. -/
def init : State env.cap where
  entries := .empty
  cells := fun _ => .fresh ""
  created := 0
  gets := fun _ => ⟨.absent, ⟨"", []⟩, 0⟩
  started := 0

/-- The system of the calls on a cache. -/
def system : System (State env.cap) Action := ⟨env.init, env.step⟩

/-! ## What a step can do -/

/-- What a call that has accessed the map can do: its next stage, and the content
    of its cell after that. -/
inductive Move (s : State env.cap) (g : ℕ) : Action → GetStage → Cell → Prop
  | build (hs : (s.gets g).stage = .waiting) (hv : (s.cellOf g).value = none)
      (hb : (s.cellOf g).builder = none) :
      Move s g (.build g) .building { s.cellOf g with builder := some g }
  | filled {u : Unit} (hs : (s.gets g).stage = .building) :
      Move s g (.built g (.ok u)) .waiting { s.cellOf g with
        value := some ⟨g, env.configOf (s.gets g).path⟩, builder := none }
  | failed {e : String} (hs : (s.gets g).stage = .building) :
      Move s g (.built g (.error e)) (.returned (.error e)) { s.cellOf g with builder := none }
  | leave (hs : (s.gets g).stage = .waiting) : Move s g (.drop g) .dropped (s.cellOf g)
  | abandon (hs : (s.gets g).stage = .building) :
      Move s g (.drop g) .dropped { s.cellOf g with builder := none }
  | ret {t : Transport} (hs : (s.gets g).stage = .waiting)
      (hv : (s.cellOf g).value = some t) : Move s g (.ret g) (.returned (.ok t)) (s.cellOf g)

/-- The steps of a cache: what `step` can do, case by case. -/
inductive Step (s : State env.cap) : Action → State env.cap → Prop
  | hit {parsed : ParsedPath} {c : ℕ} (hc : s.entries.peek parsed.hex = some c) :
      Step s (.access parsed) (s.start (s.entries.put parsed.hex c) parsed c)
  | miss {parsed : ParsedPath} (hc : s.entries.peek parsed.hex = none) :
      Step s (.access parsed)
        ((s.create parsed.hex).start (s.entries.put parsed.hex s.created) parsed s.created)
  | move {g : ℕ} {a : Action} {stage : GetStage} {cell : Cell} (hm : Move env s g a stage cell) :
      Step s a (s.move g stage cell)

variable {env}

/-- A step of a cache is one of those listed. -/
theorem step_cases {s s' : State env.cap} {a : Action} (h : env.system.step s a = some s') :
    Step env s a s' := by
  cases a with
  | access parsed =>
    simp only [system, step] at h
    split at h <;> obtain rfl := Option.some.inj h
    next hg =>
      obtain ⟨hc, rfl⟩ := Lru.get_eq_some hg
      exact .hit hc
    next hg => exact .miss (Lru.get_eq_none.1 hg)
  | build g =>
    simp only [system, step] at h
    split at h
    next hs hv hb => obtain rfl := Option.some.inj h; exact .move (.build hs hv hb)
    next => cases h
  | built g r =>
    simp only [system, step] at h
    split at h
    next hs =>
      cases r <;> obtain rfl := Option.some.inj h
      exacts [.move (.failed hs), .move (.filled hs)]
    next => cases h
  | drop g =>
    simp only [system, step] at h
    split at h
    next hs => obtain rfl := Option.some.inj h; exact .move (.leave hs)
    next hs => obtain rfl := Option.some.inj h; exact .move (.abandon hs)
    next => cases h
  | ret g =>
    simp only [system, step] at h
    split at h
    next hs hv => obtain rfl := Option.some.inj h; exact .move (.ret hs hv)
    next => cases h

section Move

variable {s : State env.cap} {g : ℕ} {a : Action} {stage : GetStage} {cell : Cell}

/-- Only a call in progress moves. -/
theorem Move.inProgress (h : Move env s g a stage cell) :
    (s.gets g).stage.inProgress = true := by
  cases h with
  | build hs _ _ | filled hs | failed hs | leave hs | abandon hs | ret hs _ => rw [hs]; rfl

/-- The identity of a cell never changes. -/
theorem Move.hex (h : Move env s g a stage cell) : cell.hex = (s.cellOf g).hex := by
  cases h <;> rfl

/-- A call that moves keeps its path and its cell, as all others do. -/
@[simp] theorem move_path (h : ℕ) : ((s.move g stage cell).gets h).path = (s.gets h).path := by
  rw [State.move_gets, Function.update_apply]
  split_ifs with hg
  · rw [hg]
  · rfl

@[simp] theorem move_cell (h : ℕ) : ((s.move g stage cell).gets h).cell = (s.gets h).cell := by
  rw [State.move_gets, Function.update_apply]
  split_ifs with hg
  · rw [hg]
  · rfl

/-- A call that moves is at its next stage; the other calls are where they were. -/
@[simp] theorem move_stage : ((s.move g stage cell).gets g).stage = stage := by simp

theorem move_gets_of_ne {h : ℕ} (hg : h ≠ g) : (s.move g stage cell).gets h = s.gets h :=
  Function.update_of_ne hg ..

/-- The content of the cell of a call that moves; that of the others does not change. -/
@[simp] theorem move_cells_self : (s.move g stage cell).cells (s.gets g).cell = cell :=
  Function.update_self ..

theorem move_cells_of_ne {c : ℕ} (hc : c ≠ (s.gets g).cell) :
    (s.move g stage cell).cells c = s.cells c := Function.update_of_ne hc ..

end Move

section Access

variable {s : State env.cap} {entries : Lru String ℕ env.cap} {parsed : ParsedPath} {c : ℕ}

/-- A call that has accessed the map; the others are where they were. -/
@[simp] theorem start_gets_self :
    (s.start entries parsed c).gets s.started = ⟨.waiting, parsed, c⟩ := Function.update_self ..

theorem start_gets_of_ne {g : ℕ} (hg : g ≠ s.started) :
    (s.start entries parsed c).gets g = s.gets g := Function.update_of_ne hg ..

/-- The other cells are not touched when one is created. -/
theorem create_cells_of_ne {hex : String} (hc : c ≠ s.created) :
    (s.create hex).cells c = s.cells c := Function.update_of_ne hc ..

end Access

end TransportCache

end Outlay.Shim
