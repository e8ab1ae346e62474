import Mathlib

/-!
# Binding the bundled relay

The bundled relay is bound to a port of the loopback interface. A fixed port is
tried once. The port 0 stands for any: the relay could not tell which port it was
given by the system, so the ports of a small range are tried in their order, until
one can be bound.

Ports are 16 bits wide. One addition of the scan is checked, and one is not; no
port makes either of them overflow (`selected`).

Of the relay, the model takes what becomes of running it on a port, and the URL it
reports then, as parameters.
-/

namespace Outlay.Relay

/-- What the scan relies on of the relay, by the port it is configured with. -/
structure LocalRelay where
  /-- Running the relay binds its port, or fails. -/
  run : UInt16 → Except String Unit
  url : UInt16 → String

/-- The port can be bound. -/
def LocalRelay.free (relay : LocalRelay) (port : UInt16) : Bool := (relay.run port).isOk

/-- Why no port is bound. -/
inductive BindError
  | rangeOverflow
  | busy (candidate : UInt16) (e : String)
  | noFreePort (start last : UInt16) (lastErr : String)
  deriving DecidableEq

/-- The text of the error. -/
def BindError.text : BindError → String
  | .rangeOverflow => "port range overflow"
  | .busy candidate e =>
    "bundled relay failed to bind 127.0.0.1:" ++ toString candidate ++ ": " ++ e
  | .noFreePort start last lastErr =>
    "no free loopback port for bundled relay in " ++ toString start ++ "..=" ++ toString last ++
      " (last error: " ++ lastErr ++ ")"

/-- How binding ends. -/
inductive Outcome
  /-- With a relay on the port, and its URL. -/
  | ok (port : UInt16) (url : String)
  | error (e : BindError)
  /-- An addition that is not checked has overflowed. -/
  | overflow
  deriving DecidableEq

/-- What has been done to the ports. -/
structure Log where
  /-- The ports tried, in their order. -/
  tried : List UInt16
  /-- The ports that relays are bound to. -/
  bound : List UInt16
  deriving DecidableEq

/-- `u16::checked_add`. -/
def checkedAdd (a b : UInt16) : Option UInt16 :=
  if a.toNat + b.toNat < 2 ^ 16 then some (a + b) else none

def ephemeralBase : UInt16 := 8086

def ephemeralTries : UInt16 := 50

/-- Try the port at each offset from the start; after the last, `start + tries - 1` is
    computed for the text of the error. -/
def scan (relay : LocalRelay) (port start tries : UInt16) :
    List UInt16 → Option String → Log → Outcome × Log
  | [], lastErr, log =>
    match checkedAdd start tries with
    | some sum => (.error (.noFreePort start (sum - 1) (lastErr.getD "")), log)
    | none => (.overflow, log)
  | offset :: offsets, _, log =>
    match checkedAdd start offset with
    | none => (.error .rangeOverflow, log)
    | some candidate =>
      let tried := log.tried ++ [candidate]
      match relay.run candidate with
      | .ok () => (.ok candidate (relay.url candidate), ⟨tried, candidate :: log.bound⟩)
      | .error e =>
        if port ≠ 0 then (.error (.busy candidate e), ⟨tried, log.bound⟩)
        else scan relay port start tries offsets (some e) ⟨tried, log.bound⟩

/-- The offsets below a number of tries. -/
def offsetsBelow (tries : UInt16) : List UInt16 := (List.range tries.toNat).map .ofNat

/-- Bind the relay, scanning a small range of ports for the port 0. -/
def bindWithPortScan (relay : LocalRelay) (port : UInt16) : Outcome × Log :=
  let (start, tries) := if port = 0 then (ephemeralBase, ephemeralTries) else (port, 1)
  scan relay port start tries (offsetsBelow tries) none ⟨[], []⟩

/-- The ports that are scanned. -/
def scanRange : List UInt16 := (offsetsBelow ephemeralTries).map (ephemeralBase + ·)

namespace LocalRelay

variable {p : UInt16} (relay : LocalRelay)

theorem free_iff : relay.free p ↔ relay.run p = .ok () := by
  rw [free]
  cases relay.run p with
  | ok => exact iff_of_true rfl rfl
  | error e => exact iff_of_false Bool.false_ne_true fun h => nomatch h

theorem not_free_of_error {e : String} (h : relay.run p = .error e) : ¬relay.free p := by
  rw [free_iff, h]
  exact fun h => nomatch h

end LocalRelay

/-! ## Additions -/

theorem checkedAdd_of_lt {a b : UInt16} (h : a.toNat + b.toNat < 2 ^ 16) :
    checkedAdd a b = some (a + b) := if_pos h

theorem toNat_ofNat_of_lt {tries : UInt16} {i : ℕ} (h : i < tries.toNat) :
    (UInt16.ofNat i).toNat = i := UInt16.toNat_ofNat_of_lt' (h.trans tries.toNat_lt)

/-- The additions of the scan do not overflow. -/
theorem lt_of_mem_offsetsBelow {offset : UInt16} (h : offset ∈ offsetsBelow ephemeralTries) :
    ephemeralBase.toNat + offset.toNat < 2 ^ 16 := by
  obtain ⟨i, hi, rfl⟩ := List.mem_map.1 h
  have hlt : i < ephemeralTries.toNat := List.mem_range.1 hi
  have hbase : ephemeralBase.toNat = 8086 := rfl
  have htries : ephemeralTries.toNat = 50 := rfl
  rw [toNat_ofNat_of_lt hlt]
  omega

/-! ## The range -/

/-- The range, as numbers. -/
theorem mem_scanRange_iff {p : UInt16} : p ∈ scanRange ↔ 8086 ≤ p.toNat ∧ p.toNat < 8136 := by
  have hbase : ephemeralBase.toNat = 8086 := rfl
  have htries : ephemeralTries.toNat = 50 := rfl
  constructor
  · intro h
    obtain ⟨offset, ho, rfl⟩ := List.mem_map.1 h
    have hlt := lt_of_mem_offsetsBelow ho
    obtain ⟨i, hi, rfl⟩ := List.mem_map.1 ho
    have hi : i < ephemeralTries.toNat := List.mem_range.1 hi
    rw [UInt16.toNat_add, Nat.mod_eq_of_lt hlt, toNat_ofNat_of_lt hi]
    omega
  · rintro ⟨hle, hlt⟩
    have hi : p.toNat - 8086 < ephemeralTries.toNat := by omega
    refine List.mem_map.2 ⟨.ofNat (p.toNat - 8086),
      List.mem_map_of_mem (List.mem_range.2 hi), UInt16.toNat_inj.1 ?_⟩
    rw [UInt16.toNat_add, toNat_ofNat_of_lt hi, hbase]
    omega

/-- The range is scanned upwards. -/
theorem pairwise_scanRange : scanRange.Pairwise (· < ·) := by
  rw [scanRange, offsetsBelow, List.map_map, List.pairwise_map]
  refine List.pairwise_lt_range.imp_of_mem fun {i j} hi hj hij => ?_
  have hi : i < ephemeralTries.toNat := List.mem_range.1 hi
  have hj : j < ephemeralTries.toNat := List.mem_range.1 hj
  have hbase : ephemeralBase.toNat = 8086 := rfl
  have htries : ephemeralTries.toNat = 50 := rfl
  rw [Function.comp_apply, Function.comp_apply, UInt16.lt_iff_toNat_lt, UInt16.toNat_add,
    UInt16.toNat_add, toNat_ofNat_of_lt hi, toNat_ofNat_of_lt hj, hbase]
  omega

/-! ## Scanning -/

section

variable {relay : LocalRelay} {start tries p : UInt16} {l : List UInt16}

/-- A scan ends at the first free port, after the ports before it. -/
theorem scan_of_find?_eq_some (hadd : ∀ o ∈ l, start.toNat + o.toNat < 2 ^ 16)
    (h : (l.map (start + ·)).find? relay.free = some p) (lastErr : Option String) (log : Log) :
    scan relay 0 start tries l lastErr log = (.ok p (relay.url p),
      ⟨log.tried ++ ((l.map (start + ·)).takeWhile (!relay.free ·) ++ [p]), p :: log.bound⟩) := by
  induction l generalizing lastErr log with
  | nil => cases h
  | cons o l ih =>
    obtain ⟨ho, hadd⟩ := List.forall_mem_cons.1 hadd
    rw [List.map_cons] at h ⊢
    cases hr : relay.run (start + o) with
    | ok =>
      have hfree : relay.free (start + o) := relay.free_iff.2 hr
      rw [List.find?_cons_of_pos hfree] at h
      obtain rfl := Option.some.inj h
      simp only [scan, checkedAdd_of_lt ho, hr]
      rw [List.takeWhile_cons_of_neg (by simpa using hfree), List.nil_append]
    | error e =>
      have hbusy : ¬relay.free (start + o) := relay.not_free_of_error hr
      rw [List.find?_cons_of_neg hbusy] at h
      simp only [scan, checkedAdd_of_lt ho, hr]
      rw [if_neg (not_not_intro rfl), ih hadd h, List.takeWhile_cons_of_pos (by simpa using hbusy),
        List.cons_append, List.append_assoc, List.singleton_append]

/-- A scan of busy ports fails after the last. -/
theorem scan_of_find?_eq_none (hadd : ∀ o ∈ l, start.toNat + o.toNat < 2 ^ 16)
    (hend : start.toNat + tries.toNat < 2 ^ 16)
    (h : (l.map (start + ·)).find? relay.free = none) (lastErr : Option String) (log : Log) :
    ∃ e, scan relay 0 start tries l lastErr log =
      (.error (.noFreePort start (start + tries - 1) e),
        ⟨log.tried ++ l.map (start + ·), log.bound⟩) := by
  induction l generalizing lastErr log with
  | nil =>
    refine ⟨lastErr.getD "", ?_⟩
    simp only [scan, checkedAdd_of_lt hend]
    rw [List.map_nil, List.append_nil]
  | cons o l ih =>
    obtain ⟨ho, hadd⟩ := List.forall_mem_cons.1 hadd
    rw [List.map_cons] at h ⊢
    cases hr : relay.run (start + o) with
    | ok =>
      have hfree : relay.free (start + o) := relay.free_iff.2 hr
      rw [List.find?_cons_of_pos hfree] at h
      cases h
    | error e =>
      have hbusy : ¬relay.free (start + o) := relay.not_free_of_error hr
      rw [List.find?_cons_of_neg hbusy] at h
      obtain ⟨e', he⟩ := ih hadd h (some e) ⟨log.tried ++ [start + o], log.bound⟩
      refine ⟨e', ?_⟩
      simp only [scan, checkedAdd_of_lt ho, hr]
      rw [if_neg (not_not_intro rfl), he, List.append_assoc, List.singleton_append]

end

/-! ## Selecting a port -/

variable (relay : LocalRelay)

/-- A fixed port is tried once. -/
theorem bindWithPortScan_of_ne_zero {port : UInt16} (h : port ≠ 0) :
    bindWithPortScan relay port = match relay.run port with
      | .ok () => (.ok port (relay.url port), ⟨[port], [port]⟩)
      | .error e => (.error (.busy port e), ⟨[port], []⟩) := by
  have hoffsets : offsetsBelow 1 = [0] := rfl
  have hadd : checkedAdd port 0 = some port := by
    rw [checkedAdd_of_lt (by simpa using port.toNat_lt), UInt16.add_zero]
  simp only [bindWithPortScan, if_neg h, hoffsets, scan, hadd, List.nil_append]
  cases relay.run port with
  | ok => rfl
  | error e => exact if_pos h

/-- The first free port of the range is bound. -/
theorem bindWithPortScan_zero_of_some {p : UInt16} (h : scanRange.find? relay.free = some p) :
    bindWithPortScan relay 0 =
      (.ok p (relay.url p), ⟨scanRange.takeWhile (!relay.free ·) ++ [p], [p]⟩) :=
  scan_of_find?_eq_some (fun _ => lt_of_mem_offsetsBelow) h none ⟨[], []⟩

/-- No port is bound if there is no free one in the range. -/
theorem bindWithPortScan_zero_of_none (h : scanRange.find? relay.free = none) :
    ∃ e, bindWithPortScan relay 0 = (.error (.noFreePort 8086 8135 e), ⟨scanRange, []⟩) :=
  scan_of_find?_eq_none (fun _ => lt_of_mem_offsetsBelow) (by decide) h none ⟨[], []⟩

/-- How a port is selected: `Names` says that a URL names a port. -/
structure Selected (Names : String → UInt16 → Prop) (port : UInt16) (outcome : Outcome)
    (log : Log) : Prop where
  /-- A fixed port is tried once, and bound if it can be. -/
  fixed : port ≠ 0 → log.tried = [port] ∧
    (relay.run port = .ok () → outcome = .ok port (relay.url port)) ∧
    ∀ e, relay.run port = .error e → outcome = .error (.busy port e)
  /-- The range is tried upwards. -/
  upwards : port = 0 → log.tried <+: scanRange ∧ log.tried.Pairwise (· < ·)
  /-- What is bound is the lowest free port of the range. -/
  lowest : port = 0 → ∀ p url, outcome = .ok p url →
    p ∈ scanRange ∧ relay.run p = .ok () ∧ ∀ q ∈ scanRange, q < p → relay.run q ≠ .ok ()
  /-- Binding fails only if the whole range is busy. -/
  succeeds_iff : port = 0 →
    ((∃ p url, outcome = .ok p url) ↔ ∃ q ∈ scanRange, relay.run q = .ok ())
  /-- The URL names the port that is bound. -/
  named : ∀ p url, outcome = .ok p url → p ≠ 0 ∧ Names url p ∧ log.bound = [p]
  /-- On failure, no relay is left bound. -/
  released : (∀ p url, outcome ≠ .ok p url) → log.bound = []
  nodup : log.tried.Nodup
  /-- No addition overflows. -/
  no_overflow : outcome ≠ .overflow ∧ outcome ≠ .error .rangeOverflow

variable {relay} {Names : String → UInt16 → Prop} {port : UInt16}

/-- The ports of the range are proper ones. -/
theorem ne_zero_of_mem_scanRange {p : UInt16} (h : p ∈ scanRange) : p ≠ 0 := by
  rintro rfl
  exact absurd (mem_scanRange_iff.1 h).1 (by decide)

theorem selected_of_ne_zero (hnames : ∀ p, Names (relay.url p) p) (h : port ≠ 0) :
    Selected relay Names port (bindWithPortScan relay port).1 (bindWithPortScan relay port).2 := by
  rw [bindWithPortScan_of_ne_zero relay h]
  cases hr : relay.run port with
  | ok =>
    constructor
    case fixed => exact fun _ => ⟨rfl, fun _ => rfl, fun e he => by rw [hr] at he; cases he⟩
    case named =>
      rintro p url ⟨⟩
      exact ⟨h, hnames port, rfl⟩
    case released => exact fun hne => absurd rfl (hne port (relay.url port))
    case nodup => exact List.nodup_singleton port
    case no_overflow => exact ⟨nofun, nofun⟩
    all_goals exact fun hz => absurd hz h
  | error e =>
    constructor
    case fixed =>
      refine fun _ => ⟨rfl, fun hok => ?_, fun e' he => ?_⟩
      · rw [hr] at hok
        cases hok
      · rw [hr] at he
        cases he
        rfl
    case named => exact nofun
    case released => exact fun _ => rfl
    case nodup => exact List.nodup_singleton port
    case no_overflow => exact ⟨nofun, nofun⟩
    all_goals exact fun hz => absurd hz h

theorem selected_zero_of_some (hnames : ∀ p, Names (relay.url p) p) {p : UInt16}
    (h : scanRange.find? relay.free = some p) :
    Selected relay Names 0 (bindWithPortScan relay 0).1 (bindWithPortScan relay 0).2 := by
  rw [bindWithPortScan_zero_of_some relay h]
  obtain ⟨hfree, before, after, hrange, hbusy⟩ := List.find?_eq_some_iff_append.1 h
  have hmem : p ∈ scanRange := List.mem_of_find?_eq_some h
  have hrun : relay.run p = .ok () := relay.free_iff.1 hfree
  have htried : scanRange.takeWhile (!relay.free ·) ++ [p] <+: scanRange := by
    refine ⟨after, ?_⟩
    rw [hrange, List.takeWhile_append_of_pos fun q hq => hbusy q hq,
      List.takeWhile_cons_of_neg (by simpa using hfree), List.append_nil, List.append_assoc,
      List.singleton_append]
  have hup := pairwise_scanRange.sublist htried.sublist
  constructor
  case fixed => exact fun hz => absurd rfl hz
  case upwards => exact fun _ => ⟨htried, hup⟩
  case lowest =>
    rintro - q url ⟨⟩
    refine ⟨hmem, hrun, fun q hq hlt hok => ?_⟩
    have hp := pairwise_scanRange
    rw [hrange] at hq hp
    rcases List.mem_append.1 hq with hq | hq
    · exact absurd (relay.free_iff.2 hok) (by simpa using hbusy q hq)
    · -- The ports after it are higher.
      rcases List.mem_cons.1 hq with rfl | hq
      · exact UInt16.lt_irrefl q hlt
      · have hgt := (List.pairwise_cons.1 (List.pairwise_append.1 hp).2.1).1 q hq
        exact UInt16.lt_asymm hlt hgt
  case succeeds_iff => exact fun _ => iff_of_true ⟨p, _, rfl⟩ ⟨p, hmem, hrun⟩
  case named =>
    rintro q url ⟨⟩
    exact ⟨ne_zero_of_mem_scanRange hmem, hnames p, rfl⟩
  case released => exact fun hne => absurd rfl (hne p (relay.url p))
  case nodup => exact hup.imp UInt16.ne_of_lt
  case no_overflow => exact ⟨nofun, nofun⟩

theorem selected_zero_of_none (h : scanRange.find? relay.free = none) :
    Selected relay Names 0 (bindWithPortScan relay 0).1 (bindWithPortScan relay 0).2 := by
  obtain ⟨e, he⟩ := bindWithPortScan_zero_of_none relay h
  rw [he]
  constructor
  case fixed => exact fun hz => absurd rfl hz
  case upwards => exact fun _ => ⟨List.prefix_rfl, pairwise_scanRange⟩
  case lowest => exact fun _ => nofun
  case succeeds_iff =>
    refine fun _ => iff_of_false (fun ⟨p, url, h⟩ => nomatch h) fun ⟨q, hq, hok⟩ => ?_
    exact List.find?_eq_none.1 h q hq (relay.free_iff.2 hok)
  case named => exact nofun
  case released => exact fun _ => rfl
  case nodup => exact pairwise_scanRange.imp UInt16.ne_of_lt
  case no_overflow => exact ⟨nofun, nofun⟩

/-- If the relay reports the port it is configured with, a port is selected as it
    should be, whatever ports are busy. -/
theorem selected (hnames : ∀ p, Names (relay.url p) p) (port : UInt16) :
    Selected relay Names port (bindWithPortScan relay port).1 (bindWithPortScan relay port).2 := by
  by_cases hz : port = 0
  · subst hz
    cases h : scanRange.find? relay.free with
    | some p => exact selected_zero_of_some hnames h
    | none => exact selected_zero_of_none h
  · exact selected_of_ne_zero hnames hz

/-- With the last of all ports fixed and busy, the sum in the other error is not reached. -/
example : bindWithPortScan ⟨fun _ => .error "address in use", fun _ => ""⟩ 65535 =
    (.error (.busy 65535 "address in use"), ⟨[65535], []⟩) := rfl

/-! The first two ports of the range are busy. -/

def sample : LocalRelay where
  run p := if p < 8088 then .error "address in use" else .ok ()
  url p := "ws://127.0.0.1:" ++ toString p

theorem selected_sample :
    Selected sample (fun url p => url = "ws://127.0.0.1:" ++ toString p) 0
      (.ok 8088 "ws://127.0.0.1:8088") ⟨[8086, 8087, 8088], [8088]⟩ :=
  selected (fun _ => rfl) 0

end Outlay.Relay
