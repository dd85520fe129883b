import OpenHes.Analysis.HeldModules
import OpenHes.Model.BluezManager
import Mathlib.Algebra.Order.Monoid.Unbundled.Pow
import Mathlib.Tactic.NormNum

/-!
# The back-off of the BlueZ manager

The delay after a failed attempt to connect is a shift by the number of failures in a row, and the
cap comes after the shift. Up to the thirtieth failure the delays are 2, 4, 8 and then 10 seconds;
the thirty-first shift leaves `int`.
-/

set_option autoImplicit false

namespace OpenHes.Analysis

open OpenHes.Library OpenHes.Model

/-! ## The delays of a device -/

/-- The delay after `n` failures, as capped. -/
def backoffDelay (n : ℕ) : ℤ := min retryMaxS (2 ^ n)

/-- **A sane back-off**: one delay for each failure in a row, all between the base and the cap,
none smaller than the one before it (the base, before the first); the last one is what the device
waits after the attempt that failed. -/
structure BackoffSane (d : BluezDev) : Prop where
  count : d.delays.length = d.attempt
  bounds : ∀ delay ∈ d.delays, retryBaseS ≤ delay ∧ delay ≤ retryMaxS
  growing : (retryBaseS :: d.delays).IsChain (· ≤ ·)
  waits : ∀ delay ∈ d.delays.getLast?, d.nextTry = d.stateEntered + delay

/-- Is a device tried at an instant, and in vain? -/
def TriedInVain (now : ℤ) (answer : BluezAnswer) (d : BluezDev) : Prop :=
  d.state ≠ .online ∧ d.path ≠ [] ∧ d.nextTry ≤ now ∧ isAnswered answer d = false

/-- No device that has failed thirty times in a row is tried in vain. -/
def StepWithin (m : BluezMgr) : BluezStep → Prop
  | .poll now answers _ =>
    m.conn = true → ∀ i d, m.devs[i]? = some d → TriedInVain now (answers i) d → d.attempt < 30
  | _ => True

/-- Every step of a run is within the thirty failures. -/
def RunWithin (m : BluezMgr) : List BluezStep → Prop
  | [] => True
  | step :: steps => StepWithin m step ∧ ∀ next, m.step step = some next → RunWithin next steps

/-! ## The delays -/

/-- INTERNAL: a delay lies between the two bounds. -/
theorem backoffDelay_bounds (n : ℕ) : retryBaseS ≤ backoffDelay n ∧ backoffDelay n ≤ retryMaxS := by
  have hpos : (1 : ℤ) ≤ 2 ^ n := one_le_pow₀ (by norm_num)
  unfold backoffDelay retryBaseS retryMaxS
  omega

/-- INTERNAL: no delay is shorter than the one in front of it. -/
theorem backoffDelay_le (n : ℕ) : backoffDelay n ≤ backoffDelay (n + 1) := by
  have hgrow : (2 : ℤ) ^ n ≤ 2 ^ (n + 1) := pow_le_pow_right₀ (by norm_num) (Nat.le_succ n)
  unfold backoffDelay
  omega

/-- INTERNAL: **the shift** is defined up to thirty. -/
theorem shiftLeftInt_retryBase (n : ℕ) :
    shiftLeftInt retryBaseS n = if n ≤ 30 then some (2 ^ n) else none := by
  have hfits : n < 32 ∧ FitsInt32 (retryBaseS * 2 ^ n) ↔ n ≤ 30 := by
    unfold FitsInt32 retryBaseS
    rw [one_mul]
    constructor
    · rintro ⟨-, -, hlt⟩
      have := (pow_lt_pow_iff_right₀ (by norm_num : (1 : ℤ) < 2)).mp hlt
      omega
    · intro hn
      have hle : (2 : ℤ) ^ n ≤ 2 ^ 30 := pow_le_pow_right₀ (by norm_num) hn
      have hpos : (0 : ℤ) < 2 ^ n := pow_pos (by norm_num) n
      omega
  unfold shiftLeftInt
  by_cases hn : n ≤ 30
  · rw [if_pos (hfits.mpr hn), if_pos hn, show retryBaseS = 1 from rfl, one_mul]
  · rw [if_neg fun h => hn (hfits.mp h), if_neg hn]

/-- INTERNAL: **what a failure does**, up to the thirtieth in a row. -/
theorem connectFailed_eq (now : ℤ) (d : BluezDev) :
    connectFailed now d =
      if d.attempt < 30 then
        some { d with
          state := .off
          stateEntered := now
          attempt := d.attempt + 1
          nextTry := now + backoffDelay (d.attempt + 1)
          delays := d.delays ++ [backoffDelay (d.attempt + 1)] }
      else none := by
  have hcap : ∀ n : ℕ, (if retryMaxS < (2 : ℤ) ^ n then retryMaxS else 2 ^ n) = backoffDelay n := by
    intro n
    unfold backoffDelay
    split <;> omega
  unfold connectFailed
  simp only [shiftLeftInt_retryBase]
  by_cases hn : d.attempt < 30
  · rw [if_pos (by omega), if_pos hn, Option.map_some, hcap]
  · rw [if_neg (by omega), if_neg hn, Option.map_none]

/-! ## The invariant -/

/-- **The invariant** of a device: its delays are those of its failures in a row, and while there
are any it has a path, is off, and waits out the last of them. -/
structure BackedOff (d : BluezDev) : Prop where
  delays : d.delays = (List.range d.attempt).map fun k => backoffDelay (k + 1)
  off : d.delays ≠ [] → d.path ≠ [] ∧ d.state = .off
  waits : ∀ delay ∈ d.delays.getLast?, d.nextTry = d.stateEntered + delay

/-- INTERNAL: the invariant is a sane back-off. -/
theorem BackedOff.sane {d : BluezDev} (h : BackedOff d) : BackoffSane d where
  count := by rw [h.delays, List.length_map, List.length_range]
  bounds := by
    intro delay hmem
    rw [h.delays] at hmem
    obtain ⟨k, -, rfl⟩ := List.mem_map.mp hmem
    exact backoffDelay_bounds (k + 1)
  growing := by
    have hall : retryBaseS :: d.delays =
        (List.range (d.attempt + 1)).map fun k => backoffDelay k := by
      rw [h.delays, List.range_succ_eq_map, List.map_cons, List.map_map]
      rfl
    rw [hall, List.isChain_iff_getElem]
    intro k hk
    rw [List.getElem_map, List.getElem_map, List.getElem_range, List.getElem_range]
    exact backoffDelay_le k
  waits := h.waits

/-- INTERNAL: a device without attempts is backed off. -/
theorem backedOff_of_nil (d : BluezDev) (hattempt : d.attempt = 0) (hdelays : d.delays = []) :
    BackedOff d where
  delays := by rw [hdelays, hattempt]; rfl
  off := fun h => absurd hdelays h
  waits := by
    rw [hdelays]
    exact fun delay h => (Option.not_mem_none delay h).elim

/-- INTERNAL: a device that is online or not found has no delays. -/
theorem BackedOff.delays_nil {d : BluezDev} (h : BackedOff d)
    (hoff : d.path = [] ∨ d.state = .online) : d.delays = [] := by
  by_contra hne
  obtain ⟨hpath, hstate⟩ := h.off hne
  rcases hoff with hnil | honline
  · exact hpath hnil
  · rw [hstate] at honline
    cases honline

/-- INTERNAL: without delays there were no attempts. -/
theorem BackedOff.attempt_zero {d : BluezDev} (h : BackedOff d) (hnil : d.delays = []) :
    d.attempt = 0 := by
  have hlen := h.sane.count
  rw [hnil] at hlen
  exact hlen.symm

/-! ## A pass -/

/-- INTERNAL: a device that was found is not looked for. -/
theorem discoverPath_of_path (now : ℤ) (answer : BluezAnswer) (d : BluezDev) (h : d.path ≠ []) :
    discoverPath now answer d = d := if_neg fun hboth => h hboth.1

/-- INTERNAL: the search for a path changes nothing that counts failures, and a device whose path
it has just found waits. -/
theorem discoverPath_spec (now : ℤ) (answer : BluezAnswer) (d : BluezDev) :
    (discoverPath now answer d).state = d.state ∧
      (discoverPath now answer d).attempt = d.attempt ∧
      (discoverPath now answer d).delays = d.delays ∧
      (d.path = [] → (discoverPath now answer d).path = [] ∨
        now < (discoverPath now answer d).nextTry) := by
  unfold discoverPath
  by_cases hsearch : d.path = [] ∧ d.nextTry ≤ now
  · rw [if_pos hsearch]
    cases answer.objectPath with
    | none => exact ⟨rfl, rfl, rfl, fun _ => Or.inl hsearch.1⟩
    | some path =>
      refine ⟨rfl, rfl, rfl, fun _ => Or.inr ?_⟩
      simp only [scanRetryS]
      omega
  · rw [if_neg hsearch]
    exact ⟨rfl, rfl, rfl, fun h => Or.inl h⟩

/-- INTERNAL: looking for a device keeps it backed off. -/
theorem BackedOff.discoverPath {d : BluezDev} (h : BackedOff d) (now : ℤ) (answer : BluezAnswer) :
    BackedOff (discoverPath now answer d) := by
  by_cases hpath : d.path = []
  · have hnil := h.delays_nil (Or.inl hpath)
    obtain ⟨-, hattempt, hdelays, -⟩ := discoverPath_spec now answer d
    exact backedOff_of_nil _ (hattempt.trans (h.attempt_zero hnil)) (hdelays.trans hnil)
  · rw [discoverPath_of_path now answer d hpath]
    exact h

/-- INTERNAL: a failure adds its delay. -/
theorem backedOff_connectFailed (now : ℤ) (d failed : BluezDev)
    (hdelays : d.delays = (List.range d.attempt).map fun k => backoffDelay (k + 1))
    (hpath : d.path ≠ []) (hfailed : connectFailed now d = some failed) : BackedOff failed := by
  rw [connectFailed_eq] at hfailed
  split at hfailed
  · cases hfailed
    constructor
    · simp only [hdelays, List.range_succ, List.map_append, List.map_singleton]
    · exact fun _ => ⟨hpath, rfl⟩
    · intro delay hlast
      rw [List.getLast?_concat] at hlast
      rw [← Option.some.inj hlast]
  · cases hfailed

/-- INTERNAL: the watch over a link leaves the failures at none. -/
theorem backedOff_watchLink (d : BluezDev) (now : ℤ) (answer : BluezAnswer)
    (hattempt : d.attempt = 0) (hdelays : d.delays = []) :
    BackedOff (watchLink now answer d).1 := by
  unfold watchLink
  dsimp only
  split
  · exact backedOff_of_nil _ rfl rfl
  · exact backedOff_of_nil _ hattempt hdelays

/-- INTERNAL: **an attempt** on a device with a path: undefined exactly when it is in vain after
the thirtieth failure. -/
theorem tryConnect_none (now : ℤ) (answer : BluezAnswer) (d : BluezDev) :
    tryConnect now answer d = none ↔ isAnswered answer d = false ∧ 30 ≤ d.attempt := by
  unfold tryConnect
  cases isAnswered answer d with
  | true =>
    rw [Bool.not_true, if_neg Bool.false_ne_true]
    exact ⟨fun h => (Option.some_ne_none _ h).elim, fun h => absurd h.1 (by decide)⟩
  | false =>
    rw [Bool.not_false, if_pos rfl, Option.map_eq_none_iff, connectFailed_eq]
    change (if d.attempt < 30 then _ else none) = none ↔ _
    by_cases hn : d.attempt < 30
    · rw [if_pos hn]
      exact ⟨fun h => (Option.some_ne_none _ h).elim, fun h => absurd h.2 (by omega)⟩
    · rw [if_neg hn]
      exact ⟨fun _ => ⟨rfl, by omega⟩, fun _ => rfl⟩

/-- INTERNAL: so does an attempt to connect, where it is defined. -/
theorem backedOff_tryConnect (now : ℤ) (answer : BluezAnswer) (d polled : BluezDev)
    (event : Option HesBleEvent) (h : BackedOff d) (hpath : d.path ≠ [])
    (htry : tryConnect now answer d = some (polled, event)) : BackedOff polled := by
  unfold tryConnect at htry
  split at htry
  · rw [Option.map_eq_some_iff] at htry
    obtain ⟨failed, hfailed, heq⟩ := htry
    obtain ⟨rfl, -⟩ := Prod.mk.inj heq
    exact backedOff_connectFailed now (startConnecting now answer d) _ h.delays hpath hfailed
  · cases htry
    exact backedOff_of_nil _ rfl rfl

/-- INTERNAL: **the turn of a device** is undefined exactly when it is tried in vain after the
thirtieth failure. -/
theorem pollDev_none (now : ℤ) (answer : BluezAnswer) (d : BluezDev) :
    pollDev now answer d = none ↔ TriedInVain now answer d ∧ 30 ≤ d.attempt := by
  unfold pollDev TriedInVain
  dsimp only
  by_cases hpath : d.path = []
  · obtain ⟨-, -, -, hwaits⟩ := discoverPath_spec now answer d
    have hskip : ((discoverPath now answer d).path = [] ||
        decide (now < (discoverPath now answer d).nextTry)) = true := by
      rcases hwaits hpath with hnil | hlater
      · rw [decide_eq_true hnil, Bool.true_or]
      · rw [decide_eq_true hlater, Bool.or_true]
    constructor
    · intro h
      by_cases honline : (discoverPath now answer d).state = .online
      · rw [if_pos honline] at h
        cases h
      · rw [if_neg honline, if_pos hskip] at h
        cases h
    · exact fun h => absurd hpath h.1.2.1
  · rw [discoverPath_of_path now answer d hpath]
    by_cases honline : d.state = .online
    · rw [if_pos honline]
      exact ⟨fun h => (Option.some_ne_none _ h).elim, fun h => absurd honline h.1.1⟩
    · rw [if_neg honline]
      by_cases hdue : d.nextTry ≤ now
      · have htry : ¬(decide (d.path = []) || decide (now < d.nextTry)) = true := by
          rw [decide_eq_false hpath, decide_eq_false (by omega : ¬now < d.nextTry)]
          exact Bool.false_ne_true
        rw [if_neg htry, tryConnect_none]
        exact ⟨fun h => ⟨⟨honline, hpath, hdue, h.1⟩, h.2⟩, fun h => ⟨h.1.2.2.2, h.2⟩⟩
      · have hskip : (decide (d.path = []) || decide (now < d.nextTry)) = true := by
          rw [decide_eq_true (by omega : now < d.nextTry), Bool.or_true]
        rw [if_pos hskip]
        exact ⟨fun h => (Option.some_ne_none _ h).elim, fun h => absurd h.1.2.2.1 hdue⟩

/-- INTERNAL: **the turn of a device** keeps the invariant. -/
theorem backedOff_pollDev (now : ℤ) (answer : BluezAnswer) (d polled : BluezDev)
    (event : Option HesBleEvent) (h : BackedOff d)
    (hpoll : pollDev now answer d = some (polled, event)) : BackedOff polled := by
  have hfound := h.discoverPath now answer
  unfold pollDev at hpoll
  dsimp only at hpoll
  generalize discoverPath now answer d = found at hpoll hfound
  split at hpoll
  · rename_i honline
    have hnil := hfound.delays_nil (Or.inr honline)
    have hkept := backedOff_watchLink found now answer (hfound.attempt_zero hnil) hnil
    rw [Option.some.inj hpoll] at hkept
    exact hkept
  · split at hpoll
    · cases hpoll
      exact hfound
    · rename_i hready
      have hpath : found.path ≠ [] := by
        intro hnil
        rw [decide_eq_true hnil, Bool.true_or] at hready
        exact hready rfl
      exact backedOff_tryConnect now answer found polled event hfound hpath hpoll

/-! ## The manager -/

/-- The invariant of all devices. -/
def AllBackedOff (m : BluezMgr) : Prop := ∀ d ∈ m.devs, BackedOff d

/-- INTERNAL: **the loop over the devices** is undefined exactly where a turn of it is. -/
theorem pollDevs_none (now : ℤ) (answers : ℕ → BluezAnswer) (i : ℕ) (devs : List BluezDev) :
    pollDevs now answers i devs = none ↔
      ∃ k d, devs[k]? = some d ∧ TriedInVain now (answers (i + k)) d ∧ 30 ≤ d.attempt := by
  induction devs generalizing i with
  | nil =>
    constructor
    · exact fun h => (Option.some_ne_none _ h).elim
    · rintro ⟨k, d, hget, -⟩
      rw [List.getElem?_nil] at hget
      cases hget
  | cons first rest ih =>
    rw [pollDevs]
    have hfirst := pollDev_none now (answers i) first
    cases hpoll : pollDev now (answers i) first with
    | none =>
      refine ⟨fun _ => ⟨0, first, rfl, ?_⟩, fun _ => rfl⟩
      exact hfirst.mp hpoll
    | some turn =>
      have hfine : ¬(TriedInVain now (answers i) first ∧ 30 ≤ first.attempt) := by
        intro h
        rw [hfirst.mpr h] at hpoll
        cases hpoll
      have hrest : (pollDevs now answers (i + 1) rest = none) ↔
          ∃ k d, (first :: rest)[k]? = some d ∧ TriedInVain now (answers (i + k)) d ∧
            30 ≤ d.attempt := by
        rw [ih (i + 1)]
        constructor
        · rintro ⟨k, d, hget, hd⟩
          refine ⟨k + 1, d, hget, ?_⟩
          rwa [← Nat.add_assoc, Nat.add_right_comm]
        · rintro ⟨k, d, hget, hd⟩
          cases k with
          | zero =>
            cases hget
            exact absurd hd hfine
          | succ k =>
            refine ⟨k, d, hget, ?_⟩
            rwa [Nat.add_right_comm, Nat.add_assoc]
      rw [← hrest]
      cases pollDevs now answers (i + 1) rest with
      | none => exact ⟨fun _ => rfl, fun _ => rfl⟩
      | some more =>
        exact ⟨fun h => (Option.some_ne_none _ h).elim, fun h => (Option.some_ne_none _ h).elim⟩

/-- INTERNAL: so does a poll of the devices. -/
theorem backedOff_pollDevs (now : ℤ) (answers : ℕ → BluezAnswer) (i : ℕ) (devs : List BluezDev)
    (polled : List BluezDev × List HesBleEvent) (h : ∀ d ∈ devs, BackedOff d)
    (hpoll : pollDevs now answers i devs = some polled) : ∀ d ∈ polled.1, BackedOff d := by
  induction devs generalizing i polled with
  | nil =>
    cases hpoll
    exact fun d hd => absurd hd List.not_mem_nil
  | cons first rest ih =>
    rw [pollDevs] at hpoll
    simp only [Option.bind_eq_bind, Option.bind_eq_some_iff] at hpoll
    obtain ⟨turn, hturn, more, hmore, heq⟩ := hpoll
    cases heq
    rw [List.forall_mem_cons] at h ⊢
    exact ⟨backedOff_pollDev now (answers i) first turn.1 turn.2 h.1 hturn, ih _ more h.2 hmore⟩

/-- INTERNAL: a device that is added is backed off. -/
theorem allBackedOff_add (m : BluezMgr) (now : ℤ) (deviceIndex : ℕ) (address : Option CStr)
    (h : AllBackedOff m) : AllBackedOff (hesBleMgrAdd m now deviceIndex address) := by
  unfold hesBleMgrAdd
  split
  · exact h
  · split
    · exact h
    · intro d hd
      rcases List.mem_append.mp hd with hd | hd
      · exact h d hd
      · rw [List.mem_singleton.mp hd]
        exact backedOff_of_nil _ rfl rfl

/-- INTERNAL: a change of the properties keeps all backed off. -/
theorem allBackedOff_properties (m : BluezMgr) (objectPath : CStr) (connected : Bool)
    (h : AllBackedOff m) : AllBackedOff (onDeviceProps m objectPath connected) :=
  forall_updateFirst _ _ m.devs BackedOff h fun _ _ hd => ⟨hd.delays, hd.off, hd.waits⟩

/-- INTERNAL: **a step** is undefined exactly where it goes beyond the thirty failures. -/
theorem step_none (m : BluezMgr) (step : BluezStep) : m.step step = none ↔ ¬StepWithin m step := by
  cases step with
  | add now deviceIndex address =>
    exact ⟨fun h => (Option.some_ne_none _ h).elim, fun h => absurd trivial h⟩
  | properties objectPath connected =>
    exact ⟨fun h => (Option.some_ne_none _ h).elim, fun h => absurd trivial h⟩
  | poll now answers max =>
    have hloop := pollDevs_none now answers 0 m.devs
    rw [BluezMgr.step, StepWithin, hesBleMgrPoll]
    cases m.conn with
    | false =>
      exact ⟨fun h => (Option.some_ne_none _ h).elim, fun h => absurd (fun hno => by cases hno) h⟩
    | true =>
      rw [Bool.not_true, if_neg Bool.false_ne_true, Option.map_eq_none_iff, Option.map_eq_none_iff,
        hloop]
      push Not
      constructor
      · rintro ⟨k, d, hget, hvain, hattempt⟩
        rw [Nat.zero_add] at hvain
        exact ⟨rfl, k, d, hget, hvain, hattempt⟩
      · rintro ⟨-, k, d, hget, hvain, hattempt⟩
        refine ⟨k, d, hget, ?_, hattempt⟩
        rwa [Nat.zero_add]

/-- INTERNAL: **a step** keeps the invariant of all devices. -/
theorem allBackedOff_step (m next : BluezMgr) (step : BluezStep) (h : AllBackedOff m)
    (hstep : m.step step = some next) : AllBackedOff next := by
  cases step with
  | add now deviceIndex address =>
    cases hstep
    exact allBackedOff_add m now deviceIndex address h
  | properties objectPath connected =>
    cases hstep
    exact allBackedOff_properties m objectPath connected h
  | poll now answers max =>
    rw [BluezMgr.step, hesBleMgrPoll, Option.map_eq_some_iff] at hstep
    obtain ⟨polled, hpoll, rfl⟩ := hstep
    split at hpoll
    · cases hpoll
      exact h
    · rw [Option.map_eq_some_iff] at hpoll
      obtain ⟨turns, hturns, rfl⟩ := hpoll
      exact backedOff_pollDevs now answers 0 m.devs turns h hturns

/-- INTERNAL: **a run** keeps the invariant of all devices. -/
theorem allBackedOff_run (steps : List BluezStep) (m last : BluezMgr) (h : AllBackedOff m)
    (hrun : m.run steps = some last) : AllBackedOff last := by
  induction steps generalizing m with
  | nil =>
    cases hrun
    exact h
  | cons step steps ih =>
    rw [BluezMgr.run, Option.bind_eq_some_iff] at hrun
    obtain ⟨next, hstep, hrest⟩ := hrun
    exact ih next (allBackedOff_step m next step h hstep) hrest

/-- INTERNAL: **a run** is defined exactly when it is within the thirty failures. -/
theorem run_defined (steps : List BluezStep) (m : BluezMgr) :
    (∃ last, m.run steps = some last) ↔ RunWithin m steps := by
  induction steps generalizing m with
  | nil => exact ⟨fun _ => trivial, fun _ => ⟨m, rfl⟩⟩
  | cons step steps ih =>
    have hnone := step_none m step
    rw [BluezMgr.run, RunWithin]
    cases hstep : m.step step with
    | none =>
      rw [hstep] at hnone
      constructor
      · rintro ⟨last, hlast⟩
        cases hlast
      · exact fun h => absurd h.1 (hnone.mp rfl)
    | some next =>
      have hwithin : StepWithin m step := by
        by_contra hno
        rw [hnone.mpr hno] at hstep
        cases hstep
      rw [Option.bind_some, ih next]
      constructor
      · intro h
        refine ⟨hwithin, fun other hother => ?_⟩
        rwa [← Option.some.inj hother]
      · exact fun h => h.2 next rfl

/-- INTERNAL: the start of a run that is within the bounds is. -/
theorem runWithin_take (steps : List BluezStep) (m : BluezMgr) (k : ℕ) (h : RunWithin m steps) :
    RunWithin m (steps.take k) := by
  induction steps generalizing m k with
  | nil => rwa [List.take_nil]
  | cons step steps ih =>
    cases k with
    | zero => trivial
    | succ k => exact ⟨h.1, fun next hnext => ih next k (h.2 next hnext)⟩

/-- **The back-off** of every run of the manager: after each step every device has waited between
the base and the cap after each of its failures in a row, never less than after the one before,
exactly when no device that has failed thirty times in a row is tried in vain once more.
SRCLINE: hes_ble_bluez.c:455-577 -/
theorem reconnect_backoff (bus : Bool) (steps : List BluezStep) :
    (∀ k, ∃ m, (hesBleMgrInit bus).run (steps.take k) = some m ∧ ∀ d ∈ m.devs, BackoffSane d) ↔
      RunWithin (hesBleMgrInit bus) steps := by
  constructor
  · intro h
    obtain ⟨m, hrun, -⟩ := h steps.length
    rw [List.take_length] at hrun
    exact (run_defined steps _).mp ⟨m, hrun⟩
  · intro h k
    obtain ⟨m, hrun⟩ := (run_defined _ _).mpr (runWithin_take steps _ k h)
    have hkept := allBackedOff_run _ (hesBleMgrInit bus) m (fun d hd => absurd hd List.not_mem_nil)
      hrun
    exact ⟨m, hrun, fun d hd => (hkept d hd).sane⟩

/-- A tag whose path is found at once and that stays away: added, and polled every half minute. -/
def longOutage (failures : ℕ) : List BluezStep :=
  .add 0 7 (some (lit "54:6C:0E:B7:20:04")) ::
    .poll 0 (fun _ => { objectPath := some (lit "/org/bluez/hci0/dev_54_6C_0E_B7_20_04") }) 16 ::
      (List.range failures).map fun k => .poll (30 * (k + 1)) (fun _ => {}) 16

/-- The thirty-first attempt of an outage shifts by thirty-one places. -/
theorem backoff_undefined_after_thirty :
    ((hesBleMgrInit true).run (longOutage 30)).map (fun m => m.devs.map fun d => d.nextTry) =
        some [910] ∧
      (hesBleMgrInit true).run (longOutage 31) = none ∧
      ¬∀ steps : List BluezStep, ∀ k, ∃ m, (hesBleMgrInit true).run (steps.take k) = some m ∧
        ∀ d ∈ m.devs, BackoffSane d := by
  have hundefined : (hesBleMgrInit true).run (longOutage 31) = none := by decide +kernel
  refine ⟨by decide +kernel, hundefined, fun h => ?_⟩
  obtain ⟨m, hrun, -⟩ := h (longOutage 31) (longOutage 31).length
  rw [List.take_length, hundefined] at hrun
  cases hrun

end OpenHes.Analysis
