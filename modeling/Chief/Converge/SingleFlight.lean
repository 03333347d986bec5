/-
Module: Chief.Converge.SingleFlight
Layer: Proofs
Purpose: Which cycles drivers hold along a run, how far apart the store keeps them, and the late end
  that lets a second cycle in.
Trusted boundary: none
Main exports: Flight, Timed.step, EndsOwnCycle, SingleFlight, single_flight, late_end_frees_the_claim
-/
import Chief.Converge.Safety
import Chief.Foundation.Leases

namespace Chief.Converge

open Foundation (Lease)
open Activity (i64Max)

variable {δ : Type}

/-! ### Runs of drivers -/

/-- The store, and the cycles it granted, the latest first. The store itself keeps only the latest
start. -/
structure Flight (δ : Type) where
  ledgers : SafetyLedgers
  cycles : List (Lease δ) := []

/-- A call at its time. -/
structure Timed (δ : Type) where
  command : Command δ
  now : Int

/-- The cycles a call begins or ends: a granted begin takes one, an end gives back those of its own
driver. -/
def cyclesAfter [DecidableEq δ] (flight : Flight δ) (timed : Timed δ) : List (Lease δ) :=
  match timed.command with
  | .beginCycle driver floor =>
      if (beginCycle { flight.ledgers with now := timed.now } floor).1 = .proceed then
        { holder := driver, takenAt := timed.now, floor := floor.val } :: flight.cycles
      else flight.cycles
  | .endCycle driver => flight.cycles.map (Lease.giveBack driver)
  | _ => flight.cycles

/-- One call of a run. -/
def Timed.step [DecidableEq δ] (flight : Flight δ) (timed : Timed δ) : Flight δ :=
  { ledgers := timed.command.run { flight.ledgers with now := timed.now }
    cycles := cyclesAfter flight timed }

/-- The clock never goes back along the calls. -/
def ClockForward (start : Int) (calls : List (Timed δ)) : Prop :=
  (start :: calls.map Timed.now).IsChain (· ≤ ·)

/-- An end comes from the driver of the latest cycle, or finds that cycle ended. -/
def EndsOwnCycle (flight : Flight δ) (timed : Timed δ) : Prop :=
  ∀ driver, timed.command = .endCycle driver →
    ∀ latest ∈ flight.cycles.head?, latest.returned = false → latest.holder = driver

/-- Every end of the run meets the condition where it comes. -/
def EndsOwnCycles [DecidableEq δ] (flight : Flight δ) : List (Timed δ) → Prop
  | [] => True
  | timed :: calls => EndsOwnCycle flight timed ∧ EndsOwnCycles (timed.step flight) calls

/-- The claim on record is that of the latest cycle until its driver ends it. -/
def ClaimHeld (flight : Flight δ) : Prop :=
  ∀ latest ∈ flight.cycles.head?,
    (current flight.ledgers).cycleStartedAtMs = some latest.takenAt ∧
      (latest.returned = false → (current flight.ledgers).cycleInProgress = true)

/-- What single flight promises of the cycles granted so far. -/
structure SingleFlight (flight : Flight δ) : Prop where
  spaced : Lease.Spaced claimStaleMs flight.cycles
  rated : Lease.Rated flight.cycles
  held : ClaimHeld flight

/-! ### One call -/

section Calls

variable {ledgers : SafetyLedgers} {floor : I64}

/-- A difference that saturates is still no less than it seems. -/
theorem le_of_not_saturatingSub_lt {a b bound : Int} (large : i64Min < bound)
    (far : ¬ saturatingSub a b < bound) : b + bound ≤ a := by
  unfold saturatingSub at far
  omega

/-- What a granted begin found and left. -/
theorem beginCycle_proceed (granted : (beginCycle ledgers floor).1 = .proceed) :
    (∀ started, (current ledgers).cycleStartedAtMs = some started →
      ((current ledgers).cycleInProgress = true → started + claimStaleMs ≤ ledgers.now) ∧
        ¬ saturatingSub ledgers.now started < floor.val) ∧
    (current (beginCycle ledgers floor).2).cycleStartedAtMs = some ledgers.now ∧
      (current (beginCycle ledgers floor).2).cycleInProgress = true := by
  unfold beginCycle at granted ⊢
  dsimp only at granted ⊢
  split at granted
  · cases granted
  · rename_i free
    split at granted
    · cases granted
    · rename_i far
      rw [if_neg free, if_neg far, current_put]
      refine ⟨fun started stored => ⟨fun running => ?_, ?_⟩, rfl, rfl⟩
      · have stale : ¬ saturatingSub ledgers.now started < claimStaleMs := by
          simpa [running, claimFresh, stored] using free
        exact le_of_not_saturatingSub_lt (by decide) stale
      · simpa [floorPending, stored] using far

/-- A begin that is not granted leaves the record as it is. -/
theorem beginCycle_skipped (withheld : (beginCycle ledgers floor).1 ≠ .proceed) :
    (beginCycle ledgers floor).2 = ledgers := by
  unfold beginCycle at withheld ⊢
  dsimp only at withheld ⊢
  split
  · rfl
  · rename_i free
    split
    · rfl
    · rename_i far
      rw [if_neg free, if_neg far] at withheld
      exact absurd rfl withheld

/-- Only a begin writes the start, and only a begin and an end write the claim. -/
theorem Command.run_claim {command : Command δ} (neither : ∀ driver floor,
      command ≠ .beginCycle driver floor ∧ command ≠ .endCycle driver) :
    (current (command.run ledgers)).cycleStartedAtMs = (current ledgers).cycleStartedAtMs ∧
      (current (command.run ledgers)).cycleInProgress = (current ledgers).cycleInProgress := by
  cases command with
  | beginCycle driver floor => exact absurd rfl (neither driver floor).1
  | endCycle driver => exact absurd rfl (neither driver ⟨0, by decide⟩).2
  | recordCycleOutcome succeeded =>
      cases succeeded with
      | true => simp [Command.run, recordCycleOutcome_true]
      | false =>
          simp only [Command.run, recordCycleOutcome_false, current_put]
          exact failedCycle_claim _ _
  | setActuationConfig mode sweep override => simp [Command.run, Converge.setActuationConfig]
  | operatorClearBreaker => simp [Command.run, Converge.operatorClearBreaker]
  | recordRefusal kind detail => simp [Command.run, Converge.recordRefusal]

end Calls

/-! ### Along a run -/

/-- What every call keeps: the grants lie in order, the record is about the latest, and no grant lies
in the future. -/
structure Tracked (flight : Flight δ) : Prop where
  orderly : Lease.Orderly claimStaleMs flight.cycles
  held : ClaimHeld flight
  past : ∀ latest ∈ flight.cycles.head?, latest.takenAt ≤ flight.ledgers.now

section Runs

variable [DecidableEq δ] {flight : Flight δ}

theorem Tracked.beginCycle (tracked : Tracked flight) {driver : δ} {floor : I64} {now : Int}
    (forward : flight.ledgers.now ≤ now) :
    Tracked (Timed.step flight { command := .beginCycle driver floor, now := now }) := by
  have reached : ∀ latest ∈ flight.cycles.head?, latest.takenAt ≤ now := by
    intro latest here
    exact Int.le_trans (tracked.past latest here) forward
  by_cases granted :
      (Converge.beginCycle { flight.ledgers with now := now } floor).1 = .proceed
  · have found := beginCycle_proceed granted
    obtain ⟨before, started, running⟩ := found
    have taken : cyclesAfter flight { command := .beginCycle driver floor, now := now } =
        { holder := driver, takenAt := now, floor := floor.val } :: flight.cycles := by
      simp only [cyclesAfter, if_pos granted]
    constructor
    · rw [Timed.step, taken]
      refine tracked.orderly.take reached (fun latest here out => ?_) (fun latest here => ?_)
      · obtain ⟨stamped, held⟩ := tracked.held latest here
        exact (before _ stamped).1 (held out)
      · obtain ⟨stamped, _⟩ := tracked.held latest here
        have known : latest.takenAt ≤ now := reached latest here
        have far : ¬ saturatingSub now latest.takenAt < floor.val := (before _ stamped).2
        have bounds := floor.property
        unfold saturatingSub at far
        show latest.takenAt + floor.val ≤ now
        have low : i64Min ≤ 0 := by decide
        omega
    · intro latest here
      rw [Timed.step, taken] at here
      obtain rfl := Option.some.inj here
      exact ⟨started, fun _ => running⟩
    · intro latest here
      rw [Timed.step, taken] at here
      obtain rfl := Option.some.inj here
      simp only [Timed.step, Command.run_now]
      exact Int.le_refl now
  · have same : cyclesAfter flight { command := .beginCycle driver floor, now := now } =
        flight.cycles := by
      simp only [cyclesAfter, if_neg granted]
    have record : (Command.beginCycle driver floor).run { flight.ledgers with now := now } =
        { flight.ledgers with now := now } := beginCycle_skipped granted
    constructor
    · rw [Timed.step, same]
      exact tracked.orderly
    · intro latest here
      rw [Timed.step, same] at here
      simp only [Timed.step, record, current_withNow]
      exact tracked.held latest here
    · intro latest here
      rw [Timed.step, same] at here
      simp only [Timed.step, record]
      exact reached latest here

theorem Tracked.endCycle (tracked : Tracked flight) {driver : δ} {now : Int}
    (forward : flight.ledgers.now ≤ now)
    (own : ∀ latest ∈ flight.cycles.head?, latest.returned = false → latest.holder = driver) :
    Tracked (Timed.step flight { command := .endCycle driver, now := now }) := by
  have heads : ∀ latest ∈ (flight.cycles.map (Lease.giveBack driver)).head?,
      ∃ before ∈ flight.cycles.head?, latest = Lease.giveBack driver before := by
    intro latest here
    rw [List.head?_map] at here
    obtain ⟨before, found, rfl⟩ := Option.map_eq_some_iff.mp here
    exact ⟨before, found, rfl⟩
  constructor
  · exact tracked.orderly.giveBack driver
  · intro latest here
    obtain ⟨before, found, rfl⟩ := heads latest here
    obtain ⟨stamped, _⟩ := tracked.held before found
    constructor
    · rw [Lease.giveBack_takenAt, ← stamped]
      simp [Timed.step, Command.run, Converge.endCycle]
    · intro out
      obtain ⟨kept, other⟩ := Lease.giveBack_returned.mp out
      exact absurd (own before found kept) other
  · intro latest here
    obtain ⟨before, found, rfl⟩ := heads latest here
    rw [Lease.giveBack_takenAt]
    exact Int.le_trans (tracked.past before found) forward

theorem Tracked.step (tracked : Tracked flight) {timed : Timed δ}
    (forward : flight.ledgers.now ≤ timed.now) (own : EndsOwnCycle flight timed) :
    Tracked (timed.step flight) := by
  obtain ⟨command, now⟩ := timed
  have elsewhere : (∀ driver floor, command ≠ .beginCycle driver floor ∧
      command ≠ .endCycle driver) → cyclesAfter flight { command := command, now := now } =
        flight.cycles → Tracked (Timed.step flight { command := command, now := now }) := by
    intro neither same
    have unwritten : (current (command.run { flight.ledgers with now := now })).cycleStartedAtMs =
          (current flight.ledgers).cycleStartedAtMs ∧
        (current (command.run { flight.ledgers with now := now })).cycleInProgress =
          (current flight.ledgers).cycleInProgress := Command.run_claim neither
    obtain ⟨stamped, claimed⟩ := unwritten
    constructor
    · rw [Timed.step, same]
      exact tracked.orderly
    · intro latest here
      rw [Timed.step, same] at here
      simp only [Timed.step, stamped, claimed]
      exact tracked.held latest here
    · intro latest here
      rw [Timed.step, same] at here
      simp only [Timed.step, Command.run_now]
      exact Int.le_trans (tracked.past latest here) forward
  cases command with
  | beginCycle driver floor => exact tracked.beginCycle forward
  | endCycle driver => exact tracked.endCycle forward (own driver rfl)
  | recordCycleOutcome succeeded => exact elsewhere (by simp) rfl
  | setActuationConfig mode sweep override => exact elsewhere (by simp) rfl
  | operatorClearBreaker => exact elsewhere (by simp) rfl
  | recordRefusal kind detail => exact elsewhere (by simp) rfl

theorem Tracked.run {calls : List (Timed δ)} (tracked : Tracked flight)
    (forward : ClockForward flight.ledgers.now calls) (own : EndsOwnCycles flight calls) :
    Tracked (calls.foldl Timed.step flight) := by
  induction calls generalizing flight with
  | nil => exact tracked
  | cons timed calls inductionHypothesis =>
      obtain ⟨first, later⟩ := List.isChain_cons_cons.mp forward
      refine inductionHypothesis (tracked.step first own.1) ?_ own.2
      have reached : (timed.step flight).ledgers.now = timed.now := Command.run_now _
      rw [ClockForward, reached]
      exact later

/-- As long as nobody ends a cycle that another driver has taken over, cycles that are both under way
lie a stale limit apart, every grant keeps its floor from the one before, and the claim on record is
the latest driver's until that driver ends it. -/
theorem single_flight {calls : List (Timed δ)} {start : SafetyLedgers}
    (forward : ClockForward start.now calls)
    (own : EndsOwnCycles { ledgers := start } calls) :
    SingleFlight (calls.foldl Timed.step { ledgers := start }) := by
  have begun : Tracked ({ ledgers := start } : Flight δ) :=
    by
    constructor
    · exact .nil
    · intro latest impossible
      cases impossible
    · intro latest impossible
      cases impossible
  have tracked := begun.run forward own
  exact ⟨tracked.orderly.spaced, tracked.orderly.rated, tracked.held⟩

end Runs

/-- A driver that stalls, the driver that takes its claim over and ends its own cycle, and a third. -/
def takenOver : List (Timed String) :=
  [{ command := .beginCycle "first" ⟨0, by decide⟩, now := 0 },
    { command := .beginCycle "second" ⟨0, by decide⟩, now := 600000 },
    { command := .endCycle "second", now := 600001 },
    { command := .beginCycle "third" ⟨0, by decide⟩, now := 600002 }]

theorem single_flight_taken_over :
    SingleFlight (takenOver.foldl Timed.step { ledgers := { now := 0 } }) :=
  single_flight (by simp [ClockForward, takenOver]) (by
    simp only [takenOver, EndsOwnCycles]
    refine ⟨by simp [EndsOwnCycle], by simp [EndsOwnCycle], ?_, by simp [EndsOwnCycle], trivial⟩
    rintro driver same latest here _
    cases same
    have found : (Timed.step (Timed.step { ledgers := { now := 0 } }
        { command := .beginCycle "first" ⟨0, by decide⟩, now := 0 })
        { command := .beginCycle "second" ⟨0, by decide⟩, now := 600000 }).cycles.head?.map
          Lease.holder = some "second" := by decide
    rw [Option.mem_def.mp here] at found
    exact Option.some.inj found)

/-- The same drivers, but the first ends its cycle late, after the second has taken its claim over. -/
def lateEnd : List (Timed String) :=
  [{ command := .beginCycle "first" ⟨0, by decide⟩, now := 0 },
    { command := .beginCycle "second" ⟨0, by decide⟩, now := 600000 },
    { command := .endCycle "first", now := 600001 },
    { command := .beginCycle "third" ⟨0, by decide⟩, now := 600002 }]

/-- The late end frees the claim of the second driver, and a third cycle starts beside its own. -/
theorem late_end_frees_the_claim :
    ¬ ∀ (calls : List (Timed String)) (start : SafetyLedgers), ClockForward start.now calls →
      SingleFlight (calls.foldl Timed.step { ledgers := start }) := by
  intro always
  have flight := always lateEnd { now := 0 } (by simp [ClockForward, lateEnd])
  have cycles : (lateEnd.foldl Timed.step { ledgers := { now := 0 } }).cycles =
      [{ holder := "third", takenAt := 600002, floor := 0 },
        { holder := "second", takenAt := 600000, floor := 0 },
        { holder := "first", takenAt := 0, floor := 0, returned := true }] := by
    decide
  have spaced := flight.spaced
  rw [cycles] at spaced
  have close := (List.pairwise_cons.mp spaced).1 _ (List.mem_cons_self) rfl rfl
  exact absurd close (by decide)

end Chief.Converge
