/-
Module: Chief.Converge.Safety
Layer: Model
Purpose: The safety record that gates the reconcile pipeline: actuation mode, circuit breaker and the
  single-flight claim of an apply cycle.
Trusted boundary: human-reviewed translation
Main exports: ConvergeSafetyState, SafetyConfig, effectiveConfig, SafetyLedgers, read, current,
  recordCycleOutcome, operatorClearBreaker, setActuationConfig, beginCycle, endCycle, Command
-/
import Chief.Ledgers
import Chief.Supervision.Mutate

namespace Chief.Converge

open Activity (i64Max)
open Supervision (saturatingCount)

/-! ### Constants -/

def storeName : String := "converge-safety"
def convergeSafetySchemaVersion : Nat := 1

/-- Consecutive failed apply cycles that trip the breaker. -/
def breakerTripThreshold : Nat := 3

/-- How long a claim is honoured before it counts as crash residue. -/
def claimStaleMs : Int := 600000

/-- The smallest `i64`. -/
def i64Min : Int := -2 ^ 63

/-- The source's `i64`. -/
abbrev I64 := { value : Int // i64Min ≤ value ∧ value ≤ i64Max }

/-- `i64::saturating_sub`. -/
def saturatingSub (a b : Int) : Int := max i64Min (min (a - b) i64Max)

/-! ### The record -/

/-- Whether the reconcile pipeline may actuate against the host. -/
inductive ActuationMode where
  | shadow
  | apply
deriving DecidableEq, Repr

/-- The configuration in force, the breaker already folded in. -/
structure SafetyConfig where
  actuationMode : ActuationMode
  sweepLive : Bool
  budgetOverrideActive : Bool
deriving DecidableEq, Repr

/-- What one cycle outcome did to the breaker. -/
inductive BreakerAction where
  | continues
  | tripped
deriving DecidableEq, Repr

/-- Why a cycle was withheld. -/
inductive SkipReason where
  | alreadyRunning
  | floorNotElapsed
deriving DecidableEq, Repr

/-- Whether a cycle may start. -/
inductive CycleGate where
  | proceed
  | skipped (reason : SkipReason)
deriving DecidableEq, Repr

/-- A recorded refusal or trip. -/
structure RefusalRecord where
  kind : String
  detail : String
  recordedAt : String
deriving DecidableEq, Repr

/-- The durable safety state of one company. -/
structure ConvergeSafetyState where
  schemaVersion : Nat := convergeSafetySchemaVersion
  actuationMode : ActuationMode := .shadow
  sweepLive : Bool := false
  budgetOverride : Bool := false
  consecutiveFailures : Nat := 0
  breakerTripped : Bool := false
  breakerTrippedAt : Option String := none
  cycleInProgress : Bool := false
  cycleStartedAtMs : Option Int := none
  lastRefusal : Option RefusalRecord := none
deriving DecidableEq, Repr

namespace ConvergeSafetyState

/-- What a company nobody has configured reads as. -/
def defaultShadow : ConvergeSafetyState := {}

/-- The fully conservative value: a gate that reads it actuates nothing. -/
def restrictive : ConvergeSafetyState :=
  { consecutiveFailures := breakerTripThreshold
    breakerTripped := true }

/-- The configuration in force. A tripped breaker forces shadow and stops the live sweep. -/
def effectiveConfig (state : ConvergeSafetyState) : SafetyConfig :=
  { actuationMode := if state.breakerTripped then .shadow else state.actuationMode
    sweepLive := state.sweepLive && !state.breakerTripped
    budgetOverrideActive := state.budgetOverride }

end ConvergeSafetyState

/-! ### Reading and writing -/

/-- What this store reads and writes of a working set. -/
structure SafetyLedgers where
  now : Int
  body : Option (DocumentBody ConvergeSafetyState) := none
deriving DecidableEq

/-- How a body came to be: decoded, recovered from unreadable bytes, or never written. -/
inductive Decoded where
  | value (body : ConvergeSafetyState)
  | recoveredRestrictive (body : ConvergeSafetyState) (warning : String)
  | absent (body : ConvergeSafetyState)
deriving DecidableEq, Repr

/-- The body every reader gets, and the warning that goes with it. -/
def Decoded.intoParts : Decoded → ConvergeSafetyState × Option String
  | .value body => (body, none)
  | .recoveredRestrictive body warning => (body, some warning)
  | .absent body => (body, none)

/-- Parse a stored body. The decoder's own words about bytes it cannot read are not modelled. -/
def parse (body : DocumentBody ConvergeSafetyState) : Except String ConvergeSafetyState :=
  match body with
  | .undecodable => .error "the body did not decode"
  | .decoded state =>
      if state.schemaVersion ≠ convergeSafetySchemaVersion then
        .error s!"the body is schema version {state.schemaVersion}, not {convergeSafetySchemaVersion}"
      else .ok state

/-- Unreadable bytes read as the restrictive value. -/
def decodeFailSafeValue (parsed : Except String ConvergeSafetyState) : Decoded :=
  match parsed with
  | .ok body => .value body
  | .error cause =>
      .recoveredRestrictive .restrictive
        s!"store {storeName} was unreadable ({cause}); applying the restrictive value"

/-- Read the safety state. Every failure is still a state. -/
def read (ledgers : SafetyLedgers) : Decoded :=
  match ledgers.body with
  | none => .absent .defaultShadow
  | some body => decodeFailSafeValue (parse body)

/-- The state a mutator reads, changes and writes back. -/
def current (ledgers : SafetyLedgers) : ConvergeSafetyState := (read ledgers).intoParts.1

/-- Persist a state under this schema version. -/
def put (ledgers : SafetyLedgers) (state : ConvergeSafetyState) :
    ConvergeSafetyState × SafetyLedgers :=
  let stamped := { state with schemaVersion := convergeSafetySchemaVersion }
  (stamped, { ledgers with body := some (.decoded stamped) })

/-- Drop the state, and say whether there was one. -/
def clear (ledgers : SafetyLedgers) : Bool × SafetyLedgers :=
  (ledgers.body.isSome, { ledgers with body := none })

/-! ### The breaker -/

/-- Set the configuration, and resume the breaker. -/
def setActuationConfig (ledgers : SafetyLedgers) (mode : ActuationMode)
    (sweepLive budgetOverride : Bool) : ConvergeSafetyState × SafetyLedgers :=
  put ledgers { current ledgers with
    actuationMode := mode
    sweepLive := sweepLive
    budgetOverride := budgetOverride
    consecutiveFailures := 0
    breakerTripped := false
    breakerTrippedAt := none }

/-- The state a failed cycle leaves, and whether that failure tripped the breaker. -/
def failedCycle (state : ConvergeSafetyState) (stamp : String) : Bool × ConvergeSafetyState :=
  let failures := saturatingCount state.consecutiveFailures
  let counted := { state with consecutiveFailures := failures }
  if breakerTripThreshold ≤ failures ∧ state.breakerTripped = false then
    (true, { counted with
      breakerTripped := true
      breakerTrippedAt := some stamp
      lastRefusal := some {
        kind := "circuit-breaker"
        detail := s!"{failures} consecutive apply-cycle failures; company dropped to shadow"
        recordedAt := stamp } })
  else (false, counted)

/-- Fold one cycle outcome into the breaker. -/
def recordCycleOutcome (ledgers : SafetyLedgers) (cycleSucceeded : Bool) :
    BreakerAction × SafetyLedgers :=
  let state := current ledgers
  if cycleSucceeded then
    (.continues, (put ledgers { state with consecutiveFailures := 0 }).2)
  else
    let (newlyTripped, failed) := failedCycle state (isoMillis ledgers.now)
    (if newlyTripped then .tripped else .continues, (put ledgers failed).2)

/-- The operator's acknowledgement that resumes a tripped breaker. -/
def operatorClearBreaker (ledgers : SafetyLedgers) : ConvergeSafetyState × SafetyLedgers :=
  put ledgers { current ledgers with
    consecutiveFailures := 0
    breakerTripped := false
    breakerTrippedAt := none }

/-- Record a refusal for audit. -/
def recordRefusal (ledgers : SafetyLedgers) (kind detail : String) :
    ConvergeSafetyState × SafetyLedgers :=
  put ledgers { current ledgers with
    lastRefusal := some { kind := kind, detail := detail, recordedAt := isoMillis ledgers.now } }

/-! ### The claim -/

/-- Whether the claim on record still counts at `now`. One without a start never runs out. -/
def claimFresh (state : ConvergeSafetyState) (now : Int) : Bool :=
  match state.cycleStartedAtMs with
  | none => true
  | some started => saturatingSub now started < claimStaleMs

/-- Whether the last start lies closer than the floor. -/
def floorPending (state : ConvergeSafetyState) (now : Int) (floorIntervalMs : I64) : Bool :=
  match state.cycleStartedAtMs with
  | none => false
  | some started => saturatingSub now started < floorIntervalMs.val

/-- Take the single-flight claim for one apply cycle. -/
def beginCycle (ledgers : SafetyLedgers) (floorIntervalMs : I64) : CycleGate × SafetyLedgers :=
  let now := ledgers.now
  let state := current ledgers
  if state.cycleInProgress ∧ claimFresh state now then (.skipped .alreadyRunning, ledgers)
  else if floorPending state now floorIntervalMs then (.skipped .floorNotElapsed, ledgers)
  else
    (.proceed,
      (put ledgers { state with cycleInProgress := true, cycleStartedAtMs := some now }).2)

/-- Release the claim. The start stays on record. -/
def endCycle (ledgers : SafetyLedgers) : ConvergeSafetyState × SafetyLedgers :=
  put ledgers { current ledgers with cycleInProgress := false }

/-! ### The calls -/

/-- What drivers and operators ask of the store. `beginCycle` and `endCycle` are called by a driver, of
which the store learns nothing. -/
inductive Command (δ : Type) where
  | beginCycle (driver : δ) (floorIntervalMs : I64)
  | endCycle (driver : δ)
  | recordCycleOutcome (cycleSucceeded : Bool)
  | setActuationConfig (mode : ActuationMode) (sweepLive budgetOverride : Bool)
  | operatorClearBreaker
  | recordRefusal (kind detail : String)
deriving DecidableEq

/-- What a call leaves. -/
def Command.run {δ : Type} (command : Command δ) (ledgers : SafetyLedgers) : SafetyLedgers :=
  match command with
  | .beginCycle _ floor => (Converge.beginCycle ledgers floor).2
  | .endCycle _ => (Converge.endCycle ledgers).2
  | .recordCycleOutcome succeeded => (Converge.recordCycleOutcome ledgers succeeded).2
  | .setActuationConfig mode sweep override =>
      (Converge.setActuationConfig ledgers mode sweep override).2
  | .operatorClearBreaker => (Converge.operatorClearBreaker ledgers).2
  | .recordRefusal kind detail => (Converge.recordRefusal ledgers kind detail).2

/-! ### What a call reads back -/

section Reading

variable {ledgers : SafetyLedgers}

/-- A state just written reads back, under this schema version. -/
@[simp] theorem current_put (state : ConvergeSafetyState) : current (put ledgers state).2 =
    { state with schemaVersion := convergeSafetySchemaVersion } := by
  simp [current, read, put, parse, decodeFailSafeValue, Decoded.intoParts]

@[simp] theorem put_now (state : ConvergeSafetyState) : (put ledgers state).2.now = ledgers.now :=
  rfl

/-- The clock of the working set plays no part in reading. -/
@[simp] theorem current_withNow (now : Int) : current { ledgers with now := now } =
    current ledgers := rfl

/-- Bytes that do not parse read as the restrictive value. -/
theorem current_of_unreadable {body : DocumentBody ConvergeSafetyState} {cause : String}
    (stored : ledgers.body = some body) (refused : parse body = .error cause) :
    current ledgers = .restrictive := by
  rw [current, read, stored]
  simp only [decodeFailSafeValue, refused, Decoded.intoParts]

/-- A recorded success writes only the counter. -/
theorem recordCycleOutcome_true : recordCycleOutcome ledgers true =
    (.continues, (put ledgers { current ledgers with consecutiveFailures := 0 }).2) := rfl

/-- What a recorded failure answers and writes. -/
theorem recordCycleOutcome_false : recordCycleOutcome ledgers false =
    (if (failedCycle (current ledgers) (isoMillis ledgers.now)).1 then .tripped else .continues,
      (put ledgers (failedCycle (current ledgers) (isoMillis ledgers.now)).2).2) := rfl

/-- A failed cycle leaves the claim alone. -/
theorem failedCycle_claim (state : ConvergeSafetyState) (stamp : String) :
    (failedCycle state stamp).2.cycleStartedAtMs = state.cycleStartedAtMs ∧
      (failedCycle state stamp).2.cycleInProgress = state.cycleInProgress := by
  unfold failedCycle
  dsimp only
  split <;> exact ⟨rfl, rfl⟩

/-- Every call leaves the clock alone. -/
@[simp] theorem Command.run_now {δ : Type} (command : Command δ) :
    (command.run ledgers).now = ledgers.now := by
  cases command with
  | beginCycle driver floor =>
      simp only [Command.run, Converge.beginCycle]
      split
      · rfl
      · split <;> rfl
  | endCycle driver => rfl
  | recordCycleOutcome succeeded => cases succeeded <;> rfl
  | setActuationConfig mode sweep override => rfl
  | operatorClearBreaker => rfl
  | recordRefusal kind detail => rfl

end Reading

end Chief.Converge
