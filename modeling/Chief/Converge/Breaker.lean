/-
Module: Chief.Converge.Breaker
Layer: Proofs
Purpose: The safety record as a circuit breaker: every call, and every loss of the stored bytes, is one
  signal of it, and what that promises along any run.
Trusted boundary: none
Main exports: Event, breakerOf, breakerOf_run, BreakerLaw, breaker_law
-/
import Chief.Converge.Safety
import Chief.Foundation.CircuitBreaker

namespace Chief.Converge

open Foundation

variable {δ : Type}

/-! ### Runs -/

/-- Bytes the store cannot parse. -/
abbrev UnreadableBody :=
  { body : DocumentBody ConvergeSafetyState // (parse body).toOption = none }

/-- What may happen to the record: a call, the loss of its bytes, or its deletion. -/
inductive Event (δ : Type) where
  | call (command : Command δ) (now : Int)
  | damage (body : UnreadableBody)
  | clear

def Event.run (ledgers : SafetyLedgers) : Event δ → SafetyLedgers
  | .call command now => command.run { ledgers with now := now }
  | .damage body => { ledgers with body := some body.val }
  | .clear => (Converge.clear ledgers).2

/-- Where a run leads a company that has no record yet. -/
def reached (founded : Int) (events : List (Event δ)) : SafetyLedgers :=
  events.foldl Event.run { now := founded }

/-- The event records an outcome, and is answered that the breaker tripped. -/
def AnswersTripped (ledgers : SafetyLedgers) (event : Event δ) : Prop :=
  ∃ succeeded now, event = .call (.recordCycleOutcome succeeded) now ∧
    (recordCycleOutcome { ledgers with now := now } succeeded).1 = .tripped

/-! ### The breaker behind the record -/

/-- The record as a breaker. -/
def breakerOf (state : ConvergeSafetyState) : CircuitBreaker ActuationMode :=
  if state.breakerTripped then .tripped state.actuationMode
  else .counting state.actuationMode state.consecutiveFailures

/-- What an event is to the breaker. -/
def Event.signal : Event δ → Signal ActuationMode
  | .call (.recordCycleOutcome succeeded) _ => if succeeded then .success else .failure
  | .call (.setActuationConfig mode _ _) _ => .configure mode
  | .call .operatorClearBreaker _ => .resume
  | .call _ _ => .other
  | .damage _ => .damage
  | .clear => .drop

/-- One signal of this breaker. -/
abbrev signalled : CircuitBreaker ActuationMode → Signal ActuationMode →
    CircuitBreaker ActuationMode :=
  CircuitBreaker.after .shadow breakerTripThreshold

section Steps

variable {ledgers : SafetyLedgers} {state : ConvergeSafetyState} {stamp : String}

theorem breakerOf_congr {other : ConvergeSafetyState}
    (tripped : other.breakerTripped = state.breakerTripped)
    (mode : other.actuationMode = state.actuationMode)
    (failures : other.consecutiveFailures = state.consecutiveFailures) :
    breakerOf other = breakerOf state := by
  unfold breakerOf
  rw [tripped, mode, failures]

@[simp] theorem isTripped_breakerOf : (breakerOf state).isTripped = state.breakerTripped := by
  unfold breakerOf
  cases state.breakerTripped <;> rfl

/-- The effective mode is the mode in force of the breaker. -/
theorem inForce_breakerOf :
    (breakerOf state).inForce .shadow = state.effectiveConfig.actuationMode := by
  unfold breakerOf ConvergeSafetyState.effectiveConfig
  cases state.breakerTripped <;> rfl

theorem breakerOf_success : breakerOf { state with consecutiveFailures := 0 } =
    signalled (breakerOf state) .success := by
  unfold breakerOf
  cases state.breakerTripped <;> rfl

/-- A failure trips the record exactly when it trips the breaker. -/
theorem failedCycle_breaker : breakerOf (failedCycle state stamp).2 =
      signalled (breakerOf state) .failure ∧
    (failedCycle state stamp).1 = (!state.breakerTripped &&
      (signalled (breakerOf state) .failure).isTripped) := by
  unfold failedCycle breakerOf signalled
  cases tripped : state.breakerTripped with
  | true => simp [CircuitBreaker.after, CircuitBreaker.isTripped]
  | false =>
      by_cases limit : breakerTripThreshold ≤ state.consecutiveFailures + 1
      · have saturated : breakerTripThreshold ≤
            Supervision.saturatingCount state.consecutiveFailures := by
          simp only [Supervision.saturatingCount, Supervision.u32Max, breakerTripThreshold]
            at limit ⊢
          omega
        simp [CircuitBreaker.after, CircuitBreaker.isTripped, limit, saturated]
      · have counted : Supervision.saturatingCount state.consecutiveFailures =
            state.consecutiveFailures + 1 := by
          simp only [Supervision.saturatingCount, Supervision.u32Max, breakerTripThreshold]
            at limit ⊢
          omega
        simp [CircuitBreaker.after, CircuitBreaker.isTripped, limit, counted]

/-- A begin writes nothing of the breaker. -/
theorem breakerOf_beginCycle (floor : I64) :
    breakerOf (current (beginCycle ledgers floor).2) = breakerOf (current ledgers) := by
  unfold beginCycle
  dsimp only
  split
  · rfl
  · split
    · rfl
    · rw [current_put]
      exact breakerOf_congr rfl rfl rfl

/-- Every event is its signal of the breaker. -/
theorem breakerOf_run (event : Event δ) : breakerOf (current (event.run ledgers)) =
    signalled (breakerOf (current ledgers)) event.signal := by
  cases event with
  | damage body =>
      obtain ⟨body, refused⟩ := body
      have restrictive : current { ledgers with body := some body } = .restrictive := by
        cases parsed : parse body with
        | ok state =>
            rw [parsed] at refused
            cases refused
        | error cause => exact current_of_unreadable rfl parsed
      exact congrArg breakerOf restrictive
  | clear => rfl
  | call command now =>
      cases command with
      | beginCycle driver floor => exact breakerOf_beginCycle floor
      | endCycle driver =>
          simp only [Event.run, Command.run, endCycle, current_put]
          exact breakerOf_congr rfl rfl rfl
      | recordCycleOutcome succeeded =>
          cases succeeded with
          | true =>
              simp only [Event.run, Command.run, recordCycleOutcome_true, current_put]
              exact breakerOf_success
          | false =>
              simp only [Event.run, Command.run, recordCycleOutcome_false, current_put]
              exact failedCycle_breaker.1
      | setActuationConfig mode sweep override =>
          simp only [Event.run, Command.run, setActuationConfig, current_put]
          rfl
      | operatorClearBreaker =>
          simp only [Event.run, Command.run, operatorClearBreaker, current_put, current_withNow]
          unfold breakerOf
          cases (current ledgers).breakerTripped <;> rfl
      | recordRefusal kind detail =>
          simp only [Event.run, Command.run, recordRefusal, current_put]
          exact breakerOf_congr rfl rfl rfl

theorem breakerTripped_run (event : Event δ) : (current (event.run ledgers)).breakerTripped =
    (signalled (breakerOf (current ledgers)) event.signal).isTripped := by
  rw [← breakerOf_run, isTripped_breakerOf]

/-- An event is answered that the breaker tripped exactly when it trips the breaker. -/
theorem answersTripped_iff (event : Event δ) : AnswersTripped ledgers event ↔
    (breakerOf (current ledgers)).trips .shadow breakerTripThreshold event.signal := by
  have spec : ∀ stamp, (failedCycle (current ledgers) stamp).1 =
      (!(current ledgers).breakerTripped &&
        (signalled (breakerOf (current ledgers)) .failure).isTripped) :=
    fun stamp => failedCycle_breaker.2
  constructor
  · rintro ⟨succeeded, now, rfl, answered⟩
    cases succeeded with
    | true => cases answered
    | false =>
        rw [recordCycleOutcome_false] at answered
        have tripping : (failedCycle (current ledgers) (isoMillis now)).1 = true := by
          by_contra quiet
          simp only [current_withNow, quiet] at answered
          cases answered
        rw [spec, Bool.and_eq_true, Bool.not_eq_true'] at tripping
        exact ⟨rfl, isTripped_breakerOf.trans tripping.1, tripping.2⟩
  · rintro ⟨failure, counting, tripping⟩
    rw [isTripped_breakerOf] at counting
    have failing : ∃ now, event = .call (.recordCycleOutcome false) now := by
      unfold Event.signal at failure
      split at failure
      · rename_i succeeded now
        cases succeeded with
        | true => cases failure
        | false => exact ⟨now, rfl⟩
      all_goals cases failure
    obtain ⟨now, rfl⟩ := failing
    refine ⟨false, now, rfl, ?_⟩
    have tripped : (failedCycle (current ledgers) (isoMillis now)).1 = true := by
      rw [spec, counting]
      exact tripping
    rw [recordCycleOutcome_false]
    simp only [current_withNow, tripped, if_true]

end Steps

/-! ### Along a run -/

section Runs

variable {founded : Int}

/-- The signals of a run. -/
abbrev signals (events : List (Event δ)) : List (Signal ActuationMode) := events.map Event.signal

theorem breakerOf_foldl (events : List (Event δ)) (ledgers : SafetyLedgers) :
    breakerOf (current (events.foldl Event.run ledgers)) =
      (signals events).foldl signalled (breakerOf (current ledgers)) := by
  induction events generalizing ledgers with
  | nil => rfl
  | cons event events inductionHypothesis =>
      rw [List.foldl_cons, inductionHypothesis, breakerOf_run]
      rfl

/-- A company's record is the breaker its run leads to, from one that counts nothing in shadow. -/
theorem breakerOf_reached (events : List (Event δ)) :
    breakerOf (current (reached founded events)) =
      (signals events).foldl signalled (.counting .shadow 0) :=
  breakerOf_foldl events { now := founded }

/-- What the breaker promises of the run `events` of a company founded at `founded`. -/
structure BreakerLaw (founded : Int) (events : List (Event δ)) : Prop where
  /-- Apply is in force only after fewer failures in a row than the threshold. -/
  applies : (current (reached founded events)).effectiveConfig.actuationMode = .apply →
    failuresSince (signals events) < breakerTripThreshold
  /-- The tripped answer is the answer to the failure that trips the breaker, the threshold-th. -/
  answered : ∀ past event later, events = past ++ event :: later →
    (AnswersTripped (reached founded past) event ↔ event.signal = .failure ∧
      (current (reached founded past)).breakerTripped = false ∧
        (current (reached founded (past ++ [event]))).breakerTripped = true) ∧
    (AnswersTripped (reached founded past) event ↔ event.signal = .failure ∧
      (current (reached founded past)).breakerTripped = false ∧
        failuresSince (signals past) + 1 = breakerTripThreshold)
  /-- Between two tripped answers an operator has resumed the breaker. -/
  once : ∀ past first between second later,
    events = past ++ first :: (between ++ second :: later) →
    AnswersTripped (reached founded past) first →
    AnswersTripped (reached founded (past ++ first :: between)) second →
    ∃ event ∈ between, event.signal.resumes = true
  /-- Nothing but an operator's resumption un-trips the breaker, and a success is none. -/
  stays : ∀ past event later, events = past ++ event :: later → event.signal.resumes = false →
    (current (reached founded past)).breakerTripped = true →
      (current (reached founded (past ++ [event]))).breakerTripped = true
  /-- After unreadable bytes nothing leads to apply but an operator who configures it. -/
  damaged : ∀ past body later, events = past ++ .damage body :: later →
    (∀ event ∈ later, ∀ mode, event.signal = .configure mode → mode = .shadow) →
      (current (reached founded events)).effectiveConfig.actuationMode = .shadow

theorem reached_append (past later : List (Event δ)) :
    reached founded (past ++ later) = later.foldl Event.run (reached founded past) :=
  List.foldl_append

/-- A breaker that counts has counted the failures of its run. -/
theorem counting_reached (events : List (Event δ))
    (counting : (current (reached founded events)).breakerTripped = false) :
    (current (reached founded events)).consecutiveFailures = failuresSince (signals events) ∧
      failuresSince (signals events) < breakerTripThreshold := by
  have here : breakerOf (current (reached founded events)) =
      (signals events).foldl signalled (.counting .shadow 0) := breakerOf_reached events
  rw [breakerOf, counting] at here
  obtain ⟨known, below⟩ := CircuitBreaker.counting_run (by decide) _ here.symm
  exact ⟨known, known ▸ below⟩

/-- A tripped answer comes with the failure that completes the threshold. -/
theorem trips_reached (past : List (Event δ)) (event : Event δ) :
    AnswersTripped (reached founded past) event ↔ event.signal = .failure ∧
      (current (reached founded past)).breakerTripped = false ∧
        failuresSince (signals past) + 1 = breakerTripThreshold := by
  rw [answersTripped_iff, CircuitBreaker.trips, isTripped_breakerOf]
  refine and_congr_right fun failure => and_congr_right fun counting => ?_
  obtain ⟨known, below⟩ := counting_reached past counting
  rw [failure, breakerOf, counting]
  simp only [Bool.false_eq_true, if_false, CircuitBreaker.after, known]
  by_cases limit : breakerTripThreshold ≤ failuresSince (signals past) + 1
  · rw [if_pos limit]
    exact ⟨fun _ => by omega, fun _ => rfl⟩
  · rw [if_neg limit]
    constructor
    · intro impossible
      cases impossible
    · intro complete
      exact absurd (Nat.le_of_eq complete.symm) limit

/-- Every run of a company obeys the breaker. -/
theorem breaker_law (founded : Int) (events : List (Event δ)) : BreakerLaw founded events where
  applies := by
    intro apply
    have counting : (current (reached founded events)).breakerTripped = false := by
      by_contra tripped
      rw [Bool.not_eq_false] at tripped
      rw [ConvergeSafetyState.effectiveConfig, tripped] at apply
      cases apply
    exact (counting_reached events counting).2
  answered := by
    rintro past event later rfl
    refine ⟨?_, trips_reached past event⟩
    rw [answersTripped_iff, CircuitBreaker.trips, isTripped_breakerOf, reached_append]
    refine and_congr_right fun failure => and_congr_right fun counting => ?_
    rw [List.foldl_cons, List.foldl_nil, breakerTripped_run]
  once := by
    rintro past first between second later rfl tripping again
    by_contra unresumed
    push Not at unresumed
    have quiet : ∀ signal ∈ signals between, signal.resumes = false := by
      intro signal member
      obtain ⟨event, listed, rfl⟩ := List.mem_map.mp member
      exact Bool.eq_false_iff.mpr (unresumed event listed)
    have tripped := ((answersTripped_iff first).mp tripping).2.2
    have still : ((signals between).foldl signalled
        (signalled (breakerOf (current (reached founded past))) first.signal)).isTripped = true :=
      CircuitBreaker.tripped_run tripped quiet
    rw [← breakerOf_run, ← breakerOf_foldl, isTripped_breakerOf] at still
    have counting := ((trips_reached _ second).mp again).2.1
    rw [reached_append, List.foldl_cons, still] at counting
    cases counting
  stays := by
    rintro past event later rfl idle tripped
    rw [reached_append, List.foldl_cons, List.foldl_nil, breakerTripped_run]
    rw [← isTripped_breakerOf] at tripped
    have alone : ∀ signal ∈ [event.signal], signal.resumes = false := by
      intro signal member
      rw [List.mem_singleton.mp member]
      exact idle
    exact CircuitBreaker.tripped_run tripped alone
  damaged := by
    rintro past body later rfl kept
    rw [reached_append, List.foldl_cons, ← inForce_breakerOf, breakerOf_foldl, breakerOf_run]
    refine CircuitBreaker.inForce_run_of_safe rfl fun signal member => ?_
    obtain ⟨event, listed, rfl⟩ := List.mem_map.mp member
    exact kept event listed

end Runs

end Chief.Converge
