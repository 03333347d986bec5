/-
Module: Chief.Activity.IdleGrace
Layer: Proofs
Purpose: The idle grace after a start. Whoever a reconcile starts is not parked for idleness before the
  settle lease has passed since, along every run in which nobody opens an idle park for somebody who
  is to be running.
Trusted boundary: none
Main exports: Stale, PassRun.rested, GraceKept, full_idle_grace
-/
import Chief.Activity.Validity

namespace Chief.Activity

open Foundation ActivityLedger

/-! ### Parks that are over -/

/-- A park nobody owns that is over. Pointed at, it makes the next idle pass open another one. -/
structure Stale (t : GracefulTransition) : Prop where
  park : t.action = .park
  unowned : t.intentId = none
  ended : t.status = .forced ∨ t.status = .applied

theorem Stale.terminal {t : GracefulTransition} (stale : Stale t) : t.status.isTerminal = true := by
  rcases stale.ended with forced | applied
  · rw [forced]
    rfl
  · rw [applied]
    rfl

theorem Stale.not_pending {t : GracefulTransition} (stale : Stale t) :
    t.status.isPending = false := by
  rcases stale.ended with forced | applied
  · rw [forced]
    rfl
  · rw [applied]
    rfl

/-- What is found or opened on terms without an intent is over only if it is a new idle park. -/
theorem routine_of_stale {ledger ledger' : ActivityLedger} {spec : TransitionSpec} {stamp : String}
    {t : GracefulTransition} (named : Named ledger) (unowned : spec.intentId = none)
    (ensured : ensureMatchingTransition ledger spec stamp = .ok (t, ledger')) (stale : Stale t) :
    spec.routineIdlePark = true := by
  have minted {ledger : ActivityLedger}
      (minted : newTransition ledger spec stamp = .ok (t, ledger')) :
      spec.routineIdlePark = true := by
    obtain ⟨requested, state, _, _, rfl, _⟩ := newTransition_eq_ok.mp minted
    have ended := stale.terminal
    by_contra other
    simp [mintedTransition, other, TransitionStatus.isTerminal] at ended
  rw [ensureMatchingTransition_eq named] at ensured
  cases owed : ledger.activeTransition spec.personId with
  | none =>
      rw [owed] at ensured
      exact minted ensured
  | some current =>
      simp only [owed, supersedes_unowned unowned, Bool.false_eq_true, if_false] at ensured
      split at ensured
      · exact minted ensured
      · rename_i live
        simp only [matchExisting, bind_eq_ok, Except.ok.injEq, Prod.mk.injEq] at ensured
        obtain ⟨_, ⟨_, _, _, _, rfl⟩, rfl, rfl⟩ := ensured
        have fresh : startsFresh spec current = true := by
          simp [startsFresh, stale.terminal, ownStructuralRetry, stale.unowned]
        exact absurd fresh live

/-! ### Nobody is kept running over a park that is over -/

section Rest

variable {pass : Pass} {s s' : ReconcileState} {personId : String} {state : PersonActivityState}
  {admitted : List String}

/-- A person a pass has not noted anything about yet. -/
structure Unnoted (s : ReconcileState) (personId : String) : Prop where
  handoff : .handoffRequired ∉ reasonsOf s.reasons personId
  backpressure : .maintenanceBackpressure ∉ reasonsOf s.reasons personId
  direct : personId ∉ s.directTransfers

/-- Without demand of their own and without a note, nobody is kept running. -/
theorem demandedActive_unpinned (unnoted : Unnoted s personId)
    (unpinned : hasOwnPinningDemand s.reasons personId = false) :
    demandedActive s personId state = false := by
  have idle : hasEffectiveDemand s.reasons personId = false := by
    simp only [hasEffectiveDemand, hasOwnPinningDemand, decide_eq_false_iff_not, not_exists,
      not_and] at unpinned ⊢
    intro reason member effective
    have managing := not_not.mp (unpinned reason member)
    rw [managing] at effective
    cases effective
  simp [demandedActive, idle, unnoted.handoff, unnoted.backpressure, unnoted.direct]

theorem noteHandoff_settled (named : Named s.draft)
    (settled : ∀ t, s.draft.activeTransition personId = some t → t.status.isPending = false)
    (noted : noteHandoff s personId = .ok s') : s' = s := by
  rw [noteHandoff_eq named, Except.ok.injEq] at noted
  have nothing : (s.draft.activeTransition personId).any (fun t => t.status.isPending) = false := by
    cases owed : s.draft.activeTransition personId with
    | none => rfl
    | some t => exact settled t owed
  rw [nothing] at noted
  simpa using noted.symm

/-- After their round a person owes no park that is over, or nothing at all keeps them running. -/
theorem transitionStep_rests (wiring : Wired s.draft) (unnoted : Unnoted s personId)
    (found : s.draft.people[personId]? = some state)
    (ran : transitionStep pass admitted s personId = .ok s') :
    (∀ t, s'.draft.activeTransition personId = some t → ¬ Stale t) ∨
      (structuralTransition state pass.manifest personId = none ∧
        ∀ state', demandedActive s' personId state' = false) := by
  have wiredAged := agedDraft_wired pass personId wiring
  have free {draft : ActivityLedger} (none : draft.activeTransition personId = none) :
      ∀ t, draft.activeTransition personId = some t → ¬ Stale t := by
    intro t owed
    rw [none] at owed
    cases owed
  cases transitionStep_outcome wiring.named found ran with
  | gap due outcome =>
      left
      cases outcome with
      | direct _ none => exact free none
      | abandoned => exact free (abandonFencedOut_owed wiredAged)
      | @ensured t draft ensured =>
          intro t' owed stale
          have same : draft.activeTransition personId = some t :=
            activeTransition_ensureMatchingTransition wiredAged.named ensured
          have owed : draft.activeTransition personId = some t' := owed
          rw [same] at owed
          obtain rfl := Option.some.inj owed
          have routine := routine_of_stale wiredAged.named rfl ensured stale
          rw [structural_not_routine] at routine
          cases routine
  | idle settled unpinned _ outcome noted =>
      rw [noteHandoff_draft noted]
      cases outcome with
      | @other t owed action =>
          left
          intro t' owed' stale
          have owed : (agedDraft pass s.draft personId).activeTransition personId = some t := owed
          rw [owed] at owed'
          obtain rfl := Option.some.inj owed'
          exact action stale.park
      | waiting none => exact .inl (free none)
      | @parked t draft _ _ ensured =>
          have owed : draft.activeTransition personId = some t :=
            activeTransition_ensureMatchingTransition wiredAged.named ensured
          by_cases stale : Stale t
          · right
            have namedAfter : Named draft := named_ensured wiredAged.named rfl ensured
            have same := noteHandoff_settled (s := { s with draft := draft, reasons := _ })
              namedAfter (fun t' owed' => by
                have owed' : draft.activeTransition personId = some t' := owed'
                rw [owed] at owed'
                obtain rfl := Option.some.inj owed'
                exact stale.not_pending) noted
            subst same
            refine ⟨settled, fun state' => ?_⟩
            simp only [stale.not_pending, Bool.false_eq_true, if_false]
            exact demandedActive_unpinned ⟨unnoted.handoff, unnoted.backpressure, unnoted.direct⟩
              unpinned
          · left
            intro t' owed' stale'
            have owed' : draft.activeTransition personId = some t' := owed'
            rw [owed] at owed'
            obtain rfl := Option.some.inj owed'
            exact stale stale'
  | pinned settled _ noted =>
      left
      rw [noteHandoff_draft noted]
      intro t owed stale
      have owed : (yieldedDraft pass (agedDraft pass s.draft personId) personId).activeTransition
        personId = some t := owed
      rw [yieldedDraft_owed wiredAged, Option.filter_eq_some_iff] at owed
      simp [stale.park, stale.unowned] at owed
  | resting settled unpinned _ noted =>
      rw [noteHandoff_draft noted]
      by_cases stale : ∃ t, (agedDraft pass s.draft personId).activeTransition personId = some t ∧
          Stale t
      · right
        obtain ⟨t, owed, stale⟩ := stale
        have same := noteHandoff_settled (s := { s with draft := agedDraft pass s.draft personId })
          wiredAged.named (fun t' owed' => by
            have owed' : (agedDraft pass s.draft personId).activeTransition personId = some t' :=
              owed'
            rw [owed] at owed'
            obtain rfl := Option.some.inj owed'
            exact stale.not_pending) noted
        subst same
        exact ⟨settled, fun state' =>
          demandedActive_unpinned ⟨unnoted.handoff, unnoted.backpressure, unnoted.direct⟩ unpinned⟩
      · left
        intro t owed stale'
        exact stale ⟨t, owed, stale'⟩

/-- A person decided active over a park that is over owed it before the decision, and structure or
demand kept them running. -/
theorem decided_stale {person : PersonRecord} {t : GracefulTransition}
    (active : (verdictOn pass s personId state).active = true)
    (owed : (decidedDraft pass s personId state person).activeTransition personId = some t)
    (stale : Stale t) :
    s.draft.activeTransition personId = some t ∧
      (structuralTransition state pass.manifest personId ≠ none ∨
        demandedActive s personId state = true) := by
  have pointed : (verdictOn pass s personId state).draft.activeTransition personId = some t := by
    rw [← owed]
    exact (activeTransition_modifyPerson fun _ _ => decided_activeTransitionId _ _ _ _).symm
  unfold verdictOn settledVerdict at active pointed
  simp only at active pointed
  split at active
  · cases active
  · rename_i kept
    rw [if_neg kept] at pointed
    cases before : s.draft.activeTransition personId with
    | none =>
        simp only [before] at pointed
        have impossible : s.draft.activeTransition personId = some t := pointed
        rw [before] at impossible
        cases impossible
    | some current =>
        cases due : structuralTransition state pass.manifest personId with
        | some structural =>
            simp only [before, due] at active pointed
            refine ⟨?_, .inl (by simp)⟩
            split at pointed
            · rename_i released
              simp only [settleStructural] at pointed
              split at pointed
              · have dropped : ((s.draft.modifyTransition current.id fun t =>
                    t.appliedAs pass.stamp).modifyPerson personId fun state =>
                      { state with activeTransitionId := none }).activeTransition personId = none :=
                  activeTransition_unlinked fun _ _ => rfl
                have gone := dropped.symm.trans pointed
                cases gone
              · rw [← before]
                exact pointed
            · rw [← before]
              exact pointed
        | none =>
            simp only [before, due, settlePointer] at active pointed
            split at active
            · cases active
            · rename_i unsettled
              rw [if_neg unsettled] at pointed
              split at active
              · rename_i other
                rw [if_pos other] at pointed
                have same : s.draft.activeTransition personId = some t := pointed
                rw [before] at same
                obtain rfl := Option.some.inj same
                exact absurd stale.park other
              · rename_i park
                rw [if_neg park] at pointed
                rw [← before]
                exact ⟨pointed, .inr active⟩

end Rest

section Pass

variable {pass : Pass} {requested : BTreeSet} {draft : ActivityLedger}
  {middle final : ReconcileState} {decisions : BTreeMap PersonActivityDecision} {personId : String}

/-- A pass starts with nothing noted about anybody. -/
theorem prepare_unnoted (pass : Pass) (requested : BTreeSet) (draft : ActivityLedger)
    (personId : String) : Unnoted (prepare pass requested draft).1 personId := by
  have demand : ∀ reason ∈ reasonsOf (demandReasons pass.manifest pass.chief requested) personId,
      reason = .organizationRoot ∨ reason = .requested := by
    refine foldl_invariant (fun reasons : Reasons => ∀ reason ∈ reasonsOf reasons personId,
      reason = .organizationRoot ∨ reason = .requested) (fun reasons p _ known => ?_) ?_
    · unfold addRequested
      split
      · rw [reasonsOf_addReason]
        split
        · intro reason member
          rcases Finset.mem_insert.mp member with rfl | old
          · exact .inr rfl
          · exact known reason old
        · exact known
      · exact known
    · intro reason member
      rw [reasonsOf_addReason] at member
      split at member
      · rcases Finset.mem_insert.mp member with rfl | old
        · exact .inl rfl
        · simp [reasonsOf] at old
      · simp [reasonsOf] at member
  refine ⟨fun member => ?_, fun member => ?_, List.not_mem_nil⟩
  · rcases demand _ member with impossible | impossible <;> cases impossible
  · rcases demand _ member with impossible | impossible <;> cases impossible

/-- What a decision leaves of the reports: on a rising edge nothing, otherwise what was there. -/
theorem decided_reports (pass : Pass) (state : PersonActivityState) (person : PersonRecord)
    (active advance : Bool) :
    (active = true → state.lastDesiredActive = false →
      (state.decided pass person active advance).agentQuietAt = none ∧
        (state.decided pass person active advance).agentActiveAt = none) ∧
    (¬ (active = true ∧ state.lastDesiredActive = false) →
      (state.decided pass person active advance).agentQuietAt = state.agentQuietAt ∧
        (state.decided pass person active advance).agentActiveAt = state.agentActiveAt) := by
  unfold PersonActivityState.decided
  constructor
  · intro active rising
    simp only [active, rising, and_self, if_true]
    split <;> exact ⟨rfl, rfl⟩
  · intro steady
    simp only [if_neg steady]
    split <;> exact ⟨rfl, rfl⟩

/-- What a pass leaves of somebody it keeps running: the reports of a person it started are gone, those
of a person who was running stay, and they owe no park that is over. -/
structure KeptRunning (before after : PersonActivityState) (owed : Option GracefulTransition) :
    Prop where
  reports : (before.lastDesiredActive = true ∧ after.agentQuietAt = before.agentQuietAt ∧
      after.agentActiveAt = before.agentActiveAt) ∨
    (after.agentQuietAt = none ∧ after.agentActiveAt = none)
  owes : ∀ t, owed = some t → ¬ Stale t

theorem PassRun.rested (wiring : Wired draft) (spare : ¬ Exhausted final.draft)
    (run : PassRun pass (prepare pass requested draft) middle final decisions)
    (listed : personId ∈ draft.personOrder) :
    ∃ before after, draft.people[personId]? = some before ∧
      final.draft.people[personId]? = some after ∧ (after.lastDesiredActive = true →
        KeptRunning before after (final.draft.activeTransition personId)) := by
  obtain ⟨opening, closing, deciding, state, person, through⟩ := run.person wiring spare listed
  obtain ⟨before, found⟩ := BTreeMap.mem_iff_getElem?.mp ((wiring.people.mem_iff _).mp listed)
  obtain ⟨people, _, reasons, _, direct⟩ := roundView_eq through.opens
  obtain ⟨people', owed', reasons', _, direct'⟩ := roundView_eq through.closes
  have opened : opening.draft.people[personId]? = some (before.clocked pass
      (demandReasons pass.manifest pass.chief requested) personId) := by
    rw [people, prepare_people listed, found]
    rfl
  obtain ⟨left, closed, substance⟩ :=
    transitionStep_substance through.openingWired.named through.round opened
  have deciding' : state = left := by
    have same := through.found
    rw [people', closed] at same
    exact (Option.some.inj same).symm
  subst deciding'
  have prepared := prepare_unnoted pass requested draft personId
  have unnoted : Unnoted opening personId :=
    ⟨reasons ▸ prepared.handoff, reasons ▸ prepared.backpressure,
      fun member => prepared.direct (direct.mp member)⟩
  have due : structuralTransition state pass.manifest personId =
      structuralTransition (before.clocked pass
        (demandReasons pass.manifest pass.chief requested) personId) pass.manifest personId :=
    structuralTransition_of_substance substance _ _
  obtain ⟨unlinked, shape, here⟩ := decidedDraft_people pass person through.found
  refine ⟨before, _, found, through.people.trans here, fun running => ?_⟩
  rw [decided_lastDesiredActive] at running
  have active : (verdictOn pass deciding personId state).active = true := by
    simp only [decisionOn, Bool.and_eq_true] at running
    exact running.1
  have kept : unlinked.lastDesiredActive = before.lastDesiredActive ∧
      unlinked.agentQuietAt = before.agentQuietAt ∧
        unlinked.agentActiveAt = before.agentActiveAt := by
    have desired := congrArg PersonActivityState.lastDesiredActive substance
    have quiet := congrArg PersonActivityState.agentQuietAt substance
    have reported := congrArg PersonActivityState.agentActiveAt substance
    rcases shape with rfl | rfl <;> exact ⟨desired, quiet, reported⟩
  have reports := decided_reports pass unlinked person
    (decisionOn pass deciding personId state person).active
    (verdictOn pass deciding personId state).advancePlacement
  refine ⟨?_, fun t owed stale => ?_⟩
  · cases desired : before.lastDesiredActive with
    | false => exact .inr (reports.1 running (kept.1.trans desired))
    | true =>
        have steady := reports.2 (by simp [kept.1, desired])
        exact .inl ⟨rfl, steady.1.trans kept.2.1, steady.2.trans kept.2.2⟩
  · rw [through.owed] at owed
    obtain ⟨owing, because⟩ := decided_stale active owed stale
    rw [owed'] at owing
    rcases transitionStep_rests through.openingWired unnoted opened through.round with
      clear | ⟨settled, idle⟩
    · exact clear t owing stale
    · rcases because with unsettled | demanded
      · exact unsettled (due.trans settled)
      · have same : demandedActive deciding personId state =
            demandedActive closing personId state := by
          unfold demandedActive hasEffectiveDemand
          rw [reasons', decide_eq_decide.mpr direct']
        rw [same, idle] at demanded
        cases demanded

/-! ### The lease -/

/-- Whatever the pane reported of this run, it reported at or after `t₀`. -/
structure RunningSince (t₀ : Int) (state : PersonActivityState) : Prop where
  quiet : ∀ value ∈ state.agentQuietAt, ∀ q, parseIsoMillis value = some q → t₀ ≤ q
  active : ∀ value ∈ state.agentActiveAt, ∀ q, parseIsoMillis value = some q → t₀ ≤ q

theorem RunningSince.of_unreported {t₀ : Int} {state : PersonActivityState}
    (quiet : state.agentQuietAt = none) (active : state.agentActiveAt = none) :
    RunningSince t₀ state := by
  constructor
  · intro value member
    rw [quiet] at member
    cases member
  · intro value member
    rw [active] at member
    cases member

/-- The quiet instant of somebody running since `t₀` is no earlier. -/
theorem RunningSince.quietSince {t₀ watchingSince now quietAt : Int} {state : PersonActivityState}
    {value : String} (since : RunningSince t₀ state)
    (given : agentQuietSince state watchingSince now = some value)
    (parsed : parseIsoMillis value = some quietAt) : t₀ ≤ quietAt := by
  unfold agentQuietSince at given
  cases quiet : state.agentQuietAt with
  | some text =>
      rw [quiet] at given
      obtain rfl := Option.some.inj given
      exact since.quiet text quiet quietAt parsed
  | none =>
      simp only [quiet] at given
      cases active : state.agentActiveAt with
      | none => simp [active] at given
      | some text =>
          cases read : parseIsoMillis text with
          | none => simp [active, read] at given
          | some activeAt =>
              simp only [active, read, Option.bind_some] at given
              split at given
              · obtain rfl := Option.some.inj given
                have instant := eq_of_parseIsoMillis_isoMillis parsed
                have readable := readable_isoMillis_iff.mp (readable_of_parse parsed)
                have after := since.active text active activeAt read
                have early := readable.2
                simp only [saturatingAdd, agentActivityLivenessMs, i64Max,
                  lastReadableMillis] at instant early
                omega
              · cases given

/-- A person a pass may park for idleness was running, and no less than the lease since `t₀`. -/
theorem MayPark.lease {t₀ : Int} {before : PersonActivityState}
    (may : MayPark (prepare pass requested draft).2 (prepare pass requested draft).1 personId)
    (listed : personId ∈ draft.personOrder) (found : draft.people[personId]? = some before)
    (since : RunningSince t₀ before)
    (owes : ∀ t, draft.activeTransition personId = some t → ¬ Stale t)
    (unowned : ∀ t, draft.activeTransition personId = some t → t.status = .forced →
      t.intentId = none)
    (untargeted : ∀ t, draft.activeTransition personId = some t → t.action = .park →
      t.toDepartmentId = none) :
    before.lastDesiredActive = true ∧ t₀ + organizationSettledIdleStopLeaseMs ≤ pass.now := by
  obtain ⟨unpinned, ⟨state, prepared, desired⟩, slot⟩ := may
  rw [prepare_people listed, found] at prepared
  obtain rfl := Option.some.inj prepared
  refine ⟨desired, ?_⟩
  rcases slot with admitted | ⟨current, owed, park, fresh⟩
  · have candidate : isParkCandidate pass (demandReasons pass.manifest pass.chief requested)
        (draft.personOrder.foldl
          (stampIdle pass (demandReasons pass.manifest pass.chief requested)) draft) personId =
          true := (List.mem_filter.mp (List.mem_of_mem_take admitted)).2
    have expired : settledIdleStopLeaseExpired
        (before.clocked pass (demandReasons pass.manifest pass.chief requested) personId)
        pass.now = true := by
      unfold isParkCandidate at candidate
      simp only [stampIdle_people, if_pos listed, found, Option.map_some] at candidate
      split at candidate
      · cases candidate
      · split at candidate
        · cases candidate
        · rename_i passed
          simpa using (not_or.mp (not_or.mp (not_or.mp passed).2).2).2
    simp only [settledIdleStopLeaseExpired, Bool.and_eq_true, Option.any_eq_true,
      Option.bind_eq_some_iff, decide_eq_true_eq] at expired
    obtain ⟨_, idleAt, ⟨value, clock, parsed⟩, passed⟩ := expired
    have quiet : agentQuietSince before pass.watchingSince pass.now = some value := by
      unfold PersonActivityState.clocked at clock
      simp only at clock
      split at clock
      · cases clock
      · exact clock
    have bound := since.quietSince quiet parsed
    omega
  · rw [prepare_activeTransition] at owed
    have terminal : current.status.isTerminal = true := by
      simp only [startsFresh, Bool.and_eq_true] at fresh
      exact fresh.1
    have stale : Stale current := by
      obtain ⟨_, _, _, _, _, live⟩ := activeTransition_eq_some.mp owed
      have target := untargeted current owed park
      cases status : current.status with
      | forced => exact ⟨park, unowned current owed status, .inl status⟩
      | applied =>
          refine ⟨park, ?_, .inr status⟩
          by_contra owned
          have intent : current.intentId.isSome = true := Option.isSome_iff_ne_none.mpr owned
          simp [startsFresh, ownStructuralRetry, status, park, target, intent,
            idleParkSpec] at fresh
      | cancelled => exact absurd status live
      | awaitingHandoff | overdue | ready =>
          rw [status] at terminal
          cases terminal
    exact absurd stale (owes current owed)

end Pass

/-! ### One commit -/

/-- Only transitions nobody owns end without a release. -/
def ForcedUnowned (ledger : ActivityLedger) : Prop :=
  ∀ (id : String) (t : GracefulTransition), ledger.transitions[id]? = some t →
    t.status = .forced → t.intentId = none

/-- The operation opens a routine idle park for somebody who is to be running. -/
def Operation.ParksRunner (op : Operation) (draft : ActivityLedger) : Prop :=
  match op with
  | .beginTransition input => input.spec.routineIdlePark = true ∧
      ∃ state, draft.people[input.personId]? = some state ∧ state.lastDesiredActive = true
  | _ => False

/-- While `p` is to be running, their pane reported nothing from before `t₀` and they owe no park that
is over. -/
def GraceKept (p : String) (t₀ : Int) (ledger : ActivityLedger) : Prop :=
  ∀ state, ledger.people[p]? = some state → state.lastDesiredActive = true →
    RunningSince t₀ state ∧ ∀ t, ledger.activeTransition p = some t → ¬ Stale t

/-- How a command may move transitions on as far as parks that are over go. -/
def NoNewStale (before after : GracefulTransition) : Prop :=
  (after.status = .forced → before.status = .forced) ∧
    (after.status = .applied → before.status = .applied ∨ before.action.isRemoval = false)

theorem Advances.noNewStale {before after : GracefulTransition} (advances : Advances before after) :
    NoNewStale before after := by
  refine ⟨fun forced => ?_, advances.applied⟩
  rcases advances.status with same | ⟨_, unforced⟩ | ⟨_, cancelled⟩
  · exact same ▸ forced
  · exact absurd forced unforced
  · rw [forced] at cancelled
    cases cancelled

section Commit

variable {op : Operation} {manifest : OrganizationManifest} {supervision : SupervisionLedger}
  {now t₀ : Int} {current draft published ledger : ActivityLedger} {p : String}

theorem ForcedUnowned.repaired (unowned : ForcedUnowned current)
    (repaired : Repaired current ledger) : ForcedUnowned ledger := by
  intro id t found forced
  obtain ⟨t₁, here, carried⟩ := repaired.transition found
  rw [carried.intentId]
  refine unowned id t₁ here ?_
  rcases carried.order.status with same | ⟨_, unforced⟩ | ⟨_, cancelled⟩
  · exact same ▸ forced
  · exact absurd forced unforced
  · rw [forced] at cancelled
    cases cancelled

theorem GraceKept.repaired (grace : GraceKept p t₀ current) (repaired : Repaired current ledger) :
    GraceKept p t₀ ledger := by
  intro state found desired
  rcases repaired.state found with ⟨before, here, reports, pointer⟩ | ⟨reports, unlinked⟩
  · simp only [PersonActivityState.reports, Prod.mk.injEq] at reports
    obtain ⟨since, owes⟩ := grace before here (reports.1 ▸ desired)
    refine ⟨⟨fun value member => since.quiet value (reports.2.1 ▸ member),
      fun value member => since.active value (reports.2.2 ▸ member)⟩, fun t owed stale => ?_⟩
    obtain ⟨state', id, found', points, stored, live⟩ := activeTransition_eq_some.mp owed
    rw [found] at found'
    obtain rfl := Option.some.inj found'
    obtain ⟨t₁, stored₁, carried⟩ := repaired.transition stored
    have pointed : before.activeTransitionId = some id := by
      rcases pointer with same | gone
      · exact same ▸ points
      · rw [gone] at points
        cases points
    have ended : t₁.status = .forced ∨ t₁.status = .applied := by
      rcases stale.ended with forced | applied
      · rcases carried.order.status with same | ⟨_, unforced⟩ | ⟨wasForced, _⟩
        · exact .inl (same ▸ forced)
        · exact absurd forced unforced
        · exact .inl wasForced
      · exact .inr (carried.applied applied)
    have stale₁ : Stale t₁ := ⟨carried.action ▸ stale.park, carried.intentId ▸ stale.unowned, ended⟩
    refine owes t₁ (activeTransition_eq_some.mpr ⟨before, id, here, pointed, stored₁, ?_⟩) stale₁
    intro cancelled
    have terminal := stale₁.ended
    rw [cancelled] at terminal
    rcases terminal with impossible | impossible <;> cases impossible
  · simp only [PersonActivityState.reports, Prod.mk.injEq] at reports
    rw [reports.1] at desired
    cases desired

/-- What a command may open: nothing over, but for a routine idle park of the person it names. -/
def BegunBy (op : Operation) (t : GracefulTransition) : Prop :=
  t.status ≠ .applied ∧ (t.status = .forced → ∃ input, op = .beginTransition input ∧
    input.personId = t.personId ∧ input.spec.routineIdlePark = true)

theorem ReportsFollow.trans {stamp : String} {first second third : PersonActivityState}
    (one : ReportsFollow stamp first second) (two : ReportsFollow stamp second third) :
    ReportsFollow stamp first third := by
  refine ⟨two.desired.trans one.desired, fun value member => ?_, fun value member => ?_⟩
  · rcases two.quiet value member with old | new
    · exact one.quiet value old
    · exact .inr new
  · rcases two.active value member with old | new
    · exact one.active value old
    · exact .inr new

/-- What was reported since `t₀`, and what is reported now, was reported since `t₀`. -/
theorem RunningSince.follow {before after : PersonActivityState} (since : RunningSince t₀ before)
    (follow : ReportsFollow (isoMillis now) before after) (later : t₀ ≤ now) :
    RunningSince t₀ after := by
  have reported {q : Int} (parsed : parseIsoMillis (isoMillis now) = some q) : t₀ ≤ q := by
    rw [eq_of_parseIsoMillis_isoMillis parsed]
    exact later
  refine ⟨fun value member q parsed => ?_, fun value member q parsed => ?_⟩
  · rcases follow.quiet value member with old | rfl
    · exact since.quiet value old q parsed
    · exact reported parsed
  · rcases follow.active value member with old | rfl
    · exact since.active value old q parsed
    · exact reported parsed

/-- A command as edits that make no park stale and open one only by name. -/
theorem Operation.command_noNewStale {ctx : ActivityContext} {stamp : String}
    (isCommand : ∀ input, op ≠ .reconcile input) (named : Named ledger)
    (ran : op.body ledger ctx stamp = .ok draft) :
    ∃ n, Edits (commandScope ctx.manifest stamp False NoNewStale (BegunBy op)) n ledger draft := by
  have commanded : ∃ n ≤ op.mostMinted ctx.manifest,
      Edits (commandScope ctx.manifest stamp False NoNewStale (BegunBy op)) n ledger draft := by
    refine Operation.command_edits isCommand named False.elim
      (fun _ _ advances => advances.noNewStale) (fun _ current _ _ _ => ⟨?_, ?_⟩)
      (fun input id placement requested begins => ⟨?_, fun forced => ⟨input, begins, rfl, ?_⟩⟩) ran
    · intro impossible
      cases impossible
    · intro impossible
      cases impossible
    · simp only [mintedTransition]
      split <;> simp
    · by_contra other
      simp [mintedTransition, other] at forced
  obtain ⟨n, _, edits⟩ := commanded
  exact ⟨n, edits⟩

variable {manifest' : OrganizationManifest} {stamp : String} {n : Nat}

/-- The reports a command leaves follow the ones it found. -/
theorem commandReports
    (edits : Edits (commandScope manifest' stamp False NoNewStale (BegunBy op)) n ledger draft)
    {after : PersonActivityState} (found : draft.people[p]? = some after) :
    ∃ before, ledger.people[p]? = some before ∧ ReportsFollow stamp before after := by
  have member : p ∈ ledger.people := edits.mem_people.mp (BTreeMap.mem_of_getElem? found)
  obtain ⟨before, here⟩ := BTreeMap.mem_iff_getElem?.mp member
  refine ⟨before, here, edits.state (ReportsFollow stamp before)
    (fun _ _ follow rewrite => follow.trans rewrite.allowed)
    (fun _ _ follow => ⟨follow.desired, follow.quiet, follow.active⟩) (fun other stored => ?_) found⟩
  rw [here] at stored
  obtain rfl := Option.some.inj stored
  exact .same rfl rfl rfl

/-- A chain of edits whose moves force nothing leaves nothing forced that somebody owns. -/
theorem ForcedUnowned.edited {scope : Scope} (unowned : ForcedUnowned ledger)
    (small : ledger.nextTransitionSequence ≤ u64Max) (edits : Edits scope n ledger draft)
    (unforced : ∀ before after, scope.moves before after → after.status = .forced →
      before.status = .forced) : ForcedUnowned draft := by
  intro id t found
  refine edits.origin small (fun _ t => t.status = .forced → t.intentId = none)
    (fun _ t t' holds move forced => ?_) (fun _ _ opening _ _ => opening.forced)
    (fun id t stored => unowned id t stored) found
  rw [move.intentId]
  exact holds (unforced _ _ move.allowed forced)

/-- A command that opens no idle park for somebody running keeps the grace. -/
theorem GraceKept.command {ctx : ActivityContext} (grace : GraceKept p t₀ ledger)
    (isCommand : ∀ input, op ≠ .reconcile input) (wiring : Wired ledger) (spare : ¬ Exhausted draft)
    (later : t₀ ≤ now) (gentle : ¬ op.ParksRunner ledger)
    (ran : op.body ledger ctx (isoMillis now) = .ok draft) : GraceKept p t₀ draft := by
  obtain ⟨n, edits⟩ := Operation.command_noNewStale isCommand wiring.named ran
  intro after found desired
  obtain ⟨before, here, follow⟩ := commandReports edits found
  have running : before.lastDesiredActive = true := follow.desired ▸ desired
  obtain ⟨since, owes⟩ := grace before here running
  refine ⟨since.follow follow later, fun t owed => ?_⟩
  refine edits.pointed wiring (edits.room wiring spare) (fun t => ¬ Stale t)
    (fun t t' fresh move stale => fresh ?_) (fun t begun owner stale => ?_) owes owed
  · refine ⟨move.action ▸ stale.park, move.intentId ▸ stale.unowned, ?_⟩
    rcases stale.ended with forced | applied
    · exact .inl (move.allowed.1 forced)
    · rcases move.allowed.2 applied with already | kind
      · exact .inr already
      · have park : t.action = .park := move.action ▸ stale.park
        rw [park] at kind
        cases kind
  · rcases stale.ended with forced | applied
    · obtain ⟨input, rfl, same, routine⟩ := begun.2 forced
      have person : input.personId = p := same.trans owner
      exact gentle ⟨routine, before, person ▸ here, running⟩
    · exact begun.1 applied

/-- Whether the ledger wants `p` running. -/
def DesiredActive (ledger : ActivityLedger) (p : String) : Prop :=
  ∃ state, ledger.people[p]? = some state ∧ state.lastDesiredActive = true

theorem DesiredActive.before_repair (desired : DesiredActive ledger p)
    (repaired : Repaired current ledger) : DesiredActive current p := by
  obtain ⟨state, found, active⟩ := desired
  rcases repaired.state found with ⟨before, here, reports, _⟩ | ⟨reports, _⟩
  · simp only [PersonActivityState.reports, Prod.mk.injEq] at reports
    exact ⟨before, here, reports.1 ▸ active⟩
  · simp only [PersonActivityState.reports, Prod.mk.injEq] at reports
    rw [reports.1] at active
    cases active

theorem graceKept_congr (people : published.people = draft.people)
    (transitions : published.transitions = draft.transitions) (grace : GraceKept p t₀ draft) :
    GraceKept p t₀ published := by
  unfold GraceKept ActivityLedger.activeTransition at *
  rw [people, transitions]
  exact grace

/-- What a reconcile leaves of somebody it keeps running. -/
theorem Committed.rested {input : ReconcileInput}
    (committed : Committed (.reconcile input) manifest supervision now current draft published)
    (range : InRange current) {after : PersonActivityState}
    (found : draft.people[p]? = some after) (desired : after.lastDesiredActive = true) :
    ∃ before, (repairedDraft manifest now current).people[p]? = some before ∧
      KeptRunning before after (draft.activeTransition p) := by
  have ranges := committed.inRange range
  have ran := committed.ran
  simp only [Operation.body, bind_eq_ok] at ran
  obtain ⟨chief, _, ran⟩ := ran
  obtain ⟨snapshot, ran⟩ := ok_map_snd ran
  obtain ⟨_, middle, final, run, rfl⟩ := reconcileBody_eq_ok.mp ran
  have member : p ∈ (repairedDraft manifest now current).people :=
    ((run.frame ranges.wired.named).people p).mp (BTreeMap.mem_of_getElem? found)
  obtain ⟨before, after', here, found', kept⟩ := run.rested ranges.wired ranges.spare
    ((ranges.wired.people.mem_iff p).mpr member)
  rw [found] at found'
  obtain rfl := Option.some.inj found'
  exact ⟨before, here, kept desired⟩

theorem Committed.forcedUnowned
    (committed : Committed op manifest supervision now current draft published)
    (range : InRange current) (unowned : ForcedUnowned current) : ForcedUnowned published := by
  have ranges := committed.inRange range
  have repaired : Repaired current (repairedDraft manifest now current) :=
    reconcilePeople_repaired current manifest (isoMillis now)
  have start := unowned.repaired repaired
  have left : ForcedUnowned draft := by
    cases kind : op with
    | reconcile input =>
        subst kind
        have order : (repairedDraft manifest now current).personOrder =
            (contextOf manifest supervision now).manifest.peopleOrder := reconcilePeople_order _ _ _
        obtain ⟨chief, n, _, edits⟩ := Operation.reconcile_edits ranges.wired.named order
          (False.elim : False → RecordsFit manifest (isoMillis now)) False.elim committed.ran
        refine start.edited ranges.wired.small edits fun before after orderly forced => ?_
        rcases orderly.status with same | ⟨_, unforced⟩ | ⟨_, cancelled⟩
        · exact same ▸ forced
        · exact absurd forced unforced
        · rw [forced] at cancelled
          cases cancelled
    | beginTransition | settleAppliedMove | abandonTransition | release | noteAgentActivity |
      applyPointerClears | reconcileStructural =>
        have isCommand : ∀ input, op ≠ .reconcile input := by simp [kind]
        obtain ⟨n, edits⟩ := Operation.command_noNewStale isCommand ranges.wired.named committed.ran
        exact start.edited ranges.wired.small edits fun _ _ moves => moves.1
  obtain ⟨_, transitions⟩ := committed.records
  intro id t found
  exact left id t (transitions ▸ found)

/-- A commit at or after `t₀` that opens no idle park for somebody running keeps the grace. -/
theorem Committed.grace
    (committed : Committed op manifest supervision now current draft published)
    (range : InRange current) (later : t₀ ≤ now)
    (gentle : ¬ op.ParksRunner (repairedDraft manifest now current))
    (grace : GraceKept p t₀ current) : GraceKept p t₀ published := by
  have ranges := committed.inRange range
  have start : GraceKept p t₀ (repairedDraft manifest now current) :=
    grace.repaired (reconcilePeople_repaired current manifest (isoMillis now))
  obtain ⟨people, transitions⟩ := committed.records
  refine graceKept_congr people transitions ?_
  cases kind : op with
  | reconcile input =>
      subst kind
      intro after found desired
      obtain ⟨before, here, kept⟩ := committed.rested range found desired
      refine ⟨?_, kept.owes⟩
      rcases kept.reports with ⟨running, quiet, active⟩ | ⟨quiet, active⟩
      · have since := (start before here running).1
        exact ⟨fun value member => since.quiet value (quiet ▸ member),
          fun value member => since.active value (active ▸ member)⟩
      · exact .of_unreported quiet active
  | beginTransition | settleAppliedMove | abandonTransition | release | noteAgentActivity |
    applyPointerClears | reconcileStructural =>
      have isCommand : ∀ input, op ≠ .reconcile input := by simp [kind]
      exact start.command isCommand ranges.wired ranges.spare later gentle committed.ran

/-- Nobody but a reconcile wants somebody running who was not, and it clears what they reported. -/
theorem Committed.rises
    (committed : Committed op manifest supervision now current draft published)
    (range : InRange current) (resting : ¬ DesiredActive current p)
    (desired : DesiredActive published p) (t₀ : Int) :
    (∃ input, op = .reconcile input) ∧ GraceKept p t₀ published := by
  have ranges := committed.inRange range
  have repaired : Repaired current (repairedDraft manifest now current) :=
    reconcilePeople_repaired current manifest (isoMillis now)
  obtain ⟨people, transitions⟩ := committed.records
  obtain ⟨after, found, active⟩ := desired
  rw [people] at found
  cases kind : op with
  | reconcile input =>
      subst kind
      refine ⟨⟨input, rfl⟩, graceKept_congr people transitions fun after' found' active' => ?_⟩
      obtain ⟨before, here, kept⟩ := committed.rested range found' active'
      refine ⟨?_, kept.owes⟩
      rcases kept.reports with ⟨running, _⟩ | ⟨quiet, reported⟩
      · exact absurd (DesiredActive.before_repair ⟨before, here, running⟩ repaired) resting
      · exact .of_unreported quiet reported
  | beginTransition | settleAppliedMove | abandonTransition | release | noteAgentActivity |
    applyPointerClears | reconcileStructural =>
      have isCommand : ∀ input, op ≠ .reconcile input := by simp [kind]
      obtain ⟨n, edits⟩ := Operation.command_noNewStale isCommand ranges.wired.named committed.ran
      obtain ⟨before, here, follow⟩ := commandReports edits found
      exact absurd (DesiredActive.before_repair ⟨before, here, follow.desired ▸ active⟩ repaired)
        resting

/-- A reconcile that opens a routine idle park for `p` found them wanted running, and no less than the
lease since `t₀`. -/
theorem Committed.parked {input : ReconcileInput} {id : String} {t : GracefulTransition}
    (committed : Committed (.reconcile input) manifest supervision now current draft published)
    (range : InRange current) (unowned : ForcedUnowned current)
    (stored : published.transitions[id]? = some t) (fresh : id ∉ current.transitions)
    (routine : isRoutineIdlePark t = true) :
    DesiredActive current t.personId ∧ ∀ t₀, GraceKept t.personId t₀ current →
      t₀ + organizationSettledIdleStopLeaseMs ≤ now := by
  have ranges := committed.inRange range
  have repaired : Repaired current (repairedDraft manifest now current) :=
    reconcilePeople_repaired current manifest (isoMillis now)
  obtain ⟨_, transitions⟩ := committed.records
  rw [transitions] at stored
  have new : id ∉ (repairedDraft manifest now current).transitions := by
    intro member
    obtain ⟨t', here⟩ := BTreeMap.mem_iff_getElem?.mp member
    obtain ⟨t₁, there, _⟩ := repaired.transition here
    exact fresh (BTreeMap.mem_of_getElem? there)
  have ran := committed.ran
  simp only [Operation.body, bind_eq_ok] at ran
  obtain ⟨chief, _, ran⟩ := ran
  obtain ⟨snapshot, ran⟩ := ok_map_snd ran
  obtain ⟨_, middle, final, run, rfl⟩ := reconcileBody_eq_ok.mp ran
  have may := run.opened ranges.wired ranges.spare stored new routine
  have listed : t.personId ∈ (repairedDraft manifest now current).personOrder := by
    obtain ⟨_, ⟨state, found, _⟩, _⟩ := may
    by_contra unlisted
    rw [prepare_people_unlisted unlisted] at found
    exact unlisted ((ranges.wired.people.mem_iff t.personId).mpr (BTreeMap.mem_of_getElem? found))
  obtain ⟨before, here⟩ := BTreeMap.mem_iff_getElem?.mp
    ((ranges.wired.people.mem_iff t.personId).mp listed)
  have ended : ∀ owing : GracefulTransition,
      (repairedDraft manifest now current).activeTransition t.personId = some owing →
      owing.status = .forced → owing.intentId = none := by
    intro owing owed forced
    obtain ⟨_, id', _, _, found, _⟩ := activeTransition_eq_some.mp owed
    exact unowned.repaired repaired id' owing found forced
  have untargeted : ∀ owing : GracefulTransition,
      (repairedDraft manifest now current).activeTransition t.personId = some owing →
      owing.action = .park → owing.toDepartmentId = none := by
    intro owing owed park
    exact committed.repaired.ruled.park_untargeted ranges.wired.named owed park
  have desired : before.lastDesiredActive = true := by
    obtain ⟨_, ⟨state, found, desired⟩, _⟩ := may
    rw [prepare_people listed, here] at found
    obtain rfl := Option.some.inj found
    exact desired
  refine ⟨DesiredActive.before_repair ⟨before, here, desired⟩ repaired, fun t₀ grace => ?_⟩
  obtain ⟨since, owes⟩ := grace.repaired repaired before here desired
  exact (may.lease listed here since owes ended untargeted).2

end Commit

/-! ### Runs -/

/-- The ledger of the working set wants `p` running. -/
def WantsRunning (p : String) (ledgers : Ledgers) : Prop :=
  ∃ ledger, Holds ledgers ledger ∧ DesiredActive ledger p

/-- The call is a reconcile in which `p`'s desired state goes from inactive to active. -/
def Rises (p : String) (call : Call) (ledgers : Ledgers) : Prop :=
  (∃ input, call.op = .reconcile input) ∧ ¬ WantsRunning p ledgers ∧
    WantsRunning p (afterEvent Call.attempt ledgers call)

/-- The call is a reconcile that mints a routine idle park for `p`. -/
def ParksIdle (p : String) (call : Call) (ledgers : Ledgers) : Prop :=
  (∃ input, call.op = .reconcile input) ∧ ∃ (before after : ActivityLedger) (id : String)
    (t : GracefulTransition), Holds ledgers before ∧
      Holds (afterEvent Call.attempt ledgers call) after ∧ id ∉ before.transitions ∧
      after.transitions[id]? = some t ∧ t.personId = p ∧ isRoutineIdlePark t = true

/-- The call opens no routine idle park for somebody the repaired ledger wants running. -/
def KeepsGrace (call : Call) (ledgers : Ledgers) : Prop :=
  ∀ current, Holds ledgers current →
    ¬ call.op.ParksRunner (repairedDraft call.manifest call.now current)

section Run

variable {p : String} {founded : OrganizationManifest} {stamp : String} {start : Ledgers}
  {calls earlier later : List Call} {park rise : Call}

theorem runs_forcedUnowned (calls : List Call)
    (started : Holds start (ActivityLedger.initial founded stamp)) :
    StoredSo ForcedUnowned (afterRun Call.attempt calls start) := by
  have met : Throughout Call.attempt (fun _ _ => True) calls start :=
    Throughout.of_forall (fun _ => True) fun _ _ => trivial
  refine runs_hold ForcedUnowned met
    (fun _ _ _ _ _ _ _ range committed unowned => committed.forcedUnowned range unowned) ?_
  refine ⟨_, started, initial_inRange founded stamp, ?_⟩
  intro id t found
  simp [ActivityLedger.initial] at found

/-- Whoever is to be running was started by some reconcile of the run. -/
theorem exists_rise (started : Holds start (ActivityLedger.initial founded stamp))
    (running : WantsRunning p (afterRun Call.attempt calls start)) :
    ∃ earlier rise later, calls = earlier ++ rise :: later ∧
      Rises p rise (afterRun Call.attempt earlier start) := by
  induction calls using List.reverseRecOn with
  | nil =>
      obtain ⟨ledger, stored, state, found, desired⟩ := running
      obtain rfl := started.unique stored
      have seeded := BTreeMap.mem_of_getElem?_ofList found
      simp only [List.mem_filterMap, Option.map_eq_some_iff, Prod.mk.injEq] at seeded
      obtain ⟨_, _, seed, seeds, _, rfl⟩ := seeded
      unfold seedPersonState at seeds
      split at seeds
      · cases seeds
      · obtain rfl := Option.some.inj seeds
        cases desired
  | append_singleton calls call inductionHypothesis =>
      rw [afterRun_append, afterRun_cons, afterRun_nil] at running
      by_cases before : WantsRunning p (afterRun Call.attempt calls start)
      · obtain ⟨earlier, rise, later, split, rises⟩ := inductionHypothesis before
        refine ⟨earlier, rise, later ++ [call], ?_, rises⟩
        rw [split, List.append_assoc, List.cons_append]
      · refine ⟨calls, call, [], rfl, ?_, before, running⟩
        obtain ⟨current, stored, range⟩ := runs_inRange calls started
        cases ran : call.attempt (afterRun Call.attempt calls start) with
        | error failure =>
            rw [afterEvent_of_error ran] at running
            exact absurd running before
        | ok ledgers' =>
            rw [afterEvent_of_ok ran] at running
            obtain ⟨draft, published, after, committed⟩ := Call.attempt_eq_ok stored ran
            obtain ⟨ledger, held, desired⟩ := running
            obtain rfl := after.unique held
            exact (committed.rises range (fun active => before ⟨current, stored, active⟩) desired
              0).1

/-- After a rise the grace counts from it, for as long as nobody opens an idle park for somebody
running. -/
theorem grace_since_rise (started : Holds start (ActivityLedger.initial founded stamp))
    (rises : Rises p rise (afterRun Call.attempt earlier start))
    (clock : ∀ call : Call, call ∈ later → rise.now ≤ call.now)
    (safe : Throughout Call.attempt KeepsGrace later
      (afterRun Call.attempt (earlier ++ [rise]) start)) :
    StoredSo (GraceKept p rise.now) (afterRun Call.attempt (earlier ++ rise :: later) start) := by
  obtain ⟨_, resting, ledger, held, desired⟩ := rises
  obtain ⟨current, stored, range⟩ := runs_inRange earlier started
  have begins : StoredSo (GraceKept p rise.now)
      (afterRun Call.attempt (earlier ++ [rise]) start) := by
    rw [afterRun_append, afterRun_cons, afterRun_nil]
    cases ran : rise.attempt (afterRun Call.attempt earlier start) with
    | error failure =>
        rw [afterEvent_of_error ran] at held
        exact absurd ⟨ledger, held, desired⟩ resting
    | ok ledgers' =>
        rw [afterEvent_of_ok ran] at held ⊢
        obtain ⟨draft, published, after, committed⟩ := Call.attempt_eq_ok stored ran
        obtain rfl := after.unique held
        have calm : ¬ DesiredActive current p := fun active => resting ⟨current, stored, active⟩
        exact ⟨published, after, (committed.inRange range).published,
          (committed.rises range calm desired rise.now).2⟩
  have timed : Throughout Call.attempt (fun call _ => rise.now ≤ call.now) later
      (afterRun Call.attempt (earlier ++ [rise]) start) :=
    Throughout.of_forall (fun call : Call => rise.now ≤ call.now) clock
  have kept := runs_hold (GraceKept p rise.now) (safe.and timed)
    (fun call ledgers current draft published meets stored range committed grace =>
      committed.grace range meets.2 (meets.1 current stored) grace) begins
  rw [← afterRun_append] at kept
  rwa [List.append_assoc, List.singleton_append] at kept

end Run

/-- A full lease of idle grace follows every start: in a run from a fresh ledger whose clock never goes
back and whose calls open no idle park for somebody running, a reconcile that mints one for `p` comes
at least the lease after every reconcile that started `p`, and there was one. -/
theorem full_idle_grace {p : String} {founded : OrganizationManifest} {stamp : String}
    {start : Ledgers} {calls : List Call} {park : Call}
    (started : Holds start (ActivityLedger.initial founded stamp))
    (clock : ((calls ++ [park]).map Call.now).Pairwise (· ≤ ·))
    (safe : Throughout Call.attempt KeepsGrace calls start)
    (parks : ParksIdle p park (afterRun Call.attempt calls start)) :
    (∃ (earlier later : List Call) (rise : Call), calls = earlier ++ rise :: later ∧
      Rises p rise (afterRun Call.attempt earlier start)) ∧
    ∀ (earlier later : List Call) (rise : Call), calls = earlier ++ rise :: later →
      Rises p rise (afterRun Call.attempt earlier start) →
      rise.now + organizationSettledIdleStopLeaseMs ≤ park.now := by
  obtain ⟨⟨input, reconciles⟩, before, after, id, t, held, held', fresh, stored, rfl, routine⟩ := parks
  obtain ⟨current, found, range, unowned⟩ := runs_forcedUnowned calls started
  obtain rfl := found.unique held
  have parked : DesiredActive current t.personId ∧ ∀ t₀, GraceKept t.personId t₀ current →
      t₀ + organizationSettledIdleStopLeaseMs ≤ park.now := by
    cases ran : park.attempt (afterRun Call.attempt calls start) with
    | error failure =>
        rw [afterEvent_of_error ran] at held'
        obtain rfl := held.unique held'
        exact absurd (BTreeMap.mem_of_getElem? stored) fresh
    | ok ledgers' =>
        rw [afterEvent_of_ok ran] at held'
        obtain ⟨draft, published, left, committed⟩ := Call.attempt_eq_ok held ran
        obtain rfl := left.unique held'
        rw [reconciles] at committed
        exact committed.parked range unowned stored fresh routine
  obtain ⟨running, lease⟩ := parked
  constructor
  · obtain ⟨earlier, rise, later, split, rises⟩ := exists_rise started ⟨current, held, running⟩
    exact ⟨earlier, later, rise, split, rises⟩
  · intro earlier later rise split rises
    subst split
    have ordered := List.pairwise_append.mp (List.pairwise_map.mp clock)
    have since : ∀ call ∈ later, rise.now ≤ call.now :=
      (List.pairwise_cons.mp (List.pairwise_append.mp ordered.1).2.1).1
    have safeLater := (throughout_append.mp safe).2.2
    obtain ⟨ledger, stored', _, grace⟩ := grace_since_rise started rises since (by
      rw [afterRun_append, afterRun_cons, afterRun_nil]
      exact safeLater)
    obtain rfl := stored'.unique held
    exact lease rise.now grace

/-- A reconcile that asks for the worker. -/
def startWorker : Call :=
  atNoon (.reconcile { plainReconcile with requestedPersonIds := ["worker"] })

/-- A routine reconcile at the end of the lease. -/
def leaseLater : Call :=
  { atNoon (.reconcile plainReconcile) with now := noon + organizationSettledIdleStopLeaseMs }

/-- The call mints a routine idle park for the worker under this id. -/
def mintsWorkerPark (ledgers : Ledgers) (call : Call) (id : String) : Bool :=
  (ledgers.activity.bind DocumentBody.value?).any (fun before => id ∉ before.transitions) &&
    ((afterEvent Call.attempt ledgers call).activity.bind DocumentBody.value?).any fun after =>
      (after.transitions[id]?).any fun t => t.personId = "worker" ∧ isRoutineIdlePark t

theorem parksIdle_worker {ledgers : Ledgers} {call : Call} (id : String)
    (reconciles : ∃ input, call.op = .reconcile input)
    (mints : mintsWorkerPark ledgers call id = true) : ParksIdle "worker" call ledgers := by
  have stored {ledgers : Ledgers} {ledger : ActivityLedger}
      (held : ledgers.activity.bind DocumentBody.value? = some ledger) : Holds ledgers ledger := by
    unfold Holds
    obtain ⟨body, kept, read⟩ := Option.bind_eq_some_iff.mp held
    cases body with
    | undecodable => cases read
    | decoded value =>
        obtain rfl := Option.some.inj read
        exact kept
  simp only [mintsWorkerPark, Bool.and_eq_true, Option.any_eq_true, decide_eq_true_eq] at mints
  obtain ⟨⟨before, held, fresh⟩, after, held', t, found, owner, routine⟩ := mints
  exact ⟨reconciles, before, after, id, t, stored held, stored held', fresh, found, owner, routine⟩

/-- The worker is started, goes quiet at once, and is parked when the lease is over. -/
theorem full_idle_grace_quiet_worker :
    (∃ (earlier later : List Call) (rise : Call),
      [startWorker, atNoon (.noteAgentActivity "worker" false)] = earlier ++ rise :: later ∧
        Rises "worker" rise (afterRun Call.attempt earlier foundedLedgers)) ∧
    ∀ (earlier later : List Call) (rise : Call),
      [startWorker, atNoon (.noteAgentActivity "worker" false)] = earlier ++ rise :: later →
      Rises "worker" rise (afterRun Call.attempt earlier foundedLedgers) →
      rise.now + organizationSettledIdleStopLeaseMs ≤ leaseLater.now := by
  have started : Holds foundedLedgers (ActivityLedger.initial smallCompany (isoMillis noon)) := rfl
  refine full_idle_grace started (by decide) ⟨?_, ?_, trivial⟩
    (parksIdle_worker "transition:1:worker:park" ⟨plainReconcile, rfl⟩ (by decide +kernel))
  · exact fun _ _ parks => parks
  · exact fun _ _ parks => parks

/-- An idle park begun for the running worker, and a reconcile at the same instant. -/
def idlyBegun : Call :=
  atNoon (.beginTransition { personId := "worker", action := .park, reason := idleAutoParkReason })

/-- That reconcile mints an idle park for the worker in the instant they were started. -/
theorem begun_idle_park_skips_grace :
    ¬ ∀ (p : String) (founded : OrganizationManifest) (stamp : String) (start : Ledgers)
      (calls : List Call) (park : Call),
      validateOrganizationManifest founded = .ok () →
      Holds start (ActivityLedger.initial founded stamp) →
      ((calls ++ [park]).map Call.now).Pairwise (· ≤ ·) →
      ParksIdle p park (afterRun Call.attempt calls start) →
      ∃ (earlier later : List Call) (rise : Call), calls = earlier ++ rise :: later ∧
        Rises p rise (afterRun Call.attempt earlier start) ∧
        rise.now + organizationSettledIdleStopLeaseMs ≤ park.now := by
  intro grace
  have started : Holds foundedLedgers (ActivityLedger.initial smallCompany (isoMillis noon)) := rfl
  obtain ⟨earlier, later, rise, split, _, passed⟩ := grace "worker" smallCompany _ foundedLedgers
    [startWorker, idlyBegun] (atNoon (.reconcile plainReconcile)) smallCompany_valid started
    (by decide) (parksIdle_worker "transition:2:worker:park" ⟨plainReconcile, rfl⟩
      (by decide +kernel))
  have member : rise ∈ [startWorker, idlyBegun] := by
    rw [split]
    simp
  have early : rise.now = noon := by
    rcases List.mem_cons.mp member with rfl | second
    · rfl
    · obtain rfl := List.mem_singleton.mp second
      rfl
  rw [early] at passed
  exact absurd passed (by decide)

end Chief.Activity
