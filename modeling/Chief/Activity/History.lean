/-
Module: Chief.Activity.History
Layer: Proofs
Purpose: Terminal transitions are history. Along every run that never begins a lifecycle park over an
  applied idle one, a finished record keeps its status and every stamp agrees with its status.
Trusted boundary: none
Main exports: Operation.OverwritesHistory, HistoryKept, Operation.body_history,
  terminal_transitions_are_history
-/
import Chief.Activity.Validity

namespace Chief.Activity

open Foundation ActivityLedger

/-! ### One operation -/

/-- The operation begins a lifecycle park for somebody whose transition is an applied park nobody
owns: the one case in which a finished record is in the way of a request and gets cancelled. -/
def Operation.OverwritesHistory (op : Operation) (draft : ActivityLedger) : Prop :=
  match op with
  | .beginTransition input => input.action = .park ∧ input.intentId.isSome = true ∧
      ∃ current, draft.activeTransition input.personId = some current ∧ current.action = .park ∧
        current.intentId = none ∧ current.status = .applied
  | _ => False

/-- The scope in which every transition only moves on. -/
def historyScope (manifest : OrganizationManifest) (stamp : String) : Scope where
  manifest := manifest
  stamp := stamp
  fits := False
  touches _ := True
  rewrites _ _ := True
  moves before after := StatusFollows before.status after.status
  opens _ := True

/-- Cancelling anything that is not applied is moving on. -/
theorem follows_cancelled {before : TransitionStatus} (unapplied : before ≠ .applied) :
    StatusFollows before .cancelled := by
  cases before with
  | applied => exact absurd rfl unapplied
  | cancelled => exact .refl _
  | forced => exact .inr (.inr ⟨rfl, rfl⟩)
  | awaitingHandoff | overdue | ready => exact .inr (.inl ⟨rfl, by simp⟩)

/-- An operation that overwrites no history only moves transitions on. -/
theorem Operation.body_history {op : Operation} {draft draft' : ActivityLedger}
    {ctx : ActivityContext} {stamp : String} (named : Named draft)
    (order : draft.personOrder = ctx.manifest.peopleOrder) (safe : ¬ op.OverwritesHistory draft)
    (ran : op.body draft ctx stamp = .ok draft') :
    ∃ n, Edits (historyScope ctx.manifest stamp) n draft draft' := by
  cases kind : op with
  | reconcile input =>
      subst kind
      obtain ⟨chief, n, _, edits⟩ := Operation.reconcile_edits named order
        (False.elim : False → RecordsFit ctx.manifest stamp) False.elim ran
      have within : (wideScope (passOf chief input ctx stamp) False (fun _ => True)
          fun _ => True).Within (historyScope ctx.manifest stamp) :=
        { manifest := rfl
          stamp := rfl
          fits := False.elim
          touches := fun _ _ => trivial
          moves := fun _ _ orderly => orderly.status
          opens := fun _ _ => trivial
          rewrites := fun _ _ _ => trivial }
      exact ⟨n, edits.widen within⟩
  | beginTransition | settleAppliedMove | abandonTransition | release | noteAgentActivity |
    applyPointerClears | reconcileStructural =>
      have isCommand : ∀ input, op ≠ .reconcile input := by simp [kind]
      have commanded : ∃ n ≤ op.mostMinted ctx.manifest, Edits (commandScope ctx.manifest stamp False
          (fun before after => StatusFollows before.status after.status) fun _ => True) n draft
            draft' := by
        refine Operation.command_edits isCommand named False.elim
          (fun _ _ advances => advances.status)
          (fun input current begins owed superseding => follows_cancelled fun applied => ?_)
          (fun _ _ _ _ _ => trivial) ran
        subst begins
        simp only [supersedes, supersededByPark, supersededByIntent, applied, Bool.or_eq_true,
          decide_eq_true_eq, ne_eq, not_true_eq_false, false_and, and_false, or_false] at superseding
        obtain ⟨park, parks, intent, unowned⟩ := superseding
        have asked : input.intentId.isSome = true := by
          simpa [BeginTransitionInput.spec] using intent
        exact safe ⟨parks, asked, current, owed, park, unowned, applied⟩
      obtain ⟨n, _, edits⟩ := commanded
      have within : (commandScope ctx.manifest stamp False
          (fun before after => StatusFollows before.status after.status) fun _ => True).Within
          (historyScope ctx.manifest stamp) :=
        { manifest := rfl
          stamp := rfl
          fits := False.elim
          touches := fun _ _ => trivial
          moves := fun _ _ follows => follows
          opens := fun _ _ => trivial
          rewrites := fun _ _ _ => trivial }
      exact ⟨n, edits.widen within⟩

/-! ### One step of history -/

/-- What happened to the records between two ledgers: numbers only went up, and whatever is there now
was there before and moved on, or carries a number of its own. -/
structure HistoryKept (before after : ActivityLedger) : Prop where
  next : before.nextTransitionSequence ≤ after.nextTransitionSequence
  record : ∀ (id : String) (t' : GracefulTransition), after.transitions[id]? = some t' →
    (∃ t : GracefulTransition, before.transitions[id]? = some t ∧ StatusFollows t.status t'.status) ∨
      ∃ sequence, transitionSequence id = some sequence ∧
        before.nextTransitionSequence ≤ sequence

theorem HistoryKept.refl (ledger : ActivityLedger) : HistoryKept ledger ledger :=
  ⟨le_refl _, fun _ t' found => .inl ⟨t', found, .refl _⟩⟩

theorem HistoryKept.trans {first second third : ActivityLedger} (one : HistoryKept first second)
    (two : HistoryKept second third) : HistoryKept first third := by
  refine ⟨one.next.trans two.next, fun id t' found => ?_⟩
  rcases two.record id t' found with ⟨t, here, follows⟩ | ⟨sequence, numbered, above⟩
  · rcases one.record id t here with ⟨t₀, there, earlier⟩ | fresh
    · exact .inl ⟨t₀, there, earlier.trans follows⟩
    · exact .inr fresh
  · exact .inr ⟨sequence, numbered, one.next.trans above⟩

/-- A ledger every record of which has a number below the counter and stamps that agree with its
status. -/
structure WellStamped (ledger : ActivityLedger) : Prop where
  numbered : ∀ id ∈ ledger.transitions, ∃ sequence, transitionSequence id = some sequence ∧
    sequence < ledger.nextTransitionSequence
  stamps : ∀ (id : String) (t : GracefulTransition), ledger.transitions[id]? = some t →
    StampsAgree t

section Commit

variable {op : Operation} {manifest : OrganizationManifest} {supervision : SupervisionLedger}
  {now : Int} {current draft published : ActivityLedger}

/-- A commit that overwrites no history keeps the records and their stamps. -/
theorem Committed.history
    (committed : Committed op manifest supervision now current draft published)
    (before : InRange current) (stamped : WellStamped current)
    (safe : ¬ op.OverwritesHistory (repairedDraft manifest now current)) :
    HistoryKept current published ∧ WellStamped published := by
  have ranges := committed.inRange before
  have repaired : Repaired current (repairedDraft manifest now current) :=
    reconcilePeople_repaired current manifest (isoMillis now)
  have order : (repairedDraft manifest now current).personOrder =
      (contextOf manifest supervision now).manifest.peopleOrder := reconcilePeople_order _ _ _
  obtain ⟨n, edits⟩ := Operation.body_history ranges.wired.named order safe committed.ran
  have next := repaired.next
  have grown := edits.next ranges.wired.small
  have kept : ∀ (id : String) (t' : GracefulTransition), draft.transitions[id]? = some t' →
      (∃ t : GracefulTransition, current.transitions[id]? = some t ∧
        StatusFollows t.status t'.status) ∨
        ∃ sequence, transitionSequence id = some sequence ∧
          current.nextTransitionSequence ≤ sequence := by
    intro id t' found
    refine edits.origin ranges.wired.small
      (fun id t' => (∃ t : GracefulTransition, current.transitions[id]? = some t ∧
        StatusFollows t.status t'.status) ∨
        ∃ sequence, transitionSequence id = some sequence ∧
          current.nextTransitionSequence ≤ sequence)
      (fun id t t' holds move => ?_) (fun ledger t opening above below => ?_)
      (fun id t stored => ?_) found
    · rcases holds with ⟨t₀, here, follows⟩ | fresh
      · exact .inl ⟨t₀, here, follows.trans move.allowed⟩
      · exact .inr fresh
    · refine .inr ⟨ledger.nextTransitionSequence, ?_, by omega⟩
      rw [opening.id, transitionSequence_transitionId _ _ below]
    · obtain ⟨t₀, here, carried⟩ := repaired.transition stored
      exact .inl ⟨t₀, here, carried.order.status⟩
  have agree : ∀ (id : String) (t : GracefulTransition), draft.transitions[id]? = some t → StampsAgree t := by
    intro id t found
    refine edits.origin ranges.wired.small (fun _ t => StampsAgree t)
      (fun id t t' holds move => move.stamps (fun cancelled => ?_) holds)
      (fun _ _ opening _ _ => opening.stamps) (fun id t stored => ?_) found
    · intro applied
      have follows : StatusFollows t.status t'.status := move.allowed
      rw [show t'.status = .cancelled from cancelled, applied] at follows
      rcases follows with same | ⟨live, _⟩ | ⟨forced, _⟩
      · cases same
      · cases live
      · cases forced
    · obtain ⟨t₀, here, carried⟩ := repaired.transition stored
      exact carried.stamps (stamped.stamps id t₀ here)
  obtain ⟨_, records⟩ := committed.records
  have counter : current.nextTransitionSequence ≤ published.nextTransitionSequence := by
    rcases committed.published with ⟨rfl, _⟩ | ⟨rfl, _⟩
    · exact le_refl _
    · have small := before.small
      show _ ≤ draft.nextTransitionSequence
      omega
  refine ⟨⟨counter, fun id t' found => kept id t' (records ▸ found)⟩, fun id member => ?_,
    fun id t found => agree id t (records ▸ found)⟩
  rcases committed.published with ⟨rfl, _⟩ | ⟨_, valid⟩
  · exact stamped.numbered id member
  · obtain ⟨t, found⟩ := BTreeMap.mem_iff_getElem?.mp member
    exact (valid.wired ranges.published.small).numbered found

end Commit

/-! ### Every run -/

/-- The call overwrites no history in the ledger it finds. -/
def KeepsHistory (call : Call) (ledgers : Ledgers) : Prop :=
  ∀ current, Holds ledgers current →
    ¬ call.op.OverwritesHistory (repairedDraft call.manifest call.now current)

/-- Once finished, finished alike: applied and cancelled records stay as they are, and a forced one may
only be cancelled. -/
structure Immutable (before after : TransitionStatus) : Prop where
  applied : before = .applied → after = .applied
  cancelled : before = .cancelled → after = .cancelled
  forced : before = .forced → after = .forced ∨ after = .cancelled

theorem StatusFollows.immutable {before after : TransitionStatus}
    (follows : StatusFollows before after) : Immutable before after := by
  rcases follows with rfl | ⟨live, _⟩ | ⟨rfl, rfl⟩
  · exact ⟨id, id, .inl⟩
  · refine ⟨?_, ?_, ?_⟩ <;> rintro rfl <;> cases live
  · exact ⟨by simp, by simp, fun _ => .inr rfl⟩

/-- Between any two points of a run from a fresh ledger whose calls overwrite no history, finished
records are immutable, and the stamps of every record agree with its status. -/
theorem terminal_transitions_are_history {founded : OrganizationManifest} {stamp : String}
    {start : Ledgers} {earlier later : List Call}
    (started : Holds start (ActivityLedger.initial founded stamp))
    (safe : Throughout Call.attempt KeepsHistory (earlier ++ later) start) :
    ∃ before after : ActivityLedger, Holds (afterRun Call.attempt earlier start) before ∧
      Holds (afterRun Call.attempt (earlier ++ later) start) after ∧
      (∀ (id : String) (t : GracefulTransition), after.transitions[id]? = some t →
        StampsAgree t) ∧
      ∀ (id : String) (t t' : GracefulTransition), before.transitions[id]? = some t →
        after.transitions[id]? = some t' → Immutable t.status t'.status := by
  obtain ⟨safeEarlier, safeLater⟩ := throughout_append.mp safe
  have fresh : WellStamped (ActivityLedger.initial founded stamp) :=
    ⟨fun id member => by simp [ActivityLedger.initial] at member,
      fun id t found => by simp [ActivityLedger.initial] at found⟩
  obtain ⟨before, stored, range, stamped⟩ := runs_hold WellStamped safeEarlier
    (fun call ledgers current draft published meets stored range committed stamped =>
      (committed.history range stamped (meets current stored)).2)
    ⟨_, started, initial_inRange founded stamp, fresh⟩
  obtain ⟨after, stored', _, stamped', kept⟩ := runs_hold
    (fun after => WellStamped after ∧ HistoryKept before after) safeLater
    (fun call ledgers current draft published meets stored range committed held => by
      obtain ⟨kept, stamped⟩ := committed.history range held.1 (meets current stored)
      exact ⟨stamped, held.2.trans kept⟩)
    ⟨before, stored, range, stamped, .refl before⟩
  rw [← afterRun_append] at stored'
  refine ⟨before, after, stored, stored', stamped'.stamps, fun id t t' found found' => ?_⟩
  rcases kept.record id t' found' with ⟨t₀, here, follows⟩ | ⟨sequence, numbered, above⟩
  · rw [found] at here
    obtain rfl := Option.some.inj here
    exact follows.immutable
  · obtain ⟨old, numbered', below⟩ := stamped.numbered id (BTreeMap.mem_of_getElem? found)
    rw [numbered] at numbered'
    obtain rfl := Option.some.inj numbered'
    omega

/-- The worker is parked without an intent, releases the park, and a reconcile applies it. -/
def parkedWorker : List Call :=
  [atNoon (.beginTransition { personId := "worker", action := .park, reason := "Pause." }),
    atNoon (.release { transitionId := "transition:1:worker:park", personId := "worker" }),
    atNoon (.reconcile plainReconcile)]

/-- The records of those calls survive another reconcile as they are. -/
theorem terminal_transitions_are_history_parked : ∃ before after : ActivityLedger,
    Holds (afterRun Call.attempt parkedWorker foundedLedgers) before ∧
      Holds (afterRun Call.attempt (parkedWorker ++ [atNoon (.reconcile plainReconcile)])
        foundedLedgers) after ∧
      (∀ (id : String) (t : GracefulTransition), after.transitions[id]? = some t →
        StampsAgree t) ∧
      ∀ (id : String) (t t' : GracefulTransition), before.transitions[id]? = some t →
        after.transitions[id]? = some t' → Immutable t.status t'.status := by
  have started : Holds foundedLedgers (ActivityLedger.initial smallCompany (isoMillis noon)) := rfl
  refine terminal_transitions_are_history started ⟨?_, ?_, ?_, ?_, trivial⟩
  · rintro current _ ⟨_, intent, _⟩
    cases intent
  · exact fun _ _ overwrites => overwrites
  · exact fun _ _ overwrites => overwrites
  · exact fun _ _ overwrites => overwrites

/-- A lifecycle stop begun over the applied park. -/
def stopParked : Call :=
  atNoon (.beginTransition
    { personId := "worker", action := .park, reason := "Stop.", intentId := some "stop" })

/-- Beginning that stop cancels the applied record. -/
theorem applied_park_is_cancelled :
    ¬ ∀ (founded : OrganizationManifest) (stamp : String) (start : Ledgers)
      (earlier later : List Call) (before after : ActivityLedger),
      validateOrganizationManifest founded = .ok () →
      Holds start (ActivityLedger.initial founded stamp) →
      Holds (afterRun Call.attempt earlier start) before →
      Holds (afterRun Call.attempt (earlier ++ later) start) after →
      ∀ (id : String) (t t' : GracefulTransition), before.transitions[id]? = some t →
        after.transitions[id]? = some t' → Immutable t.status t'.status := by
  intro immutable
  have started : Holds foundedLedgers (ActivityLedger.initial smallCompany (isoMillis noon)) := rfl
  obtain ⟨before, held, _⟩ := runs_inRange parkedWorker started
  obtain ⟨after, held', _⟩ := runs_inRange (parkedWorker ++ [stopParked]) started
  have finished : (((afterRun Call.attempt parkedWorker foundedLedgers).activity.bind DocumentBody.value?).any fun ledger =>
      (ledger.transitions["transition:1:worker:park"]?).any fun t => t.status = .applied) = true := by
    decide +kernel
  have rewritten : (((afterRun Call.attempt (parkedWorker ++ [stopParked])
      foundedLedgers).activity.bind DocumentBody.value?).any fun ledger =>
      (ledger.transitions["transition:1:worker:park"]?).any fun t => t.status = .cancelled) = true := by
    decide +kernel
  rw [show (afterRun Call.attempt parkedWorker foundedLedgers).activity =
    some (.decoded before) from held] at finished
  rw [show (afterRun Call.attempt (parkedWorker ++ [stopParked]) foundedLedgers).activity =
    some (.decoded after) from held'] at rewritten
  simp only [Option.bind_some, DocumentBody.value?, Option.any_some, Option.any_eq_true, decide_eq_true_eq] at finished rewritten
  obtain ⟨t, found, applied⟩ := finished
  obtain ⟨t', found', cancelled⟩ := rewritten
  have same := (immutable smallCompany _ _ _ _ before after smallCompany_valid started held held' _
    t t' found found').applied applied
  rw [cancelled] at same
  cases same

end Chief.Activity
