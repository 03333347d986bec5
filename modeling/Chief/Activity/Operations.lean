/-
Module: Chief.Activity.Operations
Layer: Model
Purpose: The eight operations of the activity store as one type, and one equation for what a
  successful one does to the stored ledger.
Trusted boundary: human-reviewed translation
Main exports: Operation, Operation.body, Operation.run, Operation.run_eq_ok, Operation.body_edits
-/
import Chief.Activity.Passes
import Chief.Activity.Repair

namespace Chief.Activity

open Foundation ActivityLedger

/-- Every way the activity ledger is written after it is created. -/
inductive Operation where
  | beginTransition (input : BeginTransitionInput)
  | settleAppliedMove (personId : String)
  | abandonTransition (transitionId personId reason : String)
  | release (input : ReleaseInput)
  | noteAgentActivity (personId : String) (working : Bool)
  | applyPointerClears (actions : List ClearPointerAction)
  | reconcile (input : ReconcileInput)
  | reconcileStructural

namespace Operation

/-- What the operation does to the repaired draft. -/
def body (op : Operation) (draft : ActivityLedger) (ctx : ActivityContext) (stamp : String) :
    Except ChiefdError ActivityLedger :=
  match op with
  | .beginTransition input => (beginTransitionBody input draft ctx stamp).map Prod.snd
  | .settleAppliedMove personId => (settleAppliedMoveBody personId draft ctx stamp).map Prod.snd
  | .abandonTransition transitionId personId reason =>
      (abandonTransitionBody transitionId personId reason draft ctx stamp).map Prod.snd
  | .release input => (releaseBody input draft ctx stamp).map Prod.snd
  | .noteAgentActivity personId working =>
      (noteAgentActivityBody personId working draft ctx stamp).map Prod.snd
  | .applyPointerClears actions => (applyPointerClearsBody actions draft ctx stamp).map Prod.snd
  | .reconcile input => do
      let chief ← liftRefusal ctx.manifest.chiefPersonId
      (reconcileBody chief input draft ctx stamp).map Prod.snd
  | .reconcileStructural => .ok draft

/-- The operation itself. -/
def run (op : Operation) (ledgers : Ledgers) (manifest : OrganizationManifest)
    (supervision : SupervisionLedger) : Except ChiefdError Ledgers :=
  match op with
  | .beginTransition input => (Activity.beginTransition ledgers manifest supervision input).map Prod.snd
  | .settleAppliedMove personId =>
      (Activity.settleAppliedMove ledgers manifest supervision personId).map Prod.snd
  | .abandonTransition transitionId personId reason =>
      (Activity.abandonTransition ledgers manifest supervision transitionId personId reason).map
        Prod.snd
  | .release input => (Activity.release ledgers manifest supervision input).map Prod.snd
  | .noteAgentActivity personId working =>
      (Activity.noteAgentActivity ledgers manifest supervision personId working).map Prod.snd
  | .applyPointerClears actions =>
      (Activity.applyPointerClears ledgers manifest supervision actions).map Prod.snd
  | .reconcile input => (Activity.reconcile ledgers manifest supervision input).map Prod.snd
  | .reconcileStructural => (Activity.reconcileStructural ledgers manifest).map Prod.snd

/-- The most transitions the operation can open. -/
def mostMinted (op : Operation) (manifest : OrganizationManifest) : Nat :=
  match op with
  | .beginTransition _ => 1
  | .reconcile _ => manifest.peopleOrder.length
  | _ => 0

end Operation

/-! ### One commit -/

/-- The draft every operation starts from. -/
def repairedDraft (manifest : OrganizationManifest) (now : Int) (current : ActivityLedger) :
    ActivityLedger :=
  (reconcilePeople current manifest (isoMillis now)).1

/-- The context every body reads. -/
def contextOf (manifest : OrganizationManifest) (supervision : SupervisionLedger) (now : Int) :
    ActivityContext :=
  { manifest := manifest, supervision := supervision, now := now }

/-- How a successful operation leaves the stored ledger. -/
structure Committed (op : Operation) (manifest : OrganizationManifest)
    (supervision : SupervisionLedger) (now : Int) (current draft published : ActivityLedger) :
    Prop where
  repaired : Valid manifest (repairedDraft manifest now current)
  ran : op.body (repairedDraft manifest now current) (contextOf manifest supervision now)
    (isoMillis now) = .ok draft
  published : (published = current ∧ draft = current) ∨
    (published = { draft with updatedAt := isoMillis now } ∧ Valid manifest published)

/-- The ledger a working set holds. -/
def Holds (ledgers : Ledgers) (ledger : ActivityLedger) : Prop :=
  ledgers.activity = some (.decoded ledger)

theorem holds_put (ledgers : Ledgers) (ledger : ActivityLedger) :
    Holds (put ledgers ledger) ledger := rfl

theorem readForMutation_eq_ok {ledgers : Ledgers} {ledger : ActivityLedger} :
    readForMutation ledgers = .ok ledger ↔ Holds ledgers ledger := by
  unfold readForMutation Holds
  cases ledgers.activity with
  | none => simp
  | some stored => cases stored <;> simp

/-- The stamp of a publication is no rule's business. -/
theorem valid_updatedAt {manifest : OrganizationManifest} {ledger : ActivityLedger}
    {stamp : String} :
    Valid manifest { ledger with updatedAt := stamp } ↔ Valid manifest ledger :=
  ⟨fun valid => { valid with }, fun valid => { valid with }⟩

theorem mutate_eq_ok {α : Type} {ledgers ledgers' : Ledgers} {manifest : OrganizationManifest}
    {supervision : SupervisionLedger} {body : Body α} {result : α}
    (ran : mutate ledgers manifest supervision body = .ok (result, ledgers')) :
    ∃ current draft published, Holds ledgers current ∧ Holds ledgers' published ∧
      Valid manifest (repairedDraft manifest ledgers.now current) ∧
      body (repairedDraft manifest ledgers.now current)
        (contextOf manifest supervision ledgers.now) (isoMillis ledgers.now) =
          .ok (result, draft) ∧
      ((published = current ∧ draft = current) ∨
        (published = { draft with updatedAt := isoMillis ledgers.now } ∧
          Valid manifest published)) := by
  simp only [mutate, bind_eq_ok, asStoreFailure_eq_ok] at ran
  obtain ⟨current, read, _, repaired, ⟨result', draft⟩, done, ran⟩ := ran
  have holds := readForMutation_eq_ok.mp read
  rw [validate_eq_ok_iff] at repaired
  dsimp only at ran
  split at ran
  · simp only [bind_eq_ok, liftRefusal_eq_ok, Except.ok.injEq, Prod.mk.injEq] at ran
    obtain ⟨_, valid, rfl, rfl⟩ := ran
    rw [validate_eq_ok_iff] at valid
    exact ⟨current, draft, { draft with updatedAt := isoMillis ledgers.now }, holds, holds_put _ _,
      repaired, done, .inr ⟨rfl, valid⟩⟩
  · rename_i unchanged
    push Not at unchanged
    cases ran
    exact ⟨current, draft, current, holds, holds, repaired, done, .inl ⟨rfl, unchanged.2⟩⟩

theorem reconcileStructural_eq_ok {ledgers ledgers' : Ledgers} {manifest : OrganizationManifest}
    {changed : Bool} (ran : reconcileStructural ledgers manifest = .ok (changed, ledgers')) :
    ∃ current published, Holds ledgers current ∧ Holds ledgers' published ∧
      Valid manifest (repairedDraft manifest ledgers.now current) ∧
      ((published = current ∧ repairedDraft manifest ledgers.now current = current) ∨
        (published = { repairedDraft manifest ledgers.now current with
            updatedAt := isoMillis ledgers.now } ∧ Valid manifest published)) := by
  simp only [reconcileStructural, bind_eq_ok] at ran
  obtain ⟨current, read, ran⟩ := ran
  have holds := readForMutation_eq_ok.mp read
  have shape : (reconcilePeople current manifest (isoMillis ledgers.now)).1 =
    repairedDraft manifest ledgers.now current := rfl
  rw [shape] at ran
  refine ⟨current, ?_⟩
  generalize repairedDraft manifest ledgers.now current = draft at ran ⊢
  split at ran
  · rename_i same
    simp only [bind_eq_ok, asStoreFailure_eq_ok, Except.ok.injEq, Prod.mk.injEq] at ran
    obtain ⟨_, valid, rfl, rfl⟩ := ran
    rw [validate_eq_ok_iff] at valid
    exact ⟨current, holds, holds, valid, .inl ⟨rfl, same⟩⟩
  · simp only [bind_eq_ok, asStoreFailure_eq_ok, Except.ok.injEq, Prod.mk.injEq] at ran
    obtain ⟨_, valid, rfl, rfl⟩ := ran
    rw [validate_eq_ok_iff] at valid
    exact ⟨_, holds, holds_put _ _, valid_updatedAt.mp valid, .inr ⟨rfl, valid⟩⟩

theorem ok_map_snd {α β : Type} {outcome : Except ChiefdError (α × β)} {b : β}
    (ran : outcome.map Prod.snd = .ok b) : ∃ a, outcome = .ok (a, b) := by
  cases outcome with
  | error e => cases ran
  | ok pair =>
      cases ran
      exact ⟨pair.1, rfl⟩

/-- A successful operation read a ledger and left one that it committed. -/
theorem Operation.run_eq_ok {op : Operation} {ledgers ledgers' : Ledgers}
    {manifest : OrganizationManifest} {supervision : SupervisionLedger}
    (ran : op.run ledgers manifest supervision = .ok ledgers') :
    ∃ current draft published, Holds ledgers current ∧ Holds ledgers' published ∧
      Committed op manifest supervision ledgers.now current draft published := by
  cases op with
  | reconcile input =>
      obtain ⟨result, ran⟩ := ok_map_snd ran
      simp only [Activity.reconcile, bind_eq_ok] at ran
      obtain ⟨chief, isChief, ran⟩ := ran
      obtain ⟨current, draft, published, before, after, repaired, done, left⟩ := mutate_eq_ok ran
      refine ⟨current, draft, published, before, after, repaired, ?_, left⟩
      have known : liftRefusal (contextOf manifest supervision ledgers.now).manifest.chiefPersonId =
        .ok chief := isChief
      simp only [Operation.body, known, ok_bind, done]
      rfl
  | reconcileStructural =>
      obtain ⟨result, ran⟩ := ok_map_snd ran
      obtain ⟨current, published, before, after, repaired, left⟩ := reconcileStructural_eq_ok ran
      exact ⟨current, _, published, before, after, repaired, rfl, left⟩
  | beginTransition | settleAppliedMove | abandonTransition | release | noteAgentActivity |
    applyPointerClears =>
      obtain ⟨result, ran⟩ := ok_map_snd ran
      obtain ⟨current, draft, published, before, after, repaired, done, left⟩ := mutate_eq_ok ran
      refine ⟨current, draft, published, before, after, repaired, ?_, left⟩
      simp only [Operation.body, done]
      rfl

/-- A successful reconcile: the pass it ran and the commit it made. -/
structure ReconcileCommit (ledgers ledgers' : Ledgers) (manifest : OrganizationManifest)
    (supervision : SupervisionLedger) (input : ReconcileInput) (snapshot : ActivitySnapshot)
    (chief : String) (current : ActivityLedger) (middle final : ReconcileState)
    (published : ActivityLedger) : Prop where
  isChief : manifest.chiefPersonId = .ok chief
  before : Holds ledgers current
  after : Holds ledgers' published
  run : PassRun
    (passOf chief input (contextOf manifest supervision ledgers.now) (isoMillis ledgers.now))
    (prepare
      (passOf chief input (contextOf manifest supervision ledgers.now) (isoMillis ledgers.now))
      input.requested (repairedDraft manifest ledgers.now current)) middle final snapshot.people
  committed : Committed (.reconcile input) manifest supervision ledgers.now current final.draft
    published

theorem Committed.records {op : Operation} {manifest : OrganizationManifest}
    {supervision : SupervisionLedger} {now : Int} {current draft published : ActivityLedger}
    (committed : Committed op manifest supervision now current draft published) :
    published.people = draft.people ∧ published.transitions = draft.transitions := by
  rcases committed.published with ⟨rfl, rfl⟩ | ⟨rfl, _⟩ <;> exact ⟨rfl, rfl⟩

theorem reconcile_eq_ok {ledgers ledgers' : Ledgers} {manifest : OrganizationManifest}
    {supervision : SupervisionLedger} {input : ReconcileInput} {snapshot : ActivitySnapshot}
    (ran : reconcile ledgers manifest supervision input = .ok (snapshot, ledgers')) :
    ∃ chief current middle final published, ReconcileCommit ledgers ledgers' manifest supervision
      input snapshot chief current middle final published := by
  simp only [reconcile, bind_eq_ok, liftRefusal_eq_ok] at ran
  obtain ⟨chief, isChief, ran⟩ := ran
  obtain ⟨current, draft, published, before, after, repaired, done, left⟩ := mutate_eq_ok ran
  obtain ⟨_, middle, final, run, rfl⟩ := reconcileBody_eq_ok.mp done
  refine ⟨chief, current, middle, final, published, isChief, before, after, run, repaired, ?_, left⟩
  have known : liftRefusal (contextOf manifest supervision ledgers.now).manifest.chiefPersonId =
    .ok chief := liftRefusal_eq_ok.mpr isChief
  simp only [Operation.body, known, ok_bind, done]
  rfl

/-! ### Scopes of operations -/

/-- The scope that allows everything an edit can do. -/
def anyScope (manifest : OrganizationManifest) (stamp : String) (fits : Prop) : Scope where
  manifest := manifest
  stamp := stamp
  fits := fits
  touches _ := True
  rewrites _ _ := True
  moves _ _ := True
  opens _ := True

theorem within_anyScope (scope : Scope) :
    scope.Within (anyScope scope.manifest scope.stamp scope.fits) where
  manifest := rfl
  stamp := rfl
  fits holds := holds
  touches _ _ := trivial
  rewrites _ _ _ := trivial
  moves _ _ _ := trivial
  opens _ _ := trivial

/-- The quiet instants the operation would copy can be read back. -/
def Operation.QuietReadable (op : Operation) (now : Int) (ledger : ActivityLedger) : Prop :=
  match op with
  | .reconcile input => Activity.QuietReadable input.watching now ledger
  | _ => True

/-! ### Commands -/

/-- How a command moves a transition on. It applies only what is no removal. -/
structure Advances (before after : GracefulTransition) : Prop where
  status : StatusFollows before.status after.status
  applied : after.status = .applied → before.status = .applied ∨ before.action.isRemoval = false

/-- What a command leaves of the last decision and of the reports: nothing but reports made now. -/
structure ReportsFollow (stamp : String) (before after : PersonActivityState) : Prop where
  desired : after.lastDesiredActive = before.lastDesiredActive
  quiet : ∀ value ∈ after.agentQuietAt, value ∈ before.agentQuietAt ∨ value = stamp
  active : ∀ value ∈ after.agentActiveAt, value ∈ before.agentActiveAt ∨ value = stamp

/-- The scope of a command. -/
def commandScope (manifest : OrganizationManifest) (stamp : String) (fits : Prop)
    (moves : GracefulTransition → GracefulTransition → Prop)
    (opens : GracefulTransition → Prop) : Scope where
  manifest := manifest
  stamp := stamp
  fits := fits
  touches _ := True
  rewrites := ReportsFollow stamp
  moves := moves
  opens := opens

theorem ReportsFollow.same {stamp : String} {before after : PersonActivityState}
    (desired : after.lastDesiredActive = before.lastDesiredActive)
    (quiet : after.agentQuietAt = before.agentQuietAt)
    (active : after.agentActiveAt = before.agentActiveAt) : ReportsFollow stamp before after :=
  ⟨desired, fun _ member => .inl (quiet ▸ member), fun _ member => .inl (active ▸ member)⟩

theorem reportsFollow_reported (state : PersonActivityState) (working : Bool)
    (stamp updatedAt : String) :
    ReportsFollow stamp state { state.reported working stamp with updatedAt := updatedAt } := by
  unfold PersonActivityState.reported
  split
  · refine ⟨rfl, (fun value member => by cases member), fun value member => ?_⟩
    exact .inr (Option.some.inj member).symm
  · refine ⟨rfl, fun value member => ?_, (fun value member => by cases member)⟩
    exact .inr (Option.some.inj member).symm

/-- Cancelling a pending handoff is an advance. -/
theorem advances_cancelled {before after : GracefulTransition}
    (pending : before.status.isPending = true) (cancelled : after.status = .cancelled) :
    Advances before after := by
  refine ⟨.inr (.inl ⟨?_, by simp [cancelled]⟩), by simp [cancelled]⟩
  cases status : before.status <;> simp_all [TransitionStatus.isPending, TransitionStatus.isTerminal]

/-- Every command is a chain of edits that only advance what they find, but for what a begin
supersedes. -/
theorem Operation.command_edits {op : Operation} {draft draft' : ActivityLedger}
    {ctx : ActivityContext} {stamp : String} {fits : Prop}
    {moves : GracefulTransition → GracefulTransition → Prop} {opens : GracefulTransition → Prop}
    (isCommand : ∀ input, op ≠ .reconcile input) (named : Named draft)
    (sound : fits → RecordsFit ctx.manifest stamp)
    (advances : ∀ before after, Advances before after → moves before after)
    (superseded : ∀ input current, op = .beginTransition input →
      draft.activeTransition input.personId = some current →
        supersedes input.spec current = true → moves current (current.cancelledAs stamp))
    (opened : ∀ input id placement requested, op = .beginTransition input →
      opens (mintedTransition input.spec id placement stamp requested))
    (ran : op.body draft ctx stamp = .ok draft') :
    ∃ n ≤ op.mostMinted ctx.manifest,
      Edits (commandScope ctx.manifest stamp fits moves opens) n draft draft' := by
  have lax : (commandScope ctx.manifest stamp fits moves opens).Sound :=
    ⟨sound, fun _ => .same rfl rfl rfl, fun _ _ => .same rfl rfl rfl⟩
  cases op with
  | beginTransition input =>
      obtain ⟨t, ran⟩ := ok_map_snd ran
      obtain ⟨rules, ensured⟩ := beginTransitionBody_eq_ok ran
      exact ensureMatchingTransition_edits lax named ensured trivial (fun _ => rules)
        (fun current owed superseding => superseded input current rfl owed superseding)
        (fun _ id placement requested => opened input id placement requested rfl)
  | settleAppliedMove personId =>
      obtain ⟨t, ran⟩ := ok_map_snd ran
      refine ⟨0, le_refl _, settleAppliedMoveBody_edits lax named ran rfl trivial
        (fun current owed kind released => advances _ _ ?_) (fun _ _ => .same rfl rfl rfl)⟩
      exact ⟨(orderly_appliedAs stamp released).status, fun _ => .inr kind⟩
  | abandonTransition transitionId personId reason =>
      obtain ⟨t, ran⟩ := ok_map_snd ran
      exact ⟨0, le_refl _, abandonTransitionBody_edits lax ran trivial
        fun _ _ pending => advances _ _ (advances_cancelled pending rfl)⟩
  | release input =>
      obtain ⟨t, ran⟩ := ok_map_snd ran
      exact ⟨0, le_refl _, releaseBody_edits ran trivial fun _ _ live =>
        advances _ _ ⟨.inr (.inl ⟨live, by simp⟩), by simp⟩⟩
  | noteAgentActivity personId working =>
      obtain ⟨t, ran⟩ := ok_map_snd ran
      exact ⟨0, le_refl _, noteAgentActivityBody_edits lax named ran trivial
        (fun _ _ pending => advances _ _ (advances_cancelled pending rfl))
        (fun state updatedAt => reportsFollow_reported state working stamp updatedAt)⟩
  | applyPointerClears actions =>
      have ran : (applyPointerClearsBody actions draft ctx stamp).map Prod.snd = .ok draft' := ran
      obtain ⟨t, ran⟩ := ok_map_snd ran
      exact ⟨0, le_refl _, applyPointerClearsBody_edits lax ran fun _ _ => trivial⟩
  | reconcile input => exact absurd rfl (isCommand input)
  | reconcileStructural =>
      cases ran
      exact ⟨0, le_refl _, .refl⟩

/-- A reconcile is the pass of its executive. -/
theorem Operation.reconcile_edits {input : ReconcileInput} {draft draft' : ActivityLedger}
    {ctx : ActivityContext} {stamp : String} {fits : Prop} (named : Named draft)
    (order : draft.personOrder = ctx.manifest.peopleOrder)
    (sound : fits → RecordsFit ctx.manifest stamp)
    (quiet : fits → Activity.QuietReadable input.watching ctx.now draft)
    (ran : (Operation.reconcile input).body draft ctx stamp = .ok draft') :
    ∃ chief, ∃ n ≤ ctx.manifest.peopleOrder.length,
      Edits (wideScope (passOf chief input ctx stamp) fits (fun _ => True) fun _ => True) n draft
        draft' := by
  simp only [Operation.body, bind_eq_ok] at ran
  obtain ⟨chief, _, ran⟩ := ran
  obtain ⟨snapshot, ran⟩ := ok_map_snd ran
  obtain ⟨_, middle, final, run, rfl⟩ := reconcileBody_eq_ok.mp ran
  have passSound : fits → RecordsFit (passOf chief input ctx stamp).manifest
    (passOf chief input ctx stamp).stamp := sound
  obtain ⟨n, bounded, edits⟩ := pass_edits passSound quiet named run
  rw [order] at bounded
  exact ⟨chief, n, bounded, edits⟩

/-! ### Every operation is a chain of edits -/

theorem Operation.body_edits {op : Operation} {draft draft' : ActivityLedger}
    {ctx : ActivityContext} {stamp : String} {fits : Prop} (named : Named draft)
    (order : draft.personOrder = ctx.manifest.peopleOrder)
    (sound : fits → RecordsFit ctx.manifest stamp)
    (quiet : fits → op.QuietReadable ctx.now draft)
    (ran : op.body draft ctx stamp = .ok draft') :
    ∃ n ≤ op.mostMinted ctx.manifest,
      Edits (anyScope ctx.manifest stamp fits) n draft draft' := by
  cases kind : op with
  | reconcile input =>
      subst kind
      obtain ⟨chief, n, bounded, edits⟩ := Operation.reconcile_edits named order sound quiet ran
      exact ⟨n, bounded, edits.widen (within_anyScope _)⟩
  | beginTransition | settleAppliedMove | abandonTransition | release | noteAgentActivity |
    applyPointerClears | reconcileStructural =>
      have isCommand : ∀ input, op ≠ .reconcile input := by simp [kind]
      rw [← kind]
      have commanded : ∃ n ≤ op.mostMinted ctx.manifest, Edits
          (commandScope ctx.manifest stamp fits (fun _ _ => True) fun _ => True) n draft draft' :=
        Operation.command_edits isCommand named sound (fun _ _ _ => trivial)
          (fun _ _ _ _ _ => trivial) (fun _ _ _ _ _ => trivial) ran
      obtain ⟨n, bounded, edits⟩ := commanded
      exact ⟨n, bounded, edits.widen (within_anyScope _)⟩

end Chief.Activity
