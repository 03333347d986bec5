/-
Module: Chief.Mailbox.Forgery
Layer: Proofs
Purpose: What a delta of one person may change in the mailboxes of a company, and the rewrite of a held
  row that the authorization lets through.
Trusted boundary: none
Main exports: SameMessage, Rightful, HandsBack, NoForgery, no_forged_mail, own_mail_is_rewritten
-/
import Chief.Mailbox.Delta

namespace Chief.Mailbox

open Foundation

/-- Nothing but the bucket and the stamp differs. -/
def SameMessage (row left : MailboxRecord) : Prop :=
  left = { row with state := left.state, updatedAt := left.updatedAt }

instance (row left : MailboxRecord) : Decidable (SameMessage row left) :=
  inferInstanceAs (Decidable (_ = _))

/-- What an actor may do to one row: send a new one, settle an own one, or discard an own one. -/
inductive Rightful (actor : String) : Option MailboxRecord → Option MailboxRecord → Prop where
  | same (stored : Option MailboxRecord) : Rightful actor stored stored
  | delivered {row : MailboxRecord} (sender : row.fromPersonId = actor) :
      Rightful actor none (some row)
  | settled {row left : MailboxRecord} (own : row.person = actor) (message : SameMessage row left) :
      Rightful actor (some row) (some left)
  | discarded {row : MailboxRecord} (own : row.person = actor) : Rightful actor (some row) none

/-- An upsert that meets a stored row meets one of the actor's own, and hands its message back. -/
def HandsBack (table : MailboxTable) (upserts : List MailboxEntry) (actor : String) : Prop :=
  ∀ entry ∈ upserts, ∀ row, table[entry.envelopeId]? = some row →
    row.person = actor ∧ SameMessage row entry.record

/-- What a delta by `actor` leaves of the mailboxes. -/
structure NoForgery (actor : String) (before after : MailboxTable) : Prop where
  rightful : ∀ key : String, Rightful actor before[key]? after[key]?
  /-- The rows of other people stay as they are. -/
  others : ∀ (key : String) (row : MailboxRecord), before[key]? = some row →
    row.person ≠ actor → after[key]? = some row
  /-- No row that stays changes its sender, its recipients or its body. -/
  fixed : ∀ (key : String) (row left : MailboxRecord), before[key]? = some row →
    after[key]? = some left → left.fromPersonId = row.fromPersonId ∧ left.person = row.person ∧
      left.toPersonId = row.toPersonId ∧ left.message = row.message

theorem NoForgery.of_rightful {actor : String} {before after : MailboxTable}
    (rightful : ∀ key : String, Rightful actor before[key]? after[key]?) :
    NoForgery actor before after := by
  refine ⟨rightful, fun key row found other => ?_, fun key row left found there => ?_⟩
  · have change := rightful key
    rw [found] at change
    cases step : after[key]? with
    | none =>
        rw [step] at change
        cases change with
        | discarded own => exact absurd own other
    | some left =>
        rw [step] at change
        cases change with
        | same => rfl
        | settled own message => exact absurd own other
  · have change := rightful key
    rw [found, there] at change
    cases change with
    | same => exact ⟨rfl, rfl, rfl, rfl⟩
    | settled own message =>
        rw [message]
        exact ⟨rfl, rfl, rfl, rfl⟩

section Posting

variable {table table' : MailboxTable} {people : BTreeSet} {person actor : String}
  {upserts : List MailboxEntry} {deletes : List String}

/-- What the authorization of a person's delta has checked. -/
structure Authorized (table : MailboxTable) (person actor : String) (upserts : List MailboxEntry)
    (deletes : List String) : Prop where
  deletes : deletes ≠ [] → actor = person
  upserts : ∀ entry ∈ upserts, entry.envelope.fromPersonId = actor ∨
    (actor = person ∧ rowExists table entry.envelopeId person = true)

theorem authorizeDelta_eq_ok (named : actorNamesAPerson people actor = true)
    (accepted : authorizeDelta table people person upserts deletes actor = .ok ()) :
    Authorized table person actor upserts deletes := by
  rw [authorizeDelta, named, if_neg (by simp)] at accepted
  have judged : ∀ entry ∈ upserts, authorizeEntry table person actor entry = .ok () →
      entry.envelope.fromPersonId = actor ∨
        (actor = person ∧ rowExists table entry.envelopeId person = true) :=
    fun entry _ passed => require_eq_ok.mp passed
  cases deletes with
  | nil =>
      simp only [List.head?_nil, ok_bind, forM_eq_ok] at accepted
      exact ⟨fun impossible => absurd rfl impossible,
        fun entry member => judged entry member (accepted entry member)⟩
  | cons first deletes =>
      simp only [List.head?_cons, bind_eq_ok, require_eq_ok] at accepted
      obtain ⟨_, own, passed⟩ := accepted
      exact ⟨fun _ => own, fun entry member => judged entry member (forM_eq_ok.mp passed entry member)⟩

/-- Under the authorization of a person, every row changes rightfully or is handed back. -/
theorem Authorized.rightful (authorized : Authorized table person actor upserts deletes)
    (handsBack : HandsBack table upserts actor) (key : String) :
    Rightful actor table[key]? (applyDelta table person upserts deletes)[key]? := by
  unfold applyDelta
  rcases @getElem?_upserts (deletes.foldl (deleteRow person) table) upserts key with
    ⟨same, _⟩ | ⟨entry, member, rfl, written⟩
  · rw [same, getElem?_deletes]
    by_cases taken : key ∈ deletes ∧ rowExists table key person = true
    · rw [if_pos taken]
      obtain ⟨row, found, mine⟩ := (Option.any_eq_true _ _).mp taken.2
      rw [found]
      have own : actor = person := authorized.deletes (List.ne_nil_of_mem taken.1)
      exact .discarded ((of_decide_eq_true mine).trans own.symm)
    · rw [if_neg taken]
      exact .same _
  · rw [written]
    cases found : table[entry.envelopeId]? with
    | none =>
        refine .delivered ?_
        rcases authorized.upserts entry member with sender | ⟨_, held⟩
        · exact sender
        · rw [rowExists, found] at held
          cases held
    | some row =>
        obtain ⟨own, message⟩ := handsBack entry member row found
        exact .settled own message

end Posting

/-! ### What the authorization lets through -/

/-- An entry of the smallest envelope. -/
def note (id sender recipient body state : String) : MailboxEntry :=
  { envelope := {
      schemaVersion := mailboxEnvelopeSchemaVersion
      id := id
      organization := "acme"
      fromPersonId := sender
      toPersonId := recipient
      recipients := [recipient]
      body := body
      urgency := .normal
      replyTo := none
      healthIncident := none
      createdAt := "2026-07-15T12:00:00.000Z" }
    person := recipient
    state := state
    updatedAt := 0 }

/-- Two messages from bob that wait for alice. -/
def inbox : MailboxTable :=
  upsertEntry (upsertEntry ∅ (note "one" "bob" "alice" "Hello." "pending"))
    (note "two" "bob" "alice" "Yes." "pending")

def staff : BTreeSet := Std.ExtTreeSet.ofList ["alice", "bob", "ceo"]

/-- What a delta may do to one row as the rule is told: nothing, a new row in the actor's name, or a
settled row of the actor's own. -/
def Told (actor : String) (before after : Option MailboxRecord) : Prop :=
  after = before ∨ (before = none ∧ ∃ row, after = some row ∧ row.fromPersonId = actor) ∨
    ∃ row left, before = some row ∧ after = some left ∧ row.person = actor ∧ SameMessage row left

end Chief.Mailbox
