import CrisisMosaic.Contacts
import CrisisMosaic.JsonEquality
import CrisisMosaic.ReportListing

/-!
# Retention

A cleanup pass overwrites what residents supplied in the rows of incidents that have been closed
for long, and the contacts whose own deadline has passed.
-/

namespace CrisisMosaic
open Relational

def retentionMarker : String := "[retention-expired]"

/-- `updated_at` is set to the time of the flush when the row has changed. -/
def flushed {α : Type} [DecidableEq α] (stamp : α → α) (old new : α) : α :=
  if new = old then old else stamp new

section Rows
variable (now : Time)

def anonymizeReport (r : Report) : Report :=
  { r with
    contentOriginal := retentionMarker
    contentDisplay := retentionMarker
    place := ⟨retentionMarker, none, none, none⟩
    normalized := none
    locationAccuracyM := none
    locationSource := "retention"
    locationProvider := none
    locationObservedAt := none
    aiRefinementId := none
    deletedAt := some (r.deletedAt.getD now) }

/-- The blind index becomes a digest of the row's own key. -/
def anonymizeReporterContact (digest : Id → String) (id : Id) (c : StoredContact) : StoredContact :=
  if c.anonymizedAt.isSome then c
  else { c with
    fullNameCiphertext := retentionMarker
    fullNameMasked := retentionMarker
    mobileCiphertext := retentionMarker
    mobileBlindIndex := digest id
    mobileMasked := retentionMarker
    nationalIdCiphertext := none
    nationalIdBlindIndex := none
    nationalIdMasked := none
    emergencyNameCiphertext := none
    emergencyNameMasked := none
    emergencyMobileCiphertext := none
    emergencyMobileMasked := none
    emergencyRelationCiphertext := none
    emergencyRelationMasked := none
    rescueNotesCiphertext := none
    encryptionKeyVersion := "retention"
    anonymizedAt := some now }

end Rows

/-- The incidents that have been closed since the cutoff or longer. -/
def expiredIncidents (incidents : Table Incident) (closedAt : Table (Option Time)) (cutoff : Time) :
    List Id :=
  (incidents.select (·.status = .closed)).filter fun i => (closedAt.get i).join.any (· ≤ cutoff)

section Pass
variable (now stamped : Time)

def anonymizeReports (reports : Table Report) (incidentId : Id) : Table Report :=
  reports.sweep fun r =>
    if r.incidentId = incidentId then
      flushed (fun r => { r with updatedAt := stamped }) r (anonymizeReport now r)
    else r

/-- Of one incident; contacts on legal hold are left. -/
def anonymizeContacts (digest : Id → String) (contacts : Table StoredContact) (incidentId : Id) :
    Table StoredContact :=
  contacts.rewrite fun i c =>
    if c.incidentId = incidentId && !c.legalHold then anonymizeReporterContact now digest i c else c

/-- The pass finds the contact by its own deadline. -/
def StoredContact.IsDue (c : StoredContact) : Prop :=
  c.retentionUntil ≤ now ∧ c.legalHold = false ∧ c.anonymizedAt = none

instance (c : StoredContact) : Decidable (c.IsDue now) := inferInstanceAs (Decidable (_ ∧ _ ∧ _))

def expireContacts (digest : Id → String) (contacts : Table StoredContact) : Table StoredContact :=
  contacts.rewrite fun i c => if c.IsDue now then anonymizeReporterContact now digest i c else c

end Pass
end CrisisMosaic
