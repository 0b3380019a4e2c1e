import CrisisMosaic.RefinedReports
import CrisisMosaic.Relational.Outcomes

/-!
# Declared errors

The requests about reports refuse with errors the service declares; none of their own steps ends in
an internal error.
-/

namespace CrisisMosaic
open Relational

def ApiError.IsDeclared (e : ApiError) : Prop := e.statusCode ≠ 500

/-- The answer is a normal one or an error the service declares. -/
abbrev Declared {α : Type} (x : Result α) : Prop := FailsWith ApiError.IsDeclared x

section Errors

theorem missing_declared (code message : String) (details : Dict) :
    (⟨404, code, message, details⟩ : ApiError).IsDeclared := (by decide : (404 : ℕ) ≠ 500)

theorem notFound_declared (resource : String) : (notFound resource).IsDeclared := missing_declared _ _ _

theorem conflictError_declared (code message : String) (details : Dict) :
    (conflictError code message details).IsDeclared := (by decide : (409 : ℕ) ≠ 500)

theorem unprocessable_declared (code message : String) : (unprocessable code message).IsDeclared :=
  (by decide : (422 : ℕ) ≠ 500)

theorem forbidden_declared (code message : String) : (forbidden code message).IsDeclared :=
  (by decide : (403 : ℕ) ≠ 500)

end Errors

section Access
variable {db : Db} {actor : Actor} {header : Option Ref}

theorem assertIncidentAccess_declared (id : Id) (incident : Incident) :
    Declared (assertIncidentAccess actor id incident header) := by
  apply FailsWith.check (forbidden_declared _ _)
  intro _
  exact FailsWith.require (forbidden_declared _ _)

theorem assertReportAccess_declared (report : Report) (write : Bool) :
    Declared (assertReportAccess actor report write) := by
  apply FailsWith.check (forbidden_declared _ _)
  intro _
  apply FailsWith.check (forbidden_declared _ _)
  intro _
  exact FailsWith.require (forbidden_declared _ _)

theorem getReport_declared (reports : Table Report) (id : Id) : Declared (getReport reports id) := by
  apply FailsWith.lookup (notFound_declared _)
  intro report _
  apply FailsWith.check (notFound_declared _)
  intro _
  exact FailsWith.pure report

theorem checkRequest_declared (report : Report) (revision : ℕ) :
    Declared (checkRequest db actor header report revision) := by
  apply FailsWith.lookup (missing_declared _ _ _)
  intro incident _
  apply FailsWith.bind (assertIncidentAccess_declared _ incident)
  intro _ _
  exact FailsWith.require (conflictError_declared _ _ _)

theorem openReport_declared (id revision : ℕ) : Declared (openReport db actor header id revision) := by
  apply FailsWith.bind (getReport_declared _ id)
  intro report _
  apply FailsWith.bind (assertReportAccess_declared report true)
  intro _ _
  apply FailsWith.bind (checkRequest_declared report revision)
  intro _ _
  exact FailsWith.pure report

end Access

section Attachments
variable {attachments : Table Attachment}

theorem loadAttachments_declared (usable : Attachment → Bool) (ids : List Id) :
    Declared (loadAttachments attachments usable ids) := by
  apply FailsWith.check (unprocessable_declared _ _)
  intro _
  exact FailsWith.require (unprocessable_declared _ _)

theorem loadOwnAttachments_declared (incidentId : Id) (actor : Actor) (bound : Option Id)
    (ids : List Id) : Declared (loadOwnAttachments attachments incidentId actor bound ids) := by
  unfold loadOwnAttachments
  cases actor.subjectType <;> exact loadAttachments_declared _ ids

theorem bindAttachments_declared (id : Id) (report : Report) (ids : List Id) :
    Declared (bindAttachments attachments id report ids) := by
  apply FailsWith.bind (loadAttachments_declared _ ids)
  intro _ _
  exact FailsWith.pure _

theorem rebind_declared (p : ReportPatch) (id : Id) (report : Report) :
    Declared (p.rebind attachments id report) := by
  unfold ReportPatch.rebind
  split
  · exact FailsWith.pure _
  · exact FailsWith.throw (unprocessable_declared _ _)
  · exact bindAttachments_declared id report _

end Attachments

section Location
variable {env : Env} {now : Time}

theorem validateCoordinates_declared (latitude longitude : ℚ) :
    Declared (validateCoordinates latitude longitude) := by
  unfold validateCoordinates
  split_ifs
  · exact FailsWith.of_ok rfl
  · exact FailsWith.error (unprocessable_declared _ _)

theorem applyLocation_declared (location : ReportLocation) (report : Report) :
    Declared (applyLocation env now location report) := by
  apply FailsWith.check (unprocessable_declared _ _)
  intro _
  dsimp only
  split
  · apply FailsWith.bind (validateCoordinates_declared _ _)
    intro _ _
    exact FailsWith.pure _
  · exact FailsWith.pure _

theorem applyTo_declared (p : ReportPatch) (contact : Id) (report : Report) :
    Declared (p.applyTo env now contact report) := by
  unfold ReportPatch.applyTo
  dsimp only
  split
  · apply FailsWith.bind (applyLocation_declared _ _)
    intro _ _
    exact FailsWith.pure _
  · exact FailsWith.pure _

end Location

/-! ## Refinements -/

section Refinements
variable {env : Env}

theorem checkedRefinement_declared (t : RefinementTables) (actor : Actor) (analysisId incidentId : Id)
    (category : Category) (content locationText : String) (attachmentIds : List Id) (use : RefinementUse) :
    Declared (checkedRefinement env t actor analysisId incidentId category content locationText
      attachmentIds use) := by
  apply FailsWith.lookup (unprocessable_declared _ _)
  intro analysis _
  apply FailsWith.check (unprocessable_declared _ _)
  intro _
  apply FailsWith.check (forbidden_declared _ _)
  intro _
  apply FailsWith.check (unprocessable_declared _ _)
  intro _
  apply FailsWith.bind (loadOwnAttachments_declared _ _ _ attachmentIds)
  intro _ _
  apply FailsWith.lookup (unprocessable_declared _ _)
  intro report _
  apply FailsWith.lookup (unprocessable_declared _ _)
  intro request _
  apply FailsWith.check (unprocessable_declared _ _)
  intro _
  exact FailsWith.pure analysis

theorem refinedPriority_declared {check : Id → Result AiAnalysis} (h : ∀ id, Declared (check id))
    (analysisId : Option Id) : Declared (refinedPriority analysisId check) := by
  cases analysisId with
  | none => exact FailsWith.pure none
  | some id =>
    apply FailsWith.bind (h id)
    intro analysis _
    exact FailsWith.pure _

theorem patchRefinement_declared (s : RefinedState) (op : Op) (id : Id) (payload : ReportPatch) :
    Declared (patchRefinement env s op id payload) := by
  apply FailsWith.bind (openReport_declared id _)
  intro report _
  apply FailsWith.bind (applyTo_declared payload _ report)
  intro report _
  apply FailsWith.bind (rebind_declared payload id report)
  intro rebound _
  apply refinedPriority_declared
  intro analysisId
  exact checkedRefinement_declared _ _ _ _ _ _ _ _ _

end Refinements

/-! ## Observations -/

section Observations
variable {env : Env} {now : Time}

theorem evidenceSnapshot_declared (sources : Sources) (fragments : Table InformationFragment)
    (reference : EvidenceReference) (incidentId : Id) :
    Declared (evidenceSnapshot sources fragments reference incidentId) := by
  apply FailsWith.bind
  · unfold sourceVersion
    split
    · apply FailsWith.lookup (notFound_declared _)
      intro _ _
      apply FailsWith.check (unprocessable_declared _ _)
      intro _
      exact FailsWith.pure _
    · apply FailsWith.lookup (notFound_declared _)
      intro _ _
      apply FailsWith.check (unprocessable_declared _ _)
      intro _
      exact FailsWith.pure _
    · apply FailsWith.lookup (notFound_declared _)
      intro _ _
      apply FailsWith.check (unprocessable_declared _ _)
      intro _
      apply FailsWith.check (unprocessable_declared _ _)
      intro _
      exact FailsWith.pure _
    · apply FailsWith.lookup (notFound_declared _)
      intro _ _
      apply FailsWith.check (unprocessable_declared _ _)
      intro _
      exact FailsWith.pure _
  · intro version _
    apply FailsWith.check (conflictError_declared _ _ _)
    intro _
    exact FailsWith.pure version

theorem addEvidence_declared (sources : Sources) (fragments : Table InformationFragment)
    (conflictId incidentId : Id) (references : List EvidenceReference) (evidence : Table ConflictEvidence) :
    Declared (addEvidence env now sources fragments conflictId incidentId references evidence) := by
  induction references generalizing evidence with
  | nil => exact FailsWith.pure _
  | cons reference references ih =>
    apply FailsWith.bind (evidenceSnapshot_declared sources fragments reference incidentId)
    intro version _
    apply FailsWith.bind (ih _)
    intro _ _
    exact FailsWith.pure _

theorem detectStructuredFragmentConflict_declared (sources : Sources) (s : Store) (id : Id)
    (f : InformationFragment) : Declared (detectStructuredFragmentConflict env now sources s id f) := by
  unfold detectStructuredFragmentConflict
  split
  · exact FailsWith.pure none
  · apply FailsWith.map
    apply FailsWith.bind
    · apply FailsWith.bind (addEvidence_declared _ _ _ _ _ _)
      intro _ _
      exact FailsWith.pure _
    · intro _ _
      exact FailsWith.pure _

theorem processReportObservation_declared (db : Db) (id : Id) (report : Report) :
    Declared (processReportObservation env now db id report) := by
  unfold processReportObservation
  dsimp only
  split
  · exact FailsWith.pure _
  · apply FailsWith.bind (detectStructuredFragmentConflict_declared _ _ _ _)
    intro _ _
    exact FailsWith.pure _

theorem checkReporter_declared {p : ReportPatch}
    (h : ∀ outcome, p.reporter = some (some outcome) → Declared outcome) : Declared p.checkReporter := by
  unfold ReportPatch.checkReporter
  split
  · exact FailsWith.pure _
  · exact FailsWith.throw (unprocessable_declared _ _)
  · next outcome hreporter => exact h outcome hreporter

/-- An edit fails undeclared only where the contact service or the refinement service does. -/
theorem patchReport_declared {db : Db} {actor : Actor} {header : Option Ref} {id : Id}
    {payload : ReportPatch} {refinement : Result (Option Priority)} (hreporter : Declared payload.checkReporter)
    (hrefinement : Declared refinement) :
    Declared (patchReport env now db actor header id payload refinement) := by
  apply FailsWith.check (forbidden_declared _ _)
  intro _
  apply FailsWith.bind (openReport_declared id _)
  intro report _
  apply FailsWith.check (unprocessable_declared _ _)
  intro _
  apply FailsWith.check (unprocessable_declared _ _)
  intro _
  apply FailsWith.bind (applyTo_declared payload _ report)
  intro report _
  apply FailsWith.bind hreporter
  intro _ _
  apply FailsWith.bind (rebind_declared payload id report)
  intro rebound _
  apply FailsWith.bind
  · unfold validateReportRefinement
    split_ifs
    · exact hrefinement
    · exact FailsWith.pure none
  · intro ai _
    dsimp only
    split_ifs
    · exact processReportObservation_declared _ id _
    · exact FailsWith.pure _

end Observations
end CrisisMosaic
