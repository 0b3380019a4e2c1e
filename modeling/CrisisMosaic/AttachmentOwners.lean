import CrisisMosaic.BoundAttachments
import CrisisMosaic.Relational.Keeps
import CrisisMosaic.ReportStages

/-!
# Owners of attachments

An attachment is bound to a report or to an answer of the device that uploaded it, and a
report counts the attachments that are bound to it. `OwnersStep` says what an operation of
the service does to the attachments and to the rows that may own them.
-/

namespace CrisisMosaic
open Relational

namespace Db
variable (db : Db)

def ReportOwns (r : Id) (a : Attachment) : Prop :=
  ∃ row, db.reports.get r = some row ∧ row.incidentId = a.incidentId ∧
    row.reporterDeviceId = a.uploaderDeviceId

def AnswerOwns (k : Id) (a : Attachment) : Prop :=
  ∃ answer q, db.answers.get k = some answer ∧ db.questions.get answer.questionId = some q ∧
    q.incidentId = a.incidentId ∧ answer.deviceId = a.uploaderDeviceId

def boundTo (r : Id) : List Id := db.attachments.select fun a => a.reportId = some r

structure Owned : Prop where
  exclusive : db.attachments.All fun _ a => a.reportId = none ∨ a.directedAnswerId = none
  report : db.attachments.All fun _ a => ∀ r ∈ a.reportId, db.ReportOwns r a
  answer : db.attachments.All fun _ a => ∀ k ∈ a.directedAnswerId, db.AnswerOwns k a
  counted : db.reports.All fun r row => row.attachmentCount = (db.boundTo r).length

end Db

/-- Two versions of a report that own the same attachments. -/
structure Report.SameOwner (r r' : Report) : Prop where
  incidentId : r'.incidentId = r.incidentId
  reporterDeviceId : r'.reporterDeviceId = r.reporterDeviceId
  attachmentCount : r'.attachmentCount = r.attachmentCount

theorem Report.SameOwner.refl (r : Report) : r.SameOwner r := ⟨rfl, rfl, rfl⟩

def DirectedAnswer.owner (a : DirectedAnswer) : Id × Id := (a.questionId, a.deviceId)

/-- What an operation does to the attachments and to the reports. -/
inductive Rebinds (db db' : Db) : Prop
  | kept : db'.attachments = db.attachments → db.reports.Related Report.SameOwner db'.reports →
      Rebinds db db'
  | posted {r r' : Report} {ids : List Id} : ids.Nodup →
      bindAttachments db.attachments db.reports.size r ids = .ok (db'.attachments, r') →
      db'.reports = db.reports.insert r' → Rebinds db db'
  | patched {id : Id} {r₀ r r' r'' : Report} {ids : List Id} : ids.Nodup →
      db.reports.get id = some r₀ → r₀.SameOwner r →
      replaceAttachments db.attachments id r ids = .ok (db'.attachments, r') → r'.SameOwner r'' →
      db'.reports = db.reports.modify id (fun _ => r'') → Rebinds db db'
  | answered {k : Id} {answer : DirectedAnswer} {q : DirectedQuestion} {ids : List Id} :
      db'.answers.get k = some answer → db.questions.get answer.questionId = some q →
      replaceAnswerAttachments db.attachments k q.incidentId answer.deviceId ids = .ok db'.attachments →
      db'.reports = db.reports → Rebinds db db'

structure OwnersStep (db db' : Db) : Prop where
  rebinds : Rebinds db db'
  answers : db.answers.Keeps DirectedAnswer.owner db'.answers
  questions : db.questions.Keeps (·.incidentId) db'.questions

section Binding
variable {t u : Table Attachment} {id incidentId deviceId : Id} {ids : List Id}

/-- The attachments bound to the report `id` are `ids` now. -/
structure Rebound (t u : Table Attachment) (id incidentId deviceId : Id) (ids : List Id) : Prop where
  bound : ∀ i ∈ ids, ∃ a, t.get i = some a ∧ a.incidentId = incidentId ∧
    a.uploaderDeviceId = deviceId ∧ (a.reportId = none ∨ a.reportId = some id) ∧
    a.directedAnswerId = none ∧ u.get i = some { a with reportId := some id }
  kept : ∀ i, i ∉ ids → u.get i = (t.get i).map fun a =>
    if a.reportId = some id then { a with reportId := none } else a

/-- The attachments bound to the answer `id` are `ids` now. -/
structure Reanswered (t u : Table Attachment) (id incidentId deviceId : Id) (ids : List Id) : Prop where
  bound : ∀ i ∈ ids, ∃ a, t.get i = some a ∧ a.incidentId = incidentId ∧
    a.uploaderDeviceId = deviceId ∧ a.reportId = none ∧
    u.get i = some { a with directedAnswerId := some id }
  kept : ∀ i, i ∉ ids → u.get i = (t.get i).map fun a =>
    if a.directedAnswerId = some id then { a with directedAnswerId := none } else a

theorem bindAttachments_rows {r r' : Report} (h : bindAttachments t id r ids = .ok (u, r')) :
    r' = { r with attachmentCount := ids.length } ∧
    (∀ i ∈ ids, ∃ a, t.get i = some a ∧ a.incidentId = r.incidentId ∧
      a.uploaderDeviceId = r.reporterDeviceId ∧ a.reportId = none ∧ a.directedAnswerId = none ∧
      u.get i = some { a with reportId := some id }) ∧
    ∀ i, i ∉ ids → u.get i = t.get i := by
  unfold bindAttachments loadBindableAttachments at h
  simp only [bind_ok, pure_ok, Prod.mk.injEq] at h
  obtain ⟨⟨⟩, hload, rfl, rfl⟩ := h
  have hget := Table.get_foldl_modify (f := fun a : Attachment => { a with reportId := some id })
    (fun _ => rfl) ids t
  refine ⟨rfl, fun i hi => ?_, fun i hi => ?_⟩
  · obtain ⟨a, ha, husable⟩ := loadAttachments_ok hload i hi
    simp only [Attachment.isUsableBy, Bool.and_eq_true, Bool.or_eq_true, decide_eq_true_eq,
      Option.isNone_iff_eq_none, or_self] at husable
    obtain ⟨⟨⟨⟨hincident, hdevice⟩, -⟩, hreport⟩, hanswer⟩ := husable
    refine ⟨a, ha, hincident, hdevice, hreport, hanswer, ?_⟩
    rw [hget, if_pos hi, ha]
    rfl
  · rw [hget, if_neg hi]

theorem bindAttachments_rebound {r r' : Report} (h : bindAttachments t id r ids = .ok (u, r'))
    (hfresh : t.All fun _ a => a.reportId ≠ some id) :
    Rebound t u id r.incidentId r.reporterDeviceId ids := by
  obtain ⟨-, hbound, hkept⟩ := bindAttachments_rows h
  constructor
  · intro i hi
    obtain ⟨a, ha, hincident, hdevice, hreport, hanswer, hu⟩ := hbound i hi
    exact ⟨a, ha, hincident, hdevice, Or.inl hreport, hanswer, hu⟩
  · intro i hi
    rw [hkept i hi]
    cases ha : t.get i with
    | none => rfl
    | some a => rw [Option.map_some, if_neg (hfresh i a ha)]

theorem replaceAttachments_rebound {r r' : Report}
    (h : replaceAttachments t id r ids = .ok (u, r'))
    (hincident : t.All fun _ a => a.reportId = some id → a.incidentId = r.incidentId) :
    Rebound t u id r.incidentId r.reporterDeviceId ids := by
  obtain ⟨-, hbound, hkept⟩ := bindAttachments_rows h
  constructor
  · intro i hi
    obtain ⟨b, hb, hincidentb, hdevice, hreport, hanswer, hu⟩ := hbound i hi
    rw [Table.get_sweep] at hb
    obtain ⟨a, ha, rfl⟩ := Option.map_eq_some_iff.mp hb
    by_cases hold : a.reportId = some id
    · have hreleased : (decide (a.reportId = some id) && decide (a.incidentId = r.incidentId)) = true := by
        simp [hold, hincident i a ha hold]
      rw [if_pos hreleased] at hincidentb hdevice hanswer hu
      exact ⟨a, ha, hincidentb, hdevice, Or.inr hold, hanswer, hu⟩
    · have hkept' : ¬ (decide (a.reportId = some id) && decide (a.incidentId = r.incidentId)) = true := by
        simp [hold]
      rw [if_neg hkept'] at hincidentb hdevice hreport hanswer hu
      exact ⟨a, ha, hincidentb, hdevice, Or.inl hreport, hanswer, hu⟩
  · intro i hi
    rw [hkept i hi, Table.get_sweep]
    cases ha : t.get i with
    | none => rfl
    | some a =>
      simp only [Option.map_some, Option.some.injEq, Bool.and_eq_true, decide_eq_true_eq]
      by_cases hold : a.reportId = some id
      · rw [if_pos ⟨hold, hincident i a ha hold⟩, if_pos hold]
      · rw [if_neg fun h => hold h.1, if_neg hold]

theorem replaceAnswerAttachments_reanswered
    (h : replaceAnswerAttachments t id incidentId deviceId ids = .ok u) :
    Reanswered t u id incidentId deviceId ids := by
  unfold replaceAnswerAttachments at h
  simp only [bind_ok, pure_ok] at h
  obtain ⟨⟨⟩, hload, rfl⟩ := h
  have hget := Table.get_foldl_modify (f := fun a : Attachment => { a with directedAnswerId := some id })
    (fun _ => rfl) ids (t.sweep fun a =>
      if a.directedAnswerId = some id then { a with directedAnswerId := none } else a)
  constructor
  · intro i hi
    obtain ⟨a, ha, husable⟩ := loadAttachments_ok hload i hi
    simp only [Attachment.isUsableBy, Bool.and_eq_true, decide_eq_true_eq,
      Option.isNone_iff_eq_none] at husable
    obtain ⟨⟨⟨⟨hincident, hdevice⟩, -⟩, hreport⟩, -⟩ := husable
    refine ⟨a, ha, hincident, hdevice, hreport, ?_⟩
    rw [hget, if_pos hi, Table.get_sweep, ha, Option.map_some, Option.map_some]
    split_ifs <;> rfl
  · intro i hi
    rw [hget, if_neg hi, Table.get_sweep]

end Binding

section Preservation
variable {db db' : Db}

theorem Rebound.mem_boundTo {id incidentId deviceId : Id} {ids : List Id}
    (h : Rebound db.attachments db'.attachments id incidentId deviceId ids) {r i : Id} :
    i ∈ db'.boundTo r ↔ if r = id then i ∈ ids else i ∈ db.boundTo r := by
  unfold Db.boundTo
  rw [Table.mem_select, Table.mem_select]
  by_cases hi : i ∈ ids
  · obtain ⟨a, ha, -, -, hreport, -, hb⟩ := h.bound i hi
    rw [hb, ha]
    by_cases hr : r = id
    · simp [hr, hi]
    · have hne : ¬ some id = some r := fun heq => hr (Option.some.inj heq).symm
      rcases hreport with hnone | hold
      · simp [hr, hne, hnone]
      · simp [hr, hold, Ne.symm hr]
  · rw [h.kept i hi]
    cases ha : db.attachments.get i with
    | none => simp [hi]
    | some a =>
      by_cases hold : a.reportId = some id
      · by_cases hr : r = id
        · simp [hr, hold, hi]
        · simp [hr, hold, Ne.symm hr]
      · by_cases hr : r = id
        · simp [hr, hold, hi]
        · simp [hr, hold]

theorem Db.AnswerOwns.kept {k : Id} {a b : Attachment} (h : db.AnswerOwns k a)
    (hanswers : db.answers.Keeps DirectedAnswer.owner db'.answers)
    (hquestions : db.questions.Keeps (·.incidentId) db'.questions)
    (hincident : b.incidentId = a.incidentId) (hdevice : b.uploaderDeviceId = a.uploaderDeviceId) :
    db'.AnswerOwns k b := by
  obtain ⟨answer, q, hk, hq, hsame, howner⟩ := h
  obtain ⟨answer', hk', hkept⟩ := hanswers k answer hk
  obtain ⟨hquestion, hdevice'⟩ := Prod.mk.inj hkept
  obtain ⟨q', hq', hincident'⟩ := hquestions answer.questionId q hq
  rw [← hquestion] at hq'
  refine ⟨answer', q', hk', hq', ?_, by rw [hdevice', howner, hdevice]⟩
  exact hincident'.trans (hsame.trans hincident.symm)

theorem boundTo_length {r : Id} (h : ∀ i, i ∈ db'.boundTo r ↔ i ∈ db.boundTo r) :
    (db'.boundTo r).length = (db.boundTo r).length :=
  ((List.perm_ext_iff_of_nodup (Table.nodup_select _ _) (Table.nodup_select _ _)).mpr h).length_eq

/-- A report is bound to other attachments. -/
theorem Db.Owned.rebound (h : db.Owned) {id incidentId deviceId : Id} {ids : List Id}
    (hids : ids.Nodup)
    (hrebound : Rebound db.attachments db'.attachments id incidentId deviceId ids)
    (hrow : ∃ row, db'.reports.get id = some row ∧ row.incidentId = incidentId ∧
      row.reporterDeviceId = deviceId ∧ row.attachmentCount = ids.length)
    (hreports : ∀ r, r ≠ id → db'.reports.get r = db.reports.get r)
    (hanswers : db.answers.Keeps DirectedAnswer.owner db'.answers)
    (hquestions : db.questions.Keeps (·.incidentId) db'.questions) : db'.Owned := by
  obtain ⟨row, hget, hincident, hdevice, hcount⟩ := hrow
  -- a row that is not named is what the release left of it
  have hothers : ∀ i b, i ∉ ids → db'.attachments.get i = some b →
      ∃ a, db.attachments.get i = some a ∧
        b = if a.reportId = some id then { a with reportId := none } else a := by
    intro i b hi hb
    rw [hrebound.kept i hi] at hb
    obtain ⟨a, ha, hab⟩ := Option.map_eq_some_iff.mp hb
    exact ⟨a, ha, hab.symm⟩
  constructor
  · intro i b hb
    by_cases hi : i ∈ ids
    · obtain ⟨a, -, -, -, -, hanswer, hu⟩ := hrebound.bound i hi
      obtain rfl := Option.some.inj (hu.symm.trans hb)
      exact Or.inr hanswer
    · obtain ⟨a, ha, rfl⟩ := hothers i b hi hb
      split_ifs
      · exact Or.inl rfl
      · exact h.exclusive i a ha
  · intro i b hb r hr
    by_cases hi : i ∈ ids
    · obtain ⟨a, -, ha, ha', -, -, hu⟩ := hrebound.bound i hi
      obtain rfl := Option.some.inj (hu.symm.trans hb)
      obtain rfl := Option.some.inj hr
      exact ⟨row, hget, hincident.trans ha.symm, hdevice.trans ha'.symm⟩
    · obtain ⟨a, ha, rfl⟩ := hothers i b hi hb
      split_ifs at hr with hold
      · exact absurd hr (Option.not_mem_none r)
      · have hne : r ≠ id := fun heq => hold (heq ▸ hr)
        obtain ⟨row', hrow', hsame⟩ := h.report i a ha r hr
        rw [if_neg hold]
        exact ⟨row', (hreports r hne).trans hrow', hsame⟩
  · intro i b hb k hk
    by_cases hi : i ∈ ids
    · obtain ⟨a, -, -, -, -, hanswer, hu⟩ := hrebound.bound i hi
      obtain rfl := Option.some.inj (hu.symm.trans hb)
      exact nomatch hanswer.symm.trans hk
    · obtain ⟨a, ha, rfl⟩ := hothers i b hi hb
      split_ifs at hk ⊢ with hold
      · exact (h.answer i a ha k hk).kept hanswers hquestions rfl rfl
      · exact (h.answer i a ha k hk).kept hanswers hquestions rfl rfl
  · intro r row' hrow'
    have hmem : ∀ i, i ∈ db'.boundTo r ↔ if r = id then i ∈ ids else i ∈ db.boundTo r :=
      fun i => hrebound.mem_boundTo
    by_cases hr : r = id
    · subst hr
      obtain rfl := Option.some.inj (hget.symm.trans hrow')
      simp only [if_true] at hmem
      rw [hcount]
      exact ((List.perm_ext_iff_of_nodup (Table.nodup_select _ _) hids).mpr hmem).length_eq.symm
    · simp only [if_neg hr] at hmem
      rw [h.counted r row' ((hreports r hr).symm.trans hrow')]
      exact (boundTo_length hmem).symm

/-- An answer is bound to other attachments. -/
theorem Db.Owned.reanswered (h : db.Owned) {k incidentId deviceId : Id} {ids : List Id}
    (hreanswered : Reanswered db.attachments db'.attachments k incidentId deviceId ids)
    {answer : DirectedAnswer} {q : DirectedQuestion} (hanswer : db'.answers.get k = some answer)
    (hq : db'.questions.get answer.questionId = some q) (hincident : q.incidentId = incidentId)
    (hdevice : answer.deviceId = deviceId) (hreports : db'.reports = db.reports)
    (hanswers : db.answers.Keeps DirectedAnswer.owner db'.answers)
    (hquestions : db.questions.Keeps (·.incidentId) db'.questions) : db'.Owned := by
  have hothers : ∀ i b, i ∉ ids → db'.attachments.get i = some b →
      ∃ a, db.attachments.get i = some a ∧
        b = if a.directedAnswerId = some k then { a with directedAnswerId := none } else a := by
    intro i b hi hb
    rw [hreanswered.kept i hi] at hb
    obtain ⟨a, ha, hab⟩ := Option.map_eq_some_iff.mp hb
    exact ⟨a, ha, hab.symm⟩
  constructor
  · intro i b hb
    by_cases hi : i ∈ ids
    · obtain ⟨a, -, -, -, hreport, hu⟩ := hreanswered.bound i hi
      obtain rfl := Option.some.inj (hu.symm.trans hb)
      exact Or.inl hreport
    · obtain ⟨a, ha, rfl⟩ := hothers i b hi hb
      split_ifs
      · exact Or.inr rfl
      · exact h.exclusive i a ha
  · intro i b hb r hr
    unfold Db.ReportOwns
    rw [hreports]
    by_cases hi : i ∈ ids
    · obtain ⟨a, -, -, -, hreport, hu⟩ := hreanswered.bound i hi
      obtain rfl := Option.some.inj (hu.symm.trans hb)
      exact nomatch hreport.symm.trans hr
    · obtain ⟨a, ha, rfl⟩ := hothers i b hi hb
      split_ifs at hr ⊢
      · exact h.report i a ha r hr
      · exact h.report i a ha r hr
  · intro i b hb j hj
    by_cases hi : i ∈ ids
    · obtain ⟨a, -, ha, ha', -, hu⟩ := hreanswered.bound i hi
      obtain rfl := Option.some.inj (hu.symm.trans hb)
      obtain rfl := Option.some.inj hj
      exact ⟨answer, q, hanswer, hq, hincident.trans ha.symm, hdevice.trans ha'.symm⟩
    · obtain ⟨a, ha, rfl⟩ := hothers i b hi hb
      split_ifs at hj ⊢
      · exact absurd hj (Option.not_mem_none j)
      · exact (h.answer i a ha j hj).kept hanswers hquestions rfl rfl
  · intro r row hrow
    rw [hreports] at hrow
    have hmem : ∀ i, i ∈ db'.boundTo r ↔ i ∈ db.boundTo r := by
      intro i
      unfold Db.boundTo
      rw [Table.mem_select, Table.mem_select]
      by_cases hi : i ∈ ids
      · obtain ⟨a, ha, -, -, -, hu⟩ := hreanswered.bound i hi
        simp [ha, hu]
      · rw [hreanswered.kept i hi]
        cases ha : db.attachments.get i with
        | none => simp
        | some a =>
          by_cases hold : a.directedAnswerId = some k
          · simp [hold]
          · simp [hold]
    rw [h.counted r row hrow]
    exact (boundTo_length hmem).symm

/-- The owner of an attachment and where it comes from. -/
def Attachment.owner (a : Attachment) : Id × Id × Option Id × Option Id :=
  (a.incidentId, a.uploaderDeviceId, a.reportId, a.directedAnswerId)

theorem owner_eq {a b : Attachment} : b.owner = a.owner ↔ b.incidentId = a.incidentId ∧
    b.uploaderDeviceId = a.uploaderDeviceId ∧ b.reportId = a.reportId ∧
    b.directedAnswerId = a.directedAnswerId := by
  simp only [Attachment.owner, Prod.mk.injEq]

/-- The attachments keep their owners, and new ones have none. -/
theorem Db.Owned.uploaded (h : db.Owned)
    (hattachments : db.attachments.Keeps Attachment.owner db'.attachments)
    (hnew : ∀ i b, db'.attachments.get i = some b → db.attachments.get i = none →
      b.reportId = none ∧ b.directedAnswerId = none)
    (hreports : db.reports.Related Report.SameOwner db'.reports)
    (hanswers : db.answers.Keeps DirectedAnswer.owner db'.answers)
    (hquestions : db.questions.Keeps (·.incidentId) db'.questions) : db'.Owned := by
  have hrow : ∀ i b, db'.attachments.get i = some b →
      (b.reportId = none ∧ b.directedAnswerId = none) ∨
      ∃ a, db.attachments.get i = some a ∧ b.owner = a.owner := by
    intro i b hb
    cases ha : db.attachments.get i with
    | none => exact Or.inl (hnew i b hb ha)
    | some a =>
      obtain ⟨b', hb', hsame⟩ := hattachments i a ha
      obtain rfl := Option.some.inj (hb.symm.trans hb')
      exact Or.inr ⟨a, rfl, hsame⟩
  constructor
  · intro i b hb
    rcases hrow i b hb with ⟨hnone, -⟩ | ⟨a, ha, hsame⟩
    · exact Or.inl hnone
    · obtain ⟨-, -, hreport, hanswer⟩ := owner_eq.mp hsame
      rw [hreport, hanswer]
      exact h.exclusive i a ha
  · intro i b hb r hr
    rcases hrow i b hb with ⟨hnone, -⟩ | ⟨a, ha, hsame⟩
    · exact nomatch hnone.symm.trans hr
    · obtain ⟨hincident, hdevice, hreport, -⟩ := owner_eq.mp hsame
      obtain ⟨row, hget, hrow, hrow'⟩ := h.report i a ha r (hreport ▸ hr)
      obtain ⟨row', hget', hkept⟩ := hreports.right_of_some hget
      exact ⟨row', hget', hkept.incidentId.trans (hrow.trans hincident.symm),
        hkept.reporterDeviceId.trans (hrow'.trans hdevice.symm)⟩
  · intro i b hb k hk
    rcases hrow i b hb with ⟨-, hnone⟩ | ⟨a, ha, hsame⟩
    · exact nomatch hnone.symm.trans hk
    · obtain ⟨hincident, hdevice, -, hanswer⟩ := owner_eq.mp hsame
      exact (h.answer i a ha k (hanswer ▸ hk)).kept hanswers hquestions hincident hdevice
  · intro r row' hget'
    obtain ⟨row, hget, hkept⟩ := hreports.left_of_some hget'
    rw [hkept.attachmentCount, h.counted r row hget]
    apply Eq.symm
    apply boundTo_length
    intro i
    unfold Db.boundTo
    rw [Table.mem_select, Table.mem_select]
    constructor
    · rintro ⟨b, hb, hr⟩
      rcases hrow i b hb with ⟨hnone, -⟩ | ⟨a, ha, hsame⟩
      · simp [hnone] at hr
      · exact ⟨a, ha, (owner_eq.mp hsame).2.2.1 ▸ hr⟩
    · rintro ⟨a, ha, hr⟩
      obtain ⟨b, hb, hsame⟩ := hattachments i a ha
      exact ⟨b, hb, (owner_eq.mp hsame).2.2.1 ▸ hr⟩

theorem OwnersStep.owned (h : OwnersStep db db') (hdb : db.Owned) : db'.Owned := by
  obtain ⟨hrebinds, hanswers, hquestions⟩ := h
  cases hrebinds with
  | kept hattachments hreports =>
    apply hdb.uploaded _ _ hreports hanswers hquestions
    · rw [hattachments]
      exact .refl _ _
    · intro i b hb hnone
      rw [hattachments, hnone] at hb
      exact nomatch hb
  | @posted r r' ids hids hbind hreports =>
    have hfresh : db.attachments.All fun _ a => a.reportId ≠ some db.reports.size := by
      intro i a ha hr
      obtain ⟨row, hrow, -⟩ := hdb.report i a ha _ hr
      exact absurd (Table.lt_size hrow) (Nat.lt_irrefl _)
    obtain ⟨hr', -, -⟩ := bindAttachments_rows hbind
    apply hdb.rebound hids (bindAttachments_rebound hbind hfresh) _ _ hanswers hquestions
    · refine ⟨r', by rw [hreports, Table.get_insert_size], ?_, ?_, ?_⟩
      · rw [hr']
      · rw [hr']
      · rw [hr']
    · intro j hj
      rw [hreports, Table.get_insert, if_neg hj]
  | @patched id r₀ r r' r'' ids hids hget hsame hreplace hsame' hreports =>
    have hincident : db.attachments.All fun _ a => a.reportId = some id →
        a.incidentId = r.incidentId := by
      intro i a ha hr
      obtain ⟨row, hrow, hrow', -⟩ := hdb.report i a ha id hr
      obtain rfl := Option.some.inj (hget.symm.trans hrow)
      exact hrow'.symm.trans hsame.incidentId.symm
    obtain ⟨hr', -, -⟩ := bindAttachments_rows hreplace
    apply hdb.rebound hids (replaceAttachments_rebound hreplace hincident) _ _ hanswers hquestions
    · refine ⟨r'', ?_, hsame'.incidentId.trans ?_, hsame'.reporterDeviceId.trans ?_,
        hsame'.attachmentCount.trans ?_⟩
      · rw [hreports, Table.get_modify_self, hget]
        rfl
      · rw [hr']
      · rw [hr']
      · rw [hr']
    · intro j hj
      rw [hreports, Table.get_modify_of_ne _ _ (Ne.symm hj)]
  | @answered k answer q ids hanswer hq hreplace hreports =>
    obtain ⟨q', hq', hincident⟩ := hquestions _ q hq
    exact hdb.reanswered (replaceAnswerAttachments_reanswered hreplace) hanswer hq' hincident rfl
      hreports hanswers hquestions

end Preservation
end CrisisMosaic
