import Sentinel.Review.Appends

/-!
# Altered records

What a replay checks of a record is its event: the digest covers all its fields but the hash, and
the number and the previous hash tie it to the events before. The case next to it is taken as it
stands. Of its fields only the case id has a part in the checks, since it selects the log that the
event has to continue.

So an altered record is rejected if its event has changed. If its case has, it is rejected only when
the event ends up in the log of another case and one of the two logs has other events. All other
changes of a case are loaded. The appends of the session may have ended in any way, as long as the
ledger could be opened before it was altered.
-/

namespace Sentinel

open Chain InMemoryReviewRepository Text

variable {schema : LedgerSchema} {H : ReviewHashing} {before after records : List Record}
  {record record' : Record} {caseId : String}

/-! ## Logs with an altered record -/

theorem logOf_eq_nil_iff :
    logOf caseId records = [] ↔ ∀ record ∈ records, record.1.caseId ≠ caseId := by
  rw [logOf, List.map_eq_nil_iff, List.filter_eq_nil_iff]
  simp

theorem exists_of_mem_logOf {event : ReviewAuditEvent} (h : event ∈ logOf caseId records) :
    ∃ record ∈ records, record.1.caseId = caseId ∧ record.2 = event := by
  obtain ⟨record, hrecord, rfl⟩ := List.mem_map.mp h
  obtain ⟨hmem, hcaseId⟩ := List.mem_filter.mp hrecord
  exact ⟨record, hmem, by simpa using hcaseId, rfl⟩

theorem logOf_insert_self (before after : List Record) (record : Record) :
    logOf record.1.caseId (before ++ record :: after)
      = logOf record.1.caseId before ++ record.2 :: logOf record.1.caseId after := by
  rw [logOf_append, logOf_cons_self]

theorem logOf_insert_of_ne (h : record.1.caseId ≠ caseId) (before after : List Record) :
    logOf caseId (before ++ record :: after) = logOf caseId before ++ logOf caseId after := by
  rw [logOf_append, logOf_cons_of_ne h]

theorem Session.Written.genuine {session : Session} (h : session.Written schema H records)
    (hrecord : record ∈ records) : Genuine H record := by
  refine ⟨h.caseId_eq record hrecord, ?_⟩
  obtain ⟨before, after, rfl⟩ := List.append_of_mem hrecord
  have hlog := h.chained record.1.caseId
  rw [logOf_insert_self] at hlog
  exact hlog.rel_append.hash_eq

/-- An event whose digest is its hash cannot be altered and keep both. -/
theorem event_eq_of_hash_eq (hsha256 : Function.Injective H.sha256)
    {event event' : ReviewAuditEvent}
    (h : event.eventHash = auditEventDigest H.sha256 event.toAuditPayload)
    (h' : event'.eventHash = auditEventDigest H.sha256 event'.toAuditPayload)
    (hhash : event'.eventHash = event.eventHash) : event' = event := by
  have hdigest := h'.symm.trans (hhash.trans h)
  exact ReviewAuditEvent.ext_payload (auditEventDigest_injective hsha256 hdigest) hhash

/-- An event that has moved to the log of another case is alone in both logs. -/
theorem alone_of_chained (hsha256 : Function.Injective H.sha256)
    (h : Chained H (before ++ record :: after)) (h' : Chained H (before ++ record' :: after))
    (hgenuine : ∀ other ∈ before ++ record :: after, Genuine H other)
    (hevent : record'.2 = record.2)
    (hne : record'.1.caseId ≠ record.1.caseId) :
    ∀ other ∈ before ++ after,
      other.1.caseId ≠ record.1.caseId ∧ other.1.caseId ≠ record'.1.caseId := by
  have hlog := h record.1.caseId
  have hlog' := h' record'.1.caseId
  have hout := h' record.1.caseId
  have hout' := h record'.1.caseId
  rw [logOf_insert_self] at hlog hlog'
  rw [logOf_insert_of_ne hne] at hout
  rw [logOf_insert_of_ne hne.symm] at hout'
  rw [hevent] at hlog'
  have hafter := HashChain.eq_nil_of_left_out hlog hout
  have hafter' := HashChain.eq_nil_of_left_out hlog' hout'
  rw [hafter, List.append_nil] at hout
  rw [hafter', List.append_nil] at hout'
  rcases HashChain.Follows.digest_last hout hout' hlog.rel_append hlog'.rel_append with
    ⟨hbefore, hbefore'⟩ | ⟨event, hmem, event', hmem', hdigest⟩
  · intro other hother
    rcases List.mem_append.mp hother with hother | hother
    · exact ⟨logOf_eq_nil_iff.mp hbefore other hother, logOf_eq_nil_iff.mp hbefore' other hother⟩
    · exact ⟨logOf_eq_nil_iff.mp hafter other hother, logOf_eq_nil_iff.mp hafter' other hother⟩
  · obtain ⟨other, hother, hcaseId, rfl⟩ := exists_of_mem_logOf hmem
    obtain ⟨other', hother', hcaseId', rfl⟩ := exists_of_mem_logOf hmem'
    have hpayload := congrArg AuditPayload.caseId (auditEventDigest_injective hsha256 hdigest)
    have hagrees := (hgenuine other (List.mem_append_left _ hother)).caseId_eq
    have hagrees' := (hgenuine other' (List.mem_append_left _ hother')).caseId_eq
    exact absurd (hcaseId'.symm.trans (hagrees'.symm.trans (hpayload.symm.trans
      (hagrees.trans hcaseId)))) hne

/-- An altered case that is still the same case leaves the chains as they are. -/
theorem chained_of_caseId_eq (h : Chained H (before ++ record :: after))
    (hevent : record'.2 = record.2) (hsame : record'.1.caseId = record.1.caseId) :
    Chained H (before ++ record' :: after) := by
  intro caseId
  have hlog := h caseId
  by_cases hcaseId : record.1.caseId = caseId
  · subst hcaseId
    rw [logOf_insert_self] at hlog
    rwa [← hsame, logOf_insert_self, hevent, hsame]
  · rw [logOf_insert_of_ne hcaseId] at hlog
    rwa [logOf_insert_of_ne (hsame ▸ hcaseId)]

theorem logOf_eq_nil_of_forall (h : ∀ other ∈ before ++ after, other.1.caseId ≠ caseId) :
    logOf caseId before = [] ∧ logOf caseId after = [] := by
  constructor
  · exact logOf_eq_nil_iff.mpr fun other hother ↦ h other (List.mem_append_left _ hother)
  · exact logOf_eq_nil_iff.mpr fun other hother ↦ h other (List.mem_append_right _ hother)

theorem chained_of_alone (h : Chained H (before ++ record :: after))
    (hevent : record'.2 = record.2) (halone : ∀ other ∈ before ++ after,
      other.1.caseId ≠ record.1.caseId ∧ other.1.caseId ≠ record'.1.caseId) :
    Chained H (before ++ record' :: after) := by
  intro caseId
  obtain ⟨hbefore, hafter⟩ := logOf_eq_nil_of_forall fun other hother ↦ (halone other hother).1
  obtain ⟨hbefore', hafter'⟩ := logOf_eq_nil_of_forall fun other hother ↦ (halone other hother).2
  by_cases hcaseId' : record'.1.caseId = caseId
  · subst hcaseId'
    have hlog := h record.1.caseId
    rw [logOf_insert_self, hbefore, hafter] at hlog
    rw [logOf_insert_self, hbefore', hafter', hevent]
    exact hlog
  rw [logOf_insert_of_ne hcaseId']
  by_cases hcaseId : record.1.caseId = caseId
  · rw [← hcaseId, hbefore, hafter]
    exact .nil
  · have hlog := h caseId
    rwa [logOf_insert_of_ne hcaseId] at hlog

/-- **The alterations of one record that leave the chains intact**, its hash being kept. -/
theorem chained_altered_iff (hsha256 : Function.Injective H.sha256)
    (h : Chained H (before ++ record :: after))
    (hgenuine : ∀ other ∈ before ++ record :: after, Genuine H other)
    (hhash : record'.2.eventHash = record.2.eventHash) :
    Chained H (before ++ record' :: after) ↔ record'.2 = record.2 ∧
      (record'.1.caseId = record.1.caseId ∨ ∀ other ∈ before ++ after,
        other.1.caseId ≠ record.1.caseId ∧ other.1.caseId ≠ record'.1.caseId) := by
  constructor
  · intro h'
    have hrecord := (hgenuine record (List.mem_append_right _ List.mem_cons_self)).hash_eq
    have hlog' := h' record'.1.caseId
    rw [logOf_insert_self] at hlog'
    have hevent := event_eq_of_hash_eq hsha256 hrecord hlog'.rel_append.hash_eq hhash
    refine ⟨hevent, or_iff_not_imp_left.mpr fun hne ↦ ?_⟩
    exact alone_of_chained hsha256 h h' hgenuine hevent hne
  · rintro ⟨hevent, hsame | halone⟩
    · exact chained_of_caseId_eq h hevent hsame
    · exact chained_of_alone h hevent halone

/-! ## Files with an altered record -/

theorem exists_error_iff {ε α : Type*} {x : Except ε α} :
    (∃ error, x = .error error) ↔ ¬∃ value, x = .ok value := by
  cases x <;> simp

theorem not_open_of_altered_event (hschema : schema.Lawful)
    (hsha256 : Function.Injective H.sha256) {line line' text' : List Char}
    (hline : TornRecords schema H line) (hline' : line' ∈ splitlines text')
    (hread : readRecord schema line = some record)
    (hread' : readRecord schema line' = some record')
    (hhash : record'.2.eventHash = record.2.eventHash) (hevent : record'.2 ≠ record.2) :
    ¬∃ memory, openLedger schema H (some text') = .ok memory := by
  rintro ⟨memory, hopen⟩
  obtain ⟨_, _, _, htaken⟩ := exists_replayLine_of_mem hopen hline'
  have hrecord := (hline.eq_serialize hschema hread).2
  have hfollows := ((replayLine_of_readRecord hread').mp htaken).1
  exact hevent (event_eq_of_hash_eq hsha256 hrecord.hash_eq hfollows.hash_eq hhash)

/-- Opening a ledger of which one line has been replaced by a line with another record. -/
theorem openLedger_altered_iff (hschema : schema.Lawful) (hsha256 : Function.Injective H.sha256)
    (hchained : Chained H (before ++ record :: after))
    (hgenuine : ∀ other ∈ before ++ record :: after, Genuine H other) {line' text' : List Char}
    (hlines' : splitlines text'
      = before.map (serialize schema) ++ line' :: after.map (serialize schema))
    (hread' : readRecord schema line' = some record')
    (hhash : record'.2.eventHash = record.2.eventHash) :
    (∃ memory, openLedger schema H (some text') = .ok memory) ↔ record'.2 = record.2 ∧
      (record'.1.caseId = record.1.caseId ∨ ∀ other ∈ before ++ after,
        other.1.caseId ≠ record.1.caseId ∧ other.1.caseId ≠ record'.1.caseId) := by
  have hread : (splitlines text').map (readRecord schema)
      = (before ++ record' :: after).map some := by
    rw [hlines', List.map_append, List.map_cons, List.map_append, List.map_cons, hread',
      map_readRecord_serialize hschema, map_readRecord_serialize hschema]
  rw [← chained_altered_iff hsha256 hchained hgenuine hhash, openLedger]
  constructor
  · rintro ⟨memory, hopen⟩
    exact ((replay_eq_ok_iff hread).mp hopen).1
  · intro hchained'
    exact ⟨_, (replay_eq_ok_iff hread).mpr ⟨hchained', rfl⟩⟩

theorem exists_readRecord_iff (hschema : schema.Lawful) {P : Record → Prop} :
    (∃ line ∈ records.map (serialize schema),
      ∃ other, readRecord schema line = some other ∧ P other) ↔ ∃ other ∈ records, P other := by
  constructor
  · rintro ⟨line, hline, other, hother, hP⟩
    obtain ⟨other', hmem, rfl⟩ := List.mem_map.mp hline
    rw [readRecord_serialize hschema, Option.some_inj] at hother
    exact ⟨other', hmem, hother ▸ hP⟩
  · rintro ⟨other, hmem, hP⟩
    exact ⟨_, List.mem_map_of_mem hmem, other, readRecord_serialize hschema other, hP⟩

/-- **Which alterations of a record are detected.** In a ledger that a session has written one line
is replaced by a line with another record, whose event has the same hash. If the event has changed,
the altered ledger cannot be opened. If the ledger could be opened before, then the altered one
cannot if and only if the event has changed, or the case id has and another record belongs to one of
the two cases. -/
theorem altered_record_rejected (schema : LedgerSchema) (H : ReviewHashing)
    (hschema : schema.Lawful) (hsha256 : Function.Injective H.sha256) (operations : List Operation)
    (session : Session)
    (hrun : Transition.run (Session.step schema H) Session.init operations = some session)
    (text text' : List Char) (hfile : session.file = some text) (before after : List (List Char))
    (line line' : List Char) (hlines : splitlines text = before ++ line :: after)
    (hlines' : splitlines text' = before ++ line' :: after) (record record' : Record)
    (hread : readRecord schema line = some record)
    (hread' : readRecord schema line' = some record')
    (hhash : record'.2.eventHash = record.2.eventHash) :
    (record'.2 ≠ record.2 → ∃ error, openLedger schema H (some text') = .error error) ∧
    ((∃ memory, openLedger schema H (some text) = .ok memory) →
      ((∃ error, openLedger schema H (some text') = .error error) ↔
        record'.2 ≠ record.2 ∨ record'.1.caseId ≠ record.1.caseId ∧
          ∃ line'' ∈ before ++ after, ∃ other, readRecord schema line'' = some other ∧
            (other.1.caseId = record.1.caseId ∨ other.1.caseId = record'.1.caseId))) := by
  have hmem : line ∈ splitlines text := hlines ▸ List.mem_append_right _ List.mem_cons_self
  have hmem' : line' ∈ splitlines text' := hlines' ▸ List.mem_append_right _ List.mem_cons_self
  have htorn := ((Session.appended_of_run hrun).mem_splitlines hfile hmem).2
  refine ⟨fun hevent ↦ exists_error_iff.mpr
    (not_open_of_altered_event hschema hsha256 htorn hmem' hread hread' hhash hevent), ?_⟩
  rintro ⟨memory, hopen⟩
  obtain ⟨records, hrecords, hgenuine, hchained⟩ := records_of_openLedger hschema hrun hfile hopen
  obtain ⟨front, rest, rfl, rfl, hrest⟩ := List.map_eq_append_iff.mp (hrecords.symm.trans hlines)
  obtain ⟨record₀, back, rfl, rfl, rfl⟩ := List.map_eq_cons_iff.mp hrest
  obtain rfl : record₀ = record :=
    Option.some_inj.mp ((readRecord_serialize hschema record₀).symm.trans hread)
  have haccepted := openLedger_altered_iff hschema hsha256 hchained hgenuine hlines' hread' hhash
  rw [← List.map_append, exists_readRecord_iff hschema, exists_error_iff, haccepted, not_and_or,
    not_or]
  simp only [not_forall, not_and_or, not_not, exists_prop, ne_eq]

namespace ReviewSample

/-- The record of the decision with another reason code in its event. -/
def relabelledRecord : Record :=
  (decidedRecord.1, { decidedRecord.2 with reasonCode := "silently_changed" })

/-- The record of the decision with the opposite decision in its case. -/
def allowedRecord : Record :=
  ({ decidedRecord.1 with finalDecision := some .allow }, decidedRecord.2)

/-- The text of the sample's ledger with this record in the last place. -/
noncomputable def ledger (record : Record) : List Char :=
  unlines ([createdRecord, claimedRecord, record].map (serialize ledgerSchema))

theorem splitlines_ledger (record : Record) : splitlines (ledger record)
    = [createdRecord, claimedRecord].map (serialize ledgerSchema) ++
      [serialize ledgerSchema record] :=
  Sentinel.splitlines_ledger _ _

end ReviewSample

/-- The sample's ledger is rejected with another reason code in the last event. -/
theorem altered_record_rejected_sample : ∃ error, openLedger ReviewSample.ledgerSchema
    ReviewSample.hashing (some (ReviewSample.ledger ReviewSample.relabelledRecord))
      = .error error := by
  obtain ⟨session, hrun, hwritten⟩ := ReviewSample.written
  have hfile := hwritten.file_eq_some (by simp)
  have hopen := hwritten.openLedger_eq ReviewSample.lawful
  rw [hfile] at hopen
  refine ((altered_record_rejected ReviewSample.ledgerSchema ReviewSample.hashing
    ReviewSample.lawful ReviewSample.sha256_injective ReviewSample.operations session hrun _ _ hfile
    _ [] _ _ (ReviewSample.splitlines_ledger _) (ReviewSample.splitlines_ledger _)
    ReviewSample.decidedRecord ReviewSample.relabelledRecord
    (readRecord_serialize ReviewSample.lawful _) (readRecord_serialize ReviewSample.lawful _)
    rfl).2 ⟨_, hopen⟩).mpr (.inl ?_)
  decide

/-- The sample's ledger is loaded with the opposite decision in the last case. -/
theorem altered_case_accepted :
    (∃ session, Transition.run (Session.step ReviewSample.ledgerSchema ReviewSample.hashing)
      Session.init ReviewSample.operations = some session ∧
        session.file = some (ReviewSample.ledger ReviewSample.decidedRecord)) ∧
    ReviewSample.decidedRecord.1.finalDecision = some .block ∧
    ReviewSample.allowedRecord.1.finalDecision = some .allow ∧
    ReviewSample.allowedRecord.2 = ReviewSample.decidedRecord.2 ∧
    readRecord ReviewSample.ledgerSchema
      (serialize ReviewSample.ledgerSchema ReviewSample.allowedRecord)
        = some ReviewSample.allowedRecord ∧
    ∃ memory, openLedger ReviewSample.ledgerSchema ReviewSample.hashing
      (some (ReviewSample.ledger ReviewSample.allowedRecord)) = .ok memory ∧
        memory.get ReviewSample.caseId = some ReviewSample.allowedRecord.1 := by
  obtain ⟨session, hrun, hwritten⟩ := ReviewSample.written
  let front := [ReviewSample.createdRecord, ReviewSample.claimedRecord]
  have hwhole : Chained ReviewSample.hashing (front ++ [ReviewSample.decidedRecord]) :=
    hwritten.chained
  have hchained : Chained ReviewSample.hashing (front ++ [ReviewSample.allowedRecord]) := by
    refine (chained_altered_iff ReviewSample.sha256_injective hwhole
      (fun record hrecord ↦ hwritten.genuine hrecord) ?_).mpr ⟨?_, .inl ?_⟩ <;> rfl
  have hread := map_readRecord_serialize ReviewSample.lawful (front ++ [ReviewSample.allowedRecord])
  refine ⟨⟨session, hrun, hwritten.file_eq_some (by simp)⟩, rfl, rfl, rfl,
    readRecord_serialize ReviewSample.lawful _, commitAll (front ++ [ReviewSample.allowedRecord]),
    ?_, ?_⟩
  · rw [openLedger, ReviewSample.ledger, splitlines_ledger]
    exact (replay_eq_ok_iff hread).mpr ⟨hchained, rfl⟩
  · rw [commitAll_concat]
    exact get_commit_self

end Sentinel
