import Sentinel.Review.Session
import Sentinel.Text.Torn

/-!
# What appends leave in the file

Whatever becomes of the appends of a session, its file is made of beginnings of records: a line
break ends a line only behind a whole record, and in front of it there may be beginnings of others.
No such line can be read unless it is a record. So a ledger that can be opened at all consists of
whole records, each of them as the service has written it, however the appends of the session ended.
-/

namespace Sentinel

open Chain InMemoryReviewRepository Text

variable {schema : LedgerSchema} {H : ReviewHashing} {session session' : Session}
  {record : Record} {call : ReviewCall} {line text : List Char}

/-! ## Records of the service -/

/-- A record as the service writes it: the event is one of the case, and has its digest. -/
structure Genuine (H : ReviewHashing) (record : Record) : Prop where
  caseId_eq : record.2.caseId = record.1.caseId
  hash_eq : record.2.eventHash = auditEventDigest H.sha256 record.2.toAuditPayload

def GenuineMembers (schema : LedgerSchema) (H : ReviewHashing) (members : List (String × Json)) :
    Prop :=
  ∃ record, Genuine H record ∧ recordJson schema record = .object members

theorem marked_of_genuine (members : List (String × Json))
    (h : GenuineMembers schema H members) : Marked members := by
  obtain ⟨record, -, hmembers⟩ := h
  rw [Marked, ← hmembers, recordJson, Json.dumps]
  exact ⟨'c', _, rfl, by decide, by decide⟩

theorem genuine_of_plan {case : ReviewCase} {event : ReviewAuditEvent}
    {memory : InMemoryReviewRepository} (h : call.plan H memory = .ok (.commit case event)) :
    Genuine H (case, event) := by
  obtain ⟨hfollows, hcaseId⟩ := follows_of_plan h
  exact ⟨hcaseId, hfollows.hash_eq⟩

/-- The text is made of beginnings of genuine records. -/
abbrev TornRecords (schema : LedgerSchema) (H : ReviewHashing) : List Char → Prop :=
  Torn (GenuineMembers schema H)

theorem TornRecords.concat {text beginning : List Char} (h : TornRecords schema H text)
    (hrecord : Genuine H record) (hbeginning : beginning <+: serialize schema record) :
    TornRecords schema H (text ++ beginning) :=
  Torn.append h ⟨record, hrecord, rfl⟩ hbeginning

/-- A line of beginnings of records is a record or cannot be read. -/
theorem TornRecords.eq_serialize (hschema : schema.Lawful) (h : TornRecords schema H line)
    (hread : readRecord schema line = some record) :
    line = serialize schema record ∧ Genuine H record := by
  obtain ⟨document, hloads, -⟩ := Option.bind_eq_some_iff.mp hread
  obtain ⟨members, ⟨record', hgenuine, hmembers⟩, hline⟩ :=
    Torn.eq_dumps_of_loads marked_of_genuine h hloads
  rw [← hmembers] at hline
  have hread' := readRecord_serialize hschema record'
  rw [serialize, ← hline, hread, Option.some_inj] at hread'
  rw [hread']
  exact ⟨hline, hgenuine⟩

/-! ## Files of beginnings -/

/-- The file is made of lines of beginnings of records, and perhaps one more that has not been
ended. -/
def Session.Appended (schema : LedgerSchema) (H : ReviewHashing) (session : Session) : Prop :=
  ∃ lines rest, session.file.getD [] = unlines lines ++ rest ∧
    (∀ line ∈ lines, line ≠ [] ∧ TornRecords schema H line) ∧ TornRecords schema H rest

theorem Append.write_cases (append : Append) (file : Option (List Char)) (line : List Char) :
    (∃ beginning, beginning <+: line ∧
      (append.write file line).getD [] = file.getD [] ++ beginning) ∨
    (append.write file line).getD [] = file.getD [] ++ (line ++ ['\n']) := by
  cases append with
  | done => exact .inr rfl
  | refused => exact .inl ⟨[], List.nil_prefix, (List.append_nil _).symm⟩
  | torn reached =>
    by_cases hreached : reached ≤ line.length
    · refine .inl ⟨line.take reached, List.take_prefix reached line, ?_⟩
      rw [write, Option.getD_some, List.take_append_of_le_length hreached]
    · refine .inr ?_
      rw [write, Option.getD_some, List.take_of_length_le]
      rw [List.length_append, List.length_singleton]
      omega

theorem Session.appended_init : init.Appended schema H :=
  ⟨[], [], rfl, by simp, .nil⟩

theorem Session.Appended.write (h : session.Appended schema H) (hrecord : Genuine H record)
    (append : Append) (hfile : session'.file = append.write session.file
      (serialize schema record)) : session'.Appended schema H := by
  obtain ⟨lines, rest, hlines_eq, hlines, hrest⟩ := h
  rcases append.write_cases session.file (serialize schema record) with
    ⟨beginning, hbeginning, hwrite⟩ | hwrite
  · refine ⟨lines, rest ++ beginning, ?_, hlines, TornRecords.concat hrest hrecord hbeginning⟩
    rw [hfile, hwrite, hlines_eq, List.append_assoc]
  · refine ⟨lines ++ [rest ++ serialize schema record], [], ?_, ?_, .nil⟩
    · rw [hfile, hwrite, hlines_eq, unlines_append, unlines_singleton]
      simp only [List.append_assoc, List.append_nil]
    · intro line hline
      rcases List.mem_append.mp hline with hline | hline
      · exact hlines line hline
      · rw [List.mem_singleton.mp hline]
        refine ⟨?_, TornRecords.concat hrest hrecord (List.prefix_refl _)⟩
        obtain ⟨text, htext⟩ := exists_serialize_eq_cons schema record
        simp [htext]

theorem Session.Appended.perform (h : session.Appended schema H) (call : ReviewCall)
    (append : Append) : (session.perform schema H call append).Appended schema H := by
  cases hplan : call.plan H session.memory with
  | error error =>
    rw [Session.perform, hplan]
    exact h
  | ok plan =>
    cases plan with
    | result case =>
      rw [Session.perform, hplan]
      exact h
    | commit case event =>
      apply h.write (genuine_of_plan hplan) append
      rw [Session.perform, hplan]
      simp only
      split_ifs <;> rfl

/-- **Every session's file is made of beginnings of records.** -/
theorem Session.appended_of_run {operations : List Operation}
    (hrun : Transition.run (Session.step schema H) Session.init operations = some session) :
    session.Appended schema H := by
  refine Transition.run_invariant ?_ Session.appended_init hrun
  intro session operation session' h hstep
  cases operation with
  | call call append =>
    rw [Session.step, Option.some_inj] at hstep
    exact hstep ▸ h.perform call append
  | restart =>
    rw [Session.step] at hstep
    cases hopen : openLedger schema H session.file with
    | error error =>
      rw [hopen] at hstep
      cases hstep
    | ok memory =>
      rw [hopen] at hstep
      cases hstep
      exact h

theorem Session.Appended.mem_splitlines (h : session.Appended schema H)
    (hfile : session.file = some text) (hline : line ∈ splitlines text) :
    line ≠ [] ∧ TornRecords schema H line := by
  obtain ⟨lines, rest, heq, hlines, hrest⟩ := h
  rw [hfile, Option.getD_some] at heq
  rw [heq, splitlines_unlines fun line hline ↦ (hlines line hline).2.printable.unbroken] at hline
  rcases List.mem_append.mp hline with hline | hline
  · exact hlines line hline
  · by_cases hne : rest = []
    · rw [hne] at hline
      cases hline
    · rw [splitlines_last hrest.printable.unbroken hne, List.mem_singleton] at hline
      rw [hline]
      exact ⟨hne, hrest⟩

/-! ## Opening the files -/

theorem TornRecords.exists_record (hschema : schema.Lawful) (h : TornRecords schema H line)
    (hne : line ≠ []) {lineNumber : ℕ} {memory memory' : InMemoryReviewRepository}
    (htaken : replayLine schema H lineNumber memory line = .ok memory') :
    ∃ record, Genuine H record ∧ line = serialize schema record := by
  have hblank : isBlank line = false := by
    rcases h.braced.eq_nil_or with hnil | ⟨rest, hcons⟩
    · exact absurd hnil hne
    · rw [hcons]
      exact isBlank_cons_brace rest
  obtain ⟨record, hread⟩ := exists_readRecord_of_replayLine hblank htaken
  obtain ⟨hline, hgenuine⟩ := h.eq_serialize hschema hread
  exact ⟨record, hgenuine, hline⟩

theorem exists_records_of_forall {lines : List (List Char)}
    (h : ∀ line ∈ lines, ∃ record, Genuine H record ∧ line = serialize schema record) :
    ∃ records : List Record, (∀ record ∈ records, Genuine H record) ∧
      lines = records.map (serialize schema) := by
  induction lines with
  | nil => exact ⟨[], by simp, rfl⟩
  | cons line lines ih =>
    obtain ⟨record, hrecord, rfl⟩ := h line List.mem_cons_self
    obtain ⟨records, hrecords, rfl⟩ := ih fun line' hline' ↦ h line' (List.mem_cons_of_mem _ hline')
    exact ⟨record :: records, List.forall_mem_cons.mpr ⟨hrecord, hrecords⟩, rfl⟩

/-- **A ledger that can be opened consists of whole records**, which are genuine and whose events
are chains. -/
theorem records_of_openLedger (hschema : schema.Lawful) {operations : List Operation}
    (hrun : Transition.run (Session.step schema H) Session.init operations = some session)
    (hfile : session.file = some text) {memory : InMemoryReviewRepository}
    (hopen : openLedger schema H (some text) = .ok memory) :
    ∃ records, splitlines text = records.map (serialize schema) ∧
      (∀ record ∈ records, Genuine H record) ∧ Chained H records := by
  have hrecord : ∀ line ∈ splitlines text,
      ∃ record, Genuine H record ∧ line = serialize schema record := by
    intro line hline
    obtain ⟨hne, htorn⟩ := (Session.appended_of_run hrun).mem_splitlines hfile hline
    obtain ⟨_, _, _, htaken⟩ := exists_replayLine_of_mem hopen hline
    exact TornRecords.exists_record hschema htorn hne htaken
  obtain ⟨records, hgenuine, hlines⟩ := exists_records_of_forall hrecord
  rw [openLedger, hlines] at hopen
  have hchained := ((replay_eq_ok_iff (map_readRecord_serialize hschema records)).mp hopen).1
  exact ⟨records, hlines, hgenuine, hchained⟩

end Sentinel
