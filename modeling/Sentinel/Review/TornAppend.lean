import Sentinel.Review.Restart

/-!
# Appends that fail

A call whose append raises leaves the memory alone. If nothing of its line has reached the file,
that is all there is to it. If anything has, the file and the memory have come apart: what the file
has got is one more line, which a replay either rejects or commits.
-/

namespace Sentinel

open Chain InMemoryReviewRepository Text

variable {schema : LedgerSchema} {H : ReviewHashing} {session session' : Session}
  {records : List Record} {call : ReviewCall} {case : ReviewCase} {event : ReviewAuditEvent}

/-- Opening the ledger succeeds and gives the repository in memory. -/
def Session.InStep (schema : LedgerSchema) (H : ReviewHashing) (session : Session) : Prop :=
  openLedger schema H session.file = .ok session.memory

/-- If the operation is a call that commits and whose append fails, then nothing of the line reaches
the file. -/
def Clean (H : ReviewHashing) (session : Session) : Operation → Prop
  | .call call append => ∀ case event, call.plan H session.memory = .ok (.commit case event) →
      append.harmless = true
  | .restart => True

/-! ## One operation -/

theorem replayLine_ne_self {line : List Char} (hblank : isBlank line = false) (lineNumber : ℕ)
    (memory : InMemoryReviewRepository) :
    replayLine schema H lineNumber memory line ≠ .ok memory := by
  intro h
  obtain ⟨record, hread⟩ := exists_readRecord_of_replayLine hblank h
  exact commit_ne_self ((replayLine_of_readRecord hread).mp h).2.symm

/-- What a torn append leaves is one line. -/
theorem splitlines_take_serialize (schema : LedgerSchema) (record : Record) (reached : ℕ) :
    ∃ rest, splitlines ((serialize schema record ++ ['\n']).take (reached + 1))
      = ['{' :: rest] := by
  obtain ⟨text, htext⟩ := exists_serialize_eq_cons schema record
  have hunbroken : Unbroken (serialize schema record) := unbroken_serialize record
  rw [htext] at hunbroken ⊢
  by_cases hreached : reached + 1 ≤ ('{' :: text).length
  · refine ⟨text.take reached, ?_⟩
    rw [List.take_append_of_le_length hreached, List.take_succ_cons]
    refine splitlines_last (fun c hc ↦ hunbroken c ?_) (List.cons_ne_nil _ _)
    exact ((List.take_sublist reached text).cons_cons '{').subset hc
  · refine ⟨text, ?_⟩
    rw [List.take_of_length_le (by rw [List.length_append, List.length_singleton]; omega)]
    exact splitlines_line hunbroken []

/-- **A torn append sets the file and the memory apart.** -/
theorem Session.Written.not_inStep (hschema : schema.Lawful) (h : session.Written schema H records)
    (hplan : call.plan H session.memory = .ok (.commit case event)) (reached : ℕ) :
    ¬(session.perform schema H call (.torn (reached + 1))).InStep schema H := by
  obtain ⟨rest, hsplit⟩ := splitlines_take_serialize schema (case, event) reached
  intro hopen
  rw [InStep, Session.perform, hplan] at hopen
  simp only [reduceCtorEq, if_false, Append.write, h.file_eq] at hopen
  rw [openLedger_records hschema h.chained, hsplit, ← h.memory_eq] at hopen
  exact replayLine_ne_self (isBlank_cons_brace rest) _ _ ((replay_singleton _ _ _).mp hopen)

theorem Session.Written.step (hschema : schema.Lawful) (h : session.Written schema H records)
    {operation : Operation} (hclean : Clean H session operation)
    (hstep : session.step schema H operation = some session') :
    ∃ records', session'.Written schema H records' := by
  cases operation with
  | restart =>
    rw [h.restart hschema, Option.some_inj] at hstep
    exact ⟨records, hstep ▸ h⟩
  | call call append =>
    rw [Session.step, Option.some_inj] at hstep
    exact hstep ▸ h.perform call append fun {case event} hplan ↦ hclean case event hplan

/-- After a call that is not clean the file and the memory have come apart. -/
theorem Session.Written.clean_of_inStep (hschema : schema.Lawful)
    (h : session.Written schema H records) {operation : Operation}
    (hinStep : ∀ session', session.step schema H operation = some session' →
      session'.InStep schema H) : Clean H session operation := by
  cases operation with
  | restart => trivial
  | call call append =>
    intro case event hplan
    have hafter := hinStep _ rfl
    cases append with
    | done => rfl
    | refused => rfl
    | torn reached =>
      cases reached with
      | zero => rfl
      | succ reached => exact absurd hafter (h.not_inStep hschema hplan reached)

/-! ## Runs -/

theorem Session.Written.inStep_iff (hschema : schema.Lawful) {operations : List Operation} :
    ∀ {session : Session} {records : List Record}, session.Written schema H records →
      ((∀ n session', Transition.run (Session.step schema H) session (operations.take n)
        = some session' → session'.InStep schema H) ↔
      Transition.Along (Session.step schema H) (Clean H) session operations) := by
  induction operations with
  | nil =>
    intro session records h
    refine ⟨fun _ ↦ trivial, fun _ n session' hrun ↦ ?_⟩
    rw [List.take_nil, Transition.run_nil, Option.some_inj] at hrun
    exact hrun ▸ h.openLedger_eq hschema
  | cons operation operations ih =>
    intro session records h
    constructor
    · intro hinStep
      have hclean : Clean H session operation := by
        apply h.clean_of_inStep hschema
        intro session' hstep
        apply hinStep 1 session'
        rw [List.take_succ_cons, List.take_zero, Transition.run_cons, hstep]
        rfl
      refine ⟨hclean, fun session' hstep ↦ ?_⟩
      obtain ⟨records', h'⟩ := h.step hschema hclean hstep
      apply (ih h').mp
      intro n session'' hrun
      apply hinStep (n + 1) session''
      rw [List.take_succ_cons, Transition.run_cons, hstep]
      exact hrun
    · rintro ⟨hclean, hrest⟩ n session'' hrun
      cases n with
      | zero =>
        rw [List.take_zero, Transition.run_nil, Option.some_inj] at hrun
        exact hrun ▸ h.openLedger_eq hschema
      | succ n =>
        rw [List.take_succ_cons] at hrun
        obtain ⟨session', hstep, hrun'⟩ := Transition.run_cons_eq_some.mp hrun
        obtain ⟨records', h'⟩ := h.step hschema hclean hstep
        exact (ih h').mpr (hrest session' hstep) n session'' hrun'

/-- **When the ledger stays in step.** At every point of a run opening the ledger gives what is in
memory, if and only if no append that fails while a call commits leaves a character of its line. -/
theorem ledger_inStep_iff (schema : LedgerSchema) (H : ReviewHashing) (hschema : schema.Lawful)
    (operations : List Operation) :
    (∀ n session, Transition.run (Session.step schema H) Session.init (operations.take n)
      = some session → session.InStep schema H) ↔
    Transition.Along (Session.step schema H) (Clean H) Session.init operations :=
  Session.Written.inStep_iff hschema Session.written_init

/-- The sample's first call, whose append fails before anything is written, made once more. -/
theorem ledger_inStep_iff_sample : ∃ session,
    Transition.run (Session.step ReviewSample.ledgerSchema ReviewSample.hashing) Session.init
      [.call ReviewSample.calls[0] (.torn 0), .call ReviewSample.calls[0] .done] = some session ∧
    session.InStep ReviewSample.ledgerSchema ReviewSample.hashing := by
  refine ⟨_, rfl, (ledger_inStep_iff ReviewSample.ledgerSchema ReviewSample.hashing
    ReviewSample.lawful [.call ReviewSample.calls[0] (.torn 0),
      .call ReviewSample.calls[0] .done]).mpr ?_ 2 _ rfl⟩
  exact ⟨fun _ _ _ ↦ rfl, fun session _ ↦ ⟨fun _ _ _ ↦ rfl, fun _ _ ↦ trivial⟩⟩

/-! ## A ledger that cannot be opened any more -/

theorem readRecord_braces (schema : LedgerSchema) (s : List Char) :
    readRecord schema ('{' :: '{' :: s) = none :=
  readRecord_eq_none rfl

namespace ReviewSample

/-- The first call, whose append fails behind the first character, made once more. -/
def tornOperations : List Operation := [.call calls[0] (.torn 1), .call calls[0] .done]

noncomputable def tornLedger : List Char := '{' :: (serialize ledgerSchema createdRecord ++ ['\n'])

theorem openLedger_tornLedger :
    openLedger ledgerSchema hashing (some tornLedger) = .error (.invalidRecord 1) := by
  obtain ⟨text, htext⟩ := exists_serialize_eq_cons ledgerSchema createdRecord
  have hunbroken : Unbroken ('{' :: serialize ledgerSchema createdRecord) :=
    (printable_cons (by decide) (Json.printable_dumps _)).unbroken
  have hsplit : splitlines tornLedger = ['{' :: serialize ledgerSchema createdRecord] :=
    splitlines_line hunbroken []
  rw [openLedger, hsplit, replay, replayLine, isBlank_cons_brace, htext, readRecord_braces]
  rfl

end ReviewSample

/-- The service goes on and reports success, but its ledger can no longer be opened. -/
theorem torn_append_loses_ledger : ∃ session,
    Transition.run (Session.step ReviewSample.ledgerSchema ReviewSample.hashing) Session.init
      ReviewSample.tornOperations = some session ∧
    session.answers = [.error .osError, .ok (some ReviewSample.createdRecord.1)] ∧
    session.memory.get ReviewSample.caseId = some ReviewSample.createdRecord.1 ∧
    openLedger ReviewSample.ledgerSchema ReviewSample.hashing session.file
      = .error (.invalidRecord 1) := by
  refine ⟨_, rfl, rfl, rfl, ?_⟩
  exact ReviewSample.openLedger_tornLedger

end Sentinel
