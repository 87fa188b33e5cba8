import Sentinel.Review.Session

/-!
# Restarts

A restart puts the repository that the ledger amounts to in the place of the one in memory. As long
as appends succeed the two are equal, in their contents and in the order of their dictionaries, so
that a session with restarts cannot be told from the session without them.
-/

namespace Sentinel

open InMemoryReviewRepository Text

def Operation.isCall : Operation → Bool
  | .call _ _ => true
  | .restart => false

/-- The append of the operation succeeds, if it comes to that. -/
def Operation.Succeeds : Operation → Prop
  | .call _ append => append = .done
  | .restart => True

instance : DecidablePred Operation.Succeeds
  | .call _ append => inferInstanceAs (Decidable (append = .done))
  | .restart => .isTrue trivial

variable {schema : LedgerSchema} {H : ReviewHashing} {session : Session} {records : List Record}

theorem Session.Written.restart (hschema : schema.Lawful) (h : session.Written schema H records) :
    session.step schema H .restart = some session := by
  rw [Session.step, h.openLedger_eq hschema]

/-- From a session whose file is made of whole records, a run with restarts and the run without them
both end, and they end in the same session. -/
theorem Session.Written.run (hschema : schema.Lawful) {operations : List Operation}
    (hsucceed : ∀ operation ∈ operations, operation.Succeeds) :
    ∀ {session : Session} {records : List Record}, session.Written schema H records →
      ∃ session' records', session'.Written schema H records' ∧
        Transition.run (Session.step schema H) session operations = some session' ∧
        Transition.run (Session.step schema H) session (operations.filter Operation.isCall)
          = some session' := by
  induction operations with
  | nil => exact fun {session records} h ↦ ⟨session, records, h, rfl, rfl⟩
  | cons operation operations ih =>
    intro session records h
    have hrest : ∀ operation' ∈ operations, operation'.Succeeds := fun operation' hmem ↦
      hsucceed operation' (List.mem_cons_of_mem operation hmem)
    cases operation with
    | restart =>
      obtain ⟨session', records', h', hrun, hcalls⟩ := ih hrest h
      refine ⟨session', records', h', ?_, hcalls⟩
      rw [Transition.run_cons, h.restart hschema]
      exact hrun
    | call call append =>
      have hdone : append = .done := hsucceed (.call call append) List.mem_cons_self
      subst hdone
      obtain ⟨records₁, h₁⟩ := h.perform call .done fun _ ↦ rfl
      obtain ⟨session', records', h', hrun, hcalls⟩ := ih hrest h₁
      exact ⟨session', records', h', hrun, hcalls⟩

/-- **Restarting is invisible.** When all appends succeed, every replay does, a run with restarts
ends as the run without them, with the same memory and the same answers, and opening the file gives
that memory once more. -/
theorem restart_invisible (schema : LedgerSchema) (H : ReviewHashing) (hschema : schema.Lawful)
    (operations : List Operation) (hsucceed : ∀ operation ∈ operations, operation.Succeeds) :
    ∃ session, Transition.run (Session.step schema H) Session.init operations = some session ∧
      Transition.run (Session.step schema H) Session.init (operations.filter Operation.isCall)
        = some session ∧
      openLedger schema H session.file = .ok session.memory := by
  have hinit : Session.init.Written schema H [] := Session.written_init
  obtain ⟨session, records, h, hrun, hcalls⟩ := Session.Written.run hschema hsucceed hinit
  exact ⟨session, hrun, hcalls, h.openLedger_eq hschema⟩

/-- The sample calls, with a restart in front of each of them and one at the end. -/
def ReviewSample.restarts : List Operation :=
  .restart :: ReviewSample.calls.flatMap fun call ↦ [.call call .done, .restart]

/-- The sample session ends with the resolved case in memory. -/
theorem restart_invisible_sample : ∃ session,
    Transition.run (Session.step ReviewSample.ledgerSchema ReviewSample.hashing) Session.init
      ReviewSample.restarts = some session ∧
    session.memory.get ReviewSample.caseId = some ReviewSample.resolved ∧
    session.memory.listCases none = [ReviewSample.resolved] := by
  obtain ⟨session, hrun, hcalls, -⟩ := restart_invisible ReviewSample.ledgerSchema
    ReviewSample.hashing ReviewSample.lawful ReviewSample.restarts (by decide)
  have hcases : (Transition.run (Session.step ReviewSample.ledgerSchema ReviewSample.hashing)
      Session.init (ReviewSample.restarts.filter Operation.isCall)).map
        (fun session ↦ (session.memory.get ReviewSample.caseId, session.memory.listCases none))
      = some (some ReviewSample.resolved, [ReviewSample.resolved]) := rfl
  rw [hcalls, Option.map_some, Option.some_inj, Prod.mk.injEq] at hcases
  exact ⟨session, hrun, hcases⟩

end Sentinel
