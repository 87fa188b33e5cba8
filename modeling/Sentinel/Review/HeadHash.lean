import Sentinel.Review.Session

/-!
# The head hash pins the history

What the opening of a ledger checks of an event, it checks against the events of the same case that
it has already taken. Whoever wrote the file, and in whatever order the cases take turns in it, the
log of each case is therefore a hash chain once the file is open. In a hash chain an entry whose
hash is known is known itself, if the digest has no collisions, and so is the hash that it carries
of the entry before. Going back in this way ends at the first entry of both logs at once, because
the number of an entry is part of what its digest covers.
-/

namespace Sentinel

open Chain InMemoryReviewRepository Text

variable {schema : LedgerSchema} {H : ReviewHashing} {memory memory' : InMemoryReviewRepository}

/-- The log of each case is a hash chain. -/
def InMemoryReviewRepository.Chains (H : ReviewHashing) (memory : InMemoryReviewRepository) :
    Prop :=
  ∀ caseId, Built (auditChain H.sha256).Follows (memory.audit caseId)

theorem chains_empty : empty.Chains H := fun _ ↦ .nil

theorem InMemoryReviewRepository.Chains.commit {case : ReviewCase} {event : ReviewAuditEvent}
    (h : memory.Chains H)
    (hfollows : (auditChain H.sha256).Follows (memory.audit case.caseId) event) :
    (memory.commit case event).Chains H := by
  intro caseId
  by_cases hcase : caseId = case.caseId
  · rw [hcase, audit_commit_self]
    exact (h case.caseId).snoc hfollows
  · rw [audit_commit_of_ne hcase]
    exact h caseId

theorem InMemoryReviewRepository.Chains.replayLine {lineNumber : ℕ} {line : List Char}
    (h : memory.Chains H) (hline : replayLine schema H lineNumber memory line = .ok memory') :
    memory'.Chains H := by
  by_cases hblank : isBlank line = true
  · rw [Sentinel.replayLine, if_pos hblank] at hline
    cases hline
    exact h
  · obtain ⟨record, hread⟩ :=
      exists_readRecord_of_replayLine (Bool.not_eq_true _ ▸ hblank) hline
    obtain ⟨hfollows, rfl⟩ := (replayLine_of_readRecord hread).mp hline
    exact h.commit hfollows

theorem InMemoryReviewRepository.Chains.replay {lineNumber : ℕ} {lines : List (List Char)}
    (h : memory.Chains H) (hreplay : replay schema H lineNumber memory lines = .ok memory') :
    memory'.Chains H := by
  induction lines generalizing lineNumber memory with
  | nil =>
    cases hreplay
    exact h
  | cons line lines ih =>
    rw [Sentinel.replay] at hreplay
    split at hreplay
    · cases hreplay
    · rename_i before hline
      exact ih (h.replayLine hline) hreplay

/-- **Every ledger that can be opened is chained**, whatever its origin. -/
theorem chains_of_openLedger {file : Option (List Char)}
    (hopen : openLedger schema H file = .ok memory) : memory.Chains H := by
  cases file with
  | none =>
    cases hopen
    exact chains_empty
  | some text => exact chains_empty.replay hopen

/-- No field of an event escapes its digest. -/
theorem auditChain_pinned (hH : Function.Injective (auditEventDigest H.sha256)) :
    (auditChain H.sha256).Pinned :=
  fun hdigest hhash ↦ ReviewAuditEvent.ext_payload (hH hdigest) hhash

/-- **The head hash pins the whole history.** If the last event of a case in one ledger has the hash
of an event of a case in another, then the first history is the second one up to that event. The
event is counted from one. -/
theorem head_hash_pins_history (schema : LedgerSchema) (H : ReviewHashing)
    (hH : Function.Injective (auditEventDigest H.sha256)) {file file' : Option (List Char)}
    (hopen : openLedger schema H file = .ok memory)
    (hopen' : openLedger schema H file' = .ok memory') {caseId caseId' : String}
    {last event : ReviewAuditEvent} {k : ℕ} (hlast : (memory.audit caseId).getLast? = some last)
    (hk : 1 ≤ k) (hevent : (memory'.audit caseId')[k - 1]? = some event)
    (hhash : last.eventHash = event.eventHash) :
    (memory.audit caseId).length = k ∧ memory.audit caseId = (memory'.audit caseId').take k := by
  obtain ⟨hj, rfl⟩ := List.getElem?_eq_some_iff.mp hevent
  rw [List.getLast?_eq_getElem?] at hlast
  obtain ⟨hi, rfl⟩ := List.getElem?_eq_some_iff.mp hlast
  have hpinned : (auditChain H.sha256).Pinned := auditChain_pinned hH
  obtain ⟨hindex, htake⟩ := hpinned.take_eq (chains_of_openLedger hopen caseId)
    (chains_of_openLedger hopen' caseId') hi hj hhash
  have hlength : (memory.audit caseId).length = k := by omega
  refine ⟨hlength, ?_⟩
  rw [hindex, Nat.sub_add_cancel hk, ← hlength, List.take_length] at htake
  rw [htake, hlength]

namespace ReviewSample

def records : List Record := [createdRecord, claimedRecord, decidedRecord]

noncomputable def ledgerOfFirst (n : ℕ) : Option (List Char) :=
  some (unlines ((records.take n).map (serialize ledgerSchema)))

theorem chained_take (n : ℕ) : Chained hashing (records.take n) := by
  obtain ⟨session, -, hwritten⟩ := written
  have hchained : Chained hashing (records.take n ++ records.drop n) := by
    rw [List.take_append_drop]
    exact hwritten.chained
  intro caseId
  have hcase := hchained caseId
  rw [logOf_append] at hcase
  exact hcase.front

end ReviewSample

/-- The ledger of the first two sample calls and that of all three share the second hash. -/
theorem head_hash_pins_history_sample : ∃ memory memory',
    openLedger ReviewSample.ledgerSchema ReviewSample.hashing (ReviewSample.ledgerOfFirst 2)
      = .ok memory ∧
    openLedger ReviewSample.ledgerSchema ReviewSample.hashing (ReviewSample.ledgerOfFirst 3)
      = .ok memory' ∧
    memory.audit ReviewSample.caseId = (memory'.audit ReviewSample.caseId).take 2 := by
  have hopen : ∀ n, openLedger ReviewSample.ledgerSchema ReviewSample.hashing
      (ReviewSample.ledgerOfFirst n) = .ok (commitAll (ReviewSample.records.take n)) := fun n ↦
    openLedger_of_chained ReviewSample.lawful (ReviewSample.chained_take n)
  have hlast : ((commitAll (ReviewSample.records.take 2)).audit ReviewSample.caseId).getLast?
      = some ReviewSample.claimedRecord.2 := rfl
  have hevent : ((commitAll (ReviewSample.records.take 3)).audit ReviewSample.caseId)[2 - 1]?
      = some ReviewSample.claimedRecord.2 := rfl
  refine ⟨_, _, hopen 2, hopen 3, ?_⟩
  exact (head_hash_pins_history ReviewSample.ledgerSchema ReviewSample.hashing
    (auditEventDigest_injective ReviewSample.sha256_injective) (hopen 2) (hopen 3) hlast
    (by decide) hevent rfl).2

end Sentinel
