import Sentinel.Evaluation.Metrics
import Sentinel.Text.Integers
import Sentinel.Text.Lines

/-!
# Reading an evaluation corpus

`load_cases` reads JSON Lines into evaluation cases. It stops at the first line that is no case or
repeats an identifier, and it rejects a corpus that is empty or knows one label only.

What is accepted is said without the loop: the lines that are not blank are read one by one, and the
identifiers are distinct. A rejection is said in the same terms, with the lines before the first
offending one. Cases that have been read can be written and read again, because a text has been
stripped and a label is 0 or 1 afterwards.

What Python makes of values that are no strings is a parameter. The errors of its own that a line
can raise keep their texts. One of them is that `int` refuses a literal of more than 4300 digits,
wherever in the document it stands. Escapes of lone surrogates are out of reach here, since no
character stands for them.
-/

namespace Sentinel

open Collections Text

/-! ## One case -/

/-- What Python does for `from_mapping`. -/
structure PyReader where
  /-- `str(value)`. -/
  str : Json → String
  str_string : ∀ s, str (.string s) = s
  /-- The float of a literal, if it is finite. -/
  float : NumberLiteral → Option ℚ
  /-- The text of the `ValueError` of `json.loads` on a line. -/
  decodeError : List Char → String
  /-- The text of the `TypeError` on a value that is no mapping. -/
  typeError : Json → String

/-- What `from_mapping` and the reading of a line can raise. -/
inductive CaseError
  | missingFields (names : List String)
  | invalidLabel
  | blankText
  /-- An error of Python's own, with its text. -/
  | raised (text : String)
deriving DecidableEq

/-- The `repr` of a list of plain names. -/
def reprNames (names : List String) : String :=
  "[" ++ ", ".intercalate (names.map fun name ↦ "'" ++ name ++ "'") ++ "]"

def CaseError.message : CaseError → String
  | .missingFields names => "evaluation case is missing fields: " ++ reprNames names
  | .invalidLabel => "evaluation label must be 0 or 1"
  | .blankText => "evaluation text must not be blank"
  | .raised text => text

/-- `sorted(required)`. -/
def requiredFields : List String := ["case_id", "category", "label", "source", "text"]

/-- What `required.difference` meets in a document; none of the fields is a single character. -/
def fieldNames : Json → Option (List String)
  | .object members => some (members.map Prod.fst)
  | .string _ => some []
  | .array items =>
    items.mapM fun item ↦
      match item with
      | .string name => some name
      | .constant _ | .number _ => some ""
      | .array _ | .object _ => none
  | .constant _ | .number _ => none

/-- `int(label)` where `label in (0, 1)`. -/
def labelOf (reader : PyReader) : Json → Option ℤ
  | .constant .true => some 1
  | .constant .false => some 0
  | .number literal =>
    if literal.chars.any fun c ↦ c == '.' || c == 'e' || c == 'E' then
      (reader.float literal).bind fun value ↦
        if value = 0 then some 0 else if value = 1 then some 1 else none
    else if literal.chars = ['0'] ∨ literal.chars = ['-', '0'] then some 0
    else if literal.chars = ['1'] then some 1
    else none
  | _ => none

/-- `EvaluationCase.from_mapping`. -/
def EvaluationCase.fromMapping (reader : PyReader) (value : Json) :
    Except CaseError EvaluationCase :=
  match fieldNames value with
  | none => .error (.raised (reader.typeError value))
  | some names =>
    let missing := requiredFields.filter fun name ↦ !names.contains name
    if missing ≠ [] then .error (.missingFields missing)
    else
      match value.member "label", value.member "text", value.member "case_id",
        value.member "category", value.member "source" with
      | some label, some text, some caseId, some category, some source =>
        match labelOf reader label with
        | none => .error .invalidLabel
        | some label =>
          let text := strip (reader.str text).toList
          if text = [] then .error .blankText
          else
            .ok
              { caseId := reader.str caseId
                text := String.ofList text
                label := label
                category := reader.str category
                source := reader.str source }
      -- a list of the names has no members
      | _, _, _, _, _ => .error (.raised (reader.typeError value))

/-! ### Integers that `int` refuses -/

/-- The literal goes to `int`, which refuses it. -/
def isLongInteger (literal : NumberLiteral) : Bool :=
  !(literal.chars.any fun c ↦ c == '.' || c == 'e' || c == 'E') &&
    decide (maxStrDigits < literal.chars.countP Char.isDigit)

mutual

/-- `json.loads` meets such a literal in the document. -/
def holdsLongInteger : Json → Bool
  | .number literal => isLongInteger literal
  | .array items => holdsLongIntegerItems items
  | .object members => holdsLongIntegerMembers members
  | .constant _ | .string _ => false

def holdsLongIntegerItems : List Json → Bool
  | [] => false
  | item :: items => holdsLongInteger item || holdsLongIntegerItems items

def holdsLongIntegerMembers : List (String × Json) → Bool
  | [] => false
  | (_, value) :: members => holdsLongInteger value || holdsLongIntegerMembers members

end

/-- Of the natural numbers, those below `10 ^ 4300` are read. -/
theorem isLongInteger_nat (n : ℕ) :
    isLongInteger (.nat n) = true ↔ 10 ^ maxStrDigits ≤ n := by
  have hdigits : ∀ c ∈ Nat.toDigits 10 n, c.isDigit = true := fun c hc ↦
    Nat.isDigit_of_mem_toDigits (by decide) (by decide) hc
  have hinteger : ((Nat.toDigits 10 n).any fun c ↦ c == '.' || c == 'e' || c == 'E') = false := by
    refine List.any_eq_false.mpr fun c hc heq ↦ ?_
    simp only [Bool.or_eq_true, beq_iff_eq] at heq
    rcases heq with (rfl | rfl) | rfl <;> exact absurd (hdigits _ hc) (by decide)
  rw [isLongInteger, NumberLiteral.nat, hinteger, Bool.not_false, Bool.true_and, decide_eq_true_iff,
    List.countP_eq_length.mpr hdigits, ← not_le,
    Nat.length_toDigits_le_iff (by decide) (by decide), not_lt]

/-! ## The corpus -/

/-- The `ValueError`s of `load_cases`. -/
inductive LoadError
  | invalidCase (lineNumber : ℕ) (error : CaseError)
  | duplicateId (caseId : String)
  | emptyCorpus
  | oneLabel
deriving DecidableEq

def LoadError.message : LoadError → String
  | .invalidCase lineNumber error =>
    "invalid evaluation case on line " ++ toString lineNumber ++ ": " ++ error.message
  | .duplicateId caseId => "duplicate evaluation case_id: " ++ caseId
  | .emptyCorpus => "evaluation corpus must contain at least one case"
  | .oneLabel => "evaluation corpus must contain both safe and unsafe cases"

/-- `EvaluationCase.from_mapping(json.loads(line))`. -/
def readCase (reader : PyReader) (line : List Char) : Except CaseError EvaluationCase :=
  match Json.loads line with
  | none => .error (.raised (reader.decodeError line))
  | some value =>
    if holdsLongInteger value then .error (.raised (reader.decodeError line))
    else EvaluationCase.fromMapping reader value

def loadLine (reader : PyReader) (cases : List EvaluationCase) (line : List Char × ℕ) :
    Except LoadError (List EvaluationCase) :=
  if isBlank line.1 then .ok cases
  else
    match readCase reader line.1 with
    | .error error => .error (.invalidCase line.2 error)
    | .ok case =>
      if case.caseId ∈ cases.map EvaluationCase.caseId then .error (.duplicateId case.caseId)
      else .ok (cases ++ [case])

/-- `load_cases`, on the text of the file. -/
def loadCases (reader : PyReader) (text : List Char) : Except LoadError (List EvaluationCase) := do
  let cases ← ((splitlines text).zipIdx 1).foldlM (loadLine reader) []
  if cases = [] then .error .emptyCorpus
  else if ¬((∃ case ∈ cases, case.label = 0) ∧ ∃ case ∈ cases, case.label = 1) then
    .error .oneLabel
  else .ok cases

/-! ## What the loop has read -/

variable {reader : PyReader} {cases new : List EvaluationCase} {lines : List (List Char)}

/-- The lines hold the cases, one in each line that is not blank, and no two have an identifier in
common. -/
structure Corpus (reader : PyReader) (lines : List (List Char)) (cases : List EvaluationCase) :
    Prop where
  read : List.Forall₂ (fun line case ↦ readCase reader line = .ok case)
    (lines.filter fun line ↦ !isBlank line) cases
  nodup : (cases.map EvaluationCase.caseId).Nodup

theorem loadLine_eq_ok_iff {line : List Char} {lineNumber : ℕ} :
    loadLine reader cases (line, lineNumber) = .ok new ↔
      (isBlank line = true ∧ new = cases) ∨
      (isBlank line = false ∧ ∃ case, readCase reader line = .ok case ∧
        case.caseId ∉ cases.map EvaluationCase.caseId ∧ new = cases ++ [case]) := by
  rw [loadLine]
  cases hblank : isBlank line with
  | true => simp [eq_comm]
  | false =>
    cases hread : readCase reader line with
    | error error => simp
    | ok case =>
      by_cases hmem : case.caseId ∈ cases.map EvaluationCase.caseId
      · simp only [Bool.false_eq_true, if_false, if_pos hmem, false_and, false_or, true_and]
        refine iff_of_false (fun h ↦ by cases h) ?_
        rintro ⟨_, ⟨⟩, hnew, -⟩
        exact hnew hmem
      · simp only [Bool.false_eq_true, if_false, hmem, not_false_eq_true, false_and, false_or,
          true_and, Except.ok.injEq, exists_eq_left', eq_comm]

/-- **The loop reads line by line.** -/
theorem foldlM_loadLine_eq_ok_iff {n : ℕ} (hnodup : (cases.map EvaluationCase.caseId).Nodup) :
    (lines.zipIdx n).foldlM (loadLine reader) cases = .ok new ↔
      ∃ added, new = cases ++ added ∧ (new.map EvaluationCase.caseId).Nodup ∧
        List.Forall₂ (fun line case ↦ readCase reader line = .ok case)
          (lines.filter fun line ↦ !isBlank line) added := by
  induction lines generalizing cases n with
  | nil =>
    rw [List.zipIdx_nil, List.foldlM_nil, List.filter_nil]
    constructor
    · rintro ⟨⟩
      exact ⟨[], (List.append_nil _).symm, hnodup, List.Forall₂.nil⟩
    · rintro ⟨added, rfl, -, hread⟩
      rw [List.forall₂_nil_left_iff.mp hread, List.append_nil]
      rfl
  | cons line lines ih =>
    rw [List.zipIdx_cons, List.foldlM_cons, bind_eq_ok]
    simp only [loadLine_eq_ok_iff]
    constructor
    · rintro ⟨next, ⟨hblank, rfl⟩ | ⟨hblank, case, hread, hid, rfl⟩, hrest⟩
      · obtain ⟨added, rfl, hdistinct, hreads⟩ := (ih hnodup).mp hrest
        refine ⟨added, rfl, hdistinct, ?_⟩
        rwa [List.filter_cons_of_neg (by simp [hblank])]
      · have hnext : ((cases ++ [case]).map EvaluationCase.caseId).Nodup := by
          rw [List.map_append, List.map_singleton, List.nodup_append]
          refine ⟨hnodup, List.nodup_singleton _, fun i hi j hj ↦ ?_⟩
          rw [List.mem_singleton.mp hj]
          exact fun heq ↦ hid (heq ▸ hi)
        obtain ⟨added, rfl, hdistinct, hreads⟩ := (ih hnext).mp hrest
        refine ⟨case :: added, by rw [List.append_assoc, List.singleton_append], hdistinct, ?_⟩
        rw [List.filter_cons_of_pos (by simp [hblank])]
        exact List.Forall₂.cons hread hreads
    · rintro ⟨added, rfl, hdistinct, hreads⟩
      cases hblank : isBlank line with
      | true =>
        rw [List.filter_cons_of_neg (by simp [hblank])] at hreads
        exact ⟨cases, .inl ⟨rfl, rfl⟩, (ih hnodup).mpr ⟨added, rfl, hdistinct, hreads⟩⟩
      | false =>
        rw [List.filter_cons_of_pos (by simp [hblank])] at hreads
        obtain ⟨case, added, hread, hrest, rfl⟩ := List.forall₂_cons_left_iff.mp hreads
        have hsplit : cases ++ case :: added = (cases ++ [case]) ++ added := by
          rw [List.append_assoc, List.singleton_append]
        have hfirst : ((cases ++ [case]).map EvaluationCase.caseId).Nodup := by
          rw [hsplit, List.map_append] at hdistinct
          exact (List.nodup_append.mp hdistinct).1
        refine ⟨cases ++ [case], .inr ⟨rfl, case, hread, ?_, rfl⟩, ?_⟩
        · rw [List.map_append, List.map_singleton, List.nodup_append] at hfirst
          exact fun hmem ↦ hfirst.2.2 _ hmem _ (List.mem_singleton_self _) rfl
        · exact (ih hfirst).mpr ⟨added, hsplit, hdistinct, hrest⟩

theorem foldlM_loadLine_nil {n : ℕ} :
    (lines.zipIdx n).foldlM (loadLine reader) [] = .ok cases ↔ Corpus reader lines cases := by
  have hnil : (([] : List EvaluationCase).map EvaluationCase.caseId).Nodup := List.nodup_nil
  rw [foldlM_loadLine_eq_ok_iff hnil]
  constructor
  · rintro ⟨added, rfl, hnodup, hread⟩
    exact ⟨hread, hnodup⟩
  · exact fun h ↦ ⟨cases, rfl, h.nodup, h.read⟩

/-- **Where the loop stops.** -/
theorem foldlM_loadLine_eq_error_iff {n : ℕ} {error : LoadError} :
    (lines.zipIdx n).foldlM (loadLine reader) [] = .error error ↔
      ∃ before line after cases, lines = before ++ line :: after ∧ Corpus reader before cases ∧
        loadLine reader cases (line, n + before.length) = .error error := by
  rw [foldlM_eq_error_iff]
  constructor
  · rintro ⟨before, ⟨line, lineNumber⟩, after, cases, hsplit, hbefore, hline⟩
    obtain ⟨before, rest, rfl, rfl, hrest⟩ := List.zipIdx_eq_append_iff.mp hsplit
    obtain ⟨_, after, rfl, hhead, rfl⟩ := List.zipIdx_eq_cons_iff.mp hrest.symm
    obtain ⟨rfl, rfl⟩ := Prod.mk.inj hhead
    exact ⟨before, line, after, cases, rfl, foldlM_loadLine_nil.mp hbefore, hline⟩
  · rintro ⟨before, line, after, cases, rfl, hbefore, hline⟩
    refine ⟨before.zipIdx n, (line, n + before.length), after.zipIdx (n + before.length + 1), cases,
      ?_, foldlM_loadLine_nil.mpr hbefore, hline⟩
    rw [List.zipIdx_append, List.zipIdx_cons]

/-! ## What is accepted, and why something is not -/

def BothLabels (cases : List EvaluationCase) : Prop :=
  (∃ case ∈ cases, case.label = 0) ∧ ∃ case ∈ cases, case.label = 1

instance : DecidablePred BothLabels := fun cases ↦
  inferInstanceAs
    (Decidable ((∃ case ∈ cases, case.label = 0) ∧ ∃ case ∈ cases, case.label = 1))

/-- The lines before a line are all right, and hold the cases. -/
def Reaches (reader : PyReader) (lines before : List (List Char)) (line : List Char)
    (cases : List EvaluationCase) : Prop :=
  (∃ after, lines = before ++ line :: after) ∧ isBlank line = false ∧ Corpus reader before cases

/-- What an error says of the lines of the file. -/
def LoadError.Explains (reader : PyReader) (lines : List (List Char)) : LoadError → Prop
  | .invalidCase lineNumber error => ∃ before line cases, Reaches reader lines before line cases ∧
      lineNumber = before.length + 1 ∧ readCase reader line = .error error
  | .duplicateId caseId => ∃ before line cases case, Reaches reader lines before line cases ∧
      readCase reader line = .ok case ∧ case.caseId = caseId ∧
        caseId ∈ cases.map EvaluationCase.caseId
  | .emptyCorpus => Corpus reader lines []
  | .oneLabel => ∃ cases, Corpus reader lines cases ∧ cases ≠ [] ∧ ¬BothLabels cases

theorem loadLine_eq_error_iff {line : List Char} {lineNumber : ℕ} {error : LoadError} :
    loadLine reader cases (line, lineNumber) = .error error ↔ isBlank line = false ∧
      ((∃ caseError, readCase reader line = .error caseError ∧
        error = .invalidCase lineNumber caseError) ∨
      ∃ case, readCase reader line = .ok case ∧ case.caseId ∈ cases.map EvaluationCase.caseId ∧
        error = .duplicateId case.caseId) := by
  rw [loadLine]
  cases hblank : isBlank line with
  | true => simp
  | false =>
    cases hread : readCase reader line with
    | error caseError => simp [eq_comm]
    | ok case =>
      by_cases hmem : case.caseId ∈ cases.map EvaluationCase.caseId
      · simp only [Bool.false_eq_true, if_false, hmem, if_true, Except.error.injEq, true_and,
          reduceCtorEq, false_and, exists_false, false_or, Except.ok.injEq, exists_eq_left',
          eq_comm]
      · simp only [Bool.false_eq_true, if_false, hmem, true_and, reduceCtorEq, false_and,
          exists_false, false_or, Except.ok.injEq, exists_eq_left']

theorem foldlM_loadLine_error {error : LoadError} :
    (lines.zipIdx 1).foldlM (loadLine reader) [] = .error error ↔
      error.Explains reader lines ∧ error ≠ .emptyCorpus ∧ error ≠ .oneLabel := by
  rw [foldlM_loadLine_eq_error_iff]
  simp only [loadLine_eq_error_iff]
  constructor
  · rintro ⟨before, line, after, cases, hlines, hbefore, hblank,
      ⟨caseError, hread, rfl⟩ | ⟨case, hread, hmem, rfl⟩⟩
    · exact ⟨⟨before, line, cases, ⟨⟨after, hlines⟩, hblank, hbefore⟩, Nat.add_comm _ _, hread⟩,
        by simp, by simp⟩
    · exact ⟨⟨before, line, cases, case, ⟨⟨after, hlines⟩, hblank, hbefore⟩, hread, rfl, hmem⟩,
        by simp, by simp⟩
  · rintro ⟨hexplains, hempty, hlabel⟩
    cases error with
    | invalidCase lineNumber caseError =>
      obtain ⟨before, line, cases, ⟨⟨after, hlines⟩, hblank, hbefore⟩, rfl, hread⟩ := hexplains
      exact ⟨before, line, after, cases, hlines, hbefore, hblank,
        .inl ⟨caseError, hread, by rw [Nat.add_comm]⟩⟩
    | duplicateId caseId =>
      obtain ⟨before, line, cases, case, ⟨⟨after, hlines⟩, hblank, hbefore⟩, hread, rfl, hmem⟩ :=
        hexplains
      exact ⟨before, line, after, cases, hlines, hbefore, hblank, .inr ⟨case, hread, hmem, rfl⟩⟩
    | emptyCorpus => exact absurd rfl hempty
    | oneLabel => exact absurd rfl hlabel

theorem loadCases_of_holds {text : List Char} (h : Corpus reader (splitlines text) cases) :
    loadCases reader text = if cases = [] then .error .emptyCorpus
      else if ¬BothLabels cases then .error .oneLabel else .ok cases := by
  rw [loadCases, foldlM_loadLine_nil.mpr h]
  rfl

theorem Corpus.unique {cases' : List EvaluationCase} (h : Corpus reader lines cases)
    (h' : Corpus reader lines cases') : cases = cases' :=
  Except.ok.inj ((foldlM_loadLine_nil (n := 0).mpr h).symm.trans (foldlM_loadLine_nil.mpr h'))

/-- No other error explains a loop that has stopped. -/
theorem explains_iff_of_stopped {stopped error : LoadError}
    (hloop : (lines.zipIdx 1).foldlM (loadLine reader) [] = .error stopped) :
    error.Explains reader lines ↔ error = stopped := by
  have hnone : ∀ cases, ¬Corpus reader lines cases := by
    intro cases h
    rw [foldlM_loadLine_nil.mpr h] at hloop
    cases hloop
  constructor
  · intro hexplains
    have herror : error ≠ .emptyCorpus ∧ error ≠ .oneLabel := by
      constructor
      · rintro rfl
        exact hnone [] hexplains
      · rintro rfl
        obtain ⟨cases, h, -⟩ := hexplains
        exact hnone cases h
    have hstops := foldlM_loadLine_error.mpr ⟨hexplains, herror⟩
    rw [hloop] at hstops
    exact (Except.error.inj hstops).symm
  · rintro rfl
    exact (foldlM_loadLine_error.mp hloop).1

/-- Once the loop is through, only the whole corpus can be at fault. -/
theorem Corpus.explains_iff (h : Corpus reader lines cases) {error : LoadError} :
    error.Explains reader lines ↔
      (cases = [] ∧ error = .emptyCorpus) ∨
      (cases ≠ [] ∧ ¬BothLabels cases ∧ error = .oneLabel) := by
  constructor
  · intro hexplains
    have hlast : error = .emptyCorpus ∨ error = .oneLabel := by
      by_contra hother
      have herror := foldlM_loadLine_error.mpr ⟨hexplains, not_or.mp hother⟩
      rw [foldlM_loadLine_nil.mpr h] at herror
      cases herror
    rcases hlast with rfl | rfl
    · exact .inl ⟨h.unique hexplains, rfl⟩
    · obtain ⟨cases', h', hempty, hlabels⟩ := hexplains
      obtain rfl := h.unique h'
      exact .inr ⟨hempty, hlabels, rfl⟩
  · rintro (⟨rfl, rfl⟩ | ⟨hempty, hlabels, rfl⟩)
    · exact h
    · exact ⟨cases, h, hempty, hlabels⟩

theorem loadCases_of_stopped {text : List Char} {stopped : LoadError}
    (hloop : ((splitlines text).zipIdx 1).foldlM (loadLine reader) [] = .error stopped) :
    loadCases reader text = .error stopped := by
  rw [loadCases, hloop]
  rfl

theorem loadCases_eq_ok_iff {text : List Char} :
    loadCases reader text = .ok cases ↔
      Corpus reader (splitlines text) cases ∧ BothLabels cases := by
  cases hloop : ((splitlines text).zipIdx 1).foldlM (loadLine reader) [] with
  | error stopped =>
    rw [loadCases_of_stopped hloop]
    refine iff_of_false (fun h ↦ by cases h) ?_
    rintro ⟨h, -⟩
    rw [foldlM_loadLine_nil.mpr h] at hloop
    cases hloop
  | ok found =>
    have hholds : Corpus reader (splitlines text) found := foldlM_loadLine_nil.mp hloop
    rw [loadCases_of_holds hholds]
    constructor
    · intro h
      split_ifs at h with hempty hlabels
      cases h
      exact ⟨hholds, hlabels⟩
    · rintro ⟨h, hlabels⟩
      obtain rfl := hholds.unique h
      obtain ⟨case, hmem, -⟩ := hlabels.1
      rw [if_neg (List.ne_nil_of_mem hmem), if_neg (not_not.mpr hlabels)]

/-- **What `load_cases` accepts, and why it rejects.** It returns exactly the cases that the lines
of the file hold, if both labels occur among them. Otherwise it raises exactly the error that
explains why not: the number of the first line that is no case and what is wrong with it, the first
identifier that is repeated, or what the whole corpus lacks. -/
theorem loadCases_iff (reader : PyReader) (text : List Char) :
    (∀ cases, loadCases reader text = .ok cases ↔
      Corpus reader (splitlines text) cases ∧ BothLabels cases) ∧
    ∀ error, loadCases reader text = .error error ↔ error.Explains reader (splitlines text) := by
  refine ⟨fun cases ↦ loadCases_eq_ok_iff, fun error ↦ ?_⟩
  cases hloop : ((splitlines text).zipIdx 1).foldlM (loadLine reader) [] with
  | error stopped =>
    rw [loadCases_of_stopped hloop, Except.error.injEq, explains_iff_of_stopped hloop, eq_comm]
  | ok cases =>
    have hholds : Corpus reader (splitlines text) cases := foldlM_loadLine_nil.mp hloop
    rw [loadCases_of_holds hholds, hholds.explains_iff]
    split_ifs with hempty hlabels
    · simp [hempty, eq_comm]
    · simp [hempty, hlabels]
    · simp [hempty, hlabels, eq_comm]

/-! ## Writing a corpus -/

def EvaluationCase.json (case : EvaluationCase) : Json :=
  .object [("case_id", .string case.caseId), ("text", .string case.text),
    ("label", .number (.nat case.label.toNat)), ("category", .string case.category),
    ("source", .string case.source)]

def writeCases (cases : List EvaluationCase) : List Char :=
  unlines (cases.map fun case ↦ case.json.dumps)

structure EvaluationCase.Checked (case : EvaluationCase) : Prop where
  label : case.label = 0 ∨ case.label = 1
  stripped : strip case.text.toList = case.text.toList
  ne_nil : case.text.toList ≠ []

theorem labelOf_eq_some {value : Json} {label : ℤ} (h : labelOf reader value = some label) :
    label = 0 ∨ label = 1 := by
  rw [labelOf.eq_def] at h
  split at h
  · exact .inr (Option.some_inj.mp h).symm
  · exact .inl (Option.some_inj.mp h).symm
  · split_ifs at h
    · obtain ⟨value, hvalue, h⟩ := Option.bind_eq_some_iff.mp h
      split_ifs at h
      · exact .inl (Option.some_inj.mp h).symm
      · exact .inr (Option.some_inj.mp h).symm
    · exact .inl (Option.some_inj.mp h).symm
    · exact .inr (Option.some_inj.mp h).symm
  · cases h

theorem checked_of_fromMapping {value : Json} {case : EvaluationCase}
    (h : EvaluationCase.fromMapping reader value = .ok case) : case.Checked := by
  simp only [EvaluationCase.fromMapping] at h
  split at h
  · cases h
  · split_ifs at h
    split at h
    · split at h
      · cases h
      · rename_i label hlabel
        split_ifs at h with hblank
        cases h
        refine ⟨labelOf_eq_some hlabel, ?_, ?_⟩
        · rw [String.toList_ofList]
          exact strip_strip _
        · rwa [String.toList_ofList]
    · cases h

theorem checked_of_readCase {line : List Char} {case : EvaluationCase}
    (h : readCase reader line = .ok case) : case.Checked := by
  rw [readCase] at h
  split at h
  · cases h
  · split_ifs at h
    exact checked_of_fromMapping h

/-- **A checked case is read as it is.** -/
theorem readCase_json {case : EvaluationCase} (h : case.Checked) :
    readCase reader case.json.dumps = .ok case := by
  obtain ⟨caseId, text, label, category, source⟩ := case
  have hlabel : labelOf reader (.number (.nat label.toNat)) = some label := by
    rcases h.label with rfl | rfl <;> rfl
  have hshort : isLongInteger (.nat label.toNat) = false := by
    rw [← Bool.not_eq_true, isLongInteger_nat, not_le]
    have hone : label.toNat ≤ 1 := by
      rcases h.label with rfl | rfl <;> decide
    exact hone.trans_lt (Nat.one_lt_pow (by decide) (by decide))
  have hstripped : strip text.toList = text.toList := h.stripped
  have htext : text ≠ "" := fun heq ↦ h.ne_nil (by rw [heq]; rfl)
  rw [readCase, Json.loads_dumps]
  simp [EvaluationCase.fromMapping, EvaluationCase.json, fieldNames, requiredFields, Json.member,
    List.lookup_cons, reader.str_string, holdsLongInteger, holdsLongIntegerMembers, hshort, hlabel,
    hstripped, htext]

theorem Corpus.checked (h : Corpus reader lines cases) : ∀ case ∈ cases, case.Checked := by
  obtain ⟨hread, -⟩ := h
  generalize lines.filter (fun line ↦ !isBlank line) = nonBlank at hread
  induction hread with
  | nil => exact fun _ hmem ↦ absurd hmem List.not_mem_nil
  | cons hfirst hrest ih =>
    intro case hmem
    rcases List.mem_cons.mp hmem with rfl | hmem
    · exact checked_of_readCase hfirst
    · exact ih case hmem

/-- **Writing a corpus and reading it again changes nothing.** Whatever the file was like, with
blank lines, spaces around the texts or other members, what has been read from it is read again from
the file with one case on each line. -/
theorem loadCases_writeCases (reader : PyReader) {text : List Char} {cases : List EvaluationCase}
    (h : loadCases reader text = .ok cases) : loadCases reader (writeCases cases) = .ok cases := by
  obtain ⟨hcorpus, hlabels⟩ := loadCases_eq_ok_iff.mp h
  have hlines : splitlines (writeCases cases) = cases.map fun case ↦ case.json.dumps := by
    have hunbroken : ∀ line ∈ cases.map (fun case ↦ case.json.dumps), Unbroken line := by
      intro line hline
      obtain ⟨case, -, rfl⟩ := List.mem_map.mp hline
      exact (Json.printable_dumps _).unbroken
    have hsplit := splitlines_unlines hunbroken []
    rwa [List.append_nil, splitlines, List.append_nil] at hsplit
  have hfilter : (cases.map fun case ↦ case.json.dumps).filter (fun line ↦ !isBlank line)
      = cases.map fun case ↦ case.json.dumps := by
    rw [List.filter_eq_self]
    intro line hline
    obtain ⟨case, -, rfl⟩ := List.mem_map.mp hline
    rw [isBlank_of_loads (Json.loads_dumps _), Bool.not_false]
  refine loadCases_eq_ok_iff.mpr ⟨⟨?_, hcorpus.nodup⟩, hlabels⟩
  rw [hlines, hfilter, List.forall₂_map_left_iff, List.forall₂_same]
  exact fun case hmem ↦ readCase_json (hcorpus.checked case hmem)

def PyReader.sample : PyReader where
  str
    | .string s => s
    | other => String.ofList other.dumps
  str_string _ := rfl
  float _ := none
  decodeError _ := "Expecting value: line 1 column 1 (char 0)"
  typeError _ := "'int' object is not iterable"

/-- A line of a corpus, with blanks around the text and the label `true` or `0`. -/
def sampleLine (caseId label : String) : List Char :=
  ("\x7b\"case_id\": \"" ++ caseId ++ "\", \"text\": \" You are awful \", \"label\": " ++ label
    ++ ", \"category\": \"toxicity\", \"source\": \"test\", \"note\": []\x7d").toList

example : loadCases PyReader.sample (unlines [sampleLine "a" "0", [' '], sampleLine "b" "2"])
    = .error (.invalidCase 3 .invalidLabel) := by decide +kernel

/-- The cases of the sample, a safe one and one that is not. -/
def sampleLoaded : List EvaluationCase :=
  [⟨"a", "You are awful", 0, "toxicity", "test"⟩, ⟨"b", "You are awful", 1, "toxicity", "test"⟩]

theorem loadCases_sample : loadCases PyReader.sample
    (unlines [sampleLine "a" "0", [' '], sampleLine "b" "true"]) = .ok sampleLoaded := by
  decide +kernel

/-- A sample with a blank line, a further member, and `true` for a label. -/
theorem loadCases_writeCases_sample :
    loadCases PyReader.sample (writeCases sampleLoaded) = .ok sampleLoaded :=
  loadCases_writeCases PyReader.sample loadCases_sample

end Sentinel
