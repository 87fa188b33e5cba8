import Mathlib.Data.List.DropRight
import Sentinel.Collections.Grouping
import Sentinel.Collections.Traversal
import Sentinel.Review.Service

/-!
# Who a reviewer is

`ReviewAuthorizer`: a file names reviewers by the digests of their tokens, and a token
authenticates as the reviewer whose digest it has. The file is read entry by entry and may stop at
any of them. Of several entries with one digest the last one counts, whatever the case of its
letters.

The document is the one that `json.loads` gives; its lookups raise where a value is not an object.
`str.lower`, and the text of a digest that is not a string, are those of Python.
-/

namespace Sentinel

open Collections Text

/-- What `from_file` raises. -/
inductive AuthFileError
  /-- `document` or an entry is not an object, or a field of an entry is missing. -/
  | shape
  | noPrincipals
  | badDigest
  | badRole
  | badReviewerId
deriving DecidableEq

/-- The functions of Python that the file is read with. -/
structure AuthText where
  /-- `str.lower`. -/
  lower : String → String
  /-- `str`, of what is not a string. -/
  str : Json → String

/-- `str(value)`. -/
def AuthText.strOf (texts : AuthText) : Json → String
  | .string value => value
  | value => texts.str value

def isHexDigit (c : Char) : Bool := c ∈ "0123456789abcdef".toList

def isDigest (text : String) : Bool := text.length = 64 && text.toList.all isHexDigit

/-- `ReviewerRole(value)`. -/
def readRole : Json → Option ReviewerRole
  | .string "reviewer" => some .reviewer
  | .string "senior_reviewer" => some .seniorReviewer
  | .string "auditor" => some .auditor
  | _ => none

/-- `Field(min_length=1, max_length=128)` of a `reviewer_id`. -/
def readReviewerId : Json → Option String
  | .string value => if 1 ≤ value.length ∧ value.length ≤ 128 then some value else none
  | _ => none

/-- `entry[name]`. -/
def entryField (entry : Json) (name : String) : Except AuthFileError Json :=
  match entry.member name with
  | some value => .ok value
  | none => .error .shape

/-- One entry of the file: its digest and its reviewer. -/
def readPrincipal (texts : AuthText) (entry : Json) :
    Except AuthFileError (String × ReviewPrincipal) := do
  let tokenHash := texts.lower (texts.strOf (← entryField entry "token_sha256"))
  if ¬isDigest tokenHash then throw .badDigest
  let reviewerId ← entryField entry "reviewer_id"
  let role ← (readRole (← entryField entry "role")).elim (throw .badRole) pure
  let reviewerId ← (readReviewerId reviewerId).elim (throw .badReviewerId) pure
  return (tokenHash, ⟨reviewerId, role⟩)

/-- `ReviewAuthorizer`. -/
structure ReviewAuthorizer where
  tokenHashes : Dict String ReviewPrincipal

namespace ReviewAuthorizer

/-- `token_hashes[token_hash] = ReviewPrincipal(...)`. -/
def register (tokenHashes : Dict String ReviewPrincipal) (item : String × ReviewPrincipal) :
    Dict String ReviewPrincipal :=
  tokenHashes.set item.1 item.2

/-- `from_file`, from the document on. -/
def fromDocument (texts : AuthText) (document : Json) : Except AuthFileError ReviewAuthorizer :=
  match document with
  | .object _ =>
    match document.member "principals" with
    | some (.array (entry :: entries)) => do
      let tokenHashes ← (entry :: entries).foldlM (fun tokenHashes entry ↦ do
        let item ← readPrincipal texts entry
        return register tokenHashes item) Dict.empty
      return ⟨tokenHashes⟩
    | _ => .error .noPrincipals
  | _ => .error .shape

/-- `authenticate`, given the digest of the token. -/
def authenticate (authorizer : ReviewAuthorizer) (sha256 : String → String) (token : String) :
    Except ReviewError ReviewPrincipal :=
  let candidate := sha256 token
  match authorizer.tokenHashes.items.find? fun item ↦ candidate = item.1 with
  | some item => .ok item.2
  | none => .error (.authorization "invalid reviewer credentials")

/-! ## Who authenticates -/

variable {texts : AuthText} {document : Json} {authorizer : ReviewAuthorizer}

theorem authenticate_eq_ok {sha256 : String → String} {token : String}
    {principal : ReviewPrincipal} : authorizer.authenticate sha256 token = .ok principal ↔
      authorizer.tokenHashes.get (sha256 token) = some principal := by
  rw [authenticate, Dict.find?_items]
  cases authorizer.tokenHashes.get (sha256 token) with
  | none => exact iff_of_false (fun h ↦ by cases h) (fun h ↦ by cases h)
  | some found =>
    show Except.ok found = .ok principal ↔ _
    rw [Except.ok.injEq, Option.some_inj]

theorem items_of_fromDocument (h : fromDocument texts document = .ok authorizer) :
    ∃ entries items, document.member "principals" = some (.array entries) ∧
      entries.mapM (readPrincipal texts) = .ok items ∧
      authorizer.tokenHashes = Dict.ofItems items := by
  cases document with
  | object members =>
    rw [fromDocument] at h
    split at h
    · rename_i entry entries hmember
      obtain ⟨tokenHashes, hfold, hpure⟩ := bind_eq_ok.mp h
      obtain ⟨items, hitems, rfl⟩ := foldlM_eq_ok_iff.mp hfold
      cases hpure
      exact ⟨entry :: entries, items, hmember, hitems, rfl⟩
    · cases h
  | constant | number | string | array => cases h

theorem lookup_eq_some_iff_of_read {read : Json → Except AuthFileError (String × ReviewPrincipal)}
    {entries : List Json} {items : List (String × ReviewPrincipal)} {key : String}
    {principal : ReviewPrincipal}
    (h : List.Forall₂ (fun entry item ↦ read entry = .ok item) entries items) :
    Dict.lookup key items = some principal ↔ ∃ skipped entry rest,
      entries = skipped ++ entry :: rest ∧ read entry = .ok (key, principal) ∧
        ∀ other ∈ skipped, ∀ principal', read other ≠ .ok (key, principal') := by
  induction h with
  | nil =>
    refine iff_of_false (fun h ↦ by cases h) ?_
    rintro ⟨skipped, entry, rest, heq, -⟩
    exact List.append_ne_nil_of_right_ne_nil skipped (List.cons_ne_nil entry rest) heq.symm
  | @cons first item entries items hfirst hrest ih =>
    rw [Dict.lookup]
    by_cases hkey : item.1 = key
    · rw [if_pos hkey, Option.some_inj]
      constructor
      · rintro rfl
        refine ⟨[], first, entries, rfl, ?_, fun other hother ↦ absurd hother List.not_mem_nil⟩
        rw [hfirst, ← hkey]
      · rintro ⟨skipped, entry, rest, heq, hread, hskipped⟩
        cases skipped with
        | nil =>
          obtain ⟨rfl, -⟩ := List.cons.inj heq
          exact congrArg Prod.snd (Except.ok.inj (hfirst.symm.trans hread))
        | cons other skipped =>
          obtain ⟨rfl, -⟩ := List.cons.inj heq
          refine absurd hfirst ?_
          rw [show item = (key, item.2) from Prod.ext hkey rfl]
          exact hskipped first List.mem_cons_self item.2
    · rw [if_neg hkey, ih]
      have hother : ∀ principal', read first ≠ .ok (key, principal') := fun principal' hread ↦
        hkey (congrArg Prod.fst (Except.ok.inj (hfirst.symm.trans hread)))
      constructor
      · rintro ⟨skipped, entry, rest, rfl, hread, hskipped⟩
        exact ⟨first :: skipped, entry, rest, rfl, hread,
          List.forall_mem_cons.mpr ⟨hother, hskipped⟩⟩
      · rintro ⟨skipped, entry, rest, heq, hread, hskipped⟩
        cases skipped with
        | nil =>
          obtain ⟨rfl, -⟩ := List.cons.inj heq
          exact absurd hread (hother principal)
        | cons other skipped =>
          obtain ⟨rfl, rfl⟩ := List.cons.inj heq
          exact ⟨skipped, entry, rest, rfl, hread,
            (List.forall_mem_cons.mp hskipped).2⟩

/-- **A token authenticates exactly as the last entry of the file that has its digest.** -/
theorem authenticate_iff (texts : AuthText) (document : Json) (authorizer : ReviewAuthorizer)
    (h : fromDocument texts document = .ok authorizer) (sha256 : String → String) (token : String)
    (principal : ReviewPrincipal) : authorizer.authenticate sha256 token = .ok principal ↔
      ∃ earlier entry later,
        document.member "principals" = some (.array (earlier ++ entry :: later)) ∧
        readPrincipal texts entry = .ok (sha256 token, principal) ∧
        ∀ other ∈ later, ∀ principal',
          readPrincipal texts other ≠ .ok (sha256 token, principal') := by
  obtain ⟨entries, items, hmember, hread, hhashes⟩ := items_of_fromDocument h
  have hreversed := List.forall₂_reverse_iff.mpr (mapM_eq_ok_iff_forall₂.mp hread)
  rw [authenticate_eq_ok, hhashes, Dict.get_ofItems, lookup_eq_some_iff_of_read hreversed, hmember]
  constructor
  · rintro ⟨later, entry, earlier, heq, hentry, hlater⟩
    refine ⟨earlier.reverse, entry, later.reverse, ?_, hentry, ?_⟩
    · rw [← List.reverse_reverse entries, heq, List.reverse_append, List.reverse_cons,
        List.append_assoc, List.singleton_append]
    · exact fun other hother ↦ hlater other (List.mem_reverse.mp hother)
  · rintro ⟨earlier, entry, later, heq, hentry, hlater⟩
    obtain rfl := Json.array.inj (Option.some_inj.mp heq)
    refine ⟨later.reverse, entry, earlier.reverse, ?_, hentry, ?_⟩
    · rw [List.reverse_append, List.reverse_cons, List.append_assoc, List.singleton_append]
    · exact fun other hother ↦ hlater other (List.mem_reverse.mp hother)

/-! ## A sample -/

/-- The digest of `reviewer-secret`. -/
def sampleDigest : String :=
  "6728f0846620cf2dc1c38d77833e7953d42c12ee523470fe19584ae62e4dd84c"

/-- A digest function that knows one token. -/
def sampleSha256 (token : String) : String :=
  if token = "reviewer-secret" then sampleDigest else ""

def sampleEntry (reviewerId role : String) : Json :=
  .object [("reviewer_id", .string reviewerId), ("role", .string role),
    ("token_sha256", .string sampleDigest)]

/-- A file that names the token twice. -/
def sampleDocument : Json :=
  .object [("principals", .array [sampleEntry "reviewer-1" "reviewer",
    sampleEntry "reviewer-2" "senior_reviewer"])]

def sampleTexts : AuthText := ⟨id, fun _ ↦ ""⟩

theorem readPrincipal_sample :
    readPrincipal sampleTexts (sampleEntry "reviewer-2" "senior_reviewer")
    = .ok (sampleDigest, ⟨"reviewer-2", .seniorReviewer⟩) := by
  rfl

theorem fromDocument_sample : ∃ authorizer, fromDocument sampleTexts sampleDocument
    = .ok authorizer := ⟨_, rfl⟩

theorem authenticate_iff_sample : ∃ authorizer, fromDocument sampleTexts sampleDocument
    = .ok authorizer ∧ authorizer.authenticate sampleSha256 "reviewer-secret"
      = .ok ⟨"reviewer-2", .seniorReviewer⟩ := by
  obtain ⟨authorizer, h⟩ := fromDocument_sample
  refine ⟨authorizer, h, (authenticate_iff sampleTexts sampleDocument authorizer h sampleSha256
    "reviewer-secret" ⟨"reviewer-2", .seniorReviewer⟩).mpr ?_⟩
  exact ⟨[sampleEntry "reviewer-1" "reviewer"], _, [], rfl, readPrincipal_sample,
    fun other hother ↦ absurd hother List.not_mem_nil⟩

end ReviewAuthorizer

end Sentinel
