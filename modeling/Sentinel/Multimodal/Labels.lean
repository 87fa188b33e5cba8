import Sentinel.Api.Moderation
import Sentinel.Evaluation.Cases

/-!
# Reviewed labels

The two adapters that score an image, `TimmImageSafetyModel` and `TransformerImageSafetyModel`. A
file of metadata says what the labels of a model mean. When an adapter is loaded, each label that
has a category is replaced by the number of its output; when an image is scored, a category gets the
greatest of the probabilities at its numbers.

Pillow, the networks and the digest are parameters. A softmax has as many values as the network has
outputs, each of them in the unit interval.
-/

namespace Sentinel

open Collections Text

variable {P : Type}

/-! ## Scoring -/

/-- What opening, transposing and converting an image can raise. -/
inductive DecodeFailure
  /-- `DecompressionBombError`, or the warning. -/
  | decompressionBomb
  /-- `UnidentifiedImageError`, `OSError` or `SyntaxError`. -/
  | unreadable
deriving DecidableEq

/-- What `predict_scores` raises in its place. -/
def DecodeFailure.toError : DecodeFailure → ImageError
  | .decompressionBomb => .imageTooLarge "image exceeds the safe decoded-pixel limit"
  | .unreadable => .invalidImage "image could not be decoded safely"

/-- The state of either adapter, and the softmax of its network over the pixels of an image. -/
structure ImageClassifier (P : Type) where
  version : String
  labelCategories : Dict ℕ SafetyCategory
  probabilities : P → List ℚ

/-- `float(probabilities[index].cpu().item())`, with the category. -/
def probabilityOf (probabilities : List ℚ) (item : ℕ × SafetyCategory) :
    Except ImageError (SafetyCategory × ℚ) :=
  match probabilities[item.1]? with
  | none => .error .indexError
  | some probability => .ok (item.2, probability)

/-- The loop of `predict_scores`. -/
def scoreCategories (probabilities : List ℚ) (labelCategories : Dict ℕ SafetyCategory) :
    Except ImageError (Dict SafetyCategory ℚ) :=
  labelCategories.items.foldlM (fun scores item ↦
    probabilityOf probabilities item >>= fun scored ↦ pure (Dict.keepMax 0 scores scored))
      Dict.empty

/-- `predict_scores`. -/
def ImageClassifier.predictScores (classifier : ImageClassifier P)
    (decode : List UInt8 → Except DecodeFailure P) (image : ValidatedImage) :
    Except ImageError (Dict SafetyCategory ℚ) :=
  match decode image.data with
  | .error failure => .error failure.toError
  | .ok pixels => scoreCategories (classifier.probabilities pixels) classifier.labelCategories

/-- The adapter that the endpoints ask. -/
def ImageClassifier.adapter (classifier : ImageClassifier P)
    (decode : List UInt8 → Except DecodeFailure P) : ImageSafetyAdapter where
  version := classifier.version
  predictScores := classifier.predictScores decode

/-! ## Loading -/

inductive ImageModelError
  | valueError (message : String)
  /-- An error of Python's own or of a library, with its text. -/
  | raised (text : String)
deriving DecidableEq

/-- What Python does for `load`. -/
structure ModelReader extends PyReader where
  /-- The text of `path / name`. -/
  join : String → String
  /-- The text of the `AttributeError` on a value that has no `get`. -/
  attributeError : Json → String
  /-- The text of the `ValueError` on a value that is no `SafetyCategory`. -/
  categoryError : Json → String

structure ModelDirectory where
  /-- The text of `sentinel_image_metadata.json`, if the file exists. -/
  metadata : Option (List Char)
  /-- The content of `path / name`, if it is a file. -/
  file : String → Option (List UInt8)

/-- Every `SafetyCategory`. -/
def SafetyCategory.all : List SafetyCategory :=
  [.harassment, .identityAttack, .threat, .toxicity, .coordinatedAbuse, .sexualContent,
    .graphicViolence, .crossModalDisagreement]

/-- `SafetyCategory(value)`. -/
def SafetyCategory.ofJson : Json → Option SafetyCategory
  | .string value => SafetyCategory.all.find? fun category ↦ category.value = value
  | _ => none

/-- `value == text`, for a text. -/
def isString (text : String) : Json → Bool
  | .string value => value == text
  | _ => false

def readMetadata (reader : ModelReader) (directory : ModelDirectory) :
    Except ImageModelError Json :=
  match directory.metadata with
  | none => .error (.valueError ("reviewed image-model metadata is missing: "
      ++ reader.join "sentinel_image_metadata.json"))
  | some text =>
    match Json.loads text with
    | none => .error (.raised (reader.decodeError text))
    | some metadata => .ok metadata

/-- `metadata[name]` of a dictionary, or the `KeyError`. -/
def itemOf (metadata : Json) (name : String) : Except ImageModelError Json :=
  match metadata.member name with
  | none => .error (.raised ("'" ++ name ++ "'"))
  | some value => .ok value

/-- The mapping, if it is one and has items. -/
def readMapping (message : String) : Option Json → Except ImageModelError (List (String × Json))
  | some (.object (item :: items)) => .ok (item :: items)
  | _ => .error (.valueError message)

/-- The number of a label and its category, for an item of the mapping. -/
def readLabel (reader : ModelReader) (index : String → Option ℕ) (item : String × Json) :
    Except ImageModelError (ℕ × SafetyCategory) :=
  match index item.1 with
  | none => .error (.valueError ("mapped model label does not exist: " ++ item.1))
  | some i =>
    match SafetyCategory.ofJson item.2 with
    | none => .error (.raised (reader.categoryError item.2))
    | some category =>
      if category ∈ imageCategories then .ok (i, category)
      else .error (.valueError ("unsupported image category mapping: " ++ reader.str item.2))

/-- The loop over the mapping. In a JSON object with a label twice the last category counts. -/
def readLabelCategories (reader : ModelReader) (index : String → Option ℕ)
    (members : List (String × Json)) : Except ImageModelError (Dict ℕ SafetyCategory) :=
  (Dict.ofItems members).items.foldlM (fun labelCategories item ↦
    readLabel reader index item >>= fun (i, category) ↦ pure (labelCategories.set i category))
      Dict.empty

def ofLibrary {β : Type} : Except String β → Except ImageModelError β
  | .error text => .error (.raised text)
  | .ok value => .ok value

namespace TimmImageSafetyModel

/-- `sorted(required)`. -/
def requiredFields : List String :=
  ["architecture", "backend", "input_size", "label_categories", "label_names", "mean",
    "model_version", "std", "weights_file", "weights_sha256"]

/-- `_load_metadata`, after the file has been read. -/
def checkMetadata (reader : ModelReader) (metadata : Json) : Except ImageModelError Unit :=
  match fieldNames metadata with
  | none => .error (.raised (reader.typeError metadata))
  | some names =>
    let missing := requiredFields.filter fun name ↦ !names.contains name
    if missing ≠ [] then
      .error (.valueError ("image-model metadata is missing fields: "
        ++ ", ".intercalate missing))
    else
      match metadata.member "backend" with
      -- a list of the names has no members
      | none => .error (.raised (reader.typeError metadata))
      | some backend =>
        if isString "timm-safetensors" backend then .ok ()
        else .error (.valueError ("unsupported image-model backend: " ++ reader.str backend))

/-- `_load_metadata`. -/
def loadMetadata (reader : ModelReader) (directory : ModelDirectory) :
    Except ImageModelError Json := do
  let metadata ← readMetadata reader directory
  checkMetadata reader metadata
  return metadata

structure Libraries (P : Type) where
  /-- `_sha256`, on the content of the file. -/
  sha256 : List UInt8 → String
  /-- `timm.create_model`, `load_model` and `create_transform`, for the metadata, the number of
  classes and the weights; and the softmax of the outputs. -/
  create : Json → ℕ → List UInt8 → Except String (P → List ℚ)
  length_eq : ∀ {metadata numClasses weights network},
    create metadata numClasses weights = .ok network →
      ∀ pixels, (network pixels).length = numClasses
  mem_unit : ∀ {metadata numClasses weights network},
    create metadata numClasses weights = .ok network →
      ∀ pixels, ∀ probability ∈ network pixels, 0 ≤ probability ∧ probability ≤ 1

/-- The weights, if they are those that have been reviewed. -/
def readWeights (reader : ModelReader) (sha256 : List UInt8 → String) (directory : ModelDirectory)
    (metadata : Json) : Except ImageModelError (List UInt8) := do
  let weightsFile ← itemOf metadata "weights_file"
  match directory.file (reader.str weightsFile) with
  | none => .error (.valueError ("image-model weights are missing: "
      ++ reader.join (reader.str weightsFile)))
  | some weights =>
    let reviewed ← itemOf metadata "weights_sha256"
    if isString (sha256 weights) reviewed then return weights
    else .error (.valueError "image-model weight checksum does not match reviewed metadata")

/-- `label_names`, if it is a list and has items. -/
def readLabelNames : Json → Except ImageModelError (List Json)
  | .array (name :: names) => .ok (name :: names)
  | _ => .error (.valueError "image-model metadata requires non-empty label_names")

/-- `label_names.index(model_label)`, if it is in there. -/
def labelIndex (labelNames : List Json) (modelLabel : String) : Option ℕ :=
  labelNames.findIdx? (isString modelLabel)

/-- `load`. -/
def load (reader : ModelReader) (libraries : Libraries P) (directory : ModelDirectory) :
    Except ImageModelError (ImageClassifier P) := do
  let metadata ← loadMetadata reader directory
  let weights ← readWeights reader libraries.sha256 directory metadata
  let labelNames ← itemOf metadata "label_names"
  let rawMapping ← itemOf metadata "label_categories"
  let labelNames ← readLabelNames labelNames
  let members ← readMapping "image-model metadata requires a label_categories mapping" rawMapping
  let labelCategories ← readLabelCategories reader (labelIndex labelNames) members
  let probabilities ← ofLibrary (libraries.create metadata labelNames.length weights)
  let modelVersion ← itemOf metadata "model_version"
  return ⟨reader.str modelVersion, labelCategories, probabilities⟩

end TimmImageSafetyModel

namespace TransformerImageSafetyModel

/-- `AutoModelForImageClassification`, with its processor and the softmax of its outputs. -/
structure Pretrained (P : Type) where
  /-- `config.id2label`. -/
  id2label : Dict ℕ String
  probabilities : P → List ℚ
  /-- The labels are labels of outputs. -/
  lt_length : ∀ i ∈ id2label.keys, ∀ pixels, i < (probabilities pixels).length
  mem_unit : ∀ pixels, ∀ probability ∈ probabilities pixels, 0 ≤ probability ∧ probability ≤ 1

/-- `matching_ids[0]`, if there is one. -/
def labelIndex (id2label : Dict ℕ String) (modelLabel : String) : Option ℕ :=
  ((id2label.items.filter fun item ↦ item.2 = modelLabel).map Prod.fst).head?

/-- `metadata.get(name)`. -/
def getOptional (reader : ModelReader) (metadata : Json) (name : String) :
    Except ImageModelError (Option Json) :=
  match metadata with
  | .object _ => .ok (metadata.member name)
  | _ => .error (.raised (reader.attributeError metadata))

/-- `load`. -/
def load (reader : ModelReader) (fromPretrained : Except String (Pretrained P))
    (directory : ModelDirectory) : Except ImageModelError (ImageClassifier P) := do
  let metadata ← readMetadata reader directory
  let rawMapping ← getOptional reader metadata "label_categories"
  let members ← readMapping
    "image-model metadata requires a non-empty label_categories mapping" rawMapping
  let pretrained ← ofLibrary fromPretrained
  let labelCategories ← readLabelCategories reader (labelIndex pretrained.id2label) members
  let modelVersion ← itemOf metadata "model_version"
  return ⟨reader.str modelVersion, labelCategories, pretrained.probabilities⟩

end TransformerImageSafetyModel

/-! ## What the mapping says -/

variable {reader : ModelReader} {index : String → Option ℕ} {members : List (String × Json)}
  {labelCategories : Dict ℕ SafetyCategory} {category : SafetyCategory} {i : ℕ}

theorem SafetyCategory.ofJson_eq_some {value : Json} :
    SafetyCategory.ofJson value = some category ↔ value = .string category.value := by
  constructor
  · intro h
    cases value with
    | string text =>
      have hvalue := List.find?_some h
      rw [of_decide_eq_true hvalue]
    | constant | number | array | object => cases h
  · rintro rfl
    cases category <;> rfl

theorem readLabel_eq_ok {item : String × Json} :
    readLabel reader index item = .ok (i, category) ↔
      index item.1 = some i ∧ item.2 = .string category.value ∧ category ∈ imageCategories := by
  rw [readLabel, ← SafetyCategory.ofJson_eq_some]
  cases index item.1 with
  | none => simp
  | some j =>
    cases SafetyCategory.ofJson item.2 with
    | none => simp
    | some category' =>
      by_cases hmem : category' ∈ imageCategories
      · simp only [hmem, if_true, Except.ok.injEq, Prod.mk.injEq, Option.some_inj]
        constructor
        · rintro ⟨rfl, rfl⟩
          exact ⟨rfl, rfl, hmem⟩
        · exact fun h ↦ ⟨h.1, h.2.1⟩
      · simp only [hmem, if_false, reduceCtorEq, Option.some_inj, false_iff]
        rintro ⟨-, rfl, hcategory⟩
        exact hmem hcategory

theorem mem_ofItems_iff_member {modelLabel : String} {value : Json} :
    (modelLabel, value) ∈ (Dict.ofItems members).items ↔
      (Json.object members).member modelLabel = some value := by
  have hlookup : ∀ items : List (String × Json),
      Dict.lookup modelLabel items = items.lookup modelLabel := by
    intro items
    induction items with
    | nil => rfl
    | cons item items ih =>
      rw [Dict.lookup, List.lookup_cons, ih]
      by_cases hlabel : item.1 = modelLabel
      · rw [if_pos hlabel, hlabel, beq_self_eq_true]
      · rw [if_neg hlabel, beq_false_of_ne (Ne.symm hlabel)]
  rw [← Dict.get_eq_some, Dict.get_ofItems, hlookup, Json.member]

/-- **The numbers stand for the labels**, where no number is that of two labels. -/
theorem mem_labelCategories
    (hindex : ∀ {label label' i}, index label = some i → index label' = some i → label = label')
    (h : readLabelCategories reader index members = .ok labelCategories) :
    (i, category) ∈ labelCategories.items ↔ ∃ label, index label = some i ∧
      (Json.object members).member label = some (.string category.value) ∧
        category ∈ imageCategories := by
  obtain ⟨items, hitems, rfl⟩ := foldlM_eq_ok_iff.mp h
  have hnodup : (items.map Prod.fst).Nodup := by
    refine nodup_of_mapM_eq_ok (fun {x x' y y'} hx hx' hkey ↦ ?_) (Dict.ofItems members).nodup
      hitems
    obtain ⟨hlabel, -⟩ := readLabel_eq_ok.mp hx
    obtain ⟨hlabel', -⟩ := readLabel_eq_ok.mp hx'
    exact hindex hlabel (hkey ▸ hlabel')
  have hordered : (items.foldl (fun d item ↦ d.set item.1 item.2) Dict.empty).items = items :=
    Dict.items_ofItems hnodup
  rw [hordered, mem_of_mapM_eq_ok hitems]
  simp only [readLabel_eq_ok, Prod.exists, mem_ofItems_iff_member]
  constructor
  · rintro ⟨label, value, hmember, hlabel, rfl, hcategory⟩
    exact ⟨label, hlabel, hmember, hcategory⟩
  · rintro ⟨label, hlabel, hmember, hcategory⟩
    exact ⟨label, _, hmember, hlabel, rfl, hcategory⟩

theorem exists_category_of_member
    (h : readLabelCategories reader index members = .ok labelCategories) {label : String}
    {value : Json} (hmember : (Json.object members).member label = some value) :
    ∃ i category, index label = some i ∧ value = .string category.value ∧
      category ∈ imageCategories := by
  obtain ⟨items, hitems, -⟩ := foldlM_eq_ok_iff.mp h
  obtain ⟨item, -, hitem⟩ := exists_of_mapM_eq_ok hitems (mem_ofItems_iff_member.mpr hmember)
  exact ⟨item.1, item.2, readLabel_eq_ok.mp hitem⟩

/-! ## What is scored -/

section Scores

variable {probabilities : List ℚ}

theorem probabilityOf_eq_ok {item : ℕ × SafetyCategory} {scored : SafetyCategory × ℚ} :
    probabilityOf probabilities item = .ok scored ↔
      probabilities[item.1]? = some scored.2 ∧ item.2 = scored.1 := by
  rw [probabilityOf]
  cases probabilities[item.1]? with
  | none => simp
  | some probability => simp [Prod.ext_iff, and_comm]

/-- **A category gets the greatest of the probabilities at its numbers**, and no other category gets
a score. -/
theorem exists_scoreCategories (hlt : ∀ i ∈ labelCategories.keys, i < probabilities.length)
    (hmem : ∀ probability ∈ probabilities, 0 ≤ probability) :
    ∃ scores, scoreCategories probabilities labelCategories = .ok scores ∧
      ∀ category score, scores.get category = some score ↔
        IsGreatest {probability | ∃ i, (i, category) ∈ labelCategories.items ∧
          probabilities[i]? = some probability} score := by
  obtain ⟨scored, hscored⟩ : ∃ scored,
      labelCategories.items.mapM (probabilityOf probabilities) = .ok scored := by
    refine ⟨_, (mapM_eq_ok_iff (p := fun _ ↦ True)
      (g := fun item ↦ (item.2, probabilities[item.1]?.getD 0)) fun item hitem y ↦ ?_).mpr
        ⟨fun _ _ ↦ trivial, rfl⟩⟩
    have hkey : item.1 < probabilities.length := hlt _ (List.mem_map_of_mem hitem)
    rw [probabilityOf, List.getElem?_eq_getElem hkey]
    simp [eq_comm]
  refine ⟨_, foldlM_eq_ok_iff.mpr ⟨scored, hscored, rfl⟩, fun category score ↦ ?_⟩
  have hmember : ∀ {category probability}, (category, probability) ∈ scored ↔
      ∃ i, (i, category) ∈ labelCategories.items ∧ probabilities[i]? = some probability := by
    intro category probability
    simp only [mem_of_mapM_eq_ok hscored, probabilityOf_eq_ok, Prod.exists]
    constructor
    · rintro ⟨i, _, hitem, hprobability, rfl⟩
      exact ⟨i, hitem, hprobability⟩
    · rintro ⟨i, hitem, hprobability⟩
      exact ⟨i, category, hitem, hprobability, rfl⟩
  have hnonneg : ∀ item ∈ scored, 0 ≤ item.2 := by
    intro item hitem
    obtain ⟨i, -, hprobability⟩ := hmember.mp hitem
    exact hmem _ (List.mem_of_getElem? hprobability)
  rw [Dict.get_foldl_keepMax hnonneg]
  simp only [hmember]

end Scores
end Sentinel
