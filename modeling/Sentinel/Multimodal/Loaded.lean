import Sentinel.Multimodal.Labels

/-!
# Adapters that have been loaded

What an adapter scores is said without the numbers of the outputs, by the labels in the file of
metadata. It follows that nothing but the two categories of an image is scored, that no output is
looked up that is not there, and that the two adapters agree on one file and one network.
-/

namespace Sentinel

open Collections Text

variable {P : Type}

/-- What the metadata say about a label. -/
def reviewedValue (metadata : Json) (modelLabel : String) : Option Json :=
  (metadata.member "label_categories").bind fun mapping ↦ mapping.member modelLabel

/-- What holds of an adapter that has been loaded, where the labels have these numbers. -/
structure ImageClassifier.Reviewed (classifier : ImageClassifier P) (metadata : Json)
    (index : String → Option ℕ) : Prop where
  mem_items : ∀ {i category}, (i, category) ∈ classifier.labelCategories.items ↔
    ∃ label, index label = some i ∧
      reviewedValue metadata label = some (.string category.value) ∧ category ∈ imageCategories
  exists_category : ∀ {label value}, reviewedValue metadata label = some value →
    ∃ i category, index label = some i ∧ value = .string category.value ∧
      category ∈ imageCategories
  lt_length : ∀ {label i}, index label = some i →
    ∀ pixels, i < (classifier.probabilities pixels).length
  mem_unit : ∀ pixels, ∀ probability ∈ classifier.probabilities pixels,
    0 ≤ probability ∧ probability ≤ 1

namespace ImageClassifier.Reviewed

variable {classifier : ImageClassifier P} {metadata : Json}
  {decode : List UInt8 → Except DecodeFailure P} {image : ValidatedImage} {pixels : P}

theorem of_members (hmembers : metadata.member "label_categories" = some (.object members))
    (hindex : ∀ {label label' i}, index label = some i → index label' = some i → label = label')
    (hread : readLabelCategories reader index members = .ok classifier.labelCategories)
    (hlt : ∀ {label i}, index label = some i →
      ∀ pixels, i < (classifier.probabilities pixels).length)
    (hmem : ∀ pixels, ∀ probability ∈ classifier.probabilities pixels,
      0 ≤ probability ∧ probability ≤ 1) : classifier.Reviewed metadata index where
  mem_items := by
    simp only [reviewedValue, hmembers, Option.bind_some]
    exact mem_labelCategories hindex hread
  exists_category := by
    simp only [reviewedValue, hmembers, Option.bind_some]
    exact exists_category_of_member hread
  lt_length := hlt
  mem_unit := hmem

/-- **An adapter scores what its metadata say**: each category with a label, by the greatest
probability of its labels. -/
theorem exists_scores (h : classifier.Reviewed metadata index)
    (hdecode : decode image.data = .ok pixels) :
    ∃ scores, classifier.predictScores decode image = .ok scores ∧
      ∀ category score, scores.get category = some score ↔
        IsGreatest {probability | ∃ label i, index label = some i ∧
          reviewedValue metadata label = some (.string category.value) ∧
            (classifier.probabilities pixels)[i]? = some probability} score := by
  have hlt : ∀ i ∈ classifier.labelCategories.keys,
      i < (classifier.probabilities pixels).length := by
    intro i hi
    obtain ⟨category, hcategory⟩ := Dict.mem_keys.mp hi
    obtain ⟨label, hlabel, -⟩ := h.mem_items.mp (Dict.get_eq_some.mp hcategory)
    exact h.lt_length hlabel pixels
  obtain ⟨scores, hscores, hgreatest⟩ :=
    exists_scoreCategories hlt fun probability hmem ↦ (h.mem_unit pixels probability hmem).1
  refine ⟨scores, ?_, fun category score ↦ ?_⟩
  · simp only [predictScores, hdecode, hscores]
  · have hset : {probability | ∃ i, (i, category) ∈ classifier.labelCategories.items ∧
          (classifier.probabilities pixels)[i]? = some probability}
        = {probability | ∃ label i, index label = some i ∧
          reviewedValue metadata label = some (.string category.value) ∧
            (classifier.probabilities pixels)[i]? = some probability} := by
      ext probability
      constructor
      · rintro ⟨i, hitem, hprobability⟩
        obtain ⟨label, hlabel, hvalue, -⟩ := h.mem_items.mp hitem
        exact ⟨label, i, hlabel, hvalue, hprobability⟩
      · rintro ⟨label, i, hlabel, hvalue, hprobability⟩
        obtain ⟨-, category', -, heq, hmem⟩ := h.exists_category hvalue
        have hsame := SafetyCategory.value_injective (Json.string.inj heq)
        exact ⟨i, h.mem_items.mpr ⟨label, hlabel, hvalue, hsame ▸ hmem⟩, hprobability⟩
    rw [hgreatest, hset]

theorem scores_mem (h : classifier.Reviewed metadata index) {scores : Dict SafetyCategory ℚ}
    (hscores : classifier.predictScores decode image = .ok scores) :
    ∀ item ∈ scores.items, item.1 ∈ imageCategories ∧ 0 ≤ item.2 ∧ item.2 ≤ 1 := by
  intro item hitem
  cases hdecode : decode image.data with
  | error failure =>
    rw [predictScores, hdecode] at hscores
    cases hscores
  | ok pixels =>
    obtain ⟨scores', hscores', hgreatest⟩ := h.exists_scores hdecode
    rw [hscores, Except.ok.injEq] at hscores'
    subst hscores'
    obtain ⟨label, i, hlabel, hvalue, hprobability⟩ :=
      ((hgreatest _ _).mp (Dict.get_eq_some.mpr hitem)).1
    obtain ⟨-, category, -, heq, hmem⟩ := h.exists_category hvalue
    have hsame := SafetyCategory.value_injective (Json.string.inj heq)
    exact ⟨hsame ▸ hmem, h.mem_unit pixels _ (List.mem_of_getElem? hprobability)⟩

/-- No output is missing, and the other errors are those of the boundary. -/
theorem isValidation (h : classifier.Reviewed metadata index) {error : ImageError}
    (herror : classifier.predictScores decode image = .error error) :
    error.isValidation = true := by
  cases hdecode : decode image.data with
  | error failure =>
    rw [predictScores, hdecode] at herror
    cases herror
    cases failure <;> rfl
  | ok pixels =>
    obtain ⟨scores, hscores, -⟩ := h.exists_scores hdecode
    rw [hscores] at herror
    cases herror

end ImageClassifier.Reviewed

theorem itemOf_eq_ok {metadata value : Json} {name : String} :
    itemOf metadata name = .ok value ↔ metadata.member name = some value := by
  rw [itemOf]
  cases metadata.member name <;> simp

theorem readMapping_eq_ok {message : String} {value : Option Json} :
    readMapping message value = .ok members ↔ value = some (.object members) ∧ members ≠ [] := by
  constructor
  · intro h
    rw [readMapping.eq_def] at h
    split at h
    · cases h
      exact ⟨rfl, List.cons_ne_nil _ _⟩
    · cases h
  · rintro ⟨rfl, hne⟩
    cases members with
    | nil => exact absurd rfl hne
    | cons item items => rfl

theorem ofLibrary_eq_ok {β : Type} {result : Except String β} {value : β} :
    ofLibrary result = .ok value ↔ result = .ok value := by
  cases result <;> simp [ofLibrary]

theorem readMetadata_eq_ok {directory : ModelDirectory} {metadata : Json} :
    readMetadata reader directory = .ok metadata ↔
      ∃ text, directory.metadata = some text ∧ Json.loads text = some metadata := by
  rw [readMetadata]
  cases directory.metadata with
  | none => simp
  | some text => cases hloads : Json.loads text <;> simp [hloads]

namespace TimmImageSafetyModel

variable {libraries : Libraries P} {directory : ModelDirectory} {model : ImageClassifier P}

theorem exists_getElem_of_labelIndex {labelNames : List Json} {label : String}
    (h : labelIndex labelNames label = some i) : ∃ hi : i < labelNames.length,
      labelNames[i] = .string label := by
  obtain ⟨hi, hstring, -⟩ := List.findIdx?_eq_some_iff_getElem.mp h
  refine ⟨hi, ?_⟩
  cases hvalue : labelNames[i] with
  | string value =>
    rw [hvalue, isString, beq_iff_eq] at hstring
    rw [hstring]
  | constant | number | array | object =>
    rw [hvalue] at hstring
    cases hstring

theorem labelIndex_inj {labelNames : List Json} {label label' : String}
    (h : labelIndex labelNames label = some i) (h' : labelIndex labelNames label' = some i) :
    label = label' := by
  obtain ⟨hi, hlabel⟩ := exists_getElem_of_labelIndex h
  obtain ⟨_, hlabel'⟩ := exists_getElem_of_labelIndex h'
  exact Json.string.inj (hlabel.symm.trans hlabel')

theorem isString_eq_true {text : String} {value : Json} :
    isString text value = true ↔ value = .string text := by
  cases value <;> simp [isString]

/-- **The weights are those that have been reviewed.** -/
theorem readWeights_eq_ok {sha256 : List UInt8 → String} {metadata : Json} {weights : List UInt8} :
    readWeights reader sha256 directory metadata = .ok weights ↔
      ∃ weightsFile, metadata.member "weights_file" = some weightsFile ∧
        directory.file (reader.str weightsFile) = some weights ∧
          metadata.member "weights_sha256" = some (.string (sha256 weights)) := by
  simp only [readWeights, bind_eq_ok, itemOf_eq_ok]
  refine exists_congr fun weightsFile ↦ and_congr_right fun _ ↦ ?_
  cases directory.file (reader.str weightsFile) with
  | none => simp
  | some found =>
    simp only [bind_eq_ok, itemOf_eq_ok, Option.some_inj]
    constructor
    · rintro ⟨reviewed, hreviewed, h⟩
      split_ifs at h with hstring
      cases h
      exact ⟨rfl, hreviewed.trans (congrArg some (isString_eq_true.mp hstring))⟩
    · rintro ⟨rfl, hreviewed⟩
      exact ⟨_, hreviewed, if_pos (isString_eq_true.mpr rfl)⟩

theorem readLabelNames_eq_ok {value : Json} {labelNames : List Json} :
    readLabelNames value = .ok labelNames ↔ value = .array labelNames ∧ labelNames ≠ [] := by
  constructor
  · intro h
    rw [readLabelNames.eq_def] at h
    split at h
    · cases h
      exact ⟨rfl, List.cons_ne_nil _ _⟩
    · cases h
  · rintro ⟨rfl, hne⟩
    cases labelNames with
    | nil => exact absurd rfl hne
    | cons name names => rfl

/-- What has been read, where `load` returns. -/
structure Loaded (reader : ModelReader) (libraries : Libraries P) (directory : ModelDirectory)
    (model : ImageClassifier P) (metadata : Json) (labelNames : List Json) (weights : List UInt8) :
    Prop where
  metadata_eq : readMetadata reader directory = .ok metadata
  weights_eq : readWeights reader libraries.sha256 directory metadata = .ok weights
  labelNames_eq : metadata.member "label_names" = some (.array labelNames)
  members_eq : ∃ members, metadata.member "label_categories" = some (.object members) ∧
    members ≠ [] ∧
      readLabelCategories reader (labelIndex labelNames) members = .ok model.labelCategories
  probabilities_eq :
    libraries.create metadata labelNames.length weights = .ok model.probabilities
  version_eq : ∃ modelVersion, metadata.member "model_version" = some modelVersion ∧
    model.version = reader.str modelVersion

theorem loaded (h : load reader libraries directory = .ok model) :
    ∃ metadata labelNames weights,
      Loaded reader libraries directory model metadata labelNames weights := by
  simp only [load, loadMetadata, bind_eq_ok, itemOf_eq_ok, readLabelNames_eq_ok,
    readMapping_eq_ok, ofLibrary_eq_ok] at h
  obtain ⟨metadata, ⟨_, hmetadata, -, -, hpure⟩, weights, hweights, _, hnames, _, hmapping,
    labelNames, ⟨rfl, -⟩, members, ⟨hmembers, hne⟩, labelCategories, hcategories, probabilities,
    hcreate, modelVersion, hversion, hmodel⟩ := h
  cases hpure
  cases hmodel
  rw [hmembers] at hmapping
  exact ⟨metadata, labelNames, weights, hmetadata, hweights, hnames, ⟨members, hmapping, hne,
    hcategories⟩, hcreate, modelVersion, hversion, rfl⟩

theorem Loaded.reviewed {metadata : Json} {labelNames : List Json} {weights : List UInt8}
    (h : Loaded reader libraries directory model metadata labelNames weights) :
    model.Reviewed metadata (labelIndex labelNames) := by
  obtain ⟨members, hmembers, -, hread⟩ := h.members_eq
  refine .of_members hmembers labelIndex_inj hread (fun hlabel pixels ↦ ?_)
    (libraries.mem_unit h.probabilities_eq)
  rw [libraries.length_eq h.probabilities_eq]
  exact (exists_getElem_of_labelIndex hlabel).1

end TimmImageSafetyModel

namespace TransformerImageSafetyModel

variable {pretrained : Pretrained P} {fromPretrained : Except String (Pretrained P)}
  {directory : ModelDirectory} {model : ImageClassifier P}

theorem get_of_labelIndex {id2label : Dict ℕ String} {label : String}
    (h : labelIndex id2label label = some i) : id2label.get i = some label := by
  obtain ⟨item, hitem, rfl⟩ := List.mem_map.mp (List.mem_of_head? h)
  obtain ⟨hmem, hlabel⟩ := List.mem_filter.mp hitem
  rw [Dict.get_eq_some, ← of_decide_eq_true hlabel]
  exact hmem

theorem getOptional_eq_ok {metadata : Json} {name : String} {value : Json} :
    getOptional reader metadata name = .ok (some value) ↔ metadata.member name = some value := by
  cases metadata <;> simp [getOptional, Json.member]

/-- What has been read, where `load` returns. -/
structure Loaded (reader : ModelReader) (pretrained : Pretrained P) (directory : ModelDirectory)
    (model : ImageClassifier P) (metadata : Json) : Prop where
  metadata_eq : readMetadata reader directory = .ok metadata
  members_eq : ∃ members, metadata.member "label_categories" = some (.object members) ∧
    members ≠ [] ∧
      readLabelCategories reader (labelIndex pretrained.id2label) members
        = .ok model.labelCategories
  probabilities_eq : model.probabilities = pretrained.probabilities
  version_eq : ∃ modelVersion, metadata.member "model_version" = some modelVersion ∧
    model.version = reader.str modelVersion

theorem load_eq_ok_iff : load reader fromPretrained directory = .ok model ↔
    ∃ pretrained metadata, fromPretrained = .ok pretrained ∧
      Loaded reader pretrained directory model metadata := by
  simp only [load, bind_eq_ok, itemOf_eq_ok, readMapping_eq_ok, ofLibrary_eq_ok]
  constructor
  · rintro ⟨metadata, hmetadata, _, hmapping, members, ⟨rfl, hne⟩, pretrained, hpretrained,
      labelCategories, hcategories, modelVersion, hversion, hmodel⟩
    cases hmodel
    exact ⟨pretrained, metadata, hpretrained, hmetadata, ⟨members, getOptional_eq_ok.mp hmapping,
      hne, hcategories⟩, rfl, modelVersion, hversion, rfl⟩
  · rintro ⟨pretrained, metadata, hpretrained, hmetadata, ⟨members, hmembers, hne, hcategories⟩,
      hprobabilities, modelVersion, hversion, hmodel⟩
    refine ⟨metadata, hmetadata, _, getOptional_eq_ok.mpr hmembers, members, ⟨rfl, hne⟩, pretrained,
      hpretrained, _, hcategories, modelVersion, hversion, ?_⟩
    rw [← hprobabilities, ← hmodel]
    rfl

theorem Loaded.reviewed {metadata : Json}
    (h : Loaded reader pretrained directory model metadata) :
    model.Reviewed metadata (labelIndex pretrained.id2label) := by
  obtain ⟨members, hmembers, -, hread⟩ := h.members_eq
  refine .of_members hmembers (fun hlabel hlabel' ↦ ?_) hread (fun hlabel pixels ↦ ?_) ?_
  · exact Option.some_inj.mp ((get_of_labelIndex hlabel).symm.trans (get_of_labelIndex hlabel'))
  · rw [h.probabilities_eq]
    exact pretrained.lt_length _ (Dict.mem_keys.mpr ⟨_, get_of_labelIndex hlabel⟩) pixels
  · rw [h.probabilities_eq]
    exact pretrained.mem_unit

theorem head?_numbers (label : String) (names : List String) (n : ℕ) :
    ((((names.zipIdx n).map Prod.swap).filter fun item ↦ item.2 = label).map Prod.fst).head?
      = (names.findIdx? fun name ↦ name == label).map (· + n) := by
  induction names generalizing n with
  | nil => rfl
  | cons name names ih =>
    rw [List.zipIdx_cons, List.map_cons, List.filter_cons, List.findIdx?_cons]
    by_cases hname : name = label
    · subst hname
      simp
    · have hnext : ∀ found : Option ℕ,
          found.map (· + (n + 1)) = (found.map (· + 1)).map (· + n) := by
        intro found
        rw [Option.map_map]
        congr 1
        funext j
        exact (Nat.add_right_comm j 1 n).symm
      rw [if_neg (by simpa using hname), ih, hnext, beq_false_of_ne hname]
      rfl

theorem labelIndex_eq {id2label : Dict ℕ String} {names : List String}
    (h : id2label.items = names.zipIdx.map Prod.swap) :
    labelIndex id2label = TimmImageSafetyModel.labelIndex (names.map .string) := by
  funext label
  rw [labelIndex, h, head?_numbers, TimmImageSafetyModel.labelIndex, List.findIdx?_map]
  exact congrFun Option.map_id _

end TransformerImageSafetyModel

/-! ## A directory -/

def ModelReader.sample : ModelReader where
  toPyReader := PyReader.sample
  join name := "models/" ++ name
  attributeError _ := "'list' object has no attribute 'get'"
  categoryError _ := "'gore' is not a valid SafetyCategory"

/-- Metadata that map three of four labels, two of them to one category. -/
def sampleMetadata : Json :=
  .object [("model_version", .string "image-safety-test-v1"),
    ("backend", .string "timm-safetensors"),
    ("architecture", .string "swiftformer_l1"),
    ("weights_file", .string "model.safetensors"),
    ("weights_sha256", .string "5e1c"),
    ("label_names", .array (["NSFW", "gore", "violence", "SFW"].map .string)),
    ("label_categories", .object [("violence", .string "graphic_violence"),
      ("gore", .string "graphic_violence"), ("NSFW", .string "sexual_content")]),
    ("input_size", .number (.nat 224)),
    ("mean", .array [.number (.nat 0)]),
    ("std", .array [.number (.nat 1)])]

def ModelDirectory.sample : ModelDirectory where
  metadata := some sampleMetadata.dumps
  file name := if name = "model.safetensors" then some [0x5e, 0x1c] else none

/-- Each class is half as likely as the one before. -/
def halves (numClasses : ℕ) : List ℚ := (List.range numClasses).map fun i ↦ 1 / 2 ^ (i + 1)

theorem halves_mem_unit {numClasses : ℕ} {probability : ℚ} (h : probability ∈ halves numClasses) :
    0 ≤ probability ∧ probability ≤ 1 := by
  obtain ⟨i, -, rfl⟩ := List.mem_map.mp h
  have hone : (1 : ℚ) ≤ 2 ^ (i + 1) := one_le_pow₀ one_le_two
  exact ⟨by positivity, (div_le_one (zero_lt_one.trans_le hone)).mpr hone⟩

def TimmImageSafetyModel.Libraries.sample : TimmImageSafetyModel.Libraries Unit where
  sha256 _ := "5e1c"
  create _ numClasses _ := .ok fun _ ↦ halves numClasses
  length_eq := by
    rintro metadata numClasses weights network ⟨⟩ pixels
    rw [halves, List.length_map, List.length_range]
  mem_unit := by
    rintro metadata numClasses weights network ⟨⟩ pixels probability hmem
    exact halves_mem_unit hmem

def ImageClassifier.sample : ImageClassifier Unit where
  version := "image-safety-test-v1"
  labelCategories :=
    ⟨[(2, .graphicViolence), (1, .graphicViolence), (0, .sexualContent)], by decide⟩
  probabilities _ := halves 4

def TransformerImageSafetyModel.Pretrained.sample :
    TransformerImageSafetyModel.Pretrained Unit where
  id2label := ⟨[(0, "NSFW"), (1, "gore"), (2, "violence"), (3, "SFW")], by decide⟩
  probabilities := ImageClassifier.sample.probabilities
  lt_length := by
    rintro i hi ⟨⟩
    revert i
    decide
  mem_unit := by
    intro pixels probability hmem
    exact halves_mem_unit hmem

theorem readMetadata_sample :
    readMetadata ModelReader.sample ModelDirectory.sample = .ok sampleMetadata :=
  readMetadata_eq_ok.mpr ⟨_, rfl, Json.loads_dumps _⟩

theorem TimmImageSafetyModel.load_sample :
    load ModelReader.sample Libraries.sample ModelDirectory.sample
      = .ok ImageClassifier.sample := by
  rw [load, loadMetadata, readMetadata_sample]
  rfl

/-! ## The results -/

/-- **A `timm` model is what has been reviewed.** Its weights have the digest in the metadata. Every
label that the metadata map is the label of an output, mapped to a category of images. An image that
can be decoded is scored, and a category has for its score the greatest probability of its labels,
or none if it has no label. -/
theorem TimmImageSafetyModel.scores_of_load {reader : ModelReader} {libraries : Libraries P}
    {directory : ModelDirectory} {model : ImageClassifier P}
    (h : load reader libraries directory = .ok model) :
    ∃ text metadata labelNames weightsFile weights,
      directory.metadata = some text ∧ Json.loads text = some metadata ∧
      metadata.member "label_names" = some (.array labelNames) ∧
      metadata.member "weights_file" = some weightsFile ∧
      directory.file (reader.str weightsFile) = some weights ∧
      metadata.member "weights_sha256" = some (.string (libraries.sha256 weights)) ∧
      (∀ label value, reviewedValue metadata label = some value →
        ∃ i category, labelIndex labelNames label = some i ∧
          value = .string category.value ∧ category ∈ imageCategories) ∧
      ∀ (decode : List UInt8 → Except DecodeFailure P) (image : ValidatedImage) (pixels : P),
        decode image.data = .ok pixels →
          ∃ scores, model.predictScores decode image = .ok scores ∧
            ∀ category score, scores.get category = some score ↔
              IsGreatest {probability | ∃ label i, labelIndex labelNames label = some i ∧
                reviewedValue metadata label = some (.string category.value) ∧
                  (model.probabilities pixels)[i]? = some probability} score := by
  obtain ⟨metadata, labelNames, weights, hloaded⟩ := loaded h
  obtain ⟨text, htext, hloads⟩ := readMetadata_eq_ok.mp hloaded.metadata_eq
  obtain ⟨weightsFile, hfile, hcontent, hsha256⟩ := readWeights_eq_ok.mp hloaded.weights_eq
  exact ⟨text, metadata, labelNames, weightsFile, weights, htext, hloads, hloaded.labelNames_eq,
    hfile, hcontent, hsha256, fun _ _ ↦ hloaded.reviewed.exists_category,
    fun _ _ _ ↦ hloaded.reviewed.exists_scores⟩

/-- Of the two labels of violence the likelier one counts. -/
theorem TimmImageSafetyModel.scores_of_load_sample :
    ∃ scores, ImageClassifier.sample.predictScores (fun _ ↦ .ok ()) ⟨onePixel, "PNG", 1, 1, 68⟩
        = .ok scores ∧
      scores.get .graphicViolence = some (1 / 4) ∧
      IsGreatest {probability | ∃ label i,
        labelIndex (["NSFW", "gore", "violence", "SFW"].map .string) label = some i ∧
          reviewedValue sampleMetadata label = some (.string "graphic_violence") ∧
            (halves 4)[i]? = some probability} (1 / 4) := by
  obtain ⟨text, metadata, labelNames, _, _, htext, hloads, hnames, -, -, -, -, hscores⟩ :=
    scores_of_load load_sample
  obtain rfl := Option.some_inj.mp htext
  obtain rfl := Option.some_inj.mp ((Json.loads_dumps _).symm.trans hloads)
  obtain rfl := Json.array.inj (Option.some_inj.mp hnames)
  obtain ⟨scores, h, hget⟩ := hscores (fun _ ↦ .ok ()) ⟨onePixel, "PNG", 1, 1, 68⟩ () rfl
  have hscore : scores.get .graphicViolence = some (1 / 4) := by
    have hsample : (ImageClassifier.sample.predictScores (fun _ ↦ .ok ())
        ⟨onePixel, "PNG", 1, 1, 68⟩).toOption.bind (fun scores ↦ scores.get .graphicViolence)
          = some (1 / 4) := by decide +kernel
    rwa [h] at hsample
  exact ⟨scores, h, hscore, (hget .graphicViolence (1 / 4)).mp hscore⟩

/-- **The adapters agree.** On a directory that the `timm` adapter accepts, the other adapter has
the same state if its network has the same labels in the same order and the same outputs. -/
theorem TransformerImageSafetyModel.load_eq_of_timm {reader : ModelReader}
    {libraries : TimmImageSafetyModel.Libraries P} {directory : ModelDirectory}
    {model : ImageClassifier P} {pretrained : Pretrained P} {metadata : Json} {names : List String}
    (h : TimmImageSafetyModel.load reader libraries directory = .ok model)
    (hmetadata : readMetadata reader directory = .ok metadata)
    (hnames : metadata.member "label_names" = some (.array (names.map .string)))
    (hlabels : pretrained.id2label.items = names.zipIdx.map Prod.swap)
    (hprobabilities : pretrained.probabilities = model.probabilities) :
    load reader (.ok pretrained) directory = .ok model := by
  obtain ⟨metadata', labelNames, weights, hloaded⟩ := TimmImageSafetyModel.loaded h
  obtain rfl : metadata = metadata' :=
    Except.ok.inj (hmetadata.symm.trans hloaded.metadata_eq)
  obtain rfl : names.map .string = labelNames :=
    Json.array.inj (Option.some_inj.mp (hnames.symm.trans hloaded.labelNames_eq))
  obtain ⟨members, hmembers, hne, hread⟩ := hloaded.members_eq
  rw [← labelIndex_eq hlabels] at hread
  exact load_eq_ok_iff.mpr ⟨pretrained, metadata, rfl, hmetadata, ⟨members, hmembers, hne, hread⟩,
    hprobabilities.symm, hloaded.version_eq⟩

theorem TransformerImageSafetyModel.load_eq_of_timm_sample :
    load ModelReader.sample (.ok Pretrained.sample) ModelDirectory.sample
      = .ok ImageClassifier.sample :=
  have hnames : sampleMetadata.member "label_names"
      = some (.array (["NSFW", "gore", "violence", "SFW"].map .string)) := rfl
  load_eq_of_timm TimmImageSafetyModel.load_sample readMetadata_sample hnames rfl rfl

/-- What the endpoints rely on holds of either adapter. -/
theorem ImageClassifier.Reviewed.inRange {V : Type*} {components : ModerationComponents V}
    {classifier : ImageClassifier P} {metadata : Json} {index : String → Option ℕ}
    {decode : List UInt8 → Except DecodeFailure P} (h : classifier.Reviewed metadata index)
    (hadapter : components.imageSafetyModel = some (classifier.adapter decode))
    (hseverity : ∀ text, ∀ rule ∈ components.moderationEngine.ruleEngine.evaluate text,
      0 ≤ rule.severity ∧ rule.severity ≤ 1)
    (hmodelScore : ∀ text, components.moderationEngine.modelScore text ≤ 1) :
    components.InRange where
  severity_mem := hseverity
  modelScore_le := hmodelScore
  scores_mem := by
    rintro adapter hgiven image imageScores hscores
    obtain rfl := Option.some_inj.mp (hadapter.symm.trans hgiven)
    exact h.scores_mem hscores
  isValidation := by
    rintro adapter hgiven image error herror
    obtain rfl := Option.some_inj.mp (hadapter.symm.trans hgiven)
    exact h.isValidation herror

end Sentinel
