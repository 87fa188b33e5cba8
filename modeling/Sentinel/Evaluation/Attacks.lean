import Sentinel.Core.Engine
import Sentinel.ThreatIntelligence.Encoder

/-!
# The modelled evasions

The transformations that the evaluation applies to its cases. Four of them are undone by the
canonical text, in every order and any number of times: three already by the passes that look at
one character, where they do not change what a character becomes, and the injected dots by the
deletion of punctuation between letters. For the last one the other passes have to be kept in
mind: an earlier attack may have turned the letters next to a dot into digits or separated them, and
a dot must not change what becomes of other punctuation nearby.
-/

namespace Sentinel

open Text

/-- `[A-Za-z]`. -/
def isAsciiLetter (c : Char) : Bool := c.isAlpha

/-- `(?<=[A-Za-z])(?=[A-Za-z])`. -/
def betweenLetters : Regex Char := .behind isAsciiLetter (.ahead isAsciiLetter .done)

namespace Attack

/-- `clean`. -/
def clean (text : String) : String := text

/-- `uppercase`. -/
def uppercase (u : Unicode) (text : String) : String :=
  String.ofList (text.toList.flatMap u.upper)

/-- `zero_width`. -/
def zeroWidth (text : String) : String :=
  String.ofList (betweenLetters.sub (fun _ ↦ ['\u200b']) text.toList)

/-- The table of `leetspeak`. -/
def leetspeakChar : Char → Char
  | 'a' => '4'
  | 'e' => '3'
  | 'i' => '1'
  | 'o' => '0'
  | 's' => '5'
  | c => c

/-- `leetspeak`. -/
def leetspeak (text : String) : String := String.ofList (text.toList.map leetspeakChar)

/-- `punctuation_injection`. -/
def punctuationInjection (text : String) : String :=
  String.ofList (betweenLetters.sub (fun _ ↦ ['.']) text.toList)

/-- `flood`: the first vowel between the two ends of the word, three times. -/
def flood (word : List Char) : List Char :=
  match (word.drop 1).dropLast.findIdx? fun c ↦ "aeiou".toList.contains c.toLower with
  | none => word
  | some index =>
    word.take (index + 1) ++ ((word.drop (index + 1)).take 1).flatMap (List.replicate 3)
      ++ word.drop (index + 2)

/-- `character_flooding`. -/
def characterFlooding (text : String) : String :=
  String.ofList ((Regex.many 4 isAsciiLetter .done).sub flood text.toList)

end Attack

/-- `ATTACKS`. -/
def attacks (u : Unicode) : List (String × (String → String)) :=
  [("clean", Attack.clean), ("uppercase", Attack.uppercase u), ("zero_width", Attack.zeroWidth),
    ("leetspeak", Attack.leetspeak), ("punctuation", Attack.punctuationInjection),
    ("character_flooding", Attack.characterFlooding)]

example : ((attacks Unicode.sample).map fun attack ↦ (attack.2 "You are awful").toList)
    = ["You are awful".toList, "YOU ARE AWFUL".toList,
      "Y\u200bo\u200bu a\u200br\u200be a\u200bw\u200bf\u200bu\u200bl".toList,
      "Y0u 4r3 4wful".toList, "Y.o.u a.r.e a.w.f.u.l".toList, "You are awfuuul".toList] := by
  decide +kernel

/-! ## One character at a time -/

/-- The alphabet that the attacks stay in. -/
def isPlain (c : Char) : Prop := isAscii c = true ∨ c = '\u200b'

instance : DecidablePred isPlain := fun c ↦
  inferInstanceAs (Decidable (isAscii c = true ∨ c = '\u200b'))

theorem plain_induction {p : Char → Prop} (h : ∀ n < 128, p (Char.ofNat n)) (hzero : p '\u200b')
    {c : Char} (hc : isPlain c) : p c := by
  rcases hc with hc | rfl
  · exact ascii_induction h hc
  · exact hzero

theorem unmaskChar_toUpper {c : Char} (hc : isPlain c) : unmaskChar c.toUpper = unmaskChar c := by
  refine plain_induction (p := fun c ↦ unmaskChar c.toUpper = unmaskChar c) ?_ ?_ hc
  all_goals decide +kernel

theorem unmaskChar_leetspeakChar {c : Char} (hc : isPlain c) :
    unmaskChar (Attack.leetspeakChar c) = unmaskChar c := by
  refine plain_induction (p := fun c ↦ unmaskChar (Attack.leetspeakChar c) = unmaskChar c) ?_ ?_ hc
  all_goals decide +kernel

/-! ## Insertions -/

section Insertion

variable {u : Unicode}

theorem flatMap_interpose_zeroWidth (p q : Char → Bool) (left : Option Char) (s : List Char) :
    (interpose p q ['\u200b'] left s).flatMap unmaskChar = s.flatMap unmaskChar := by
  induction s generalizing left with
  | nil => rfl
  | cons c s ih =>
    rw [interpose, List.flatMap_append, List.flatMap_cons, List.flatMap_cons, ih]
    cases left.any p && q c <;> rfl

theorem unmaskChar_letter {c : Char} (hc : isPlain c) (hletter : isAsciiLetter c = true) :
    ∃ d, unmaskChar c = [d] ∧ u.isLetter d = true := by
  have hunmask : isAsciiLetter c = true → unmaskChar c = [leetspeakTable c.toLower] ∧
      isAscii (leetspeakTable c.toLower) = true ∧ (leetspeakTable c.toLower).isAlpha = true := by
    refine plain_induction (p := fun c ↦ isAsciiLetter c = true →
      unmaskChar c = [leetspeakTable c.toLower] ∧ isAscii (leetspeakTable c.toLower) = true ∧
        (leetspeakTable c.toLower).isAlpha = true) ?_ ?_ hc
    all_goals decide +kernel
  obtain ⟨heq, hascii, halpha⟩ := hunmask hletter
  exact ⟨_, heq, by rw [Unicode.isLetter_of_isAscii hascii, halpha]⟩

theorem isPunctuation_dot : u.isPunctuation '.' = true := by
  rw [Unicode.isPunctuation_of_isAscii (by decide)]
  decide

theorem unmaskChar_eq (c : Char) : unmaskChar c = [] ∨ ∃ d, unmaskChar c = [d] := by
  rw [unmaskChar]
  split_ifs
  · exact .inl rfl
  · exact .inr ⟨_, rfl⟩

theorem nextIs_interpose_dot (left : Option Char) (s : List Char) :
    nextIs u.isPunctuation u.isLetter
        ((interpose isAsciiLetter isAsciiLetter ['.'] left s).flatMap unmaskChar)
      = nextIs u.isPunctuation u.isLetter (s.flatMap unmaskChar) := by
  induction s generalizing left with
  | nil => rfl
  | cons c s ih =>
    have hrest : nextIs u.isPunctuation u.isLetter
          (unmaskChar c ++ (interpose isAsciiLetter isAsciiLetter ['.'] (some c) s).flatMap
            unmaskChar)
        = nextIs u.isPunctuation u.isLetter (unmaskChar c ++ s.flatMap unmaskChar) := by
      rcases unmaskChar_eq c with hnil | ⟨d, hd⟩
      · rw [hnil, List.nil_append, List.nil_append, ih]
      · rw [hd, List.singleton_append, List.singleton_append]
        cases hpunct : u.isPunctuation d with
        | true => rw [nextIs_cons_of hpunct, nextIs_cons_of hpunct, ih]
        | false => rw [nextIs_cons_of_not hpunct, nextIs_cons_of_not hpunct]
    rw [interpose, List.flatMap_append, List.flatMap_cons, List.flatMap_cons]
    cases left.any isAsciiLetter && isAsciiLetter c with
    | false => exact hrest
    | true =>
      have hdot : ['.'].flatMap unmaskChar = ['.'] := by decide
      rw [if_pos rfl, hdot, List.singleton_append, nextIs_cons_of isPunctuation_dot, hrest]

/-- **Injected dots go.** A dot stands right after a letter, so the scanner is between letters when
it comes to it. -/
theorem unpunctuate_interpose_dot {s : List Char} (hs : ∀ c ∈ s, isPlain c) {left : Option Char}
    {b : Bool} (hb : left.any isAsciiLetter = true → b = true) :
    unpunctuate u.isLetter u.isPunctuation b
        ((interpose isAsciiLetter isAsciiLetter ['.'] left s).flatMap unmaskChar)
      = unpunctuate u.isLetter u.isPunctuation b (s.flatMap unmaskChar) := by
  induction s generalizing left b with
  | nil => rfl
  | cons c s ih =>
    have hc : isPlain c := hs c List.mem_cons_self
    have ih' : ∀ (left : Option Char) (b : Bool), (left.any isAsciiLetter = true → b = true) →
        unpunctuate u.isLetter u.isPunctuation b
            ((interpose isAsciiLetter isAsciiLetter ['.'] left s).flatMap unmaskChar)
          = unpunctuate u.isLetter u.isPunctuation b (s.flatMap unmaskChar) :=
      fun left b hb ↦ ih (fun d hd ↦ hs d (List.mem_cons_of_mem c hd)) hb
    have hrest : unpunctuate u.isLetter u.isPunctuation b
          (unmaskChar c ++ (interpose isAsciiLetter isAsciiLetter ['.'] (some c) s).flatMap
            unmaskChar)
        = unpunctuate u.isLetter u.isPunctuation b (unmaskChar c ++ s.flatMap unmaskChar) := by
      by_cases hletter : isAsciiLetter c = true
      · obtain ⟨d, hd, hdletter⟩ := unmaskChar_letter (u := u) hc hletter
        have hpunct := Unicode.isPunctuation_of_isLetter d hdletter
        rw [hd, List.singleton_append, List.singleton_append, unpunctuate_cons_of_not hpunct,
          unpunctuate_cons_of_not hpunct, hdletter, ih' (some c) true fun _ ↦ rfl]
      · -- After anything but a letter no dot is inserted, whatever the scanner's state.
        have hvacuous : ∀ b', (some c).any isAsciiLetter = true → b' = true := fun b' h ↦
          absurd h hletter
        rcases unmaskChar_eq c with hnil | ⟨d, hd⟩
        · rw [hnil, List.nil_append, List.nil_append, ih' (some c) b (hvacuous b)]
        · rw [hd, List.singleton_append, List.singleton_append]
          cases hpunct : u.isPunctuation d with
          | true =>
            rw [unpunctuate_cons_of hpunct, unpunctuate_cons_of hpunct, nextIs_interpose_dot,
              ih' (some c) b (hvacuous b)]
          | false =>
            rw [unpunctuate_cons_of_not hpunct, unpunctuate_cons_of_not hpunct,
              ih' (some c) _ (hvacuous _)]
    rw [interpose, List.flatMap_append, List.flatMap_cons, List.flatMap_cons]
    -- A dot is inserted between two letters only, and there the scanner deletes it.
    cases hbetween : left.any isAsciiLetter && isAsciiLetter c with
    | false => exact hrest
    | true =>
      obtain ⟨hleft, hletter⟩ := Bool.and_eq_true_iff.mp hbetween
      obtain ⟨d, hd, hdletter⟩ := unmaskChar_letter (u := u) hc hletter
      have hnext : nextIs u.isPunctuation u.isLetter
          (unmaskChar c ++ (interpose isAsciiLetter isAsciiLetter ['.'] (some c) s).flatMap
            unmaskChar) = true := by
        rw [hd, List.singleton_append,
          nextIs_cons_of_not (Unicode.isPunctuation_of_isLetter d hdletter), hdletter]
      have hdot : ['.'].flatMap unmaskChar = ['.'] := by decide
      rw [if_pos rfl, hdot, List.singleton_append, unpunctuate_cons_of isPunctuation_dot, hb hleft,
        hnext, Bool.and_true, if_pos rfl, List.nil_append, ← hb hleft, hrest]

end Insertion

/-! ## Attacks in any order -/

/-- The evasions that the canonical text undoes. -/
def undoneAttacks (u : Unicode) : List (String → String) :=
  [Attack.uppercase u, Attack.zeroWidth, Attack.leetspeak, Attack.punctuationInjection]

section Undone

variable {u : Unicode}

theorem isPlain_of_mem_interpose {s w : List Char} (hs : ∀ c ∈ s, isPlain c)
    (hw : ∀ c ∈ w, isPlain c) (p q : Char → Bool) (left : Option Char) :
    ∀ c ∈ interpose p q w left s, isPlain c := by
  induction s generalizing left with
  | nil => exact fun c hc ↦ absurd hc List.not_mem_nil
  | cons d s ih =>
    intro c hc
    rw [interpose, List.mem_append, List.mem_cons] at hc
    rcases hc with hc | rfl | hc
    · split_ifs at hc
      · exact hw c hc
      · exact absurd hc List.not_mem_nil
    · exact hs c List.mem_cons_self
    · exact ih (fun e he ↦ hs e (List.mem_cons_of_mem d he)) (some d) c hc

theorem toList_uppercase (hupper : ∀ c, isPlain c → u.upper c = [c.toUpper]) {text : String}
    (htext : ∀ c ∈ text.toList, isPlain c) :
    (Attack.uppercase u text).toList = text.toList.map Char.toUpper := by
  rw [Attack.uppercase, String.toList_ofList, List.map_eq_flatMap]
  apply List.flatMap_congr
  exact fun c hc ↦ hupper c (htext c hc)

theorem toList_zeroWidth (text : String) : (Attack.zeroWidth text).toList
    = interpose isAsciiLetter isAsciiLetter ['\u200b'] none text.toList := by
  rw [Attack.zeroWidth, String.toList_ofList, betweenLetters, Regex.sub_empty]

theorem toList_leetspeak (text : String) :
    (Attack.leetspeak text).toList = text.toList.map Attack.leetspeakChar := by
  rw [Attack.leetspeak, String.toList_ofList]

theorem toList_punctuationInjection (text : String) : (Attack.punctuationInjection text).toList
    = interpose isAsciiLetter isAsciiLetter ['.'] none text.toList := by
  rw [Attack.punctuationInjection, String.toList_ofList, betweenLetters, Regex.sub_empty]

theorem isPlain_of_mem_attack (hupper : ∀ c, isPlain c → u.upper c = [c.toUpper])
    {attack : String → String} (hattack : attack ∈ undoneAttacks u) {text : String}
    (htext : ∀ c ∈ text.toList, isPlain c) : ∀ c ∈ (attack text).toList, isPlain c := by
  have hmap : ∀ {f : Char → Char}, (∀ c, isPlain c → isPlain (f c)) →
      ∀ c ∈ text.toList.map f, isPlain c := by
    intro f hf c hc
    obtain ⟨d, hd, rfl⟩ := List.mem_map.mp hc
    exact hf d (htext d hd)
  simp only [undoneAttacks, List.mem_cons, List.not_mem_nil, or_false] at hattack
  rcases hattack with rfl | rfl | rfl | rfl
  · rw [toList_uppercase hupper htext]
    refine hmap fun c hc ↦ plain_induction (p := fun c ↦ isPlain c.toUpper) ?_ ?_ hc
    all_goals decide +kernel
  · rw [toList_zeroWidth]
    exact isPlain_of_mem_interpose htext (fun c hc ↦ .inr (List.mem_singleton.mp hc)) _ _ none
  · rw [toList_leetspeak]
    refine hmap fun c hc ↦ plain_induction (p := fun c ↦ isPlain (Attack.leetspeakChar c)) ?_ ?_ hc
    all_goals decide +kernel
  · rw [toList_punctuationInjection]
    refine isPlain_of_mem_interpose htext (fun c hc ↦ .inl ?_) _ _ none
    rw [List.mem_singleton.mp hc]
    rfl

/-- **One attack is undone.** -/
theorem normalizeText_attack (hu : u.Plain isPlain)
    (hupper : ∀ c, isPlain c → u.upper c = [c.toUpper]) {attack : String → String}
    (hattack : attack ∈ undoneAttacks u) {text : String} (htext : ∀ c ∈ text.toList, isPlain c) :
    normalizeText u (attack text) = normalizeText u text := by
  have hattacked := isPlain_of_mem_attack hupper hattack htext
  have hmap : ∀ {f : Char → Char}, (∀ c, isPlain c → unmaskChar (f c) = unmaskChar c) →
      (text.toList.map f).flatMap unmaskChar = text.toList.flatMap unmaskChar := by
    intro f hf
    rw [List.flatMap_map]
    exact List.flatMap_congr fun c hc ↦ hf c (htext c hc)
  have hsqueeze : squeeze u ((attack text).toList.flatMap unmaskChar)
      = squeeze u (text.toList.flatMap unmaskChar) := by
    simp only [undoneAttacks, List.mem_cons, List.not_mem_nil, or_false] at hattack
    rcases hattack with rfl | rfl | rfl | rfl
    · rw [toList_uppercase hupper htext, hmap fun c hc ↦ unmaskChar_toUpper hc]
    · rw [toList_zeroWidth, flatMap_interpose_zeroWidth]
    · rw [toList_leetspeak, hmap fun c hc ↦ unmaskChar_leetspeakChar hc]
    · have hdots : unpunctuate u.isLetter u.isPunctuation false
          ((interpose isAsciiLetter isAsciiLetter ['.'] none text.toList).flatMap unmaskChar)
            = unpunctuate u.isLetter u.isPunctuation false (text.toList.flatMap unmaskChar) :=
        unpunctuate_interpose_dot htext fun h ↦ by cases h
      rw [toList_punctuationInjection, squeeze, squeeze, hdots]
  rw [normalizeText, normalizeText, normalizeChars_eq, normalizeChars_eq,
    unmask_of_plain hu hattacked, unmask_of_plain hu htext, hsqueeze]

theorem normalizeText_attacks (hu : u.Plain isPlain)
    (hupper : ∀ c, isPlain c → u.upper c = [c.toUpper]) {sequence : List (String → String)}
    (hsequence : ∀ attack ∈ sequence, attack ∈ undoneAttacks u) {text : String}
    (htext : ∀ c ∈ text.toList, isPlain c) :
    normalizeText u (sequence.foldl (fun text attack ↦ attack text) text)
      = normalizeText u text := by
  induction sequence generalizing text with
  | nil => rfl
  | cons attack sequence ih =>
    have hattack := hsequence attack List.mem_cons_self
    rw [List.foldl_cons, ih (fun other hother ↦ hsequence other (List.mem_cons_of_mem _ hother))
      (isPlain_of_mem_attack hupper hattack htext), normalizeText_attack hu hupper hattack htext]

/-- **The modelled evasions are undone in any combination.** The canonical text is that of the clean
text, and with it the matches of every rule engine, the vector of the encoder, and everything that
an engine with this encoder answers and stores. -/
theorem evasions_undone (hu : u.Plain isPlain)
    (hupper : ∀ c, isPlain c → u.upper c = [c.toUpper]) (sequence : List (String → String))
    (hsequence : ∀ attack ∈ sequence, attack ∈ undoneAttacks u) (text : String)
    (htext : ∀ c ∈ text.toList, isAscii c = true) :
    let attacked := sequence.foldl (fun text attack ↦ attack text) text
    normalizeText u attacked = normalizeText u text ∧
    (∀ rules : RuleEngine,
      rules.evaluate (normalizeText u attacked) = rules.evaluate (normalizeText u text)) ∧
    ∀ (encoder : HashedNgramEncoder) (blake2b : ByteArray → Vector UInt8 8) (sqrt : ℚ → ℚ),
      encoder.encode u blake2b sqrt attacked = encoder.encode u blake2b sqrt text ∧
      ∀ engine : ModerationEngine (List ℚ),
        (∀ service, engine.threatIntelligence = some service →
          service.encoder = encoder.textEncoder u blake2b sqrt) →
        ∀ store requestId generated,
          engine.moderate u store ⟨attacked, requestId⟩ generated
            = engine.moderate u store ⟨text, requestId⟩ generated := by
  intro attacked
  have hnormal : normalizeText u attacked = normalizeText u text :=
    normalizeText_attacks hu hupper hsequence fun c hc ↦ .inl (htext c hc)
  refine ⟨hnormal, fun rules ↦ by rw [hnormal], fun encoder blake2b sqrt ↦ ?_⟩
  have hvector := encoder.encode_congr u blake2b sqrt hnormal
  refine ⟨hvector, fun engine hservice store requestId generated ↦ ?_⟩
  refine ModerationEngine.moderate_congr hnormal fun service hsome ↦ ?_
  rw [hservice service hsome]
  exact hvector

end Undone

theorem evasions_undone_sample :
    normalizeText Unicode.sample (Attack.zeroWidth (Attack.uppercase Unicode.sample
      (Attack.leetspeak (Attack.punctuationInjection "kill you"))))
        = normalizeText Unicode.sample "kill you" :=
  (evasions_undone (Unicode.sample_plain isPlain) (fun _ _ ↦ rfl)
    [Attack.punctuationInjection, Attack.leetspeak, Attack.uppercase Unicode.sample,
      Attack.zeroWidth] (by simp [undoneAttacks]) "kill you"
    (List.all_eq_true.mp (by decide))).1

end Sentinel
