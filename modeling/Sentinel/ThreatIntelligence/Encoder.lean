import Sentinel.Core.Normalization
import Sentinel.ThreatIntelligence.Service

/-!
# The encoder

`HashedNgramEncoder`: signed counts of the hashed character n-grams of the canonical text, scaled
to length one. The digest and the square root are parameters.
-/

namespace Sentinel

/-- `HashedNgramEncoder`, whose constructor refuses a dimension of zero. -/
structure HashedNgramEncoder where
  dimension : ℕ := 384
  minN : ℕ := 3
  maxN : ℕ := 5
  dimension_pos : 0 < dimension := by decide

namespace HashedNgramEncoder

variable (encoder : HashedNgramEncoder)

/-- `version`. -/
def version : String := "hashed-char-ngram-v1"

/-- The tokens of `encode`, in the order in which they are counted. -/
def tokens (normalized : List Char) : List (List Char) :=
  (List.range' encoder.minN (encoder.maxN + 1 - encoder.minN)).flatMap fun size ↦
    (List.range (normalized.length + 1 - size)).map fun start ↦
      (normalized.drop start).take size

/-- `int.from_bytes(digest[:4], "big") % self._dimension`. -/
def bucket (digest : Vector UInt8 8) : ℕ :=
  ((digest.toList.take 4).foldl (fun n byte ↦ 256 * n + byte.toNat) 0) % encoder.dimension

/-- `1.0 if digest[4] & 1 else -1.0`. -/
def sign (digest : Vector UInt8 8) : ℚ := if digest[4] &&& 1 ≠ 0 then 1 else -1

/-- `encode`. -/
def encode (u : Unicode) (blake2b : ByteArray → Vector UInt8 8) (sqrt : ℚ → ℚ) (text : String) :
    List ℚ :=
  let normalized := " ".toList ++ normalizeChars u text.toList ++ " ".toList
  let vector := (encoder.tokens normalized).foldl (fun vector token ↦
    let digest := blake2b (String.ofList token).toUTF8
    vector.modify (encoder.bucket digest) (· + sign digest))
    (List.replicate encoder.dimension 0)
  let norm := sqrt (vector.map fun value ↦ value * value).sum
  if norm ≠ 0 then vector.map (· / norm) else vector

def textEncoder (u : Unicode) (blake2b : ByteArray → Vector UInt8 8) (sqrt : ℚ → ℚ) :
    TextEncoder (List ℚ) :=
  ⟨version, encoder.encode u blake2b sqrt⟩

theorem length_encode (u : Unicode) (blake2b : ByteArray → Vector UInt8 8) (sqrt : ℚ → ℚ)
    (text : String) : (encoder.encode u blake2b sqrt text).length = encoder.dimension := by
  have hfold : ∀ (tokens : List (List Char)) (vector : List ℚ),
      (tokens.foldl (fun vector token ↦
        vector.modify (encoder.bucket (blake2b (String.ofList token).toUTF8))
          (· + sign (blake2b (String.ofList token).toUTF8))) vector).length = vector.length := by
    intro tokens
    induction tokens with
    | nil => exact fun vector ↦ rfl
    | cons token tokens ih =>
      intro vector
      rw [List.foldl_cons, ih, List.length_modify]
  rw [encode]
  split_ifs
  · rw [List.length_map, hfold, List.length_replicate]
  · rw [hfold, List.length_replicate]

theorem encode_congr (u : Unicode) (blake2b : ByteArray → Vector UInt8 8) (sqrt : ℚ → ℚ)
    {text text' : String} (h : normalizeText u text = normalizeText u text') :
    encoder.encode u blake2b sqrt text = encoder.encode u blake2b sqrt text' := by
  have hchars : normalizeChars u text.toList = normalizeChars u text'.toList :=
    String.ofList_injective h
  rw [encode, encode, hchars]

end HashedNgramEncoder

end Sentinel
