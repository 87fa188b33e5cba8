import Mathlib.Algebra.Order.Ring.Rat
import Mathlib.Data.List.Sort
import Sentinel.Collections.Dict

/-!
# The vector store

`InMemoryThreatVectorStore`. The similarity of two vectors is a parameter: the source's `_cosine`
takes square roots of floating-point sums, and nothing here depends on what it computes. Vectors
are of any type for the same reason.
-/

namespace Sentinel

open Collections

/-- `SimilarContentMatch`. -/
structure SimilarContentMatch where
  requestId : String
  score : ℚ
deriving DecidableEq

/-- `InMemoryThreatVectorStore`. -/
structure ThreatVectorStore (V : Type*) where
  points : Dict String (V × String)

namespace ThreatVectorStore

variable {V : Type*}

/-- `InMemoryThreatVectorStore()`. -/
def empty : ThreatVectorStore V := ⟨Dict.empty⟩

/-- The matches before they are sorted and cut. -/
def similar (similarity : V → V → ℚ) (store : ThreatVectorStore V) (vector : V)
    (scoreThreshold : ℚ) : List SimilarContentMatch :=
  store.points.values.filterMap fun (storedVector, requestId) ↦
    let score := similarity vector storedVector
    if scoreThreshold ≤ score then some ⟨requestId, score⟩ else none

/-- `search`: the sort is stable, by descending score. -/
def search (similarity : V → V → ℚ) (store : ThreatVectorStore V) (vector : V) (limit : ℕ)
    (scoreThreshold : ℚ) : List SimilarContentMatch :=
  ((store.similar similarity vector scoreThreshold).mergeSort
    fun first second ↦ second.score ≤ first.score).take limit

/-- `upsert`. -/
def upsert (store : ThreatVectorStore V) (pointId : String) (vector : V) (requestId : String) :
    ThreatVectorStore V :=
  ⟨store.points.set pointId (vector, requestId)⟩

end ThreatVectorStore

end Sentinel
