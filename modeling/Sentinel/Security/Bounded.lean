import Sentinel.Security.Pruning

/-!
# The table of the limiter is bounded

A bucket is made for a client only where the table has room for it, so the clients by themselves
never outgrow the bound. The overflow bucket is made where the table has none, and it counts towards
the size that is compared with the bound. So the bound is kept for the keys of the clients, not for
the table: the overflow bucket comes on top of them, once at most, and whether it is there or has
been forgotten does not matter to the invariant.
-/

namespace Sentinel

open Collections Buckets

def clientKeys (table : BucketTable) : List String := table.keys.filter (· ≠ overflowKey)

theorem clientKeys_eq_erase (table : BucketTable) :
    clientKeys table = table.keys.erase overflowKey := by
  rw [table.nodup_keys.erase_eq_filter, clientKeys]
  apply List.filter_congr
  intro key _
  rw [bne, beq_eq_decide, decide_not]

/-- The overflow bucket is one bucket. -/
theorem length_items_le (table : BucketTable) :
    table.items.length ≤ (clientKeys table).length + 1 := by
  have hle : table.keys.length - 1 ≤ (table.keys.erase overflowKey).length := List.le_length_erase
  rw [← clientKeys_eq_erase, Dict.length_keys] at hle
  omega

namespace SecuritySettings

variable {settings : SecuritySettings} {table : BucketTable} {request : RateRequest}

/-- What holds of the table after every call, at the time of the call. -/
structure Bounded (settings : SecuritySettings) (now : ℚ) (table : BucketTable) : Prop where
  clients : (clientKeys table).length ≤ settings.rateLimitMaxClients
  size : table.items.length ≤ settings.rateLimitMaxClients + 1
  buckets : ∀ key bucket, (key, bucket) ∈ table.items →
    0 ≤ bucket.tokens ∧ bucket.tokens ≤ settings.rateLimitRequests ∧ bucket.updatedAt ≤ now

/-! ## One request -/

theorem keys_tableAfter (settings : SecuritySettings) (table : BucketTable)
    (request : RateRequest) : (settings.tableAfter table request).keys
      = if (settings.route table request.clientKey request.now).2
            ∈ (settings.route table request.clientKey request.now).1.keys then
          (settings.route table request.clientKey request.now).1.keys
        else (settings.route table request.clientKey request.now).1.keys
          ++ [(settings.route table request.clientKey request.now).2] := by
  rw [tableAfter, consumeToken]
  exact Dict.keys_set _ _ _

/-- **A request keeps the bound on the clients.** -/
theorem length_clientKeys_tableAfter
    (h : (clientKeys table).length ≤ settings.rateLimitMaxClients) :
    (clientKeys (settings.tableAfter table request)).length ≤ settings.rateLimitMaxClients := by
  have hpruned : (clientKeys (settings.pruneBuckets table request.now)).length
      ≤ settings.rateLimitMaxClients :=
    (((Dict.keys_filter_sublist _ table).filter _).length_le).trans h
  have hkeys := settings.keys_tableAfter table request
  have hrouted := settings.routed table request.clientKey request.now
  rw [clientKeys, hkeys]
  generalize settings.route table request.clientKey request.now = found at hrouted
  cases hrouted with
  | stored bucket hget =>
    rw [if_pos (Dict.mem_keys.mpr ⟨bucket, hget⟩)]
    exact h
  | created hget hroom =>
    -- there is room for a key, whoever has the others
    split_ifs
    · exact hpruned
    · refine (List.length_filter_le _ _).trans ?_
      rw [List.length_append, Dict.length_keys, List.length_singleton]
      exact hroom
  | overflow hget hfull =>
    -- the key that is added is not a client's
    split_ifs
    · exact hpruned
    · rw [List.filter_append, List.filter_singleton, decide_eq_false fun hne ↦ hne rfl,
        Bool.cond_false, List.append_nil]
      exact hpruned

theorem length_clientKeys_tableOf (settings : SecuritySettings) (trace : List RateRequest) :
    (clientKeys (settings.tableOf trace)).length ≤ settings.rateLimitMaxClients := by
  induction trace using List.reverseRecOn with
  | nil => exact Nat.zero_le _
  | append_singleton trace request ih =>
    rw [tableOf, List.foldl_append]
    exact length_clientKeys_tableAfter ih

/-- What is left is a whole number of tokens, after one has been taken. -/
theorem remaining_mem (settings : SecuritySettings) (table : BucketTable)
    (request : RateRequest) : 0 ≤ (settings.outcome table request).answer.remaining ∧
      (settings.outcome table request).answer.remaining ≤ settings.rateLimitRequests - 1 := by
  have hcapacity := settings.levelAt_le_capacity
    (settings.route table request.clientKey request.now).1
    (settings.outcome table request).chargedKey request.now
  have hone : (1 : ℤ) ≤ settings.rateLimitRequests := by exact_mod_cast settings.requests_pos
  rw [outcome_answer, settle_eq]
  rw [levelAt] at hcapacity
  generalize settings.flow.level _ _ = level at hcapacity ⊢
  split_ifs with hlt
  · exact ⟨le_rfl, sub_nonneg.mpr hone⟩
  · refine ⟨Int.floor_nonneg.mpr (sub_nonneg.mpr (not_lt.mp hlt)), ?_⟩
    have hfloor : (⌊level - 1⌋ : ℚ) ≤ settings.rateLimitRequests - 1 :=
      (Int.floor_le _).trans (sub_le_sub_right hcapacity 1)
    exact_mod_cast hfloor

/-! ## Every trace -/

/-- **The table is bounded and well-formed** after every call of every trace, and the remaining
tokens of the answer are within the capacity. -/
theorem table_bounded (settings : SecuritySettings) (trace : List RateRequest)
    (request : RateRequest) (htimed : Timed (trace ++ [request])) :
    settings.Bounded request.now (settings.tableOf (trace ++ [request])) ∧
      0 ≤ (settings.outcome (settings.tableOf trace) request).answer.remaining ∧
      (settings.outcome (settings.tableOf trace) request).answer.remaining
        ≤ settings.rateLimitRequests - 1 := by
  obtain ⟨bank, hbanked⟩ := exists_banked htimed
  have hclients := settings.length_clientKeys_tableOf (trace ++ [request])
  have hsize := length_items_le (settings.tableOf (trace ++ [request]))
  have hsound : settings.Sound request.now (settings.tableOf (trace ++ [request])) := by
    rw [tableOf, List.foldl_append]
    exact hbanked.sound.tableAfter
  refine ⟨⟨hclients, by omega, fun key bucket hmem ↦ ?_⟩, settings.remaining_mem _ request⟩
  exact hsound key bucket (Dict.get_eq_some.mpr hmem)

/-- A table for one client holds two buckets, one of them the overflow bucket. -/
theorem table_bounded_sample :
    ((SecuritySettings.sample 1 1 one_pos one_pos).tableOf [⟨"a", 0⟩, ⟨"b", 1⟩]).items.length ≤ 2 :=
  (table_bounded (SecuritySettings.sample 1 1 one_pos one_pos) [⟨"a", 0⟩] ⟨"b", 1⟩
    (by decide +kernel)).1.size

end SecuritySettings

end Sentinel
