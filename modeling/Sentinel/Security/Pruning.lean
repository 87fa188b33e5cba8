import Mathlib.Logic.Function.Basic
import Sentinel.Security.Middleware
import Sentinel.Transition.Run

/-!
# Forgetting idle buckets

The limiter beside an ideal one, which has a bucket for every key from the beginning and deletes
none. For a stretch of time the two hold different things: a client that has been idle is known to
the ideal limiter only, with a bucket that has not been looked at for long. What they agree on is
what any bucket would give, now and later; so a key that the table does not have must stand for a
bucket that is full from now on. That is the simulation relation `Banked`. It does not depend on
which bucket a request is sent to, so it also holds where the overflow bucket is used.
-/

namespace Sentinel

open Collections Buckets

namespace SecuritySettings

/-! ## The ideal limiter -/

/-- The buckets of the ideal limiter in the beginning. They are full, so it does not matter since
when. -/
def fullBank (settings : SecuritySettings) : String → TokenBucket := fun _ ↦ ⟨settings.capacity, 0⟩

def bankAfter (settings : SecuritySettings) (bank : String → TokenBucket) (request : RateRequest) :
    String → TokenBucket :=
  Function.update bank request.clientKey
    (settings.settle (bank request.clientKey) request.now).2

/-- What the ideal limiter answers: every key has its own bucket. -/
def idealAnswers (settings : SecuritySettings) :
    (String → TokenBucket) → List RateRequest → List RateAnswer
  | _, [] => []
  | bank, request :: trace =>
    (settings.settle (bank request.clientKey) request.now).1
      :: idealAnswers settings (settings.bankAfter bank request) trace

variable {settings : SecuritySettings} {table : BucketTable} {bank : String → TokenBucket}
  {request : RateRequest} {now t : ℚ} {key : String}

/-! ## The simulation -/

structure Banked (settings : SecuritySettings) (now : ℚ) (table : BucketTable)
    (bank : String → TokenBucket) : Prop where
  sound : settings.Sound now table
  stored : ∀ {key bucket}, table.get key = some bucket → bank key = bucket
  forgotten : ∀ {key}, table.get key = none →
    ∀ t, now ≤ t → settings.flow.level (bank key) t = settings.capacity

theorem banked_empty : settings.Banked now Dict.empty settings.fullBank where
  sound := sound_empty
  stored h := by cases h
  forgotten _ _ _ := Flow.level_full

theorem Banked.mono (h : settings.Banked now table bank) (hle : now ≤ t) :
    settings.Banked t table bank where
  sound := h.sound.mono hle
  stored := h.stored
  forgotten hget t' ht := h.forgotten hget t' (hle.trans ht)

theorem Banked.levelAt_eq (h : settings.Banked now table bank) (key : String) (hle : now ≤ t) :
    settings.levelAt table key t = settings.flow.level (bank key) t := by
  cases hget : table.get key with
  | none => rw [levelAt_of_get_eq_none hget, h.forgotten hget t hle]
  | some bucket => rw [levelAt_of_get_eq_some hget, h.stored hget]

/-- A bucket that is forgotten was full. -/
theorem Banked.route (h : settings.Banked now table bank) (clientKey : String) :
    settings.Banked now (settings.route table clientKey now).1 bank where
  sound := h.sound.route clientKey
  stored {key bucket} hget := by
    rcases settings.get_route table clientKey now key with hsame | ⟨-, -, -, hnone⟩
    · exact h.stored (hsame ▸ hget)
    · rw [hnone] at hget
      cases hget
  forgotten {key} hget t hle := by
    rcases settings.get_route table clientKey now key with hsame | ⟨bucket, hold, hstale, -⟩
    · exact h.forgotten (hsame ▸ hget) t hle
    · rw [h.stored hold]
      exact h.sound.level_of_stale hold hstale hle

/-- The charge of a request, as one to the ideal limiter. -/
def charge (outcome : RateOutcome) : RateRequest := ⟨outcome.chargedKey, outcome.request.now⟩

theorem bankAfter_charge (settings : SecuritySettings) (bank : String → TokenBucket)
    (outcome : RateOutcome) (key : String) : settings.bankAfter bank (charge outcome) key
      = if key = outcome.chargedKey then
          (settings.flow.ask (bank key) outcome.request.now).2
        else bank key := by
  rw [bankAfter, charge]
  split_ifs with hkey
  · subst hkey
    rw [Function.update_self, settle_snd]
  · rw [Function.update_of_ne hkey]

theorem Banked.settle_eq (h : settings.Banked request.now table bank) :
    settings.settle (settings.held (settings.route table request.clientKey request.now).1
        (settings.outcome table request).chargedKey request.now) request.now
      = settings.settle (bank (settings.outcome table request).chargedKey) request.now :=
  settle_congr ((h.route request.clientKey).levelAt_eq _ le_rfl)

/-- **A step of the limiter is one of the ideal limiter** for the bucket that is charged. -/
theorem Banked.tableAfter (h : settings.Banked request.now table bank) :
    (settings.outcome table request).answer
        = (settings.settle (bank (settings.outcome table request).chargedKey) request.now).1 ∧
      settings.Banked request.now (settings.tableAfter table request)
        (settings.bankAfter bank (charge (settings.outcome table request))) := by
  have hsettle := h.settle_eq
  refine ⟨congrArg Prod.fst hsettle, h.sound.tableAfter, ?_, ?_⟩
  · intro key bucket hget
    rw [get_tableAfter] at hget
    split_ifs at hget with hkey
    · -- the two limiters have just put the same bucket back
      rw [bankAfter_charge, if_pos hkey, hkey, ← Option.some_inj.mp hget, ← settle_snd,
        ← settle_snd]
      exact (congrArg Prod.snd hsettle).symm
    · rw [bankAfter_charge, if_neg hkey]
      exact (h.route request.clientKey).stored hget
  · intro key hget
    rw [get_tableAfter] at hget
    split_ifs at hget with hkey
    rw [bankAfter_charge, if_neg hkey]
    exact (h.route request.clientKey).forgotten hget

theorem Banked.run {trace : List RateRequest} (htimed : Timed trace)
    (h : settings.Banked now table bank) (hlater : ∀ request ∈ trace, now ≤ request.now)
    (hend : now ≤ t) (hends : ∀ request ∈ trace, request.now ≤ t) :
    ∃ bank, settings.Banked t (trace.foldl settings.tableAfter table) bank := by
  induction trace generalizing now table bank with
  | nil => exact ⟨bank, h.mono hend⟩
  | cons request trace ih =>
    obtain ⟨hfirst, hrest⟩ := List.pairwise_cons.mp htimed
    exact ih hrest (h.mono (hlater request List.mem_cons_self)).tableAfter.2 hfirst
      (hends request List.mem_cons_self) fun later hmem ↦
        hends later (List.mem_cons_of_mem request hmem)

theorem exists_banked {trace : List RateRequest} (htimed : Timed (trace ++ [request])) :
    ∃ bank, settings.Banked request.now (settings.tableOf trace) bank := by
  obtain ⟨htrace, -, hlast⟩ := List.pairwise_append.mp htimed
  have hends : ∀ earlier ∈ trace, earlier.now ≤ request.now := fun earlier hmem ↦
    hlast earlier hmem request List.mem_cons_self
  cases trace with
  | nil => exact ⟨_, banked_empty⟩
  | cons first trace =>
    have hbegin : settings.Banked first.now Dict.empty settings.fullBank := banked_empty
    refine hbegin.run htrace ?_ (hends first List.mem_cons_self) hends
    exact List.forall_mem_cons.mpr ⟨le_rfl, (List.pairwise_cons.mp htrace).1⟩

/-- **The limiter refines the ideal limiter**, request by request, whatever bucket is charged. -/
theorem answers_eq_ideal {trace : List RateRequest} (htimed : Timed trace)
    (h : settings.Banked now table bank) (hlater : ∀ request ∈ trace, now ≤ request.now) :
    (settings.outcomes table trace).map RateOutcome.answer
      = settings.idealAnswers bank ((settings.outcomes table trace).map charge) := by
  induction trace generalizing now table bank with
  | nil => rfl
  | cons request trace ih =>
    obtain ⟨hfirst, hrest⟩ := List.pairwise_cons.mp htimed
    obtain ⟨hanswer, hnext⟩ := (h.mono (hlater request List.mem_cons_self)).tableAfter
    rw [outcomes, List.map_cons, List.map_cons, idealAnswers, hanswer, ih hrest hnext hfirst]
    rfl

/-! ## Without the overflow bucket -/

/-- The request is sent to the overflow bucket: the client is new and the table is full. -/
def Overflows (settings : SecuritySettings) (table : BucketTable) (request : RateRequest) : Prop :=
  table.get request.clientKey = none ∧ settings.rateLimitMaxClients
    ≤ (settings.pruneBuckets table request.now).items.length

instance (table : BucketTable) (request : RateRequest) :
    Decidable (settings.Overflows table request) := by
  unfold Overflows
  infer_instance

def step (settings : SecuritySettings) (table : BucketTable) (request : RateRequest) :
    Option BucketTable :=
  some (settings.tableAfter table request)

theorem chargedKey_of_not_overflows (h : ¬settings.Overflows table request) :
    (settings.outcome table request).chargedKey = request.clientKey := by
  show (settings.route table request.clientKey request.now).2 = request.clientKey
  have hrouted := settings.routed table request.clientKey request.now
  generalize settings.route table request.clientKey request.now = found at hrouted
  cases hrouted with
  | stored => rfl
  | created => rfl
  | overflow hget hfull => exact absurd ⟨hget, hfull⟩ h

theorem map_charge_outcomes {trace : List RateRequest}
    (hroom : Transition.Along settings.step (fun table request ↦ ¬settings.Overflows table request)
      table trace) : (settings.outcomes table trace).map charge = trace := by
  induction trace generalizing table with
  | nil => rfl
  | cons request trace ih =>
    rw [outcomes, List.map_cons, ih (hroom.2 _ rfl), charge, chargedKey_of_not_overflows hroom.1]
    rfl

/-- **Pruning idle buckets is unobservable.** On every trace that never takes the overflow branch
the answers are those of the ideal limiter. -/
theorem pruning_unobservable (settings : SecuritySettings) (trace : List RateRequest)
    (htimed : Timed trace)
    (hroom : Transition.Along settings.step (fun table request ↦ ¬settings.Overflows table request)
      Dict.empty trace) :
    (settings.outcomes Dict.empty trace).map RateOutcome.answer
      = settings.idealAnswers settings.fullBank trace := by
  cases trace with
  | nil => rfl
  | cons request trace =>
    have hbegin : settings.Banked request.now Dict.empty settings.fullBank := banked_empty
    rw [answers_eq_ideal htimed hbegin
      (List.forall_mem_cons.mpr ⟨le_rfl, (List.pairwise_cons.mp htimed).1⟩),
      map_charge_outcomes hroom]

/-- A table for one client only: the bucket of each client is forgotten for that of the next one. -/
theorem pruning_unobservable_sample :
    (SecuritySettings.sample 1 1 one_pos one_pos).idealAnswers
        (SecuritySettings.sample 1 1 one_pos one_pos).fullBank
        [⟨"a", 0⟩, ⟨"b", 3⟩, ⟨"b", 7 / 2⟩, ⟨"a", 6⟩]
      = [⟨true, 0, 0⟩, ⟨true, 0, 0⟩, ⟨false, 0, 1⟩, ⟨true, 0, 0⟩] :=
  (pruning_unobservable (SecuritySettings.sample 1 1 one_pos one_pos)
    [⟨"a", 0⟩, ⟨"b", 3⟩, ⟨"b", 7 / 2⟩, ⟨"a", 6⟩] (by decide +kernel)
    (by decide +kernel)).symm.trans (by decide +kernel)

end SecuritySettings

end Sentinel
