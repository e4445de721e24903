/-
  File:      Store/Metrics.lean
  Subject:   METRIC SAMPLES OF FLOW SERVICES (crates/heterocloud-store/src/lib.rs): one row for each
             15 seconds, and their history in longer buckets.
-/
import HeteroCloud.Store.Schema

namespace HeteroCloud.Store

open Base Iam List

/-! ## 1. Recording -/

/-- `NewRealtimeMetricSample`; times are microseconds. -/
structure MetricSample where
  measuredAt : Int
  activeRooms : Int
  concurrentConnections : Int
  sfuParticipants : Int
  p2pConnections : Int
  ingressBytes : Int
  egressBytes : Int
  transferredBytes : Int
  turnAllocations : Option Int
  roomLimit : Option Int
  deriving DecidableEq, Repr

/-- The constraints of the table. -/
def MetricSample.accepted (s : MetricSample) : Bool :=
  ([s.activeRooms, s.concurrentConnections, s.sfuParticipants, s.p2pConnections, s.ingressBytes,
    s.egressBytes, s.transferredBytes].all fun n => decide (0 ≤ n)) &&
  (s.turnAllocations.all fun n => decide (0 ≤ n)) &&
  s.roomLimit.all fun n => decide (1 ≤ n ∧ n ≤ 1000000)

/-- `realtime_metric_samples`. -/
structure MetricRow where
  serviceInstanceId : Uuid
  sampledAt : Int
  sample : MetricSample
  deriving DecidableEq, Repr

def MetricRow.key (r : MetricRow) : Uuid × Int := (r.serviceInstanceId, r.sampledAt)

/-- `date_bin` from the epoch. -/
def dateBin (width t : Int) : Int := t / width * width

structure Arrival where
  serviceInstanceId : Uuid
  sampledAt : Int
  sample : MetricSample
  deriving DecidableEq, Repr

def Arrival.key (a : Arrival) : Uuid × Int := (a.serviceInstanceId, dateBin 15000000 a.sampledAt)

variable (flow : Uuid → Bool) (rows : List MetricRow)

/-- `record_realtime_metric_sample`, where `flow` are the Flow services. -/
def recordSample (a : Arrival) : Except StoreError (List MetricRow) :=
  if !flow a.serviceInstanceId then .error .notFound
  else if !a.sample.accepted then .error (.sql false)
  else if rows.any (·.key == a.key) then
    .ok (updateWhere (fun r => r.key == a.key &&
      decide (r.sample.measuredAt ≤ a.sample.measuredAt)) ({ · with sample := a.sample }) rows)
  else .ok (rows ++ [⟨a.key.1, a.key.2, a.sample⟩])

def recordAll (arrivals : List Arrival) : Except StoreError (List MetricRow) :=
  arrivals.foldlM (recordSample flow) []

/-- The sample can be recorded. -/
def Arrival.recorded (a : Arrival) : Bool :=
  flow a.serviceInstanceId && a.sample.accepted

/-- **The rows after some arrivals.** -/
structure Holds (past : List Arrival) (rows : List MetricRow) : Prop where
  unique : UniqueKey (·.key) rows
  source : ∀ r ∈ rows, ∃ a ∈ past, a.key = r.key ∧ a.sample = r.sample
  greatest : ∀ a ∈ past, ∃ r ∈ rows, r.key = a.key ∧ a.sample.measuredAt ≤ r.sample.measuredAt

section Record
variable {flow : Uuid → Bool} {past arrivals : List Arrival} {rows rows' : List MetricRow}
  {a : Arrival}

theorem recordSample_holds (h : Holds past rows) (ha : a.recorded flow = true) :
    ∃ rows', recordSample flow rows a = .ok rows' ∧ Holds (past ++ [a]) rows' := by
  obtain ⟨hflow, hok⟩ := Bool.and_eq_true_iff.mp ha
  simp only [recordSample, hflow, hok, Bool.not_true, Bool.false_eq_true, if_false]
  have hself : a ∈ past ++ [a] := mem_append_right _ (mem_singleton_self _)
  split_ifs with hany
  · refine ⟨_, rfl, h.unique.update fun _ => rfl, fun r hr => ?_, fun b hb => ?_⟩
    · obtain ⟨r₀, hr₀, ⟨hp, rfl⟩ | ⟨_, rfl⟩⟩ := mem_updateWhere hr
      · simp only [Bool.and_eq_true, beq_iff_eq] at hp
        exact ⟨a, hself, hp.1.symm, rfl⟩
      · obtain ⟨b, hb, hkey⟩ := h.source r hr₀
        exact ⟨b, mem_append_left _ hb, hkey⟩
    · -- the row of the bin, which is replaced by a later measurement only
      obtain ⟨r, hr, hkey, hle⟩ : ∃ r ∈ rows, r.key = b.key ∧
          (b ∈ past → b.sample.measuredAt ≤ r.sample.measuredAt) := by
        rcases mem_append.mp hb with hb | hb
        · obtain ⟨r, hr, hkey, hle⟩ := h.greatest b hb
          exact ⟨r, hr, hkey, fun _ => hle⟩
        · obtain ⟨r, hr, hkey⟩ := any_eq_true.mp hany
          rw [mem_singleton.mp hb]
          refine ⟨r, hr, beq_iff_eq.mp hkey, fun hpast => ?_⟩
          obtain ⟨r', hr', hkey', hle⟩ := h.greatest a hpast
          rwa [h.unique.eq hr hr' ((beq_iff_eq.mp hkey).trans hkey'.symm)]
      refine ⟨_, mem_map_of_mem hr, ?_⟩
      split_ifs with hp
      · simp only [Bool.and_eq_true, beq_iff_eq, decide_eq_true_eq] at hp
        refine ⟨hkey, ?_⟩
        rcases mem_append.mp hb with hb | hb
        · exact Int.le_trans (hle hb) hp.2
        · rw [mem_singleton.mp hb]
      · refine ⟨hkey, ?_⟩
        rcases mem_append.mp hb with hb | hb
        · exact hle hb
        · rw [mem_singleton.mp hb] at hkey ⊢
          simp only [hkey, beq_self_eq_true, Bool.true_and, decide_eq_true_eq] at hp
          omega
  · have hnew : ∀ r ∈ rows, r.key ≠ a.key := by
      intro r hr hkey
      exact hany (any_eq_true.mpr ⟨r, hr, beq_iff_eq.mpr hkey⟩)
    refine ⟨_, rfl, h.unique.insert hnew, fun r hr => ?_, fun b hb => ?_⟩
    · rcases mem_append.mp hr with hr | hr
      · obtain ⟨b, hb, hkey⟩ := h.source r hr
        exact ⟨b, mem_append_left _ hb, hkey⟩
      · rw [mem_singleton.mp hr]
        exact ⟨a, hself, rfl, rfl⟩
    · rcases mem_append.mp hb with hb | hb
      · obtain ⟨r, hr, hkey⟩ := h.greatest b hb
        exact ⟨r, mem_append_left _ hr, hkey⟩
      · rw [mem_singleton.mp hb]
        exact ⟨_, mem_append_right _ (mem_singleton_self _), rfl, Int.le_refl _⟩

theorem recordAll_holds (ha : ∀ a ∈ arrivals, a.recorded flow = true) (h : Holds past rows) :
    ∃ rows', arrivals.foldlM (recordSample flow) rows = .ok rows' ∧
      Holds (past ++ arrivals) rows' := by
  induction arrivals generalizing past rows with
  | nil => exact ⟨rows, rfl, by rwa [append_nil]⟩
  | cons a arrivals ih =>
    obtain ⟨first, hfirst, hholds⟩ := recordSample_holds h (ha a mem_cons_self)
    obtain ⟨rows', hrows', hholds'⟩ := ih (fun b hb => ha b (mem_cons_of_mem _ hb)) hholds
    refine ⟨rows', ?_, by rwa [append_assoc] at hholds'⟩
    rw [foldlM_cons, hfirst]
    exact hrows'

/-- The rows are determined by the arrivals if the measurements of a bin have different times. -/
theorem Holds.subset (h : Holds past rows) (h' : Holds arrivals rows')
    (hsame : ∀ a, a ∈ arrivals ↔ a ∈ past)
    (hdistinct : ∀ a ∈ past, ∀ b ∈ past, a.key = b.key →
      a.sample.measuredAt = b.sample.measuredAt → a.sample = b.sample)
    {r : MetricRow} (hr : r ∈ rows) : r ∈ rows' := by
  obtain ⟨a, ha, hkey, hsample⟩ := h.source r hr
  obtain ⟨r', hr', hkey', hle⟩ := h'.greatest a ((hsame a).mpr ha)
  obtain ⟨b, hb, hbkey, hbsample⟩ := h'.source r' hr'
  obtain ⟨r₂, hr₂, hkey₂, hle₂⟩ := h.greatest b ((hsame b).mp hb)
  have hsamekey : b.key = a.key := hbkey.trans hkey'
  rw [h.unique.eq hr₂ hr (hkey₂.trans (hsamekey.trans hkey)), ← hsample] at hle₂
  rw [← hbsample] at hle
  have heq := hdistinct a ha b ((hsame b).mp hb) hsamekey.symm (Int.le_antisymm hle hle₂)
  have hrow : r = r' := by
    obtain ⟨s, t, x⟩ := r
    obtain ⟨s', t', x'⟩ := r'
    have hk : (s, t) = (s', t') := hkey.symm.trans (hsamekey.symm.trans hbkey)
    cases hk
    rw [show x = x' from hsample.symm.trans (heq.trans hbsample)]
  rw [hrow]
  exact hr'

end Record

/-! ## 2. The history -/

/-- A row of `bucketed`. -/
structure Bucketed where
  bucketAt : Int
  recordedAt : Int
  sample : MetricSample

variable (service : Uuid) (since bucketSeconds : Int)

def bucketed : List Bucketed :=
  (rows.filter fun r => r.serviceInstanceId == service && decide (since ≤ r.sampledAt)).map fun r =>
    ⟨dateBin (bucketSeconds * 1000000) r.sampledAt, r.sampledAt, r.sample⟩

variable (l : List Bucketed)

def latest : List Bucketed :=
  distinctOn (·.bucketAt) (l.mergeSort fun a b =>
    decide (a.bucketAt < b.bucketAt ∨ a.bucketAt = b.bucketAt ∧ b.recordedAt ≤ a.recordedAt))

/-- The newest, up to `MAX_REALTIME_METRIC_HISTORY_SAMPLES`. -/
def bounded : List Bucketed :=
  (l.mergeSort fun a b => decide (b.bucketAt ≤ a.bucketAt)).take 240

/-- `realtime_metric_history`; a result is its `sampled_at` and the rest of the row. -/
def realtimeMetricHistory : Except StoreError (List (Int × MetricSample)) :=
  if bucketSeconds ≤ 0 then .error (.invariant "metric history bucket must be positive")
  else .ok (((bounded (latest (bucketed rows service since bucketSeconds))).mergeSort fun a b =>
    decide (a.bucketAt ≤ b.bucketAt)).map fun b => (b.bucketAt, b.sample))

theorem latest_greatest {l : List Bucketed} {b c : Bucketed} (hb : b ∈ latest l) (hc : c ∈ l)
    (hkey : c.bucketAt = b.bucketAt) : c.recordedAt ≤ b.recordedAt := by
  have hsorted := @List.pairwise_mergeSort _ (fun a b : Bucketed =>
      decide (a.bucketAt < b.bucketAt ∨ a.bucketAt = b.bucketAt ∧ b.recordedAt ≤ a.recordedAt))
    (by simp only [decide_eq_true_eq]; omega)
    (by simp only [Bool.or_eq_true, decide_eq_true_eq]; omega) l
  rcases distinctOn_first hsorted hb (mem_mergeSort.mpr hc) hkey with rfl | h
  · exact Int.le_refl _
  · have := of_decide_eq_true h
    omega

theorem bounded_newest {l : List Bucketed} (h : UniqueKey (·.bucketAt) l) {b : Bucketed}
    (hb : b ∈ l) : b ∈ bounded l ∨
      (bounded l).length = 240 ∧ ∀ a ∈ bounded l, b.bucketAt < a.bucketAt := by
  have hsorted := @List.pairwise_mergeSort _ (fun a b : Bucketed =>
      decide (b.bucketAt ≤ a.bucketAt))
    (by simp only [decide_eq_true_eq]; omega)
    (by simp only [Bool.or_eq_true, decide_eq_true_eq]; omega) l
  have hunique : UniqueKey (·.bucketAt) (l.mergeSort fun a b => decide (b.bucketAt ≤ a.bucketAt)) :=
    ((mergeSort_perm l _).map _).nodup_iff.mpr h
  have hb' := (mergeSort_perm l fun a b => decide (b.bucketAt ≤ a.bucketAt)).mem_iff.mpr hb
  unfold bounded
  generalize (l.mergeSort fun a b => decide (b.bucketAt ≤ a.bucketAt)) = sorted at *
  rw [← take_append_drop 240 sorted] at hb' hsorted hunique
  rcases mem_append.mp hb' with hin | hout
  · exact .inl hin
  · have hlen := length_pos_of_mem hout
    rw [length_drop] at hlen
    refine .inr ⟨by rw [length_take]; omega, fun a ha => ?_⟩
    have hle := of_decide_eq_true ((pairwise_append.mp hsorted).2.2 a ha b hout)
    refine lt_of_le_of_ne hle fun heq => ?_
    rw [UniqueKey, map_append] at hunique
    exact disjoint_of_nodup_append hunique (mem_map_of_mem ha)
      (heq ▸ mem_map_of_mem hout)

/-- **What a history is of the rows of a service from `since` on.** -/
structure NewestBuckets (width : Int) (result : List (Int × MetricSample)) :
    Prop where
  increasing : result.Pairwise fun p q => p.1 < q.1
  length_le : result.length ≤ 240
  latest : ∀ p ∈ result, ∃ r ∈ rows, dateBin width r.sampledAt = p.1 ∧ r.sample = p.2 ∧
    ∀ r' ∈ rows, dateBin width r'.sampledAt = p.1 → r'.sampledAt ≤ r.sampledAt
  newest : ∀ r ∈ rows, (∃ p ∈ result, p.1 = dateBin width r.sampledAt) ∨
    result.length = 240 ∧ ∀ p ∈ result, dateBin width r.sampledAt < p.1

theorem metricHistory_newest (since : Int) {bucketSeconds : Int} (hpos : 0 < bucketSeconds) : ∃
    result, realtimeMetricHistory rows service since bucketSeconds = .ok result ∧ NewestBuckets
    (rows.filter fun r => r.serviceInstanceId == service && decide (since ≤ r.sampledAt))
    (bucketSeconds * 1000000) result := by
  refine ⟨_, if_neg (by omega), ?_⟩
  rw [bucketed]
  generalize rows.filter _ = rows
  generalize hl : rows.map _ = l
  have hperm := mergeSort_perm (bounded (latest l)) fun a b => decide (a.bucketAt ≤ b.bucketAt)
  have hkept {b : Bucketed} (hb : b ∈ bounded (latest l)) : b ∈ latest l :=
    mem_mergeSort.mp (mem_of_mem_take hb)
  have hunique : UniqueKey (·.bucketAt) (latest l) := distinctOn_unique
  refine ⟨?_, ?_, fun p hp => ?_, fun r hr => ?_⟩
  · have hle := @List.pairwise_mergeSort _ (fun a b : Bucketed => decide (a.bucketAt ≤ b.bucketAt))
      (by simp only [decide_eq_true_eq]; omega)
      (by simp only [Bool.or_eq_true, decide_eq_true_eq]; omega) (bounded (latest l))
    have hne : UniqueKey (·.bucketAt) (bounded (latest l)) :=
      (((mergeSort_perm _ _).map _).nodup_iff.mpr hunique).sublist
        ((take_sublist _ _).map _)
    have hne := pairwise_map.mp ((hperm.map _).nodup_iff.mpr hne)
    refine pairwise_map.mpr ((hle.and hne).imp fun h => ?_)
    exact lt_of_le_of_ne (of_decide_eq_true h.1) h.2
  · rw [length_map, hperm.length_eq]
    exact length_take_le _ _
  · obtain ⟨b, hb, rfl⟩ := mem_map.mp hp
    have hb := hkept (hperm.mem_iff.mp hb)
    obtain ⟨r, hr, rfl⟩ := mem_map.mp (hl ▸ mem_mergeSort.mp (distinctOn_subset hb))
    exact ⟨r, hr, rfl, rfl, fun r' hr' hkey =>
      latest_greatest hb (hl ▸ mem_map_of_mem hr') hkey⟩
  · obtain ⟨b, hb, hkey⟩ : ∃ b ∈ latest l,
        b.bucketAt = dateBin (bucketSeconds * 1000000) r.sampledAt :=
      distinctOn_cover (mem_mergeSort.mpr (hl ▸ mem_map_of_mem hr))
    rw [length_map, hperm.length_eq]
    refine (bounded_newest hunique hb).imp (fun h => ?_) fun h => ⟨h.1, fun p hp => ?_⟩
    · exact ⟨_, mem_map_of_mem (hperm.mem_iff.mpr h), hkey⟩
    · obtain ⟨c, hc, rfl⟩ := mem_map.mp hp
      exact hkey.symm.trans_lt (h.2 c (hperm.mem_iff.mp hc))

/-- **Samples in any order of arrival, with repetitions, and the histories read from them.** -/
theorem metrics_exact {flow : Uuid → Bool} {arrivals : List Arrival}
    (ha : ∀ a ∈ arrivals, a.recorded flow = true) :
    ∃ rows, recordAll flow arrivals = .ok rows ∧ Holds arrivals rows ∧
      (∀ arrivals', (∀ a, a ∈ arrivals' ↔ a ∈ arrivals) →
        (∀ a ∈ arrivals, ∀ b ∈ arrivals, a.key = b.key →
          a.sample.measuredAt = b.sample.measuredAt → a.sample = b.sample) →
        ∃ rows', recordAll flow arrivals' = .ok rows' ∧ ∀ r, r ∈ rows' ↔ r ∈ rows) ∧
      ∀ service since bucketSeconds, 0 < bucketSeconds → ∃ result,
        realtimeMetricHistory rows service since bucketSeconds = .ok result ∧
        NewestBuckets (rows.filter fun r =>
          r.serviceInstanceId == service && decide (since ≤ r.sampledAt))
          (bucketSeconds * 1000000) result := by
  have hempty : Holds [] [] := ⟨nodup_nil, by simp, by simp⟩
  obtain ⟨rows, hrows, h⟩ := recordAll_holds ha hempty
  refine ⟨rows, hrows, h, fun arrivals' hsame hdistinct => ?_, fun service since _ hpos =>
    metricHistory_newest rows service since hpos⟩
  obtain ⟨rows', hrows', h'⟩ := recordAll_holds (fun a h => ha a ((hsame a).mp h)) hempty
  refine ⟨rows', hrows', fun r => ⟨?_, h.subset h' hsame hdistinct⟩⟩
  refine h'.subset h (fun a => (hsame a).symm) fun a ha b hb => ?_
  exact hdistinct a ((hsame a).mp ha) b ((hsame b).mp hb)

theorem metrics_exact_twice : ∃ rows, recordAll (fun _ => true)
      (List.replicate 2 ⟨1, 3, 5, 0, 0, 0, 0, 0, 0, 0, none, none⟩) = .ok rows ∧
    Holds (List.replicate 2 ⟨1, 3, 5, 0, 0, 0, 0, 0, 0, 0, none, none⟩) rows := by
  obtain ⟨rows, hrows, h, _⟩ := @metrics_exact (fun _ => true)
    (List.replicate 2 ⟨1, 3, 5, 0, 0, 0, 0, 0, 0, 0, none, none⟩) (by decide)
  exact ⟨rows, hrows, h⟩

end HeteroCloud.Store
