import Mathlib.Data.Rat.Floor
import MatrixDB.Server.Core

/-!
# Latency percentiles

`record_query_latency` counts a latency in the bucket of the binary logarithm of
its successor.  `query_latency_percentile_ns` reports for a bucket the power of
two with the bucket's number, which is near the lower end of the bucket and not
at its upper end.
-/

namespace MatrixDB

open Lib

/-! ## Recording and reporting -/

def LatencyStats.fresh : LatencyStats :=
  { queryCount := 0, totalQueryNs := 0, maxQueryNs := 0
    hist := List.replicate LAT_BUCKETS 0 }

def recorded (latencies : List UInt64) : LatencyStats :=
  latencies.foldl LatencyStats.record LatencyStats.fresh

/-- `query_latency_percentile_ns` behind its target. -/
def LatencyStats.percentileAt (stats : LatencyStats) (target : UInt64) :
    UInt64 :=
  if stats.queryCount = 0 then 0
  else
    match percentileBucket target stats.hist 0 0 with
    | some 0 => 0
    | some bucket => 1 <<< UInt64.ofNat bucket
    | none => stats.maxQueryNs

theorem LatencyStats.percentileNs_eq (stats : LatencyStats) (p : Float) :
    stats.percentileNs p =
      stats.percentileAt (p * stats.queryCount.toFloat).toUInt64 := rfl

/-- The percentile for a fraction, with the product taken exactly. -/
def LatencyStats.percentile (stats : LatencyStats) (p : ℚ) : UInt64 :=
  stats.percentileAt (UInt64.ofNat ⌊p * stats.queryCount.toNat⌋₊)

/-! ## Buckets -/

/-- The bucket of a latency. -/
def bucketOf (ns : UInt64) : Nat := latencyBucket (LAT_BUCKETS - 1) (ns + 1)

theorem latencyBucket_bounds {rounds : Nat} {x : UInt64}
    (positive : 0 < x.toNat) (small : x.toNat < 2 ^ (rounds + 1)) :
    2 ^ latencyBucket rounds x ≤ x.toNat ∧
      x.toNat < 2 ^ (latencyBucket rounds x + 1) := by
  induction rounds generalizing x with
  | zero =>
      rw [latencyBucket]
      constructor <;> omega
  | succ rounds induction =>
      by_cases large : 1 < x
      · have above : 1 < x.toNat := UInt64.lt_iff_toNat_lt.mp large
        have half : (x >>> 1).toNat = x.toNat / 2 := by
          rw [UInt64.toNat_shiftRight]
          exact Nat.shiftRight_one x.toNat
        rw [Nat.pow_succ] at small
        have positive' : 0 < (x >>> 1).toNat := by omega
        obtain ⟨low, high⟩ := induction positive' (by omega)
        rw [latencyBucket, if_pos large]
        rw [half] at low high
        rw [Nat.pow_succ, Nat.pow_succ]
        rw [Nat.pow_succ] at high
        constructor <;> omega
      · have least : ¬1 < x.toNat := fun above =>
          large (UInt64.lt_iff_toNat_lt.mpr above)
        rw [latencyBucket, if_neg large]
        constructor <;> omega

theorem bucketOf_bounds {ns : UInt64} (small : ns.toNat < 2 ^ 39) :
    2 ^ bucketOf ns ≤ ns.toNat + 1 ∧
      ns.toNat + 1 < 2 ^ (bucketOf ns + 1) := by
  have next : (ns + 1).toNat = ns.toNat + 1 := by
    rw [UInt64.toNat_add]
    exact Nat.mod_eq_of_lt (show ns.toNat + 1 < 2 ^ 64 by omega)
  have range : (ns + 1).toNat < 2 ^ (39 + 1) := by omega
  have bounds := latencyBucket_bounds (by omega) range
  rw [next] at bounds
  exact bounds

theorem bucketOf_le_iff {ns : UInt64} (small : ns.toNat < 2 ^ 39) (b : Nat) :
    bucketOf ns ≤ b ↔ ns.toNat + 1 < 2 ^ (b + 1) := by
  obtain ⟨low, high⟩ := bucketOf_bounds small
  constructor
  · intro within
    exact Nat.lt_of_lt_of_le high
      (Nat.pow_le_pow_right (by decide) (Nat.succ_le_succ within))
  · intro below
    have powers := Nat.lt_of_le_of_lt low below
    have exponents := (Nat.pow_lt_pow_iff_right (by decide)).mp powers
    omega

theorem bucketOf_eq_iff {ns : UInt64} (small : ns.toNat < 2 ^ 39) (b : Nat) :
    bucketOf ns = b ↔ 2 ^ b ≤ ns.toNat + 1 ∧ ns.toNat + 1 < 2 ^ (b + 1) := by
  constructor
  · rintro rfl
    exact bucketOf_bounds small
  · rintro ⟨low, high⟩
    have above := (bucketOf_le_iff small b).mpr high
    cases b with
    | zero => omega
    | succ b =>
        have below := mt (bucketOf_le_iff small b).mp (Nat.not_lt.mpr low)
        omega

/-! ## The histogram -/

section
variable (latencies : List UInt64)

/-- How many latencies are in a bucket. -/
def inBucket (b : Nat) : Nat := latencies.countP fun ns => bucketOf ns = b

/-- How many latencies are in the buckets below. -/
def belowBucket (b : Nat) : Nat :=
  latencies.countP fun ns => ns.toNat + 1 < 2 ^ b

theorem belowBucket_zero : belowBucket latencies 0 = 0 := by
  apply List.countP_eq_zero.mpr
  intro ns _
  simp

theorem belowBucket_le (b : Nat) : belowBucket latencies b ≤ latencies.length :=
  List.countP_le_length

theorem queryCount_foldl (stats : LatencyStats) :
    (latencies.foldl LatencyStats.record stats).queryCount =
      stats.queryCount + UInt64.ofNat latencies.length := by
  induction latencies generalizing stats with
  | nil => exact (UInt64.add_zero _).symm
  | cons ns latencies induction =>
      rw [List.foldl_cons, induction, List.length_cons, UInt64.ofNat_add]
      change stats.queryCount + 1 + _ = _
      rw [UInt64.add_assoc, UInt64.add_comm 1]
      rfl

theorem hist_foldl (stats : LatencyStats) (b : Nat) :
    (latencies.foldl LatencyStats.record stats).hist[b]? =
      (stats.hist[b]?).map (· + UInt64.ofNat (inBucket latencies b)) := by
  induction latencies generalizing stats with
  | nil =>
      change stats.hist[b]? = _
      cases stats.hist[b]? with
      | none => rfl
      | some count => exact congrArg some (UInt64.add_zero count).symm
  | cons ns latencies induction =>
      rw [List.foldl_cons, induction]
      change ((stats.hist.modify (bucketOf ns) (· + 1))[b]?).map _ = _
      rw [List.getElem?_modify, inBucket, inBucket, List.countP_cons]
      cases stats.hist[b]? with
      | none => rfl
      | some count =>
          by_cases same : bucketOf ns = b
          · simp only [same, if_true, decide_true]
            change some (count + 1 + _) = some _
            rw [UInt64.add_assoc, Nat.add_comm, UInt64.ofNat_add]
            rfl
          · simp [same]

theorem hist_recorded :
    (recorded latencies).hist =
      (List.range LAT_BUCKETS).map fun b =>
        UInt64.ofNat (inBucket latencies b) := by
  apply List.ext_getElem?
  intro b
  rw [recorded, hist_foldl, List.getElem?_map]
  change (List.replicate LAT_BUCKETS (0 : UInt64))[b]?.map _ = _
  rw [List.getElem?_replicate]
  by_cases known : b < LAT_BUCKETS
  · rw [if_pos known, List.getElem?_range known]
    exact congrArg some (UInt64.zero_add _)
  · rw [if_neg known,
      List.getElem?_eq_none (by rw [List.length_range]; omega)]
    rfl

variable {latencies} (small : ∀ ns ∈ latencies, ns.toNat < 2 ^ 39)

include small

/-- A bucket is added to those below it. -/
theorem belowBucket_succ (b : Nat) :
    belowBucket latencies (b + 1) =
      belowBucket latencies b + inBucket latencies b := by
  unfold belowBucket inBucket
  induction latencies with
  | nil => rfl
  | cons ns latencies induction =>
      have here := bucketOf_eq_iff (small ns List.mem_cons_self) b
      have powers : 2 ^ b < 2 ^ (b + 1) :=
        Nat.pow_lt_pow_right (by decide) (Nat.lt_succ_self b)
      rw [List.countP_cons, List.countP_cons, List.countP_cons,
        induction fun other member => small other (.tail _ member)]
      by_cases low : ns.toNat + 1 < 2 ^ b
      · have high : ns.toNat + 1 < 2 ^ (b + 1) := by omega
        have other : bucketOf ns ≠ b := by
          rw [Ne, here]
          omega
        simp only [low, high, other, decide_true, decide_false, if_true,
          Bool.false_eq_true, if_false]
        omega
      · by_cases high : ns.toNat + 1 < 2 ^ (b + 1)
        · have same : bucketOf ns = b := here.mpr ⟨by omega, high⟩
          simp only [low, high, same, decide_true, decide_false, if_true,
            Bool.false_eq_true, if_false]
          omega
        · have other : bucketOf ns ≠ b := by
            rw [Ne, here]
            omega
          simp only [low, high, other, decide_false, Bool.false_eq_true,
            if_false]
          omega

theorem belowBucket_all :
    belowBucket latencies LAT_BUCKETS = latencies.length := by
  apply List.countP_eq_length.mpr
  intro ns member
  have bound := small ns member
  rw [LAT_BUCKETS]
  exact decide_eq_true (by omega)

theorem sum_inBucket (b : Nat) :
    ((List.range b).map (inBucket latencies)).sum =
      belowBucket latencies b := by
  induction b with
  | zero => exact (belowBucket_zero latencies).symm
  | succ b induction =>
      rw [List.range_succ, List.map_append, List.sum_append, induction,
        belowBucket_succ small]
      simp

/-- The buckets sum to the number of latencies. -/
theorem sum_hist (counted : latencies.length < 2 ^ 64) :
    ((recorded latencies).hist.map UInt64.toNat).sum = latencies.length := by
  have exact : (recorded latencies).hist.map UInt64.toNat =
      (List.range LAT_BUCKETS).map (inBucket latencies) := by
    rw [hist_recorded, List.map_map]
    apply List.map_congr_left
    intro b _
    have bound : inBucket latencies b ≤ latencies.length :=
      List.countP_le_length
    exact UInt64.toNat_ofNat_of_lt' (show _ < 2 ^ 64 by omega)
  rw [exact, sum_inBucket small, belowBucket_all small]

end

/-! ## The bucket of a rank -/

/-- The search ends in the first bucket up to which there are enough. -/
theorem percentileBucket_spec {below count : Nat → Nat}
    (step : ∀ b, below (b + 1) = below b + count b)
    (fits : ∀ b, below b < 2 ^ 64) {t : Nat} (small : t < 2 ^ 64)
    (more bucket : Nat) (enough : t ≤ below (bucket + more + 1)) :
    ∃ b, percentileBucket (UInt64.ofNat t)
        ((List.range' bucket (more + 1)).map fun b => UInt64.ofNat (count b))
        bucket (UInt64.ofNat (below bucket)) = some b ∧
      bucket ≤ b ∧ b ≤ bucket + more ∧ t ≤ below (b + 1) ∧
      (bucket < b → below b < t) := by
  induction more generalizing bucket with
  | zero =>
      refine ⟨bucket, ?_, Nat.le_refl _, Nat.le_refl _, enough, ?_⟩
      · have reached : UInt64.ofNat t ≤
            UInt64.ofNat (below bucket) + UInt64.ofNat (count bucket) := by
          rw [← UInt64.ofNat_add, ← step, UInt64.le_iff_toNat_le,
            UInt64.toNat_ofNat_of_lt' small,
            UInt64.toNat_ofNat_of_lt' (fits _)]
          exact enough
        exact if_pos reached
      · exact fun wrong => absurd wrong (Nat.lt_irrefl _)
  | succ more induction =>
      rw [List.range'_succ, List.map_cons, percentileBucket, ← UInt64.ofNat_add,
        ← step]
      have order : UInt64.ofNat t ≤ UInt64.ofNat (below (bucket + 1)) ↔
          t ≤ below (bucket + 1) := by
        rw [UInt64.le_iff_toNat_le, UInt64.toNat_ofNat_of_lt' small,
          UInt64.toNat_ofNat_of_lt' (fits _)]
      by_cases reached : t ≤ below (bucket + 1)
      · rw [if_pos (order.mpr reached)]
        refine ⟨bucket, rfl, Nat.le_refl _, by omega, reached, ?_⟩
        exact fun wrong => absurd wrong (Nat.lt_irrefl _)
      · rw [if_neg (mt order.mp reached)]
        have further : bucket + 1 + more + 1 = bucket + (more + 1) + 1 := by
          omega
        obtain ⟨b, found, above, within, full, least⟩ :=
          induction (bucket + 1) (further ▸ enough)
        refine ⟨b, found, by omega, by omega, full, ?_⟩
        intro _
        by_cases first : b = bucket + 1
        · rw [first]
          omega
        · exact least (by omega)

/-- What is reported for a bucket. -/
def bucketValue (b : Nat) : Nat := if b = 0 then 0 else 2 ^ b

theorem toNat_percentileAt {latencies : List UInt64}
    (some : latencies ≠ []) (small : ∀ ns ∈ latencies, ns.toNat < 2 ^ 39)
    (counted : latencies.length < 2 ^ 64) {t : Nat}
    (inside : t ≤ latencies.length) :
    ∃ b < LAT_BUCKETS,
      ((recorded latencies).percentileAt (UInt64.ofNat t)).toNat =
        bucketValue b ∧
      t ≤ belowBucket latencies (b + 1) ∧
      (0 < b → belowBucket latencies b < t) := by
  have fits : ∀ b, belowBucket latencies b < 2 ^ 64 := fun b =>
    Nat.lt_of_le_of_lt (belowBucket_le latencies b) counted
  have enough : t ≤ belowBucket latencies (0 + 39 + 1) :=
    Nat.le_trans inside (Nat.le_of_eq (belowBucket_all small).symm)
  obtain ⟨b, found, _, within, full, least⟩ := percentileBucket_spec
    (belowBucket_succ small) fits (Nat.lt_of_le_of_lt inside counted) 39 0
    enough
  have known : b < LAT_BUCKETS := by
    rw [LAT_BUCKETS]
    omega
  refine ⟨b, known, ?_, full, least⟩
  have positive : 0 < latencies.length := List.length_pos_iff.mpr some
  have queries : (recorded latencies).queryCount ≠ 0 := by
    rw [recorded, queryCount_foldl]
    intro zero
    have numbers := congrArg UInt64.toNat zero
    change (0 + UInt64.ofNat latencies.length).toNat = 0 at numbers
    rw [UInt64.zero_add, UInt64.toNat_ofNat_of_lt' counted] at numbers
    omega
  rw [belowBucket_zero, ← List.range_eq_range'] at found
  have search :
      percentileBucket (UInt64.ofNat t) (recorded latencies).hist 0 0 =
      Option.some b := by
    rw [hist_recorded]
    exact found
  have powers : ∀ b < 40, ((1 : UInt64) <<< UInt64.ofNat b).toNat = 2 ^ b := by
    decide
  rw [LatencyStats.percentileAt, if_neg queries, search]
  cases b with
  | zero => rfl
  | succ b =>
      change ((1 : UInt64) <<< UInt64.ofNat (b + 1)).toNat = _
      rw [powers _ known]
      rfl

/-! ## The bound -/

/-- The latency of a rank: fewer are below it, and enough are not above it. -/
structure IsRanked (latencies : List UInt64) (t : Nat) (v : UInt64) :
    Prop where
  member : v ∈ latencies
  above : (latencies.countP fun ns => ns < v) < t
  within : t ≤ latencies.countP fun ns => ns ≤ v

/-- The latency of the rank is a power of two or one less than one. -/
def AtPower (latencies : List UInt64) (t : Nat) : Prop :=
  t = 0 ∨ ∃ v, IsRanked latencies t v ∧
    ∃ k, v.toNat = 2 ^ k ∨ v.toNat + 1 = 2 ^ k

/-- What a percentile of recorded latencies is to be. -/
structure PercentileBounds (latencies : List UInt64) (p : ℚ) : Prop where
  bound : ⌊p * latencies.length⌋₊ ≤ latencies.countP fun ns =>
    ns ≤ (recorded latencies).percentile p
  total : ((recorded latencies).hist.map UInt64.toNat).sum = latencies.length

section
variable {latencies : List UInt64}
  (small : ∀ ns ∈ latencies, ns.toNat < 2 ^ 39) {t b : Nat} {value : UInt64}
  (reported : value.toNat = bucketValue b)
  (full : t ≤ belowBucket latencies (b + 1))
  (least : 0 < b → belowBucket latencies b < t)

include small reported full least

/-- A ranked latency that is or precedes a power of two is not above what is
reported for its bucket. -/
theorem bound_of_atPower {v : UInt64} (ranked : IsRanked latencies t v)
    {k : Nat}
    (power : v.toNat = 2 ^ k ∨ v.toNat + 1 = 2 ^ k) :
    t ≤ latencies.countP fun ns => ns ≤ value := by
  have bound := small v ranked.member
  -- The rank falls into the bucket of the latency.
  have low : 2 ^ b ≤ v.toNat + 1 := by
    cases b with
    | zero =>
        rw [Nat.pow_zero]
        omega
    | succ b =>
        by_contra beyond
        have fewer : (latencies.countP fun ns => ns ≤ v) ≤
            belowBucket latencies (b + 1) := by
          apply List.countP_mono_left
          intro ns _ within
          have order := UInt64.le_iff_toNat_le.mp (of_decide_eq_true within)
          exact decide_eq_true (by omega)
        have enough := ranked.within
        have few := least (Nat.succ_pos b)
        omega
  have high : v.toNat + 1 < 2 ^ (b + 1) := by
    by_contra beyond
    have fewer : belowBucket latencies (b + 1) ≤
        latencies.countP fun ns => ns < v := by
      apply List.countP_mono_left
      intro ns _ within
      have order := of_decide_eq_true within
      exact decide_eq_true (UInt64.lt_iff_toNat_lt.mpr (by omega))
    have few := ranked.above
    omega
  have within : v.toNat ≤ bucketValue b := by
    unfold bucketValue
    split
    · rename_i zero
      subst zero
      rw [Nat.zero_add, Nat.pow_one] at high
      omega
    · rename_i later
      rcases power with same | next
      · have exponents : k < b + 1 := by
          apply (Nat.pow_lt_pow_iff_right (show 1 < 2 by decide)).mp
          omega
        rw [same]
        exact Nat.pow_le_pow_right (by decide) (by omega)
      · have exponents : k < b + 1 := by
          apply (Nat.pow_lt_pow_iff_right (show 1 < 2 by decide)).mp
          omega
        have powers : 2 ^ k ≤ 2 ^ b :=
          Nat.pow_le_pow_right (by decide) (by omega)
        omega
  refine Nat.le_trans ranked.within (List.countP_mono_left ?_)
  intro ns _ inside
  have order := UInt64.le_iff_toNat_le.mp (of_decide_eq_true inside)
  exact decide_eq_true (UInt64.le_iff_toNat_le.mpr (by omega))

omit small full in
/-- Of a bucket only its first two latencies are covered. -/
theorem atPower_of_bound
    (bound : t ≤ latencies.countP fun ns => ns ≤ value) :
    AtPower latencies t := by
  by_cases none : t = 0
  · exact .inl none
  · right
    have few : belowBucket latencies b < t := by
      by_cases later : 0 < b
      · exact least later
      · have zero : b = 0 := by omega
        rw [zero, belowBucket_zero]
        omega
    have belongs : ∀ v : UInt64,
        (latencies.countP fun ns => ns < v) < t →
        t ≤ (latencies.countP fun ns => ns ≤ v) → IsRanked latencies t v := by
      intro v above within
      refine ⟨?_, above, within⟩
      by_contra absent
      have same : (latencies.countP fun ns => ns ≤ v) ≤
          latencies.countP fun ns => ns < v := by
        apply List.countP_mono_left
        intro ns member order
        have different : ns ≠ v := fun equal => absent (equal ▸ member)
        exact decide_eq_true (UInt64.lt_of_le_of_ne (of_decide_eq_true order)
          different)
      omega
    have powers : 0 < 2 ^ b := Nat.two_pow_pos b
    have whole : value.toNat < 2 ^ 64 := value.toNat_lt
    have most : value.toNat ≤ 2 ^ b := by
      rw [reported, bucketValue]
      split <;> omega
    have least' : 2 ^ b ≤ value.toNat + 1 := by
      rw [reported, bucketValue]
      split
      · rename_i zero
        rw [zero]
        decide
      · omega
    have word : 2 ^ b - 1 < 2 ^ 64 := by omega
    have first : (UInt64.ofNat (2 ^ b - 1)).toNat = 2 ^ b - 1 :=
      UInt64.toNat_ofNat_of_lt' word
    by_cases already : t ≤ latencies.countP fun ns =>
        ns ≤ UInt64.ofNat (2 ^ b - 1)
    · refine ⟨UInt64.ofNat (2 ^ b - 1), belongs _ ?_ already, b, .inr ?_⟩
      · refine Nat.lt_of_le_of_lt (List.countP_mono_left ?_) few
        intro ns _ order
        have less := UInt64.lt_iff_toNat_lt.mp (of_decide_eq_true order)
        exact decide_eq_true (by omega)
      · omega
    · have second : value.toNat = 2 ^ b := by
        by_contra other
        apply already
        have same : value = UInt64.ofNat (2 ^ b - 1) := by
          apply UInt64.toNat_inj.mp
          omega
        rw [← same]
        exact bound
      refine ⟨value, belongs _ ?_ bound, b, .inl second⟩
      refine Nat.lt_of_le_of_lt (List.countP_mono_left ?_)
        (Nat.not_le.mp already)
      intro ns _ order
      have less := UInt64.lt_iff_toNat_lt.mp (of_decide_eq_true order)
      exact decide_eq_true (UInt64.le_iff_toNat_le.mpr (by omega))

end

end MatrixDB
