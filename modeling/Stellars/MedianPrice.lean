import Stellars.OracleRouter
import Stellars.OrderStatistics

/-!
# The price of a cache miss

When no cached price is read, the router asks every source and returns the lower
median of the answers it accepts. The order of the sources does not matter, and
a minority of faulty sources does not move the price past the honest ones.
-/
namespace Stellars
open GuardedRuns OrderStatistics

theorem lowerMedian_iff_ranked {prices : List ℤ} {m : ℤ} :
    LowerMedian prices m ↔ Ranked prices ((prices.length - 1) / 2) m := Iff.rfl

/-! ## Accepted answers -/

theorem accept_eq_some_iff {response : SourceResponse} {config : OracleConfig} {now : ℕ}
    {o : Observation} :
    response.accept config now = some o ↔
      response.price = some o.price ∧ response.lastUpdate = some o.lastUpdate ∧
        o.lastUpdate ≤ now ∧ now - o.lastUpdate ≤ config.stalenessThreshold ∧ 0 < o.price := by
  obtain ⟨price, lastUpdate⟩ := o
  simp only [SourceResponse.accept, Option.bind_eq_bind, Option.bind_eq_some_iff]
  constructor
  · rintro ⟨p, hp, t, ht, h⟩
    split_ifs at h with hfuture hstale
    cases h
    rw [not_or, not_lt, not_le] at hstale
    exact ⟨hp, ht, not_lt.mp hfuture, hstale.1, hstale.2⟩
  · rintro ⟨hp, ht, hfuture, hstale, hpos⟩
    refine ⟨price, hp, lastUpdate, ht, ?_⟩
    rw [if_neg (not_lt.mpr hfuture), if_neg]
    rw [not_or, not_lt, not_le]
    exact ⟨hstale, hpos⟩

theorem mem_querySources {Src : Type} {sources : List Src} {respond : Src → SourceResponse}
    {config : OracleConfig} {now : ℕ} {o : Observation} :
    o ∈ querySources sources respond config now ↔
      ∃ source ∈ sources, (respond source).accept config now = some o := List.mem_filterMap

theorem querySources_perm {Src : Type} {sources sources' : List Src}
    (respond : Src → SourceResponse) (config : OracleConfig) (now : ℕ)
    (h : sources.Perm sources') :
    (querySources sources respond config now).Perm (querySources sources' respond config now) :=
  h.filterMap _

/-! ## The deviation bound -/

theorem checkedI128_eq_some {x y : ℤ} (h : checkedI128 x = some y) : y = x := by
  unfold checkedI128 at h
  split_ifs at h
  exact (Option.some.inj h).symm

theorem checkedDiv_eq_some {a b q : ℤ} (h : checkedDiv a b = some q) : q = a.tdiv b := by
  unfold checkedDiv at h
  split_ifs at h
  exact checkedI128_eq_some h

/-- A quotient truncated to at most `q` was short of `q + 1`. -/
theorem lt_mul_of_tdiv_le {a b q : ℤ} (ha : 0 ≤ a) (hb : 0 < b) (h : a.tdiv b ≤ q) :
    a < (q + 1) * b := by
  rw [Int.tdiv_eq_ediv_of_nonneg ha] at h
  calc a < (a / b + 1) * b := Int.lt_ediv_add_one_mul_self a hb
    _ ≤ (q + 1) * b := Int.mul_le_mul_of_nonneg_right (by omega) hb.le

/-- Both ends of the batch stay within the deviation, up to one basis point. -/
theorem deviationBps_bounds {median low high dev : ℤ}
    (h : deviationBps median low high = some dev) (hmedian : 0 < median) (hlow : low ≤ median)
    (hhigh : median ≤ high) :
    (high - median) * bps < (dev + 1) * median ∧ (median - low) * bps < (dev + 1) * median := by
  simp only [deviationBps, Option.bind_eq_bind, Option.bind_eq_some_iff, Option.some.injEq] at h
  obtain ⟨above, habove, upperNum, hupperNum, upper, hupper, below, hbelow, lowerNum, hlowerNum,
    lower, hlower, hdev⟩ := h
  have hupper' : upper = ((high - median) * bps).tdiv median := by
    rw [checkedDiv_eq_some hupper, checkedMul_eq_some hupperNum, checkedI128_eq_some habove]
  have hlower' : lower = ((median - low) * bps).tdiv median := by
    rw [checkedDiv_eq_some hlower, checkedMul_eq_some hlowerNum, checkedI128_eq_some hbelow]
  have hbound : upper ≤ dev ∧ lower ≤ dev := by
    rw [← hdev]
    split_ifs <;> omega
  have hbps : (0 : ℤ) ≤ bps := by decide
  constructor
  · exact lt_mul_of_tdiv_le (Int.mul_nonneg (by omega) hbps) hmedian (hupper' ▸ hbound.1)
  · exact lt_mul_of_tdiv_le (Int.mul_nonneg (by omega) hbps) hmedian (hlower' ▸ hbound.2)

/-! ## The aggregate of a batch -/

variable {config : OracleConfig} {batch batch' : List Observation} {price : ℤ}

theorem insertionSort_congr {prices prices' : List ℤ} (h : prices.Perm prices') :
    insertionSort prices = insertionSort prices' :=
  ((insertionSort_perm prices).trans (h.trans (insertionSort_perm prices').symm)).eq_of_pairwise'
    (insertionSort_pairwise prices) (insertionSort_pairwise prices')

theorem insertionSort_bounds {prices : List ℤ} {a : ℤ} (ha : a ∈ prices) :
    (insertionSort prices).getD 0 0 ≤ a ∧
      a ≤ (insertionSort prices).getD ((insertionSort prices).length - 1) 0 :=
  pairwise_bounds (insertionSort_pairwise prices) ((insertionSort_perm prices).mem_iff.mpr ha) 0

/-- The batch counts, not the order in which its answers came in. -/
theorem aggregate_congr (config : OracleConfig) (h : batch.Perm batch') :
    aggregate config batch = aggregate config batch' := by
  have hempty : batch = [] ↔ batch' = [] := by
    rw [← List.length_eq_zero_iff, ← List.length_eq_zero_iff, h.length_eq]
  simp only [aggregate, insertionSort_congr (h.map _), h.length_eq, hempty]

/-- What a price that came out of a batch promises. -/
structure Representative (config : OracleConfig) (batch : List Observation) (price : ℤ) :
    Prop where
  median : LowerMedian (batch.map (·.price)) price
  quorum : config.minRequiredSources ≤ batch.length
  deviation : ∀ o ∈ batch, |o.price - price| * bps < (config.maxDeviationBps + 1) * price

theorem aggregate_representative (hpos : ∀ o ∈ batch, 0 < o.price)
    (h : aggregate config batch = .ok price) : Representative config batch price := by
  obtain ⟨hne, hmedian⟩ := aggregate_ok h
  simp only [aggregate, bind_eq_ok, failIf_eq_ok, orFail_eq_ok, Except.ok.injEq, not_lt] at h
  obtain ⟨_, _, _, hquorum, dev, hdev, _, hmax, hprice⟩ := h
  rw [hprice] at hdev
  have hmem : price ∈ batch.map (·.price) := (lowerMedian_iff_ranked.mp hmedian).mem
  have hpricePos : 0 < price := by
    obtain ⟨o, ho, rfl⟩ := List.mem_map.mp hmem
    exact hpos o ho
  obtain ⟨hhigh, hlow⟩ := deviationBps_bounds hdev hpricePos (insertionSort_bounds hmem).1
    (insertionSort_bounds hmem).2
  have hwiden : (dev + 1) * price ≤ (config.maxDeviationBps + 1) * price :=
    Int.mul_le_mul_of_nonneg_right (by omega) hpricePos.le
  refine ⟨hmedian, hquorum, ?_⟩
  intro o ho
  obtain ⟨hge, hle⟩ := insertionSort_bounds (List.mem_map_of_mem (f := (·.price)) ho)
  -- The nearer end of the batch bounds the distance on each side.
  obtain habs | habs := abs_cases (o.price - price)
  · calc |o.price - price| * bps = (o.price - price) * bps := by rw [habs.1]
      _ ≤ _ := Int.mul_le_mul_of_nonneg_right (Int.sub_le_sub_right hle price) (by decide)
      _ < (dev + 1) * price := hhigh
      _ ≤ (config.maxDeviationBps + 1) * price := hwiden
  · calc |o.price - price| * bps = (price - o.price) * bps := by rw [habs.1, neg_sub]
      _ ≤ _ := Int.mul_le_mul_of_nonneg_right (Int.sub_le_sub_left hge price) (by decide)
      _ < (dev + 1) * price := hlow
      _ ≤ (config.maxDeviationBps + 1) * price := hwiden

/-! ## Calls that miss the cache -/

namespace OracleRouter

variable {A Src S : Type} [DecidableEq A] [DecidableEq Src] [DecidableEq S]

/-- No cached price is read for `symbol`. -/
def Misses (r : OracleRouter A Src S) (symbol : S) : Prop :=
  ∀ config cached, r.oracleConfig = some config →
    r.cacheHit config.1 symbol ≠ .ok (some cached)

/-- The answers accepted now under the stored configuration. -/
def accepted (r : OracleRouter A Src S) (config : OracleConfig) (symbol : S)
    (respond : Src → SourceResponse) : List Observation :=
  querySources (r.sources symbol) respond config r.timestamp

def withSources (r : OracleRouter A Src S) (symbol : S) (sources : List Src) :
    OracleRouter A Src S :=
  { r with sources := Function.update r.sources symbol sources }

/-- The price of a call and the cache it leaves, or its error. -/
def outcome (r : OracleRouter A Src S) (symbol : S) (respond : Src → SourceResponse) :
    Except OracleRouterError (ℤ × (S → Option CachedPrice)) :=
  (fun result => (result.1, result.2.cachedPrice)) <$> r.fetchAndValidatePrice symbol respond

variable {r r' : OracleRouter A Src S} {symbol : S} {respond : Src → SourceResponse} {price : ℤ}

omit [DecidableEq A] [DecidableEq Src] [DecidableEq S] in
theorem misses_of_cachedPrice_eq_none (h : r.cachedPrice symbol = none) : r.Misses symbol := by
  intro config cached _ hhit
  rw [cacheHit, h] at hhit
  cases hhit

omit [DecidableEq A] [DecidableEq Src] in
/-- A price that was not read from the cache was aggregated now. -/
theorem fetchAndValidatePrice_of_misses (hmiss : r.Misses symbol)
    (h : r.fetchAndValidatePrice symbol respond = .ok (price, r')) :
    ∃ config, r.oracleConfig = some config ∧
      aggregate config.1 (r.accepted config.1 symbol respond) = .ok price ∧
      r' = { r with
        cachedPrice := Function.update r.cachedPrice symbol (some ⟨price, r.timestamp⟩) } := by
  obtain ⟨config, hconfig, ⟨entry, hhit, _, _⟩ | ⟨_, hagg, hr⟩⟩ := fetchAndValidatePrice_ok h
  · exact absurd (cacheHit_eq_some.mpr ⟨entry, hhit, rfl⟩) (hmiss config entry.price hconfig)
  · exact ⟨config, hconfig, hagg, hr⟩

omit [DecidableEq A] [DecidableEq Src] in
theorem fetch_withSources {sources : List Src} (config : OracleConfig)
    (h : sources.Perm (r.sources symbol)) :
    (fun result => (result.1, result.2.cachedPrice)) <$>
        (r.withSources symbol sources).fetch config symbol respond =
      (fun result => (result.1, result.2.cachedPrice)) <$> r.fetch config symbol respond := by
  have hempty : sources = [] ↔ r.sources symbol = [] := by
    rw [← List.length_eq_zero_iff, ← List.length_eq_zero_iff, h.length_eq]
  have hagg := aggregate_congr config
    (querySources_perm respond config r.timestamp h)
  simp only [fetch, withSources, Function.update_self, hempty, hagg]
  cases failIf (r.sources symbol = []) OracleRouterError.noPriceSources with
  | error e => rfl
  | ok _ =>
      cases aggregate config (querySources (r.sources symbol) respond config r.timestamp) with
      | error e => rfl
      | ok price => rfl

omit [DecidableEq A] [DecidableEq Src] in
theorem outcome_withSources {sources : List Src} (h : sources.Perm (r.sources symbol)) :
    (r.withSources symbol sources).outcome symbol respond = r.outcome symbol respond := by
  have hconfig' : (r.withSources symbol sources).oracleConfig = r.oracleConfig := rfl
  have hhit' (config : OracleConfig) :
      (r.withSources symbol sources).cacheHit config symbol = r.cacheHit config symbol := rfl
  simp only [outcome, fetchAndValidatePrice, hconfig', hhit']
  cases r.oracleConfig with
  | none => rfl
  | some config =>
      cases hhit : r.cacheHit config.1 symbol with
      | error e => simp only [orFail, Option.elim_some, ok_bind, hhit]; rfl
      | ok hit =>
          simp only [orFail, Option.elim_some, ok_bind, hhit]
          cases hit with
          | some price => rfl
          | none => exact fetch_withSources config.1 h

/-- On a miss, a call reverts and leaves the cache alone, or returns the lower
median of enough accepted answers that all lie close to it, and caches that price
as of now. No order of the sources gives another outcome. -/
theorem fetchAndValidatePrice_on_miss (r : OracleRouter A Src S) (symbol : S)
    (respond : Src → SourceResponse) (hmiss : r.Misses symbol) :
    (∀ e, r.fetchAndValidatePrice symbol respond = .error e →
      r.step (.getPrice symbol respond) = r) ∧
    (∀ price r', r.fetchAndValidatePrice symbol respond = .ok (price, r') →
      ∃ config, r.oracleConfig = some config ∧
        LowerMedian ((r.accepted config.1 symbol respond).map (·.price)) price ∧
        config.1.minRequiredSources ≤ (r.accepted config.1 symbol respond).length ∧
        (∀ o ∈ r.accepted config.1 symbol respond,
          |o.price - price| * bps < (config.1.maxDeviationBps + 1) * price) ∧
        r.step (.getPrice symbol respond) = r' ∧
        r' = { r with
          cachedPrice := Function.update r.cachedPrice symbol (some ⟨price, r.timestamp⟩) }) ∧
    ∀ sources, sources.Perm (r.sources symbol) →
      (r.withSources symbol sources).outcome symbol respond = r.outcome symbol respond := by
  refine ⟨?_, ?_, fun sources hperm => outcome_withSources hperm⟩
  · intro e he
    simp [step, apply, he, Functor.map, Except.map]
  · intro price r' hok
    obtain ⟨config, hconfig, hagg, hr⟩ := fetchAndValidatePrice_of_misses hmiss hok
    have hpos : ∀ o ∈ r.accepted config.1 symbol respond, 0 < o.price := by
      intro o ho
      obtain ⟨source, _, hsource⟩ := mem_querySources.mp ho
      exact (accept_eq_some_iff.mp hsource).2.2.2.2
    obtain ⟨hmedian, hquorum, hdeviation⟩ := aggregate_representative hpos hagg
    exact ⟨config, hconfig, hmedian, hquorum, hdeviation, step_of_fetch hok, hr⟩

/-- Three sources with one outlier in the middle of the list, at time 1000. -/
def outlierRouter : OracleRouter ℕ ℕ ℕ :=
  run step (genesis 0 1000)
    [.setOracleConfig 0 ⟨60, 100, 30, 2⟩, .setOracleSources 0 0 [1, 2, 3]]

def outlierAnswers (source : ℕ) : SourceResponse :=
  if source = 2 then ⟨some 10090, some 1000⟩ else ⟨some (10000 + source), some 990⟩

theorem fetchAndValidatePrice_on_miss_outlier :
    (∀ e, outlierRouter.fetchAndValidatePrice 0 outlierAnswers = .error e →
      outlierRouter.step (.getPrice 0 outlierAnswers) = outlierRouter) ∧
    (∀ price r', outlierRouter.fetchAndValidatePrice 0 outlierAnswers = .ok (price, r') →
      ∃ config, outlierRouter.oracleConfig = some config ∧
        LowerMedian ((outlierRouter.accepted config.1 0 outlierAnswers).map (·.price)) price ∧
        config.1.minRequiredSources ≤ (outlierRouter.accepted config.1 0 outlierAnswers).length ∧
        (∀ o ∈ outlierRouter.accepted config.1 0 outlierAnswers,
          |o.price - price| * bps < (config.1.maxDeviationBps + 1) * price) ∧
        outlierRouter.step (.getPrice 0 outlierAnswers) = r' ∧
        r' = { outlierRouter with
          cachedPrice := Function.update outlierRouter.cachedPrice 0
            (some ⟨price, outlierRouter.timestamp⟩) }) ∧
    ∀ sources, sources.Perm (outlierRouter.sources 0) →
      (outlierRouter.withSources 0 sources).outcome 0 outlierAnswers =
        outlierRouter.outcome 0 outlierAnswers :=
  fetchAndValidatePrice_on_miss outlierRouter 0 outlierAnswers
    (misses_of_cachedPrice_eq_none rfl)

omit [DecidableEq A] [DecidableEq Src] in
/-- With fewer than half of the accepted answers faulty, whatever they say, the
price lies between two honest answers. -/
theorem fetchAndValidatePrice_between_honest (r r' : OracleRouter A Src S) (symbol : S)
    (respond : Src → SourceResponse) (config : CheckedOracleConfig) (price : ℤ)
    (honest faulty : List Observation) (hconfig : r.oracleConfig = some config)
    (hmiss : r.Misses symbol) (hok : r.fetchAndValidatePrice symbol respond = .ok (price, r'))
    (hsplit : (honest ++ faulty).Perm (r.accepted config.1 symbol respond))
    (hfew : faulty.length ≤ ((r.accepted config.1 symbol respond).length - 1) / 2) :
    (∃ o ∈ honest, o.price ≤ price) ∧ ∃ o ∈ honest, price ≤ o.price := by
  obtain ⟨config', hconfig', hagg, _⟩ := fetchAndValidatePrice_of_misses hmiss hok
  cases hconfig.symm.trans hconfig'
  obtain ⟨hne, hmedian⟩ := aggregate_ok hagg
  have hpos : 0 < (r.accepted config.1 symbol respond).length := List.length_pos_of_ne_nil hne
  have hranked := lowerMedian_iff_ranked.mp hmedian
  rw [List.length_map] at hranked
  have hprices : Ranked (honest.map (·.price) ++ faulty.map (·.price))
      (((r.accepted config.1 symbol respond).length - 1) / 2) price := by
    rw [← List.map_append]
    exact hranked.perm (hsplit.symm.map _)
  have hlength : (honest ++ faulty).length = (r.accepted config.1 symbol respond).length :=
    hsplit.length_eq
  have hbetween := hprices.between (by simpa using hfew) (by
    rw [← List.map_append, List.length_map, List.length_map, hlength]
    omega)
  simpa using hbetween

theorem fetchAndValidatePrice_between_honest_outlier :
    (∃ o ∈ [(⟨10001, 990⟩ : Observation), ⟨10003, 990⟩], o.price ≤ 10003) ∧
      ∃ o ∈ [(⟨10001, 990⟩ : Observation), ⟨10003, 990⟩], 10003 ≤ o.price :=
  fetchAndValidatePrice_between_honest outlierRouter _ 0 outlierAnswers ⟨⟨60, 100, 30, 2⟩, rfl⟩
    10003 [⟨10001, 990⟩, ⟨10003, 990⟩] [⟨10090, 1000⟩] rfl (misses_of_cachedPrice_eq_none rfl) rfl
    (by decide) (by decide)

end OracleRouter

end Stellars
