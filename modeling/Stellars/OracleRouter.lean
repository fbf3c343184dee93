import Mathlib.Data.List.Sort
import Stellars.Configuration

/-!
# The oracle router

A price is the lower median of what the sources of a symbol report, cached for a
while. A source answers two calls, each of which may fail. The configuration is
stored with the proof that `validate` accepted it.
-/
namespace Stellars
open GuardedRuns

structure OracleConfig where
  stalenessThreshold : ℕ
  maxDeviationBps : ℤ
  cacheDuration : ℕ
  minRequiredSources : ℕ
  deriving Repr, DecidableEq

inductive OracleRouterError
  | notInitialized
  | unauthorized
  | invalidConfig
  | tooManySources
  | noPriceSources
  | stalePrice
  | insufficientSources
  | priceDeviationTooHigh
  | deviationOverflow
  | overflow
  | config (e : ConfigManagerError)
  deriving Repr, DecidableEq

abbrev maxDeviationBpsCeiling : ℤ := 10000
abbrev maxOracleSources : ℕ := 16
abbrev minRequiredSourcesFloor : ℕ := 1

def OracleConfig.validate (c : OracleConfig) : Except OracleRouterError Unit := do
  failIf (c.maxDeviationBps ≤ 0 ∨ c.maxDeviationBps > maxDeviationBpsCeiling) .invalidConfig
  failIf (c.stalenessThreshold = 0) .invalidConfig
  failIf (c.cacheDuration = 0 ∨ c.cacheDuration > c.stalenessThreshold) .invalidConfig
  failIf (c.minRequiredSources < minRequiredSourcesFloor ∨ c.minRequiredSources > maxOracleSources)
    .invalidConfig

/-- A cached price is never read for longer than an observation is accepted. -/
theorem OracleConfig.validate_ok {c : OracleConfig} (h : c.validate = .ok ()) :
    c.cacheDuration ≤ c.stalenessThreshold := by
  simp only [OracleConfig.validate, failIf_bind_eq_ok] at h
  omega

abbrev CheckedOracleConfig : Type := { c : OracleConfig // c.validate = .ok () }

def OracleConfig.check (c : OracleConfig) : Except OracleRouterError CheckedOracleConfig :=
  match h : c.validate with
  | .ok () => .ok ⟨c, h⟩
  | .error e => .error e

theorem OracleConfig.check_ok {c : OracleConfig} {checked : CheckedOracleConfig}
    (h : c.check = .ok checked) : checked.1 = c := by
  unfold OracleConfig.check at h
  split at h <;> cases h
  rfl

/-- The answers to `get_price` and `last_update`; `none` is a failed call. -/
structure SourceResponse where
  price : Option ℤ
  lastUpdate : Option ℕ
  deriving Repr, DecidableEq

structure Observation where
  price : ℤ
  lastUpdate : ℕ
  deriving Repr, DecidableEq

structure CachedPrice where
  price : ℤ
  lastUpdate : ℕ
  deriving Repr, DecidableEq

/-! ## Aggregation -/

/-- One turn of the loop over the sources. -/
def SourceResponse.accept (response : SourceResponse) (config : OracleConfig)
    (currentTime : ℕ) : Option Observation := do
  let price ← response.price
  let lastUpdate ← response.lastUpdate
  if lastUpdate > currentTime then none
  else if currentTime - lastUpdate > config.stalenessThreshold ∨ price ≤ 0 then none
  else some ⟨price, lastUpdate⟩

def querySources {Src : Type} (sources : List Src) (respond : Src → SourceResponse)
    (config : OracleConfig) (currentTime : ℕ) : List Observation :=
  sources.filterMap fun source => (respond source).accept config currentTime

/-- Each key sinks into the prefix already sorted, which the loop walks from its
largest element down. -/
def insertionSort (prices : List ℤ) : List ℤ :=
  (prices.foldl (fun walked key => walked.orderedInsert (· ≥ ·) key) []).reverse

def medianIdx (n : ℕ) : ℕ := if n % 2 = 1 then n / 2 else n / 2 - 1

def checkedI128 (x : ℤ) : Option ℤ := if i128Min ≤ x ∧ x ≤ i128Max then some x else none

def checkedDiv (a b : ℤ) : Option ℤ := if b = 0 then none else checkedI128 (a.tdiv b)

def deviationBps (median low high : ℤ) : Option ℤ := do
  let above ← checkedI128 (high - median)
  let upperNum ← checkedMul above bps
  let upper ← checkedDiv upperNum median
  let below ← checkedI128 (median - low)
  let lowerNum ← checkedMul below bps
  let lower ← checkedDiv lowerNum median
  some (if upper > lower then upper else lower)

/-- The price that a batch of accepted observations stands for. -/
def aggregate (config : OracleConfig) (observations : List Observation) :
    Except OracleRouterError ℤ := do
  failIf (observations = []) .stalePrice
  failIf (observations.length < config.minRequiredSources) .insufficientSources
  let sorted := insertionSort (observations.map (·.price))
  let n := sorted.length
  let median := sorted.getD (medianIdx n) 0
  let dev ← orFail (deviationBps median (sorted.getD 0 0) (sorted.getD (n - 1) 0))
    .deviationOverflow
  failIf (dev > config.maxDeviationBps) .priceDeviationTooHigh
  .ok median

def dedupSources {Src : Type} [DecidableEq Src] (sources : List Src) : List Src :=
  sources.foldl (fun result addr => if addr ∈ result then result else result ++ [addr]) []

/-! ### What the aggregate is -/

/-- `m` is the lower median of `prices`. -/
def LowerMedian (prices : List ℤ) (m : ℤ) : Prop :=
  ∃ sorted : List ℤ, sorted.Perm prices ∧ sorted.Pairwise (· ≤ ·) ∧
    sorted[(prices.length - 1) / 2]? = some m

theorem insertionSort_eq (prices : List ℤ) :
    insertionSort prices = (prices.reverse.insertionSort (· ≥ ·)).reverse := by
  rw [insertionSort, List.insertionSort, List.foldr_reverse]

theorem insertionSort_perm (prices : List ℤ) : (insertionSort prices).Perm prices := by
  rw [insertionSort_eq]
  exact (List.reverse_perm _).trans ((List.perm_insertionSort _ _).trans (List.reverse_perm _))

theorem insertionSort_pairwise (prices : List ℤ) :
    (insertionSort prices).Pairwise (· ≤ ·) := by
  rw [insertionSort_eq, List.pairwise_reverse]
  exact List.pairwise_insertionSort _ _

theorem medianIdx_eq {n : ℕ} (h : 0 < n) : medianIdx n = (n - 1) / 2 := by
  unfold medianIdx
  split <;> omega

theorem lowerMedian_insertionSort {prices : List ℤ} (h : prices ≠ []) :
    LowerMedian prices ((insertionSort prices).getD (medianIdx (insertionSort prices).length) 0) := by
  have hlen : (insertionSort prices).length = prices.length := (insertionSort_perm prices).length_eq
  have hpos : 0 < prices.length := List.length_pos_of_ne_nil h
  have hidx : (prices.length - 1) / 2 < (insertionSort prices).length := by omega
  refine ⟨insertionSort prices, insertionSort_perm prices, insertionSort_pairwise prices, ?_⟩
  rw [hlen, medianIdx_eq hpos]
  simp [hidx]

theorem aggregate_ok {config : OracleConfig} {observations : List Observation} {price : ℤ}
    (h : aggregate config observations = .ok price) :
    observations ≠ [] ∧ LowerMedian (observations.map (·.price)) price := by
  simp only [aggregate, bind_eq_ok, failIf_eq_ok, Except.ok.injEq] at h
  obtain ⟨_, hne, _, _, _, _, _, _, rfl⟩ := h
  exact ⟨hne, lowerMedian_insertionSort (by simpa using hne)⟩

theorem accept_eq_some {response : SourceResponse} {config : OracleConfig} {now : ℕ}
    {o : Observation} (h : response.accept config now = some o) :
    o.lastUpdate ≤ now ∧ now ≤ o.lastUpdate + config.stalenessThreshold := by
  simp only [SourceResponse.accept, Option.bind_eq_bind, Option.bind_eq_some_iff] at h
  obtain ⟨price, _, lastUpdate, _, hchecks⟩ := h
  split_ifs at hchecks with hfuture hstale
  cases hchecks
  constructor
  · exact not_lt.mp hfuture
  · rw [not_or, not_lt] at hstale
    exact Nat.sub_le_iff_le_add'.mp hstale.1

theorem querySources_fresh {Src : Type} {sources : List Src} {respond : Src → SourceResponse}
    {config : OracleConfig} {now : ℕ} {o : Observation}
    (h : o ∈ querySources sources respond config now) :
    o.lastUpdate ≤ now ∧ now ≤ o.lastUpdate + config.stalenessThreshold := by
  obtain ⟨source, _, hsource⟩ := List.mem_filterMap.mp h
  exact accept_eq_some hsource

/-! ## Storage and entry points -/

structure OracleRouter (A Src S : Type) where
  timestamp : ℕ
  cfg : ConfigManager A
  oracleConfig : Option CheckedOracleConfig
  sources : S → List Src
  cachedPrice : S → Option CachedPrice

inductive OracleOp (A Src S : Type)
  | advance (seconds : ℕ)
  | config (caller : A) (call : ConfigCall A)
  | setOracleConfig (caller : A) (config : OracleConfig)
  | setOracleSources (caller : A) (symbol : S) (sources : List Src)
  | getPrice (symbol : S) (respond : Src → SourceResponse)

namespace OracleRouter

variable {A Src S : Type} [DecidableEq A] [DecidableEq Src] [DecidableEq S]

def requireOracleAdmin (r : OracleRouter A Src S) (caller : A) : Except OracleRouterError Unit :=
  failIf (r.cfg.hasRole .admin caller = false) .unauthorized

def setOracleConfig (r : OracleRouter A Src S) (caller : A) (config : OracleConfig) :
    Except OracleRouterError (OracleRouter A Src S) := do
  r.requireOracleAdmin caller
  let config ← config.check
  .ok { r with oracleConfig := some config }

def setOracleSources (r : OracleRouter A Src S) (caller : A) (symbol : S) (sources : List Src) :
    Except OracleRouterError (OracleRouter A Src S) := do
  r.requireOracleAdmin caller
  failIf (sources.length > maxOracleSources) .tooManySources
  .ok { r with sources := Function.update r.sources symbol (dedupSources sources) }

/-- The cached price while it lasts. Its expiry is a checked 64-bit sum. -/
def cacheHit (r : OracleRouter A Src S) (config : OracleConfig) (symbol : S) :
    Except OracleRouterError (Option ℤ) :=
  match r.cachedPrice symbol with
  | none => .ok none
  | some entry => do
      failIf (u64Max < entry.lastUpdate + config.cacheDuration) .overflow
      .ok (if r.timestamp ≤ entry.lastUpdate + config.cacheDuration then some entry.price else none)

/-- The cache miss: ask every source, aggregate, and store the price as of now. -/
def fetch (r : OracleRouter A Src S) (config : OracleConfig) (symbol : S)
    (respond : Src → SourceResponse) : Except OracleRouterError (ℤ × OracleRouter A Src S) := do
  failIf (r.sources symbol = []) .noPriceSources
  let price ← aggregate config (querySources (r.sources symbol) respond config r.timestamp)
  .ok (price, { r with
    cachedPrice := Function.update r.cachedPrice symbol (some ⟨price, r.timestamp⟩) })

def fetchAndValidatePrice (r : OracleRouter A Src S) (symbol : S)
    (respond : Src → SourceResponse) : Except OracleRouterError (ℤ × OracleRouter A Src S) := do
  let config ← orFail r.oracleConfig .notInitialized
  match ← r.cacheHit config.1 symbol with
  | some price => .ok (price, r)
  | none => r.fetch config.1 symbol respond

def configCall (r : OracleRouter A Src S) (caller : A) (call : ConfigCall A) :
    Except OracleRouterError (OracleRouter A Src S) :=
  match r.cfg.call caller call with
  | .ok cfg => .ok { r with cfg := cfg }
  | .error e => .error (.config e)

def apply (r : OracleRouter A Src S) :
    OracleOp A Src S → Except OracleRouterError (OracleRouter A Src S)
  | .advance seconds => .ok { r with timestamp := r.timestamp + seconds }
  | .config caller call => r.configCall caller call
  | .setOracleConfig caller config => r.setOracleConfig caller config
  | .setOracleSources caller symbol sources => r.setOracleSources caller symbol sources
  | .getPrice symbol respond => (·.2) <$> r.fetchAndValidatePrice symbol respond

def step (r : OracleRouter A Src S) (op : OracleOp A Src S) : OracleRouter A Src S :=
  match r.apply op with
  | .ok r' => r'
  | .error _ => r

def genesis (admin : A) (timestamp : ℕ) : OracleRouter A Src S where
  timestamp := timestamp
  cfg := .initializeWith admin
  oracleConfig := none
  sources := fun _ => []
  cachedPrice := fun _ => none

/-! ### Inverting a price call -/

variable {r r' : OracleRouter A Src S} {config : OracleConfig} {symbol : S} {price : ℤ}
  {respond : Src → SourceResponse}

/-- The entry is read: it is stored and has not expired. -/
structure Hit (r : OracleRouter A Src S) (config : OracleConfig) (symbol : S)
    (entry : CachedPrice) : Prop where
  cached : r.cachedPrice symbol = some entry
  unexpired : r.timestamp ≤ entry.lastUpdate + config.cacheDuration
  bounded : entry.lastUpdate + config.cacheDuration ≤ u64Max

omit [DecidableEq A] [DecidableEq Src] [DecidableEq S] in
theorem cacheHit_eq_some :
    r.cacheHit config symbol = .ok (some price) ↔ ∃ entry, r.Hit config symbol entry ∧
      entry.price = price := by
  unfold cacheHit
  cases hc : r.cachedPrice symbol with
  | none =>
      constructor
      · nofun
      · rintro ⟨entry, hhit, _⟩
        cases hc.symm.trans hhit.cached
  | some entry =>
      simp only [failIf_bind_eq_ok, Except.ok.injEq, not_lt]
      constructor
      · rintro ⟨hbound, hread⟩
        split_ifs at hread with htime
        exact ⟨entry, ⟨hc, htime, hbound⟩, Option.some.inj hread⟩
      · rintro ⟨entry', hhit, hprice⟩
        cases hc.symm.trans hhit.cached
        exact ⟨hhit.bounded, by rw [if_pos hhit.unexpired, hprice]⟩

omit [DecidableEq A] [DecidableEq Src] in
theorem fetch_ok (h : r.fetch config symbol respond = .ok (price, r')) :
    aggregate config (querySources (r.sources symbol) respond config r.timestamp) = .ok price ∧
      r' = { r with
        cachedPrice := Function.update r.cachedPrice symbol (some ⟨price, r.timestamp⟩) } := by
  simp only [fetch, bind_eq_ok, failIf_eq_ok, Except.ok.injEq, Prod.mk.injEq] at h
  obtain ⟨_, _, median, hagg, rfl, rfl⟩ := h
  exact ⟨hagg, rfl⟩

omit [DecidableEq A] [DecidableEq Src] in
/-- A price comes out of the cache or out of a batch of new observations. -/
theorem fetchAndValidatePrice_ok (h : r.fetchAndValidatePrice symbol respond = .ok (price, r')) :
    ∃ config, r.oracleConfig = some config ∧
      ((∃ entry, r.Hit config.1 symbol entry ∧ entry.price = price ∧ r' = r) ∨
        (r.cacheHit config.1 symbol = .ok none ∧
          aggregate config.1 (querySources (r.sources symbol) respond config.1 r.timestamp) =
            .ok price ∧
          r' = { r with
            cachedPrice := Function.update r.cachedPrice symbol (some ⟨price, r.timestamp⟩) })) := by
  simp only [fetchAndValidatePrice, bind_eq_ok, orFail_eq_ok] at h
  obtain ⟨config, hconfig, hit, hhit, h⟩ := h
  refine ⟨config, hconfig, ?_⟩
  cases hit with
  | some cached =>
      cases h
      obtain ⟨entry, hentry, hprice⟩ := cacheHit_eq_some.mp hhit
      exact .inl ⟨entry, hentry, hprice, rfl⟩
  | none => exact .inr ⟨hhit, fetch_ok h⟩

omit [DecidableEq A] [DecidableEq Src] in
theorem fetchAndValidatePrice_of_hit {config : CheckedOracleConfig} {entry : CachedPrice}
    (hconfig : r.oracleConfig = some config) (hhit : r.Hit config.1 symbol entry) :
    r.fetchAndValidatePrice symbol respond = .ok (entry.price, r) := by
  rw [fetchAndValidatePrice, hconfig]
  change (r.cacheHit config.1 symbol >>= _) = _
  rw [cacheHit_eq_some.mpr ⟨entry, hhit, rfl⟩]
  rfl

/-- The call asks for the price of `symbol` and gets one. -/
def Answers (r : OracleRouter A Src S) (symbol : S) (op : OracleOp A Src S) : Prop :=
  ∃ respond result, op = .getPrice symbol respond ∧
    r.fetchAndValidatePrice symbol respond = .ok result

/-! ### One call -/

/-- What a call makes of the router. -/
inductive Effect (r : OracleRouter A Src S) : OracleOp A Src S → OracleRouter A Src S → Prop
  | refused (op : OracleOp A Src S) : Effect r op r
  | advanced (seconds : ℕ) :
      Effect r (.advance seconds) { r with timestamp := r.timestamp + seconds }
  | administered (caller : A) (call : ConfigCall A) (cfg : ConfigManager A) :
      Effect r (.config caller call) { r with cfg := cfg }
  | configured {caller : A} {config : CheckedOracleConfig}
      (h : r.setOracleConfig caller config.1 = .ok { r with oracleConfig := some config }) :
      Effect r (.setOracleConfig caller config.1) { r with oracleConfig := some config }
  | listed (caller : A) (symbol : S) (sources : List Src) :
      Effect r (.setOracleSources caller symbol sources)
        { r with sources := Function.update r.sources symbol (dedupSources sources) }
  | priced {symbol : S} {respond : Src → SourceResponse} {price : ℤ} {r' : OracleRouter A Src S}
      (h : r.fetchAndValidatePrice symbol respond = .ok (price, r')) :
      Effect r (.getPrice symbol respond) r'

theorem effect_step (r : OracleRouter A Src S) (op : OracleOp A Src S) :
    r.Effect op (r.step op) := by
  cases ho : r.apply op with
  | error e =>
      rw [step, ho]
      exact .refused op
  | ok r' =>
      have hstep : r.step op = r' := by rw [step, ho]
      rw [hstep]
      cases op with
      | advance seconds =>
          cases ho
          exact .advanced seconds
      | config caller call =>
          simp only [apply, configCall] at ho
          split at ho <;> cases ho
          exact .administered caller call _
      | setOracleConfig caller config =>
          have hset := ho
          simp only [apply, setOracleConfig, bind_eq_ok, Except.ok.injEq] at ho
          obtain ⟨_, _, checked, hcheck, rfl⟩ := ho
          obtain rfl := OracleConfig.check_ok hcheck
          exact .configured hset
      | setOracleSources caller symbol sources =>
          simp only [apply, setOracleSources, bind_eq_ok, Except.ok.injEq] at ho
          obtain ⟨_, _, _, _, rfl⟩ := ho
          exact .listed caller symbol sources
      | getPrice symbol respond =>
          obtain ⟨⟨price, r1⟩, hfetch, rfl⟩ := map_eq_ok.mp ho
          exact .priced hfetch

theorem step_of_fetch {symbol : S} (h : r.fetchAndValidatePrice symbol respond = .ok (price, r')) :
    r.step (.getPrice symbol respond) = r' := by
  simp [step, apply, h, Functor.map, Except.map]

/-- Only a call that returns a price writes its cache entry. -/
theorem cachedPrice_step_of_not_answers {op : OracleOp A Src S} (h : ¬ r.Answers symbol op) :
    (r.step op).cachedPrice symbol = r.cachedPrice symbol := by
  have heffect := r.effect_step op
  generalize r.step op = r' at heffect
  cases heffect with
  | @priced other respond price _ hfetch =>
      have hne : symbol ≠ other := by
        rintro rfl
        exact h ⟨respond, _, rfl, hfetch⟩
      obtain ⟨config, _, ⟨entry, _, _, rfl⟩ | ⟨_, _, rfl⟩⟩ := fetchAndValidatePrice_ok hfetch
      · rfl
      · simp [hne]
  | _ => rfl

/-- The clock never runs back. -/
theorem timestamp_le_step (op : OracleOp A Src S) : r.timestamp ≤ (r.step op).timestamp := by
  have heffect := r.effect_step op
  generalize r.step op = r' at heffect
  cases heffect with
  | advanced seconds => exact Nat.le_add_right _ _
  | priced hfetch =>
      obtain ⟨config, _, ⟨entry, _, _, rfl⟩ | ⟨_, _, rfl⟩⟩ := fetchAndValidatePrice_ok hfetch <;>
        exact le_rfl
  | _ => exact le_rfl

end OracleRouter

end Stellars
