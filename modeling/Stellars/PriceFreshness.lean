import Stellars.OracleRouter

/-!
# Freshness of returned prices

The storage of the router does not say which observations a cached price came
from. A trace of a run carries them along, without changing what the router
does. A price read from the cache is fresh if the entry was filled from
observations young enough to outlast it.
-/
namespace Stellars
open GuardedRuns

/-- A router with the observations behind each cached price. -/
structure OracleTrace (A Src S : Type) where
  router : OracleRouter A Src S
  behind : S → List Observation

namespace OracleTrace

variable {A Src S : Type} [DecidableEq A] [DecidableEq Src] [DecidableEq S]

/-- The observations a price is taken from when it is asked for now. -/
def consulted (t : OracleTrace A Src S) (symbol : S) (respond : Src → SourceResponse) :
    List Observation :=
  match t.router.oracleConfig with
  | none => []
  | some config =>
      match t.router.cacheHit config.1 symbol with
      | .ok (some _) => t.behind symbol
      | _ => querySources (t.router.sources symbol) respond config.1 t.router.timestamp

/-- The price a `get_price` call returns, and the observations it stands on. -/
def answer (t : OracleTrace A Src S) : OracleOp A Src S → Option (ℤ × List Observation)
  | .getPrice symbol respond =>
      (t.router.fetchAndValidatePrice symbol respond).toOption.map fun result =>
        (result.1, t.consulted symbol respond)
  | _ => none

def step (t : OracleTrace A Src S) (op : OracleOp A Src S) : OracleTrace A Src S where
  router := t.router.step op
  behind := match op, t.answer op with
    | .getPrice symbol _, some (_, observations) => Function.update t.behind symbol observations
    | _, _ => t.behind

def genesis (admin : A) (timestamp : ℕ) : OracleTrace A Src S where
  router := .genesis admin timestamp
  behind := fun _ => []

/-- A price returned now is the median of observations made within the staleness
threshold in force now. -/
def Fresh (t : OracleTrace A Src S) (op : OracleOp A Src S) : Prop :=
  ∀ price observations, t.answer op = some (price, observations) →
    ∃ config, t.router.oracleConfig = some config ∧
      LowerMedian (observations.map (·.price)) price ∧
      ∀ o ∈ observations, t.router.timestamp - config.1.stalenessThreshold ≤ o.lastUpdate ∧
        o.lastUpdate ≤ t.router.timestamp

/-- The age an observation may have when it is cached and still outlast the entry. -/
def margin (config : OracleConfig) : ℕ := config.stalenessThreshold - config.cacheDuration

/-- The answers that a query of all sources accepts now. -/
def batch (t : OracleTrace A Src S) (config : OracleConfig) (symbol : S)
    (respond : Src → SourceResponse) : List Observation :=
  querySources (t.router.sources symbol) respond config t.router.timestamp

/-- The call misses the cache, and the answers make a price. -/
structure Fills (t : OracleTrace A Src S) (config : CheckedOracleConfig) (symbol : S)
    (respond : Src → SourceResponse) : Prop where
  configured : t.router.oracleConfig = some config
  miss : t.router.cacheHit config.1 symbol = .ok none
  agreed : ∃ price, aggregate config.1 (t.batch config.1 symbol respond) = .ok price

/-- A call that fills the cache fills it from observations no older than the margin in force,
and no new configuration narrows the margin. -/
def WithinMargin (t : OracleTrace A Src S) : OracleOp A Src S → Prop
  | .getPrice symbol respond => ∀ config, t.Fills config symbol respond →
      ∀ o ∈ t.batch config.1 symbol respond, t.router.timestamp ≤ o.lastUpdate + margin config.1
  | .setOracleConfig caller config' => ∀ config r', t.router.oracleConfig = some config →
      t.router.setOracleConfig caller config' = .ok r' → margin config.1 ≤ margin config'
  | _ => True

/-! ## What the trace records -/

theorem router_run (t : OracleTrace A Src S) (ops : List (OracleOp A Src S)) :
    (run step t ops).router = run OracleRouter.step t.router ops :=
  run_map (fun _ _ => rfl) t ops

/-- Every cached price is the median of the observations recorded for it, all
made before the entry was stored. -/
structure Backed (t : OracleTrace A Src S) (symbol : S) (entry : CachedPrice) : Prop where
  median : LowerMedian ((t.behind symbol).map (·.price)) entry.price
  observed : ∀ o ∈ t.behind symbol, o.lastUpdate ≤ entry.lastUpdate
  stored : entry.lastUpdate ≤ t.router.timestamp

def AllBacked (t : OracleTrace A Src S) : Prop :=
  ∀ symbol entry, t.router.cachedPrice symbol = some entry → t.Backed symbol entry

variable {t : OracleTrace A Src S} {op : OracleOp A Src S} {symbol : S}
  {respond : Src → SourceResponse} {price : ℤ} {observations : List Observation}
  {config : CheckedOracleConfig} {entry : CachedPrice}

omit [DecidableEq A] [DecidableEq Src] [DecidableEq S] in
theorem consulted_of_hit (hconfig : t.router.oracleConfig = some config)
    (hhit : t.router.Hit config.1 symbol entry) :
    t.consulted symbol respond = t.behind symbol := by
  simp only [consulted, hconfig, OracleRouter.cacheHit_eq_some.mpr ⟨entry, hhit, rfl⟩]

omit [DecidableEq A] [DecidableEq Src] [DecidableEq S] in
theorem consulted_of_miss (hconfig : t.router.oracleConfig = some config)
    (hmiss : t.router.cacheHit config.1 symbol = .ok none) :
    t.consulted symbol respond =
      t.batch config.1 symbol respond := by
  simp only [consulted, hconfig, hmiss, batch]

omit [DecidableEq A] [DecidableEq Src] in
theorem answer_of_fetch {r : OracleRouter A Src S}
    (h : t.router.fetchAndValidatePrice symbol respond = .ok (price, r)) :
    t.answer (.getPrice symbol respond) = some (price, t.consulted symbol respond) := by
  simp [answer, h, Except.toOption]

omit [DecidableEq A] [DecidableEq Src] in
theorem fetch_of_answer (h : t.answer (.getPrice symbol respond) = some (price, observations)) :
    ∃ r, t.router.fetchAndValidatePrice symbol respond = .ok (price, r) ∧
      t.consulted symbol respond = observations := by
  cases hf : t.router.fetchAndValidatePrice symbol respond with
  | error e => simp [answer, hf, Except.toOption] at h
  | ok result =>
      simp only [answer, hf, Except.toOption, Option.map_some, Option.some.injEq,
        Prod.mk.injEq] at h
      exact ⟨result.2, by rw [← h.1], h.2⟩

theorem behind_step_of_fetch {r : OracleRouter A Src S}
    (h : t.router.fetchAndValidatePrice symbol respond = .ok (price, r)) :
    (t.step (.getPrice symbol respond)).behind symbol = t.consulted symbol respond := by
  simp [step, answer_of_fetch h]

theorem behind_step_of_not_answers (h : ¬ t.router.Answers symbol op) :
    (t.step op).behind symbol = t.behind symbol := by
  cases op with
  | getPrice other respond =>
      cases hf : t.router.fetchAndValidatePrice other respond with
      | error e => simp [step, answer, hf, Except.toOption]
      | ok result =>
          have hne : symbol ≠ other := by
            rintro rfl
            exact h ⟨respond, _, rfl, hf⟩
          simp [step, answer, hf, Except.toOption, hne]
  | _ => rfl

/-- What a returned price leaves behind is in order. -/
theorem backed_step_of_fetch {r : OracleRouter A Src S} (h : t.AllBacked)
    (hfetch : t.router.fetchAndValidatePrice symbol respond = .ok (price, r))
    (hentry : r.cachedPrice symbol = some entry) :
    (t.step (.getPrice symbol respond)).Backed symbol entry := by
  have hrouter : (t.step (.getPrice symbol respond)).router = r := OracleRouter.step_of_fetch hfetch
  have hbehind := behind_step_of_fetch hfetch
  obtain ⟨config, hconfig, ⟨stored, hhit, _, rfl⟩ | ⟨hmiss, hagg, hr⟩⟩ :=
    OracleRouter.fetchAndValidatePrice_ok hfetch
  · rw [consulted_of_hit hconfig hhit] at hbehind
    have hold := h symbol entry hentry
    exact ⟨hbehind ▸ hold.median, hbehind ▸ hold.observed, hrouter ▸ hold.stored⟩
  · rw [consulted_of_miss hconfig hmiss] at hbehind
    rw [hr] at hentry hrouter
    simp only [Function.update_self, Option.some.injEq] at hentry
    subst hentry
    refine ⟨hbehind ▸ (aggregate_ok hagg).2, ?_, by rw [hrouter]⟩
    intro o ho
    rw [hbehind] at ho
    exact (querySources_fresh ho).1

theorem allBacked_step (op : OracleOp A Src S) (h : t.AllBacked) : (t.step op).AllBacked := by
  intro symbol entry hentry
  by_cases ha : t.router.Answers symbol op
  · obtain ⟨respond, ⟨price, r⟩, rfl, hfetch⟩ := ha
    have hrouter : (t.step (.getPrice symbol respond)).router = r :=
      OracleRouter.step_of_fetch hfetch
    rw [hrouter] at hentry
    exact backed_step_of_fetch h hfetch hentry
  · have hbehind := behind_step_of_not_answers ha
    have hcached : (t.step op).router.cachedPrice symbol = t.router.cachedPrice symbol :=
      OracleRouter.cachedPrice_step_of_not_answers ha
    have hold := h symbol entry (hcached ▸ hentry)
    exact ⟨hbehind ▸ hold.median, hbehind ▸ hold.observed,
      hold.stored.trans (OracleRouter.timestamp_le_step op)⟩

/-! ## Within the margin -/

/-- The observations behind every entry were young enough for the configuration in force. -/
def Outlasting (t : OracleTrace A Src S) : Prop :=
  ∀ symbol entry, t.router.cachedPrice symbol = some entry → ∃ config,
    t.router.oracleConfig = some config ∧
      ∀ o ∈ t.behind symbol, entry.lastUpdate ≤ o.lastUpdate + margin config.1

structure Sound (t : OracleTrace A Src S) : Prop where
  backed : t.AllBacked
  outlasting : t.Outlasting

theorem margin_le_step (hop : t.WithinMargin op) (hconfig : t.router.oracleConfig = some config) :
    ∃ config', (t.router.step op).oracleConfig = some config' ∧
      margin config.1 ≤ margin config'.1 := by
  have heffect := t.router.effect_step op
  generalize t.router.step op = r' at heffect
  cases heffect with
  | configured h => exact ⟨_, rfl, hop config _ hconfig h⟩
  | priced hfetch =>
      obtain ⟨_, _, ⟨_, _, _, rfl⟩ | ⟨_, _, rfl⟩⟩ :=
        OracleRouter.fetchAndValidatePrice_ok hfetch <;> exact ⟨config, hconfig, le_rfl⟩
  | _ => exact ⟨config, hconfig, le_rfl⟩

theorem outlasting_step (h : t.Sound) (hop : t.WithinMargin op) : (t.step op).Outlasting := by
  intro symbol entry hentry
  -- What an untouched entry stands on, the margin it needs has not shrunk.
  have hkept : t.router.cachedPrice symbol = some entry →
      (t.step op).behind symbol = t.behind symbol → ∃ config,
        (t.step op).router.oracleConfig = some config ∧
          ∀ o ∈ (t.step op).behind symbol, entry.lastUpdate ≤ o.lastUpdate + margin config.1 := by
    intro hcached hbehind
    obtain ⟨config, hconfig, hyoung⟩ := h.outlasting symbol entry hcached
    obtain ⟨config', hconfig', hle⟩ := margin_le_step hop hconfig
    refine ⟨config', hconfig', fun o ho => ?_⟩
    exact (hyoung o (hbehind ▸ ho)).trans (Nat.add_le_add_left hle _)
  by_cases ha : t.router.Answers symbol op
  · obtain ⟨respond, ⟨price, r⟩, rfl, hfetch⟩ := ha
    have hbehind := behind_step_of_fetch hfetch
    have hrouter : (t.step (.getPrice symbol respond)).router = r :=
      OracleRouter.step_of_fetch hfetch
    obtain ⟨config, hconfig, ⟨stored, hhit, _, rfl⟩ | ⟨hmiss, hagg, rfl⟩⟩ :=
      OracleRouter.fetchAndValidatePrice_ok hfetch
    · rw [consulted_of_hit hconfig hhit] at hbehind
      exact hkept (hrouter ▸ hentry) hbehind
    · rw [consulted_of_miss hconfig hmiss] at hbehind
      rw [hrouter] at hentry
      simp only [Function.update_self, Option.some.injEq] at hentry
      subst hentry
      rw [hbehind, hrouter]
      exact ⟨config, hconfig, hop config ⟨hconfig, hmiss, price, hagg⟩⟩
  · have hcached : (t.step op).router.cachedPrice symbol = t.router.cachedPrice symbol :=
      OracleRouter.cachedPrice_step_of_not_answers ha
    exact hkept (hcached ▸ hentry) (behind_step_of_not_answers ha)

omit [DecidableEq A] [DecidableEq Src] in
/-- A price read from an entry that outlasts its observations is fresh. -/
theorem fresh_of_sound (h : t.Sound) (op : OracleOp A Src S) : t.Fresh op := by
  cases op with
  | getPrice symbol respond =>
      intro price observations ha
      obtain ⟨r, hfetch, rfl⟩ := fetch_of_answer ha
      obtain ⟨config, hconfig, ⟨entry, hhit, rfl, _⟩ | ⟨hmiss, hagg, _⟩⟩ :=
        OracleRouter.fetchAndValidatePrice_ok hfetch
      · have hold := h.backed _ _ hhit.cached
        obtain ⟨config', hconfig', hyoung⟩ := h.outlasting _ _ hhit.cached
        cases hconfig.symm.trans hconfig'
        rw [consulted_of_hit hconfig hhit]
        refine ⟨config, hconfig, hold.median, fun o ho => ?_⟩
        have hcache : config.1.cacheDuration ≤ config.1.stalenessThreshold :=
          OracleConfig.validate_ok config.2
        have hage := hyoung o ho
        have hunexpired := hhit.unexpired
        unfold margin at hage
        exact ⟨by omega, (hold.observed o ho).trans hold.stored⟩
      · rw [consulted_of_miss hconfig hmiss]
        refine ⟨config, hconfig, (aggregate_ok hagg).2, ?_⟩
        intro o ho
        have hfresh := querySources_fresh ho
        exact ⟨by omega, hfresh.1⟩
  | _ => rintro price observations ⟨⟩

omit [DecidableEq Src] [DecidableEq S] in
theorem sound_genesis (admin : A) (start : ℕ) : (genesis admin start : OracleTrace A Src S).Sound :=
  ⟨by rintro symbol entry ⟨⟩, by rintro symbol entry ⟨⟩⟩

omit [DecidableEq A] [DecidableEq Src] in
theorem Fills.fetch (h : t.Fills config symbol respond)
    (hagg : aggregate config.1 (t.batch config.1 symbol respond) = .ok price) :
    t.router.fetchAndValidatePrice symbol respond = .ok (price, { t.router with
      cachedPrice := Function.update t.router.cachedPrice symbol
        (some ⟨price, t.router.timestamp⟩) }) := by
  have hsources : t.router.sources symbol ≠ [] := by
    intro hnone
    have hbatch : t.batch config.1 symbol respond = [] := by rw [batch, hnone]; rfl
    exact (aggregate_ok hagg).1 hbatch
  have hlisted : failIf (t.router.sources symbol = []) OracleRouterError.noPriceSources = .ok () :=
    failIf_eq_ok.mpr hsources
  rw [OracleRouter.fetchAndValidatePrice, h.configured]
  change (t.router.cacheHit config.1 symbol >>= _) = _
  rw [h.miss]
  change t.router.fetch config.1 symbol respond = _
  rw [OracleRouter.fetch, hlisted, ok_bind, ← batch, hagg]
  rfl

/-- An entry filled outside the margin is served stale at the end of its life. -/
theorem not_fresh_of_fill {o : Observation} {respond' : Src → SourceResponse}
    (hfills : t.Fills config symbol respond) (ho : o ∈ t.batch config.1 symbol respond)
    (hold : o.lastUpdate + margin config.1 < t.router.timestamp)
    (hbound : t.router.timestamp + config.1.cacheDuration ≤ u64Max) :
    ¬ Along step Fresh t [.getPrice symbol respond, .advance config.1.cacheDuration,
      .getPrice symbol respond'] := by
  rintro ⟨-, -, hfresh, -⟩
  obtain ⟨price, hagg⟩ := hfills.agreed
  have hfetch : t.router.fetchAndValidatePrice symbol respond = .ok (price, { t.router with
      cachedPrice := Function.update t.router.cachedPrice symbol
        (some ⟨price, t.router.timestamp⟩) }) := hfills.fetch hagg
  set late := (t.step (.getPrice symbol respond)).step (.advance config.1.cacheDuration)
  have hrouter : late.router = { t.router with
      timestamp := t.router.timestamp + config.1.cacheDuration
      cachedPrice := Function.update t.router.cachedPrice symbol
        (some ⟨price, t.router.timestamp⟩) } := by
    change (t.router.step (.getPrice symbol respond)).step (.advance config.1.cacheDuration) = _
    rw [OracleRouter.step_of_fetch hfetch]
    rfl
  have hbehind : late.behind symbol = t.batch config.1 symbol respond :=
    (behind_step_of_fetch hfetch).trans (consulted_of_miss hfills.configured hfills.miss)
  have hhit : late.router.Hit config.1 symbol ⟨price, t.router.timestamp⟩ := by
    rw [hrouter]
    exact ⟨Function.update_self .., le_rfl, hbound⟩
  have hconfig : late.router.oracleConfig = some config := by rw [hrouter, hfills.configured]
  have hread : late.router.fetchAndValidatePrice symbol respond' = .ok (price, late.router) :=
    OracleRouter.fetchAndValidatePrice_of_hit hconfig hhit
  obtain ⟨config', hconfig', -, hage⟩ := hfresh _ _ (answer_of_fetch hread)
  cases hconfig.symm.trans hconfig'
  rw [consulted_of_hit hconfig hhit, hbehind, hrouter] at hage
  have hstale := (hage o ho).1
  have hcache : config.1.cacheDuration ≤ config.1.stalenessThreshold :=
    OracleConfig.validate_ok config.2
  unfold margin at hold
  dsimp only at hstale
  omega

/-- Over any run from the start whose steps keep within the margin every returned price is
fresh. A fill outside the margin serves a stale price as soon as its entry is read late. -/
theorem prices_fresh (admin : A) (start : ℕ) (ops : List (OracleOp A Src S)) :
    let first : OracleTrace A Src S := genesis admin start
    let t := run step first ops
    t.router = run OracleRouter.step (.genesis admin start) ops ∧
    (Along step WithinMargin first ops → Along step Fresh first ops) ∧
    ∀ config symbol respond respond' o, t.Fills config symbol respond →
      o ∈ t.batch config.1 symbol respond → o.lastUpdate + margin config.1 < t.router.timestamp →
      t.router.timestamp + config.1.cacheDuration ≤ u64Max →
      ¬ Along step Fresh first (ops ++ [.getPrice symbol respond,
        .advance config.1.cacheDuration, .getPrice symbol respond']) := by
  intro first t
  refine ⟨router_run first ops, ?_, ?_⟩
  · exact along_of_along (fun _ op h hop => ⟨allBacked_step op h.backed, outlasting_step h hop⟩)
      (fun _ op h _ => fresh_of_sound h op) (sound_genesis admin start)
  · intro config symbol respond respond' o hfills ho hold hbound hfresh
    exact not_fresh_of_fill hfills ho hold hbound (along_append.mp hfresh).2

/-- Both sources last reported 20 seconds before the entry was stored. The cache serves their
median for half a minute, and they are accepted for a whole one. -/
def youngEntry : List (OracleOp ℕ ℕ ℕ) :=
  [.setOracleConfig 0 ⟨60, 100, 30, 2⟩, .setOracleSources 0 7 [1, 2],
    .getPrice 7 fun _ => ⟨some 500, some 980⟩, .advance 30, .getPrice 7 fun _ => ⟨none, none⟩]

theorem prices_fresh_youngEntry : Along step Fresh (genesis 0 1000) youngEntry := by
  refine (prices_fresh 0 1000 youngEntry).2.1 ⟨?_, trivial, ?_, trivial, ?_, trivial⟩
  · rintro config r' ⟨⟩
  · intro config hfills o ho
    cases hfills.configured
    revert o
    decide
  · intro config hfills
    cases hfills.configured
    exact absurd hfills.miss (by decide)

/-- Both sources last reported a minute before the entry was stored. The cache
serves their median for another minute. -/
def agedEntry : List (OracleOp ℕ ℕ ℕ) :=
  [.setOracleConfig 0 ⟨60, 100, 60, 2⟩, .setOracleSources 0 7 [1, 2],
    .getPrice 7 fun _ => ⟨some 500, some 940⟩, .advance 60, .getPrice 7 fun _ => ⟨none, none⟩]

theorem agedEntry_not_fresh : ¬ Along step Fresh (genesis 0 1000) agedEntry := by
  intro h
  have hlast := h.2.2.2.2.1
  obtain ⟨config, hconfig, _, hage⟩ := hlast 500 [⟨500, 940⟩, ⟨500, 940⟩] rfl
  cases hconfig
  exact absurd (hage ⟨500, 940⟩ (by decide)).1 (by decide)

end OracleTrace

end Stellars
