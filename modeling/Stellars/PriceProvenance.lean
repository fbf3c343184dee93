import Stellars.MedianPrice

/-!
# Where a price comes from

Publishers push prices into oracle contracts, each of which keeps the last one per symbol.
The router reads the contracts, and position managers read the router. A trace of the whole
network records every push, so that each price the router returns can be followed back to
the pushes that were the last ones of their sources when the price was taken from them.
-/
namespace Stellars
open GuardedRuns

/-! ## One source -/

inductive OracleError
  | alreadyInitialized
  | notInitialized
  | unauthorized
  | noPriceSet
  deriving Repr, DecidableEq

/-- `M` is the type of the addresses of configuration managers. The contract counts as
initialized once it has been given one. -/
structure OracleContract (M S : Type) where
  configManager : Option M
  price : S → Option ℤ
  lastUpdate : S → Option ℕ

namespace OracleContract

variable {M S : Type} [DecidableEq S]

def deployed : OracleContract M S := ⟨none, fun _ => none, fun _ => none⟩

/-- Anyone may make this call, once, and with any configuration manager. -/
def initializeWith (o : OracleContract M S) (configManager : M) :
    Except OracleError (OracleContract M S) := do
  failIf (o.configManager.isSome = true) .alreadyInitialized
  .ok { o with configManager := some configManager }

/-- `hasRole` is what each configuration manager answers about the caller. -/
def setPrice (o : OracleContract M S) (hasRole : M → Bool) (timestamp : ℕ) (symbol : S)
    (price : ℤ) : Except OracleError (OracleContract M S) := do
  let configMgr ← orFail o.configManager .notInitialized
  failIf (hasRole configMgr = false) .unauthorized
  .ok { o with
    price := Function.update o.price symbol (some price)
    lastUpdate := Function.update o.lastUpdate symbol (some timestamp) }

def getPrice (o : OracleContract M S) (symbol : S) : Except OracleError ℤ :=
  orFail (o.price symbol) .noPriceSet

/-- What the contract answers the router. -/
def respond (o : OracleContract M S) (symbol : S) : SourceResponse :=
  ⟨(o.getPrice symbol).toOption, some ((o.lastUpdate symbol).getD 0)⟩

end OracleContract

/-! ## The network -/

/-- `configManager` is the address of the router's configuration manager. -/
structure OracleNetwork (M A Src S : Type) where
  configManager : M
  router : OracleRouter A Src S
  oracles : Src → OracleContract M S

inductive NetworkOp (M A Src S : Type)
  | advance (seconds : ℕ)
  | config (caller : A) (call : ConfigCall A)
  | setOracleConfig (caller : A) (config : OracleConfig)
  | setOracleSources (caller : A) (symbol : S) (sources : List Src)
  | initializeWith (source : Src) (configManager : M)
  -- `elsewhere` is what any other configuration manager answers about the caller.
  | setPrice (caller : A) (source : Src) (symbol : S) (price : ℤ) (elsewhere : Bool)
  | getPrice (symbol : S)

/-- A price as it was pushed: the configuration manager its source asked, and whether the
router's gave the caller the role of a publisher then. -/
structure Push (M A Src S : Type) where
  caller : A
  configManager : M
  publisher : Bool
  source : Src
  symbol : S
  price : ℤ
  time : ℕ

def Push.observation {M A Src S : Type} (p : Push M A Src S) : Observation := ⟨p.price, p.time⟩

namespace OracleNetwork

variable {M A Src S : Type} [DecidableEq M] [DecidableEq A] [DecidableEq Src] [DecidableEq S]

def hasOracleRole (n : OracleNetwork M A Src S) (caller : A) (elsewhere : Bool) (manager : M) :
    Bool :=
  if manager = n.configManager then n.router.cfg.hasRole .oracle caller else elsewhere

def respond (n : OracleNetwork M A Src S) (symbol : S) (source : Src) : SourceResponse :=
  (n.oracles source).respond symbol

/-- What an operation asks of the router, if anything. -/
def routerOp (n : OracleNetwork M A Src S) : NetworkOp M A Src S → Option (OracleOp A Src S)
  | .advance seconds => some (.advance seconds)
  | .config caller call => some (.config caller call)
  | .setOracleConfig caller config => some (.setOracleConfig caller config)
  | .setOracleSources caller symbol sources => some (.setOracleSources caller symbol sources)
  | .getPrice symbol => some (.getPrice symbol (n.respond symbol))
  | .initializeWith .. | .setPrice .. => none

/-- What an operation makes of one of the oracle contracts, if it succeeds. -/
def oracleCall (n : OracleNetwork M A Src S) :
    NetworkOp M A Src S → Option (Src × OracleContract M S)
  | .initializeWith source configManager =>
      ((n.oracles source).initializeWith configManager).toOption.map (source, ·)
  | .setPrice caller source symbol price elsewhere =>
      ((n.oracles source).setPrice (n.hasOracleRole caller elsewhere) n.router.timestamp symbol
        price).toOption.map (source, ·)
  | _ => none

def step (n : OracleNetwork M A Src S) (op : NetworkOp M A Src S) : OracleNetwork M A Src S where
  configManager := n.configManager
  router := (n.routerOp op).elim n.router n.router.step
  oracles := (n.oracleCall op).elim n.oracles fun call => Function.update n.oracles call.1 call.2

def genesis (configManager : M) (admin : A) (timestamp : ℕ) : OracleNetwork M A Src S :=
  ⟨configManager, .genesis admin timestamp, fun _ => .deployed⟩

end OracleNetwork

/-! ## The trace -/

/-- A network with all successful pushes, newest first. -/
structure PriceTrace (M A Src S : Type) where
  network : OracleNetwork M A Src S
  pushes : List (Push M A Src S)

namespace PriceTrace

variable {M A Src S : Type} [DecidableEq M] [DecidableEq A] [DecidableEq Src] [DecidableEq S]

/-- The push that a successful `set_price` makes. -/
def pushed (t : PriceTrace M A Src S) : NetworkOp M A Src S → Option (Push M A Src S)
  | .setPrice caller source symbol price elsewhere => do
      let o := t.network.oracles source
      let now := t.network.router.timestamp
      let _ ← (o.setPrice (t.network.hasOracleRole caller elsewhere) now symbol price).toOption
      let configMgr ← o.configManager
      some ⟨caller, configMgr, t.network.router.cfg.hasRole .oracle caller, source, symbol, price,
        now⟩
  | _ => none

def step (t : PriceTrace M A Src S) (op : NetworkOp M A Src S) : PriceTrace M A Src S where
  network := t.network.step op
  pushes := (t.pushed op).toList ++ t.pushes

def genesis (configManager : M) (admin : A) (timestamp : ℕ) : PriceTrace M A Src S :=
  ⟨.genesis configManager admin timestamp, []⟩

/-- The last push into `source` for `symbol`. -/
def latest (pushes : List (Push M A Src S)) (source : Src) (symbol : S) :
    Option (Push M A Src S) :=
  pushes.find? fun p => decide (p.source = source ∧ p.symbol = symbol)

/-- The pushes that a query of all sources accepts now. -/
def batch (t : PriceTrace M A Src S) (config : OracleConfig) (symbol : S) :
    List (Push M A Src S) :=
  (t.network.router.sources symbol).filterMap fun source =>
    (latest t.pushes source symbol).filter fun _ =>
      ((t.network.respond symbol source).accept config t.network.router.timestamp).isSome

/-! ## What the trace records -/

/-- The storage of every oracle contract is its last push. -/
def Recorded (t : PriceTrace M A Src S) : Prop := ∀ source symbol,
  (t.network.oracles source).price symbol = (latest t.pushes source symbol).map (·.price) ∧
    (t.network.oracles source).lastUpdate symbol = (latest t.pushes source symbol).map (·.time)

/-- The push was made by now, and its source still has the configuration manager that let it
in. If that is the router's, the caller was a publisher. -/
structure Genuine (t : PriceTrace M A Src S) (p : Push M A Src S) : Prop where
  past : p.time ≤ t.network.router.timestamp
  manager : (t.network.oracles p.source).configManager = some p.configManager
  publisher : p.configManager = t.network.configManager → p.publisher = true

/-- All pushes are genuine, and no source is listed twice. -/
structure Sound (t : PriceTrace M A Src S) : Prop where
  recorded : t.Recorded
  genuine : ∀ p ∈ t.pushes, t.Genuine p
  sources : ∀ symbol, (t.network.router.sources symbol).Nodup

/-- The batch consists of the last push into each listed source, as far as it is positive and
fresh under `config`. -/
structure Authentic (t : PriceTrace M A Src S) (config : OracleConfig) (symbol : S) : Prop where
  members : ∀ p, p ∈ t.batch config symbol ↔ p.source ∈ t.network.router.sources symbol ∧
    latest t.pushes p.source symbol = some p ∧ 0 < p.price ∧
      t.network.router.timestamp ≤ p.time + config.stalenessThreshold
  genuine : ∀ p ∈ t.batch config symbol, p.symbol = symbol ∧ t.Genuine p
  sources : ((t.batch config symbol).map (·.source)).Nodup

variable {t : PriceTrace M A Src S} {op : NetworkOp M A Src S} {symbol : S} {source : Src}
  {price : ℤ} {config : OracleConfig} {p : Push M A Src S} {pushes : List (Push M A Src S)}

theorem network_run (t : PriceTrace M A Src S) (ops : List (NetworkOp M A Src S)) :
    (run step t ops).network = run OracleNetwork.step t.network ops :=
  run_map (fun _ _ => rfl) t ops

theorem router_step (t : PriceTrace M A Src S) (op : NetworkOp M A Src S) :
    (t.step op).network.router =
      (t.network.routerOp op).elim t.network.router t.network.router.step := rfl

theorem oracles_step (t : PriceTrace M A Src S) (op : NetworkOp M A Src S) :
    (t.step op).network.oracles = (t.network.oracleCall op).elim t.network.oracles
      fun call => Function.update t.network.oracles call.1 call.2 := rfl

theorem toOption_eq_some {ε α : Type} {x : Except ε α} {a : α} : x.toOption = some a ↔ x = .ok a := by
  cases x <;> simp [Except.toOption]

omit [DecidableEq M] [DecidableEq A] in
theorem latest_cons (p : Push M A Src S) (pushes : List (Push M A Src S)) (source : Src)
    (symbol : S) : latest (p :: pushes) source symbol =
      if p.source = source ∧ p.symbol = symbol then some p else latest pushes source symbol := by
  by_cases h : p.source = source ∧ p.symbol = symbol <;> simp [latest, h]

omit [DecidableEq M] [DecidableEq A] in
theorem latest_eq_some (h : latest pushes source symbol = some p) :
    p ∈ pushes ∧ p.source = source ∧ p.symbol = symbol := by
  unfold latest at h
  have hkey := List.find?_some h
  exact ⟨List.mem_of_find?_eq_some h, of_decide_eq_true hkey⟩

omit [DecidableEq M] [DecidableEq A] in
/-- What a source answers is its last push. -/
theorem respond_eq (h : t.Recorded) :
    t.network.respond symbol source =
      ⟨(latest t.pushes source symbol).map (·.price),
        some (((latest t.pushes source symbol).map (·.time)).getD 0)⟩ := by
  obtain ⟨hprice, htime⟩ := h source symbol
  simp only [OracleNetwork.respond, OracleContract.respond, OracleContract.getPrice, hprice, htime]
  cases latest t.pushes source symbol <;> rfl

omit [DecidableEq M] [DecidableEq A] in
/-- The answers the router accepts are the pushes of the batch. -/
theorem observations_batch (h : t.Recorded) (config : OracleConfig) (symbol : S) :
    querySources (t.network.router.sources symbol) (t.network.respond symbol) config
        t.network.router.timestamp = (t.batch config symbol).map (·.observation) := by
  simp only [querySources, batch, List.map_filterMap]
  refine congrArg (List.filterMap · _) (funext fun source => ?_)
  rw [respond_eq h]
  cases latest t.pushes source symbol with
  | none => rfl
  | some p =>
      simp only [Option.map_some, Option.getD_some, Option.filter_some]
      cases haccept : SourceResponse.accept ⟨some p.price, some p.time⟩ config
          t.network.router.timestamp with
      | none => simp
      | some o =>
          obtain ⟨hprice, htime, -⟩ := accept_eq_some_iff.mp haccept
          simp only [Option.some.injEq] at hprice htime
          simp [Push.observation, hprice, htime]

omit [DecidableEq M] [DecidableEq A] in
theorem mem_batch (h : t.Sound) : p ∈ t.batch config symbol ↔
    p.source ∈ t.network.router.sources symbol ∧ latest t.pushes p.source symbol = some p ∧
      0 < p.price ∧ t.network.router.timestamp ≤ p.time + config.stalenessThreshold := by
  have haccepted : latest t.pushes p.source symbol = some p →
      (((t.network.respond symbol p.source).accept config t.network.router.timestamp).isSome ↔
        0 < p.price ∧ t.network.router.timestamp ≤ p.time + config.stalenessThreshold) := by
    intro hlatest
    have hpast := (h.genuine p (latest_eq_some hlatest).1).past
    rw [respond_eq h.recorded, hlatest, Option.isSome_iff_exists]
    constructor
    · rintro ⟨o, ho⟩
      obtain ⟨hprice, htime, -, hfresh, hpos⟩ := accept_eq_some_iff.mp ho
      simp only [Option.map_some, Option.getD_some, Option.some.injEq] at hprice htime
      omega
    · rintro ⟨hpos, hfresh⟩
      exact ⟨p.observation, accept_eq_some_iff.mpr ⟨rfl, rfl, hpast, by
        change t.network.router.timestamp - p.time ≤ _
        omega, hpos⟩⟩
  constructor
  · intro hp
    obtain ⟨source, hsource, hfilter⟩ := List.mem_filterMap.mp hp
    obtain ⟨hlatest, haccept⟩ := Option.filter_eq_some_iff.mp hfilter
    obtain ⟨-, rfl, -⟩ := latest_eq_some hlatest
    exact ⟨hsource, hlatest, (haccepted hlatest).mp haccept⟩
  · rintro ⟨hsource, hlatest, haccept⟩
    exact List.mem_filterMap.mpr ⟨p.source, hsource,
      Option.filter_eq_some_iff.mpr ⟨hlatest, (haccepted hlatest).mpr haccept⟩⟩

omit [DecidableEq M] [DecidableEq A] in
theorem authentic_of_sound (h : t.Sound) (config : OracleConfig) (symbol : S) :
    t.Authentic config symbol where
  members := fun _ => mem_batch h
  genuine := by
    intro p hp
    obtain ⟨hmem, -, hsymbol⟩ := latest_eq_some ((mem_batch h).mp hp).2.1
    exact ⟨hsymbol, h.genuine p hmem⟩
  sources := by
    refine List.pairwise_map.mpr (List.Pairwise.filterMap _ ?_ (h.sources symbol))
    intro source source' hne p hp p' hp'
    have hsource := (latest_eq_some (Option.filter_eq_some_iff.mp hp).1).2.1
    have hsource' := (latest_eq_some (Option.filter_eq_some_iff.mp hp').1).2.1
    rwa [hsource, hsource']

/-! ## One step -/

omit [DecidableEq M] [DecidableEq A] in
theorem nodup_dedupSources (sources : List Src) : (dedupSources sources).Nodup := by
  have hgrow : ∀ (rest kept : List Src), kept.Nodup →
      (rest.foldl (fun result addr => if addr ∈ result then result else result ++ [addr])
        kept).Nodup := by
    intro rest
    induction rest with
    | nil => exact fun _ h => h
    | cons addr rest ih =>
        intro kept hkept
        refine ih _ ?_
        simp only
        split_ifs with hmem
        · exact hkept
        · exact List.nodup_append.mpr ⟨hkept, List.nodup_singleton addr, by
            rintro a ha b hb rfl
            exact hmem (List.mem_singleton.mp hb ▸ ha)⟩
  exact hgrow sources [] List.nodup_nil

/-- Only the administrator's call changes the sources, and it lists none twice. -/
theorem sources_step {r : OracleRouter A Src S} (op : OracleOp A Src S)
    (h : ∀ symbol, (r.sources symbol).Nodup) (symbol : S) :
    ((r.step op).sources symbol).Nodup := by
  have heffect := r.effect_step op
  generalize r.step op = r' at heffect
  cases heffect with
  | listed caller other sources =>
      by_cases hother : symbol = other
      · subst hother
        simp only [Function.update_self]
        exact nodup_dedupSources sources
      · simp only [Function.update_of_ne hother]
        exact h symbol
  | priced hfetch =>
      obtain ⟨_, _, ⟨_, _, _, rfl⟩ | ⟨_, _, rfl⟩⟩ :=
        OracleRouter.fetchAndValidatePrice_ok hfetch <;> exact h symbol
  | _ => exact h symbol

theorem timestamp_le_step (t : PriceTrace M A Src S) (op : NetworkOp M A Src S) :
    t.network.router.timestamp ≤ (t.step op).network.router.timestamp := by
  rw [router_step]
  cases t.network.routerOp op with
  | none => exact le_rfl
  | some op => exact OracleRouter.timestamp_le_step op

/-- A configuration manager, once given, stays. -/
theorem configManager_step {manager : M}
    (h : (t.network.oracles source).configManager = some manager) :
    ((t.step op).network.oracles source).configManager = some manager := by
  rw [oracles_step]
  cases hcall : t.network.oracleCall op with
  | none => exact h
  | some call =>
      by_cases hsource : source = call.1
      · subst hsource
        simp only [Option.elim_some, Function.update_self]
        cases op with
        | initializeWith source manager' =>
            obtain ⟨o', ho', rfl⟩ := Option.map_eq_some_iff.mp hcall
            have hok := toOption_eq_some.mp ho'
            simp only [OracleContract.initializeWith, failIf_bind_eq_ok] at hok
            simp [h] at hok
        | setPrice caller source symbol price elsewhere =>
            obtain ⟨o', ho', rfl⟩ := Option.map_eq_some_iff.mp hcall
            have hok := toOption_eq_some.mp ho'
            simp only [OracleContract.setPrice, bind_eq_ok, Except.ok.injEq] at hok
            obtain ⟨_, _, _, _, rfl⟩ := hok
            exact h
        | _ => cases hcall
      · rwa [Option.elim_some, Function.update_of_ne hsource]

/-- A new push is genuine, made now, and stored in its source. -/
structure Pushes (t : PriceTrace M A Src S) (op : NetworkOp M A Src S) (p : Push M A Src S) :
    Prop where
  genuine : t.Genuine p
  now : p.time = t.network.router.timestamp
  stored : ∃ o', (t.step op).network.oracles = Function.update t.network.oracles p.source o' ∧
    o'.price = Function.update (t.network.oracles p.source).price p.symbol (some p.price) ∧
    o'.lastUpdate = Function.update (t.network.oracles p.source).lastUpdate p.symbol (some p.time)

theorem pushes_of_pushed (h : t.pushed op = some p) : t.Pushes op p := by
  cases op with
  | setPrice caller source symbol price elsewhere =>
      simp only [pushed, Option.bind_eq_bind, Option.bind_eq_some_iff, Option.some.injEq] at h
      obtain ⟨o', ho', manager, hmanager, rfl⟩ := h
      have hok := toOption_eq_some.mp ho'
      have hpush := hok
      simp only [OracleContract.setPrice, bind_eq_ok, orFail_eq_ok, failIf_eq_ok,
        Except.ok.injEq, Bool.not_eq_false] at hpush
      obtain ⟨manager', hmanager', _, hrole, hstored⟩ := hpush
      cases hmanager.symm.trans hmanager'
      refine ⟨⟨le_rfl, hmanager, fun hown => ?_⟩, rfl, o', ?_, by rw [← hstored], by rw [← hstored]⟩
      · simpa [OracleNetwork.hasOracleRole, show manager = t.network.configManager from hown]
          using hrole
      · simp only [step, OracleNetwork.step, OracleNetwork.oracleCall, hok]
        rfl
  | _ => cases h

omit [DecidableEq A] [DecidableEq Src] in
theorem oracleCall_of_not_pushed {call : Src × OracleContract M S} (h : t.pushed op = none)
    (hcall : t.network.oracleCall op = some call) :
    call.2.price = (t.network.oracles call.1).price ∧
      call.2.lastUpdate = (t.network.oracles call.1).lastUpdate := by
  cases op with
  | initializeWith source manager =>
      obtain ⟨o', ho', rfl⟩ := Option.map_eq_some_iff.mp hcall
      have hok := toOption_eq_some.mp ho'
      simp only [OracleContract.initializeWith, failIf_bind_eq_ok, Except.ok.injEq] at hok
      obtain ⟨-, rfl⟩ := hok
      exact ⟨rfl, rfl⟩
  | setPrice caller source symbol price elsewhere =>
      -- The call that would push is the call that failed.
      obtain ⟨o', ho', -⟩ := Option.map_eq_some_iff.mp hcall
      have hpush := toOption_eq_some.mp ho'
      simp only [OracleContract.setPrice, bind_eq_ok, orFail_eq_ok] at hpush
      obtain ⟨manager, hmanager, -⟩ := hpush
      simp [pushed, ho', hmanager] at h
  | _ => cases hcall

/-- Without a push every source keeps its prices. -/
theorem oracles_of_not_pushed (h : t.pushed op = none) (source : Src) :
    ((t.step op).network.oracles source).price = (t.network.oracles source).price ∧
      ((t.step op).network.oracles source).lastUpdate =
        (t.network.oracles source).lastUpdate := by
  rw [oracles_step]
  cases hcall : t.network.oracleCall op with
  | none => exact ⟨rfl, rfl⟩
  | some call =>
      obtain ⟨hprice, htime⟩ := oracleCall_of_not_pushed h hcall
      by_cases hsource : source = call.1
      · subst hsource
        simp only [Option.elim_some, Function.update_self]
        exact ⟨hprice, htime⟩
      · simp only [Option.elim_some, Function.update_of_ne hsource, and_self]

theorem recorded_step (h : t.Recorded) : (t.step op).Recorded := by
  intro source symbol
  cases hpushed : t.pushed op with
  | none =>
      obtain ⟨hprice, htime⟩ := oracles_of_not_pushed hpushed source
      have hpushes : (t.step op).pushes = t.pushes := by simp [step, hpushed]
      rw [hprice, htime, hpushes]
      exact h source symbol
  | some p =>
      obtain ⟨o', horacles, hprice, htime⟩ := (pushes_of_pushed hpushed).stored
      have hpushes : (t.step op).pushes = p :: t.pushes := by simp [step, hpushed]
      rw [horacles, hpushes, latest_cons]
      by_cases hsource : p.source = source
      · subst hsource
        by_cases hsymbol : p.symbol = symbol
        · subst hsymbol
          simp [hprice, htime]
        · simpa [hprice, htime, hsymbol, Function.update_of_ne (Ne.symm hsymbol)] using
            h p.source symbol
      · simpa [hsource, Function.update_of_ne (Ne.symm hsource)] using h source symbol

theorem Genuine.step (h : t.Genuine p) : (t.step op).Genuine p :=
  ⟨h.past.trans (timestamp_le_step t op), configManager_step h.manager, h.publisher⟩

theorem sound_step (h : t.Sound) : (t.step op).Sound := by
  refine ⟨recorded_step h.recorded, ?_, ?_⟩
  · intro p hp
    obtain hnew | hold := List.mem_append.mp hp
    · exact (pushes_of_pushed (Option.mem_toList.mp hnew)).genuine.step
    · exact (h.genuine p hold).step
  · intro symbol
    rw [router_step]
    cases t.network.routerOp op with
    | none => exact h.sources symbol
    | some op => exact sources_step op h.sources symbol

omit [DecidableEq M] in
theorem sound_genesis (manager : M) (admin : A) (start : ℕ) :
    (genesis manager admin start : PriceTrace M A Src S).Sound where
  recorded := fun _ _ => ⟨rfl, rfl⟩
  genuine := by rintro p ⟨⟩
  sources := fun _ => .nil

theorem sound_run (manager : M) (admin : A) (start : ℕ) (ops : List (NetworkOp M A Src S)) :
    (run step (genesis manager admin start) ops).Sound :=
  run_invariant' ops (fun _ _ => sound_step) (sound_genesis manager admin start)

/-! ## Following a price back -/

/-- The call misses the cache and stores `price`. -/
structure Stores (t : PriceTrace M A Src S) (symbol : S) (op : NetworkOp M A Src S)
    (config : CheckedOracleConfig) (price : ℤ) : Prop where
  asks : op = .getPrice symbol
  configured : t.network.router.oracleConfig = some config
  fetch : t.network.router.fetchAndValidatePrice symbol (t.network.respond symbol) =
    .ok (price, { t.network.router with
      cachedPrice := Function.update t.network.router.cachedPrice symbol
        (some ⟨price, t.network.router.timestamp⟩) })
  agreed : aggregate config.1 ((t.batch config.1 symbol).map (·.observation)) = .ok price

omit [DecidableEq M] [DecidableEq A] in
/-- A returned price was read from the cache or has just been stored. -/
theorem read_or_stores {r' : OracleRouter A Src S} (h : t.Sound)
    (hfetch : t.network.router.fetchAndValidatePrice symbol (t.network.respond symbol) =
      .ok (price, r')) : ∃ config, t.network.router.oracleConfig = some config ∧
        ((∃ entry, t.network.router.Hit config.1 symbol entry ∧ entry.price = price ∧
          r' = t.network.router) ∨
          t.Stores symbol (.getPrice symbol) config price ∧ r' = { t.network.router with
            cachedPrice := Function.update t.network.router.cachedPrice symbol
              (some ⟨price, t.network.router.timestamp⟩) }) := by
  obtain ⟨config, hconfig, hhit | ⟨_, hagg, hr⟩⟩ := OracleRouter.fetchAndValidatePrice_ok hfetch
  · exact ⟨config, hconfig, .inl hhit⟩
  · rw [observations_batch h.recorded] at hagg
    exact ⟨config, hconfig, .inr ⟨⟨rfl, hconfig, hr ▸ hfetch, hagg⟩, hr⟩⟩

theorem cachedPrice_step_of_stores {config : CheckedOracleConfig}
    (h : t.Stores symbol op config price) :
    (t.step op).network.router.cachedPrice symbol = some ⟨price, t.network.router.timestamp⟩ := by
  cases h.asks
  have hrouter : (t.step (.getPrice symbol)).network.router = _ := OracleRouter.step_of_fetch h.fetch
  rw [hrouter]
  exact Function.update_self ..

/-- No other call touches the cached price. -/
theorem cachedPrice_step_of_not_stores (h : t.Sound)
    (hstores : ¬ ∃ config price, t.Stores symbol op config price) :
    (t.step op).network.router.cachedPrice symbol = t.network.router.cachedPrice symbol := by
  rw [router_step]
  cases hop : t.network.routerOp op with
  | none => rfl
  | some call =>
      by_cases ha : t.network.router.Answers symbol call
      · obtain ⟨respond, ⟨price, r'⟩, rfl, hfetch⟩ := ha
        have hcall := OracleRouter.step_of_fetch hfetch
        obtain rfl : op = .getPrice symbol := by
          cases op <;> cases hop
          rfl
        obtain rfl : respond = t.network.respond symbol := by
          cases hop
          rfl
        obtain ⟨config, _, ⟨entry, _, _, rfl⟩ | ⟨hnew, _⟩⟩ := read_or_stores h hfetch
        · rw [Option.elim_some, hcall]
        · exact absurd ⟨config, price, hnew⟩ hstores
      · exact OracleRouter.cachedPrice_step_of_not_answers ha

/-- An entry of the cache was stored by some call of the run. -/
theorem exists_stores (manager : M) (admin : A) (start : ℕ) (ops : List (NetworkOp M A Src S))
    {entry : CachedPrice}
    (hentry : (run step (genesis manager admin start) ops).network.router.cachedPrice symbol =
      some entry) :
    ∃ earlier later op config, ops = earlier ++ later ∧
      (run step (genesis manager admin start) earlier).Stores symbol op config entry.price ∧
      (run step (genesis manager admin start) earlier).network.router.timestamp =
        entry.lastUpdate := by
  have hframe : ∀ (t : PriceTrace M A Src S) op,
      ¬ (t.Sound → ∃ config price, t.Stores symbol op config price) →
      (t.step op).network.router.cachedPrice symbol = t.network.router.cachedPrice symbol := by
    intro t op hkept
    obtain ⟨hsound, hstores⟩ := Classical.not_imp.mp hkept
    exact cachedPrice_step_of_not_stores hsound hstores
  obtain hnever | ⟨earlier, op, later, rfl, hlast, hafter⟩ := along_not_or_last
    (fun t op => t.Sound → ∃ config price, PriceTrace.Stores t symbol op config price)
    (genesis manager admin start) ops
  · rw [run_frame (φ := fun t => t.network.router.cachedPrice symbol) hframe hnever] at hentry
    cases hentry
  · obtain ⟨config, price, hstores⟩ := hlast (sound_run manager admin start earlier)
    have hkept := run_frame (φ := fun t => t.network.router.cachedPrice symbol) hframe hafter
    rw [← run_append, List.append_assoc, List.singleton_append, hentry, run_append, run_cons,
      run_nil, cachedPrice_step_of_stores hstores, Option.some.injEq] at hkept
    subst hkept
    exact ⟨earlier, op :: later, op, config, rfl, hstores, rfl⟩

theorem timestamp_le_run (t : PriceTrace M A Src S) (ops : List (NetworkOp M A Src S)) :
    t.network.router.timestamp ≤ (run step t ops).network.router.timestamp := by
  let Later : PriceTrace M A Src S → Prop := fun t' =>
    t.network.router.timestamp ≤ t'.network.router.timestamp
  have hlater : Later (run step t ops) :=
    run_invariant' ops (fun t' op h => le_trans h (timestamp_le_step t' op)) le_rfl
  exact hlater

omit [DecidableEq M] [DecidableEq A] [DecidableEq Src] [DecidableEq S] in
/-- Fewer than half of the pushes cannot move their median past the others. -/
theorem between_honest {pushes : List (Push M A Src S)}
    (h : LowerMedian ((pushes.map (·.observation)).map (·.price)) price) (honest : Src → Bool)
    (hfew : (pushes.filter fun p => !honest p.source).length ≤ (pushes.length - 1) / 2) :
    (∃ p ∈ pushes, honest p.source = true ∧ p.price ≤ price) ∧
      ∃ p ∈ pushes, honest p.source = true ∧ price ≤ p.price := by
  have hne : pushes ≠ [] := by
    obtain ⟨p, hp, -⟩ := List.mem_map.mp (lowerMedian_iff_ranked.mp h).mem
    rintro hnil
    simp [hnil] at hp
  have hpos : 0 < pushes.length := List.length_pos_of_ne_nil hne
  have hsplit : (pushes.filter (fun p => honest p.source) ++
      pushes.filter fun p => !honest p.source).Perm pushes := List.filter_append_perm _ _
  have hranked := lowerMedian_iff_ranked.mp h
  rw [List.length_map, List.length_map, List.map_map] at hranked
  have hprices := hranked.perm (hsplit.symm.map _)
  rw [List.map_append] at hprices
  have hlength := hsplit.length_eq
  have hbetween := hprices.between (by simpa using hfew) (by
    rw [List.length_map, ← List.map_append, List.length_map, hlength]
    omega)
  simpa [Push.observation, and_assoc] using hbetween

/-- What `price` rests on: the batch of this moment, taken under the configuration in force. -/
structure RestsOn (t : PriceTrace M A Src S) (symbol : S) (config : CheckedOracleConfig)
    (price : ℤ) : Prop where
  configured : t.network.router.oracleConfig = some config
  authentic : t.Authentic config.1 symbol
  representative : Representative config.1 ((t.batch config.1 symbol).map (·.observation)) price
  bounded : ∀ honest : Src → Bool,
    ((t.batch config.1 symbol).filter fun p => !honest p.source).length ≤
        ((t.batch config.1 symbol).length - 1) / 2 →
      (∃ p ∈ t.batch config.1 symbol, honest p.source = true ∧ p.price ≤ price) ∧
        ∃ p ∈ t.batch config.1 symbol, honest p.source = true ∧ price ≤ p.price

omit [DecidableEq M] [DecidableEq A] in
theorem restsOn_of_stores {config : CheckedOracleConfig} (h : t.Sound)
    (hstores : t.Stores symbol op config price) : t.RestsOn symbol config price := by
  have hpos : ∀ o ∈ (t.batch config.1 symbol).map (·.observation), 0 < o.price := by
    intro o ho
    obtain ⟨p, hp, rfl⟩ := List.mem_map.mp ho
    exact ((mem_batch h).mp hp).2.2.1
  have hrepresentative := aggregate_representative hpos hstores.agreed
  exact ⟨hstores.configured, authentic_of_sound h config.1 symbol, hrepresentative,
    between_honest hrepresentative.median⟩

/-- On any run of the network, a price the router returns rests on the pushes that were the
last ones into its sources at one moment of the run, no longer ago than the cache lasts. -/
theorem prices_authentic (manager : M) (admin : A) (start : ℕ) (ops : List (NetworkOp M A Src S))
    (symbol : S) (price : ℤ) (r' : OracleRouter A Src S)
    (hfetch : (run OracleNetwork.step (.genesis manager admin start)
        ops).router.fetchAndValidatePrice symbol
      ((run OracleNetwork.step (.genesis manager admin start) ops).respond symbol) =
        .ok (price, r')) :
    ∃ earlier later config current, ops = earlier ++ later ∧
      (run step (genesis manager admin start) earlier).network =
        run OracleNetwork.step (.genesis manager admin start) earlier ∧
      (run step (genesis manager admin start) earlier).RestsOn symbol config price ∧
      r'.cachedPrice symbol = some ⟨price,
        (run step (genesis manager admin start) earlier).network.router.timestamp⟩ ∧
      r'.oracleConfig = some current ∧
      (run step (genesis manager admin start) earlier).network.router.timestamp ≤ r'.timestamp ∧
      r'.timestamp ≤ (run step (genesis manager admin start) earlier).network.router.timestamp +
        current.1.cacheDuration := by
  have hnetwork : ∀ ops, (run step (genesis manager admin start) ops).network =
      run OracleNetwork.step (.genesis manager admin start : OracleNetwork M A Src S) ops :=
    network_run (genesis manager admin start)
  have hsound : ∀ ops, (run step (genesis manager admin start : PriceTrace M A Src S) ops).Sound :=
    sound_run manager admin start
  rw [← hnetwork] at hfetch
  obtain ⟨current, hcurrent, ⟨entry, hhit, rfl, rfl⟩ | ⟨hstores, rfl⟩⟩ :=
    read_or_stores (hsound ops) hfetch
  · -- The entry was stored before, where the rest of the run begins.
    obtain ⟨earlier, later, op, config, rfl, hstores, htime⟩ :=
      exists_stores manager admin start ops hhit.cached
    refine ⟨earlier, later, config, current, rfl, hnetwork earlier,
      restsOn_of_stores (hsound earlier) hstores, ?_, hcurrent, ?_, ?_⟩
    · rw [htime, hhit.cached]
    · rw [run_append]
      exact timestamp_le_run _ later
    · rw [htime]
      exact hhit.unexpired
  · exact ⟨ops, [], current, current, (List.append_nil ops).symm, hnetwork ops,
      restsOn_of_stores (hsound ops) hstores, Function.update_self .., hcurrent, le_rfl,
      Nat.le_add_right _ _⟩

/-- Two publishers, and a third source that a stranger gave a configuration manager of his own.
The price is asked for again after the first publisher has moved on. -/
def strangersSource : List (NetworkOp ℕ ℕ ℕ ℕ) :=
  [.setOracleConfig 0 ⟨60, 500, 30, 2⟩, .setOracleSources 0 5 [11, 12, 13],
    .initializeWith 11 100, .initializeWith 12 100, .initializeWith 13 666,
    .config 0 (.grantRole .oracle 1), .config 0 (.grantRole .oracle 2),
    .setPrice 1 11 5 10000 false, .setPrice 2 12 5 10020 false, .setPrice 4 13 5 9700 true,
    .setPrice 4 11 5 1 true, .getPrice 5, .advance 20, .setPrice 1 11 5 20000 false]

theorem prices_authentic_strangersSource :
    let start : PriceTrace ℕ ℕ ℕ ℕ := genesis 100 0 1000
    let router := (run OracleNetwork.step (.genesis 100 0 1000) strangersSource).router
    ∃ earlier later config current, strangersSource = earlier ++ later ∧
      (run step start earlier).network =
        run OracleNetwork.step (.genesis 100 0 1000) earlier ∧
      (run step start earlier).RestsOn 5 config 10000 ∧
      router.cachedPrice 5 = some ⟨10000, (run step start earlier).network.router.timestamp⟩ ∧
      router.oracleConfig = some current ∧
      (run step start earlier).network.router.timestamp ≤ router.timestamp ∧
      router.timestamp ≤ (run step start earlier).network.router.timestamp +
        current.1.cacheDuration :=
  prices_authentic 100 0 1000 strangersSource 5 10000 _ (by rfl)

end PriceTrace

end Stellars
