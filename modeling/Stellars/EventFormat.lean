import Stellars.EventIngestion
import Mathlib.Data.List.Perm.Basic

/-!
# The events' way through the wire format

A contract's spec says under which topic an event is published, which of its parameters
travel as topics and which as data, and how the data are packed. The indexer knows the names
of the parameters only. Whatever is published under one topic comes out of the parser again
with every parameter under its own name.
-/
namespace Stellars
open GuardedRuns

/-! ## Contract specs -/

inductive ParamLocation
  | topicList
  | data
  deriving DecidableEq

structure EventParam where
  name : String
  location : ParamLocation

inductive DataFormat
  | vec
  | map
  | singleValue

structure EventSpec where
  prefixTopics : List String
  params : List EventParam
  dataFormat : DataFormat

/-- Functions, structures, errors and events stand in one list. -/
inductive SpecEntry
  | eventV0 (ev : EventSpec)
  | other

namespace EventSpec

variable (ev : EventSpec)

def topicNames : List String :=
  (ev.params.filter fun param => param.location = .topicList).map (·.name)

def dataNames : List String :=
  (ev.params.filter fun param => param.location ≠ .topicList).map (·.name)

def fieldSpec : EventFieldSpec := ⟨ev.topicNames, ev.dataNames⟩

end EventSpec

/-- The first event of a topic is kept. -/
def addEventSpec (result : List (String × EventFieldSpec)) :
    SpecEntry → List (String × EventFieldSpec)
  | .other => result
  | .eventV0 ev =>
      match ev.prefixTopics with
      | [] => result
      | topicName :: _ =>
          if (result.lookup topicName).isSome then result
          else result ++ [(topicName, ev.fieldSpec)]

def extractEventSpecs (entries : List SpecEntry) : List (String × EventFieldSpec) :=
  entries.foldl addEventSpec []

/-- A contract that is listed twice has the specs of its last entry. -/
def buildContractSpecMaps (contracts : List (String × List SpecEntry)) (contractId : String) :
    String → Option EventFieldSpec :=
  match contracts.reverse.lookup contractId with
  | some entries => fun name => (extractEventSpecs entries).lookup name
  | none => fun _ => none

/-- The event that an entry of the spec describes, if it is published under `name`. -/
def SpecEntry.eventOf (name : String) : SpecEntry → Option EventSpec
  | .other => none
  | .eventV0 ev => if ev.prefixTopics.head? = some name then some ev else none

theorem lookup_addEventSpec (result : List (String × EventFieldSpec)) (entry : SpecEntry)
    (name : String) : (addEventSpec result entry).lookup name =
      (result.lookup name).or ((entry.eventOf name).map (·.fieldSpec)) := by
  cases entry with
  | other => simp [addEventSpec, SpecEntry.eventOf]
  | eventV0 ev =>
      cases hprefix : ev.prefixTopics with
      | nil => simp [addEventSpec, SpecEntry.eventOf, hprefix]
      | cons topicName rest =>
          simp only [addEventSpec, SpecEntry.eventOf, hprefix, List.head?_cons,
            Option.some.injEq]
          by_cases htopic : topicName = name
          · subst htopic
            cases hresult : result.lookup topicName with
            | some spec => simp [hresult]
            | none => simp [hresult, List.lookup_append]
          · have hne : (name == topicName) = false := by simpa using Ne.symm htopic
            rw [if_neg htopic, Option.map_none, Option.or_none]
            split
            · rfl
            · simp [List.lookup_append, List.lookup_cons, hne]

/-- The spec of a topic is that of the first event that is published under it. -/
theorem lookup_extractEventSpecs (entries : List SpecEntry) (name : String) :
    (extractEventSpecs entries).lookup name =
      (entries.findSome? (SpecEntry.eventOf name)).map (·.fieldSpec) := by
  have hfold : ∀ (rest : List SpecEntry) (result : List (String × EventFieldSpec)),
      (rest.foldl addEventSpec result).lookup name =
        (result.lookup name).or
          ((rest.findSome? (SpecEntry.eventOf name)).map (·.fieldSpec)) := by
    intro rest
    induction rest with
    | nil => simp
    | cons entry rest ih =>
        intro result
        rw [List.foldl_cons, ih, lookup_addEventSpec, Option.or_assoc, List.findSome?_cons]
        cases hentry : entry.eventOf name with
        | none => simp
        | some ev => simp
  simpa [extractEventSpecs] using hfold entries []

theorem buildContractSpecMaps_apply {contracts : List (String × List SpecEntry)}
    {contractId : String} {entries : List SpecEntry}
    (hcontract : contracts.reverse.lookup contractId = some entries) (name : String) :
    buildContractSpecMaps contracts contractId name =
      (entries.findSome? (SpecEntry.eventOf name)).map (·.fieldSpec) := by
  simp only [buildContractSpecMaps, hcontract]
  exact lookup_extractEventSpecs entries name

/-! ## Published events -/

/-- What the parser hands out under its name even when it is all the data there are. -/
def Native.Scalar : Native → Prop
  | .array _ | .object _ | .address _ | .bytes _ => False
  | _ => True

/-- How the values of an event's data parameters are packed. A map's entries may come in any
order. -/
def EventSpec.Packs (ev : EventSpec) (vals : String → Native) (packed : Native) : Prop :=
  match ev.dataFormat with
  | .vec => packed = .array (ev.dataNames.map vals)
  | .map => ∃ fields, fields.Perm (ev.dataNames.map fun name => (name, vals name)) ∧
      packed = .object fields
  | .singleValue => ∃ name, ev.dataNames = [name] ∧ (vals name).Scalar ∧ packed = vals name

theorem lookup_map_pair {α β : Type} [DecidableEq α] (f : α → β) (names : List α) (k : α) :
    (names.map fun name => (name, f name)).lookup k = if k ∈ names then some (f k) else none := by
  split
  · exact List.lookup_graph f ‹_›
  · rw [List.lookup_eq_none_iff]
    aesop

/-- A map decodes the same whichever order its entries come in. -/
theorem lookup_perm_map_pair {α β : Type} [DecidableEq α] {f : α → β} {names : List α}
    {fields : List (α × β)} (hperm : fields.Perm (names.map fun name => (name, f name))) {k : α}
    (hk : k ∈ names) : fields.lookup k = some (f k) := by
  have hmem : (k, f k) ∈ fields := by
    rw [hperm.mem_iff]
    exact List.mem_map_of_mem hk
  cases hlookup : fields.lookup k with
  | none =>
      have hnone := List.lookup_eq_none_iff.mp hlookup _ hmem
      simp at hnone
  | some v =>
      obtain ⟨before, after, rfl, -⟩ := List.lookup_eq_some_iff.mp hlookup
      have hv : (k, v) ∈ names.map fun name => (name, f name) := by
        rw [← hperm.mem_iff]
        simp
      obtain ⟨name, -, hname⟩ := List.mem_map.mp hv
      obtain ⟨rfl, rfl⟩ := Prod.mk.inj hname
      rfl

theorem decodeData_packs {ev : EventSpec} {vals : String → Native} {packed : Native}
    (hpacks : ev.Packs vals packed) : decodeData ev.dataNames packed =
      ev.dataNames.map fun name => (name, (vals name).normalize) := by
  unfold EventSpec.Packs at hpacks
  cases hformat : ev.dataFormat with
  | vec =>
      simp only [hformat] at hpacks
      subst hpacks
      simpa [decodeData, Function.comp_def] using
        List.zip_map' (f := id) (g := fun name => (vals name).normalize) (l := ev.dataNames)
  | map =>
      simp only [hformat] at hpacks
      obtain ⟨fields, hperm, rfl⟩ := hpacks
      rw [decodeData, ← List.filterMap_eq_map']
      refine List.filterMap_congr fun name hname => ?_
      rw [lookup_perm_map_pair hperm hname, Option.map_some]
  | singleValue =>
      simp only [hformat] at hpacks
      obtain ⟨name, hnames, hscalar, rfl⟩ := hpacks
      rw [hnames]
      cases hval : vals name <;> simp_all [decodeData, Native.Scalar]

namespace EventPipeline

variable {Q R W : Type} (ix : EventPipeline Q R W)

/-- The raw event is what the contract publishes when `ev` occurs with these values. -/
structure Carries (ev : EventSpec) (vals : String → Native) (raw : RawEvent) : Prop where
  topics : raw.topic.map ix.fromXDR =
    ev.prefixTopics.map (fun topic => .ok (.string topic)) ++
      ev.topicNames.map fun name => .ok (vals name)
  data : ∃ packed, ev.Packs vals packed ∧ ix.fromXDR raw.value = .ok packed

variable {ix} {ev : EventSpec} {vals : String → Native} {raw : RawEvent} {name : String}

theorem decodeTopics_of_map {names topics : List String}
    (htopics : topics.map ix.fromXDR = names.map fun name => .ok (vals name)) :
    ix.decodeTopics names topics =
      .ok (names.map fun name => (name, (vals name).normalize)) := by
  induction names generalizing topics with
  | nil =>
      obtain rfl : topics = [] := by simpa using htopics
      rfl
  | cons name names ih =>
      cases topics with
      | nil => simp at htopics
      | cons b64 rest =>
          simp only [List.map_cons, List.cons.injEq] at htopics
          obtain ⟨hfirst, hrest⟩ := htopics
          simp only [decodeTopics, decodeScVal, hfirst, ih hrest]
          rfl

/-- What the parser makes of an event that is published under one topic. -/
def parsedFrom (ev : EventSpec) (name : String) (vals : String → Native) (raw : RawEvent) :
    ParsedEvent where
  contractId := raw.contractId
  topic0 := name
  data := (ev.topicNames ++ ev.dataNames).map fun name => (name, (vals name).normalize)
  ledger := raw.ledger
  txHash := raw.txHash
  timestamp := raw.ledgerClosedAt

theorem parseEvent_of_carries (hname : ev.prefixTopics = [name])
    (hspec : ix.specMaps raw.contractId name = some ev.fieldSpec) (hraw : ix.Carries ev vals raw) :
    ix.parseEvent raw = .ok (some (parsedFrom ev name vals raw)) := by
  obtain ⟨htopics, packed, hpacks, hvalue⟩ := hraw
  rw [hname] at htopics
  cases htopic : raw.topic with
  | nil => simp [htopic] at htopics
  | cons first rest =>
      simp only [htopic, List.map_cons, List.map_nil, List.singleton_append,
        List.cons.injEq] at htopics
      obtain ⟨hfirst, hrest⟩ := htopics
      have hparams := decodeTopics_of_map hrest
      have hdata := decodeData_packs hpacks
      simp only [parseEvent, htopic, decodeScVal, hfirst, Except.map, Native.normalize]
      simp [bind, Except.bind, pure, Except.pure, hspec, EventSpec.fieldSpec, hparams, hvalue,
        hdata, parsedFrom]

theorem mem_names : name ∈ ev.topicNames ++ ev.dataNames ↔ name ∈ ev.params.map (·.name) := by
  simp only [EventSpec.topicNames, EventSpec.dataNames, List.mem_append, List.mem_map,
    List.mem_filter, decide_eq_true_eq]
  constructor
  · rintro (⟨param, ⟨hparam, -⟩, hname⟩ | ⟨param, ⟨hparam, -⟩, hname⟩)
    · exact ⟨param, hparam, hname⟩
    · exact ⟨param, hparam, hname⟩
  · rintro ⟨param, hparam, hname⟩
    by_cases hlocation : param.location = .topicList
    · exact .inl ⟨param, ⟨hparam, hlocation⟩, hname⟩
    · exact .inr ⟨param, ⟨hparam, hlocation⟩, hname⟩

theorem field_parsedFrom (topic : String) : (parsedFrom ev topic vals raw).field name =
    if name ∈ ev.params.map (·.name) then some (vals name).normalize else none := by
  simp only [ParsedEvent.field, parsedFrom, ← List.map_reverse]
  rw [lookup_map_pair]
  simp only [List.mem_reverse, mem_names]

theorem parseEvent_of_unnamed {first : String} {rest : List String}
    (htopic : raw.topic = first :: rest) (hfirst : ix.fromXDR first = .ok (.string name))
    (hspec : ix.specMaps raw.contractId name = none) : ix.parseEvent raw = .ok none := by
  simp [parseEvent, htopic, decodeScVal, hfirst, Except.map, Native.normalize, bind, Except.bind,
    pure, Except.pure, hspec]

/-- Whatever a contract publishes under a topic of its own comes out of the parser under the
same name, with every parameter of the event under its name and no others, wherever the
parameters travel and however the data are packed. Topics that the contract's spec does not
name are skipped. -/
theorem parsed_as_published {contracts : List (String × List SpecEntry)}
    {entries : List SpecEntry} (hspecs : ix.specMaps = buildContractSpecMaps contracts)
    (hcontract : contracts.reverse.lookup raw.contractId = some entries) :
    (∀ ev topic, entries.findSome? (SpecEntry.eventOf topic) = some ev →
      ev.prefixTopics = [topic] → ix.Carries ev vals raw →
      ∃ parsed, ix.parseEvent raw = .ok (some parsed) ∧
        parsed.contractId = raw.contractId ∧ parsed.topic0 = topic ∧
        parsed.ledger = raw.ledger ∧ parsed.txHash = raw.txHash ∧
        parsed.timestamp = raw.ledgerClosedAt ∧
        ∀ field, parsed.field field =
          if field ∈ ev.params.map (·.name) then some (vals field).normalize else none) ∧
      ∀ first rest topic, raw.topic = first :: rest → ix.fromXDR first = .ok (.string topic) →
        entries.findSome? (SpecEntry.eventOf topic) = none → ix.parseEvent raw = .ok none := by
  have hspec : ∀ topic, ix.specMaps raw.contractId topic =
      (entries.findSome? (SpecEntry.eventOf topic)).map (·.fieldSpec) := fun topic => by
    rw [hspecs, buildContractSpecMaps_apply hcontract]
  constructor
  · intro ev topic hfirst hname hraw
    have hev : ix.specMaps raw.contractId topic = some ev.fieldSpec := by
      rw [hspec, hfirst, Option.map_some]
    exact ⟨_, parseEvent_of_carries hname hev hraw, rfl, rfl, rfl, rfl, rfl,
      fun field => field_parsedFrom topic⟩
  · intro first rest topic htopic hdecoded hnone
    refine parseEvent_of_unnamed htopic hdecoded ?_
    rw [hspec, hnone, Option.map_none]

/-- The router's event for a fetched price. -/
def priceFetch : EventSpec where
  prefixTopics := ["price"]
  params := [⟨"symbol", .topicList⟩, ⟨"price", .data⟩, ⟨"timestamp", .data⟩]
  dataFormat := .vec

def priceFetchVals : String → Native
  | "symbol" => .string "BTC"
  | "price" => .bigint 100
  | _ => .bigint 7

/-- The router's pipeline with the events of the router's own spec. -/
def specPipeline : EventPipeline Empty Empty OracleInsert :=
  { routerPipeline with
    specMaps := buildContractSpecMaps [("router", [.other, .eventV0 priceFetch])] }

theorem priceEvent_carries :
    specPipeline.Carries priceFetch priceFetchVals (priceEvent ["AAAADwAAAANCVEMA"]) where
  topics := by
    simp [specPipeline, priceEvent, routerPipeline, priceFetch, EventSpec.topicNames,
      priceFetchVals]
  data := ⟨.array [.bigint 100, .bigint 7],
    by simp [EventSpec.Packs, priceFetch, EventSpec.dataNames, priceFetchVals],
    by simp [specPipeline, priceEvent, routerPipeline]⟩

theorem parsed_as_published_priceFetch :
    ∃ parsed, specPipeline.parseEvent (priceEvent ["AAAADwAAAANCVEMA"]) = .ok (some parsed) ∧
      parsed.topic0 = "price" ∧ parsed.field "symbol" = some (.string "BTC") ∧
      parsed.field "price" = some (.bigint 100) := by
  have hspecs : specPipeline.specMaps =
      buildContractSpecMaps [("router", [.other, .eventV0 priceFetch])] := rfl
  obtain ⟨parsed, hparsed, -, htopic0, -, -, -, hfield⟩ :=
    (parsed_as_published hspecs rfl).1 priceFetch "price" rfl rfl priceEvent_carries
  refine ⟨parsed, hparsed, htopic0, ?_, ?_⟩
  · simp [hfield, priceFetch, priceFetchVals, Native.normalize]
  · simp [hfield, priceFetch, priceFetchVals, Native.normalize]

end EventPipeline

end Stellars
