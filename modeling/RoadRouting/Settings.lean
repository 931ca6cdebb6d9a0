import RoadRouting.Decimal.Render
import RoadRouting.Json.Read
import RoadRouting.Json.Record
import RoadRouting.Speed.Profile
import RoadRouting.Text.Quoted

/-!
# Settings

What can be tuned about routing. Every setting has a standard value, so a settings document names only
those that it changes. `Settings.fault?` tells the first setting that makes no sense.
-/

namespace RoadRouting
set_option autoImplicit false

/-- The settings of a router. -/
structure Settings where
  /-- The directory of the dataset. -/
  dataset : String
  /-- How many nodes of a partition the snap index holds at most. -/
  sampleCap : Nat
  /-- The seed of the samples. -/
  seed : UInt64
  /-- How many entries of the snap index are compared by distance. -/
  candidates : Nat
  /-- How many metres a snap may move an end of a route. -/
  snapRadius : Float
  /-- How many snaps are remembered at most. -/
  memoCapacity : Nat
  /-- The decimals to which a snapped coordinate is rounded. -/
  decimals : Nat
  /-- The width of a corridor in kilometres. -/
  corridorWidth : Float
  /-- The distance between samples along a corridor in kilometres. -/
  sampleSpacing : Float
  /-- The coverage of a corridor below which a warning is given. -/
  coverageWarning : Float
  /-- The straight distance in metres above which the guided search is tried. -/
  guidedAbove : Float
  /-- The highest speed that a guided search expects, in kilometres per hour. -/
  topSpeed : Float
  /-- How many nodes a search may expand; absent when there is no limit. -/
  stepLimit : Option Nat
  /-- Speeds that replace those of the table. -/
  replacements : Speed.Replacements

namespace Settings

/-- The standard settings. -/
def standard : Settings where
  dataset := "data/graphs/optimized"
  sampleCap := 1000
  seed := 42
  candidates := 10
  snapRadius := 1000.0
  memoCapacity := 10000
  decimals := 6
  corridorWidth := 8.0
  sampleSpacing := 5.0
  coverageWarning := 0.4
  guidedAbove := 50000.0
  topSpeed := 120.0
  stepLimit := some 1000000
  replacements := ∅

/-- Why settings make no sense. -/
inductive Fault where
  | notPositive (setting : String) (value : Float)
  | coverage (value : Float)
  | sampleCap
  | candidates
  | decimals (value : Nat)
  | replacement (className : String) (kmh : Float)

/-- The wording of a fault. -/
def Fault.message : Fault → String
  | .notPositive setting value => setting ++ " must be positive, got " ++ Decimal.plain value
  | .coverage value => "coverage_warn_ratio must be within [0, 1], got " ++ Decimal.plain value
  | .sampleCap => "index_sample_cap must be at least 1"
  | .candidates => "nearest_candidates must be at least 1"
  | .decimals value => "snap_round_decimals must be at most 9, got " ++ toString value
  | .replacement className kmh =>
    "speed override for " ++ Text.quoted className ++ " must be at least " ++
      Decimal.plain Speed.slowest ++ " km/h, got " ++ Decimal.plain kmh

/-- Whether a measure is a finite number above zero. -/
def isPositive (value : Float) : Bool := value.isFinite && 0.0 < value

/-- The measures that have to be positive, with their names. -/
def measures (s : Settings) : List (String × Float) :=
  [("snap_max_distance_m", s.snapRadius), ("corridor_width_km", s.corridorWidth),
    ("corridor_sample_km", s.sampleSpacing), ("heuristic_threshold_m", s.guidedAbove),
    ("heuristic_speed_kmh", s.topSpeed)]

/-- The first fault of the settings. -/
def fault? (s : Settings) : Option Fault :=
  match s.measures.find? fun m => !isPositive m.2 with
  | some (setting, value) => some (.notPositive setting value)
  | none =>
    if !(0.0 ≤ s.coverageWarning && s.coverageWarning ≤ 1.0) then some (.coverage s.coverageWarning)
    else if s.sampleCap = 0 then some .sampleCap
    else if s.candidates = 0 then some .candidates
    else if 9 < s.decimals then some (.decimals s.decimals)
    else (s.replacements.toList.find? fun r => !Speed.isPlausible r.2).map
      fun (className, kmh) => .replacement className kmh

/-- The names of the settings in a document, in their order. -/
def fieldNames : List (List String) :=
  [["data_dir"], ["index_sample_cap"], ["sample_seed"], ["nearest_candidates"],
    ["snap_max_distance_m"], ["snap_cache_capacity"], ["snap_round_decimals"],
    ["corridor_width_km"], ["corridor_sample_km"], ["coverage_warn_ratio"],
    ["heuristic_threshold_m"], ["heuristic_speed_kmh"], ["step_limit"], ["speed_overrides"]]

/-- The settings that a document describes, or nothing when it describes none. -/
def ofJson? (j : Json) : Option Settings := do
  let d := standard
  let fields ← j.fields? fieldNames
  let field (i : Nat) : Option Json := fields.getD i none
  let count := Json.orDefault (Json.asNat? (1 <<< 64))
  let float := Json.orDefault Json.asFloat?
  return {
    dataset := ← Json.orDefault Json.asString? d.dataset (field 0)
    sampleCap := ← count d.sampleCap (field 1)
    seed := (← count d.seed.toNat (field 2)).toUInt64
    candidates := ← count d.candidates (field 3)
    snapRadius := ← float d.snapRadius (field 4)
    memoCapacity := ← count d.memoCapacity (field 5)
    decimals := ← Json.orDefault (Json.asNat? (1 <<< 32)) d.decimals (field 6)
    corridorWidth := ← float d.corridorWidth (field 7)
    sampleSpacing := ← float d.sampleSpacing (field 8)
    coverageWarning := ← float d.coverageWarning (field 9)
    guidedAbove := ← float d.guidedAbove (field 10)
    topSpeed := ← float d.topSpeed (field 11)
    stepLimit := ← Json.orDefault (Json.asOption? (Json.asNat? (1 <<< 64))) d.stepLimit (field 12)
    replacements :=
      (← Json.orDefault (Json.asMap? Json.asFloat?) [] (field 13)).foldl
        (fun m r => m.insert r.1 r.2) ∅ }

end Settings

/-- Why no settings were read. -/
inductive SettingsFault where
  /-- There is no such document. -/
  | missing
  /-- The document does not describe settings. -/
  | unreadable
  /-- The settings make no sense. -/
  | invalid (fault : Settings.Fault)

/-- The settings that a text describes, if there is a text and the settings make sense. -/
def Settings.read (text : Option String) : Except SettingsFault Settings :=
  match text with
  | none => .error .missing
  | some s => match (Json.read? s).bind ofJson? with
    | none => .error .unreadable
    | some settings => match settings.fault? with
      | some f => .error (.invalid f)
      | none => .ok settings

end RoadRouting
