import RuleBacktest.Indicator.Registry
import RuleBacktest.Proofs.Scalar.Ordered

/-!
# Settings of an indicator

A setting is a count or a width, and each has the name of the parameter that
decides it.  The indicator of a specification is the standard one of its family,
with every setting changed into what the parameter of that name says, where it
says something.  So no parameter leads to a setting that is not sound, and
specifications that say the same under each name of a family denote the same
indicator of it.
-/

namespace RuleBacktest

open Scalar

variable {α : Type}

inductive Setting (α : Type) where
  | count (n : Nat)
  | width (w : Factor α)
  deriving DecidableEq, Repr

namespace Setting

def map (onCount : Nat → Nat) (onWidth : Factor α → Factor α) :
    Setting α → Setting α
  | count n => count (onCount n)
  | width w => width (onWidth w)

/-- A positive count of 64 bits, or a positive and finite width. -/
def IsSound [Scalar α] : Setting α → Prop
  | count n => 1 ≤ n ∧ n ≤ 2 ^ 64 - 1
  | width w => isFinite w.value = true ∧ 0 < w.value

@[simp] theorem isSound_count [Scalar α] {n : Nat} :
    (count n : Setting α).IsSound ↔ 1 ≤ n ∧ n ≤ 2 ^ 64 - 1 :=
  Iff.rfl

end Setting

namespace Indicator

def settings : Indicator α → List (String × Setting α)
  | price _ | trueRange | awesomeOscillator | onBalanceVolume | accumulation
  | parabolicStop => []
  | sma period | ema period | wma period | hma period | rsi period
  | rateOfChange period | cci period | williamsR period | adx period
  | directional _ period | atr period | standardDeviation period | vwap period
  | keltnerMiddle period | donchian _ period | fisher period =>
      [("period", .count period)]
  | macd fast slow => [("fast", .count fast), ("slow", .count slow)]
  | stochastic period => [("kPeriod", .count period)]
  | bollinger _ period width =>
      [("period", .count period), ("stdDev", .width width)]
  | keltner _ period rangePeriod width =>
      [("period", .count period), ("atr", .count rangePeriod),
        ("multiplier", .width width)]
  | ichimoku .tenkan period => [("tenkan", .count period)]
  | ichimoku .kijun period => [("kijun", .count period)]
  | superTrend period width =>
      [("period", .count period), ("multiplier", .width width)]

/-- Changes the settings of an indicator, each according to its name, and
nothing else. -/
def mapSettings (onCount : String → Nat → Nat)
    (onWidth : String → Factor α → Factor α) : Indicator α → Indicator α
  | price field => price field
  | trueRange => trueRange
  | sma period => sma (onCount "period" period)
  | ema period => ema (onCount "period" period)
  | wma period => wma (onCount "period" period)
  | hma period => hma (onCount "period" period)
  | rsi period => rsi (onCount "period" period)
  | macd fast slow => macd (onCount "fast" fast) (onCount "slow" slow)
  | stochastic period => stochastic (onCount "kPeriod" period)
  | rateOfChange period => rateOfChange (onCount "period" period)
  | cci period => cci (onCount "period" period)
  | williamsR period => williamsR (onCount "period" period)
  | awesomeOscillator => awesomeOscillator
  | adx period => adx (onCount "period" period)
  | directional direction period =>
      directional direction (onCount "period" period)
  | atr period => atr (onCount "period" period)
  | standardDeviation period => standardDeviation (onCount "period" period)
  | onBalanceVolume => onBalanceVolume
  | vwap period => vwap (onCount "period" period)
  | accumulation => accumulation
  | bollinger band period width =>
      bollinger band (onCount "period" period) (onWidth "stdDev" width)
  | keltnerMiddle period => keltnerMiddle (onCount "period" period)
  | keltner band period rangePeriod width =>
      keltner band (onCount "period" period) (onCount "atr" rangePeriod)
        (onWidth "multiplier" width)
  | donchian band period => donchian band (onCount "period" period)
  | parabolicStop => parabolicStop
  | fisher period => fisher (onCount "period" period)
  | ichimoku .tenkan period => ichimoku .tenkan (onCount "tenkan" period)
  | ichimoku .kijun period => ichimoku .kijun (onCount "kijun" period)
  | superTrend period width =>
      superTrend (onCount "period" period) (onWidth "multiplier" width)

section

variable {onCount onCount' : String → Nat → Nat}
  {onWidth onWidth' : String → Factor α → Factor α}

-- The line of Ichimoku decides the name of its setting, and so it is a case of
-- its own here and below.
theorem settings_mapSettings (i : Indicator α) :
    (i.mapSettings onCount onWidth).settings =
      i.settings.map fun s => (s.1, s.2.map (onCount s.1) (onWidth s.1)) := by
  cases i with
  | ichimoku line period => cases line <;> rfl
  | _ => rfl

theorem mapSettings_mapSettings (i : Indicator α) :
    (i.mapSettings onCount onWidth).mapSettings onCount' onWidth' =
      i.mapSettings (fun name n => onCount' name (onCount name n))
        (fun name w => onWidth' name (onWidth name w)) := by
  cases i with
  | ichimoku line period => cases line <;> rfl
  | _ => rfl

theorem mapSettings_congr {i : Indicator α}
    (h : ∀ s ∈ i.settings, s.2.map (onCount s.1) (onWidth s.1) =
      s.2.map (onCount' s.1) (onWidth' s.1)) :
    i.mapSettings onCount onWidth = i.mapSettings onCount' onWidth' := by
  cases i with
  | ichimoku line period =>
      cases line <;> simp_all [settings, mapSettings, Setting.map]
  | _ => simp_all [settings, mapSettings, Setting.map]

end

/-- The indicator with the setting of that name blotted out. -/
def without [Scalar α] (name : String) : Indicator α → Indicator α :=
  mapSettings (fun field n => if field = name then 0 else n)
    (fun field w => if field = name then Factor.of 0 else w)

end Indicator

/-! ## What parameters state -/

variable [Scalar α]

theorem Factor.value_of_pos [LawfulComparison α] {x : α} (h : 0 < x) :
    (Factor.of x).value = x := by
  have hnonzero : same x 0 = false := by
    rw [same, Bool.and_eq_false_iff, decide_eq_false_iff_not]
    exact Or.inl fun hle => (LawfulComparison.le_iff.mp hle).2.2 h
  rw [Factor.of, hnonzero]
  rfl

namespace IndicatorSpec

variable {spec other : IndicatorSpec} {name : String}

/-- The value of the first parameter of a name, without blanks around it. -/
def trimmedParam? (spec : IndicatorSpec) (name : String) : Option String :=
  (spec.param? name).map Text.trim

/-- The positive count that the first parameter of a name denotes. -/
def statedCount? (spec : IndicatorSpec) (name : String) : Option Nat :=
  ((spec.trimmedParam? name).bind (Text.count? Text.maxUnsigned64)).filter
    (0 < ·)

/-- The positive and finite width that the first parameter of a name denotes. -/
def statedWidth? (spec : IndicatorSpec) (name : String) : Option (Factor α) :=
  (((spec.trimmedParam? name).bind fun word =>
    (Numeral.ofText? word).bind ofNumeral?).filter fun x => decide (0 < x)).map
    Factor.of

/-- The setting of a name, unless the first parameter of that name states
another one. -/
def adjustSetting (spec : IndicatorSpec) (name : String) :
    Setting α → Setting α :=
  Setting.map (spec.statedCount? name).getD (spec.statedWidth? name).getD

/-- The indicator with every setting that is stated. -/
def adjust (spec : IndicatorSpec) : Indicator α → Indicator α :=
  Indicator.mapSettings (fun name => (spec.statedCount? name).getD)
    (fun name => (spec.statedWidth? name).getD)

theorem countParam_eq_getD (spec : IndicatorSpec) (name : String)
    (otherwise : Nat) :
    spec.countParam name otherwise =
      (spec.statedCount? name).getD otherwise := by
  rw [statedCount?, trimmedParam?, Option.bind_map]
  rfl

theorem factorParam_eq_getD (spec : IndicatorSpec) (name : String)
    (otherwise : α) :
    spec.factorParam name otherwise =
      (spec.statedWidth? name).getD (Factor.of otherwise) := by
  rw [statedWidth?, trimmedParam?, Option.bind_map, Option.getD_map]
  rfl

@[simp] theorem statedCount?_nil (word name : String) :
    statedCount? ⟨word, []⟩ name = none :=
  rfl

@[simp] theorem statedWidth?_nil (word name : String) :
    (statedWidth? ⟨word, []⟩ name : Option (Factor α)) = none :=
  rfl

theorem bounds_of_statedCount? {n : Nat} (h : spec.statedCount? name = some n) :
    1 ≤ n ∧ n ≤ 2 ^ 64 - 1 := by
  obtain ⟨hread, hpos⟩ := Option.filter_eq_some_iff.mp h
  obtain ⟨word, -, hcount⟩ := Option.bind_eq_some_iff.mp hread
  obtain ⟨-, hle⟩ := Option.filter_eq_some_iff.mp hcount
  exact ⟨of_decide_eq_true hpos, of_decide_eq_true hle⟩

theorem bounds_of_statedWidth? [LawfulComparison α] {w : Factor α}
    (h : spec.statedWidth? name = some w) :
    isFinite w.value = true ∧ 0 < w.value := by
  obtain ⟨x, hstated, rfl⟩ := Option.map_eq_some_iff.mp h
  obtain ⟨hread, hpos⟩ := Option.filter_eq_some_iff.mp hstated
  obtain ⟨word, -, hword⟩ := Option.bind_eq_some_iff.mp hread
  obtain ⟨numeral, -, hnumeral⟩ := Option.bind_eq_some_iff.mp hword
  have hpositive : 0 < x := of_decide_eq_true hpos
  rw [Factor.value_of_pos hpositive]
  refine ⟨?_, hpositive⟩
  cases numeral with
  | finite d =>
      rw [ofNumeral?] at hnumeral
      split at hnumeral
      · next hfinite =>
          cases hnumeral
          exact hfinite
      · cases hnumeral
  | infinite negative => cases hnumeral
  | notANumber negative => cases hnumeral

theorem isSound_adjustSetting [LawfulComparison α] {s : Setting α}
    (h : s.IsSound) :
    (spec.adjustSetting name s).IsSound := by
  cases s with
  | count n =>
      rw [adjustSetting, Setting.map]
      cases hstated : spec.statedCount? name with
      | none => exact h
      | some m => exact bounds_of_statedCount? hstated
  | width w =>
      rw [adjustSetting, Setting.map]
      cases hstated : (spec.statedWidth? name : Option (Factor α)) with
      | none => exact h
      | some v => exact bounds_of_statedWidth? hstated

theorem adjustSetting_congr
    (h : other.trimmedParam? name = spec.trimmedParam? name)
    (s : Setting α) :
    other.adjustSetting name s = spec.adjustSetting name s := by
  rw [adjustSetting, adjustSetting, statedCount?, statedCount?, statedWidth?,
    statedWidth?, h]

theorem settings_adjust (spec : IndicatorSpec) (i : Indicator α) :
    (spec.adjust i).settings =
      i.settings.map fun s => (s.1, spec.adjustSetting s.1 s.2) :=
  i.settings_mapSettings

theorem adjust_congr {i : Indicator α}
    (h : ∀ s ∈ i.settings, other.trimmedParam? s.1 = spec.trimmedParam? s.1) :
    other.adjust i = spec.adjust i := by
  apply Indicator.mapSettings_congr
  intro s hs
  exact adjustSetting_congr (h s hs) s.2

/-- What is stated under one name adjusts no setting but the one of that
name. -/
theorem without_adjust_congr {i : Indicator α}
    (h : ∀ s ∈ i.settings, s.1 ≠ name →
      other.trimmedParam? s.1 = spec.trimmedParam? s.1) :
    (other.adjust i).without name = (spec.adjust i).without name := by
  rw [adjust, adjust, Indicator.without, Indicator.mapSettings_mapSettings,
    Indicator.mapSettings_mapSettings]
  apply Indicator.mapSettings_congr
  intro s hs
  by_cases hname : s.1 = name
  · simp only [if_pos hname]
  · simp only [if_neg hname]
    exact adjustSetting_congr (h s hs hname) s.2

end IndicatorSpec

/-! ## The indicator of a family -/

namespace Family

/-- The indicator of a family without parameters. -/
def standard : Family → Indicator α :=
  configure ⟨"", []⟩

def parameterNames : Family → List String
  | price _ | trueRange | awesomeOscillator | onBalanceVolume | accumulation
  | parabolicStop => []
  | sma | ema | wma | hma | rsi | rateOfChange | momentum | cci | williamsR
  | adx | directional _ | atr | standardDeviation | vwap | donchian _
  | fisher => ["period"]
  | macd => ["fast", "slow"]
  | stochastic => ["kPeriod"]
  | bollinger _ => ["period", "stdDev"]
  | keltner _ => ["period", "atr", "multiplier"]
  | ichimoku .tenkan => ["tenkan"]
  | ichimoku .kijun => ["kijun"]
  | superTrend => ["period", "multiplier"]

theorem configure_eq_adjust (family : Family) (spec : IndicatorSpec) :
    (family.configure spec : Indicator α) = spec.adjust family.standard := by
  cases family with
  | ichimoku line =>
      cases line <;>
        simp [standard, configure, IndicatorSpec.adjust, Indicator.mapSettings,
          IndicatorSpec.countParam_eq_getD]
  | _ =>
      simp [standard, configure, IndicatorSpec.adjust, Indicator.mapSettings,
        IndicatorSpec.period, IndicatorSpec.countParam_eq_getD,
        IndicatorSpec.factorParam_eq_getD]

theorem map_fst_settings_standard (family : Family) :
    (family.standard : Indicator α).settings.map Prod.fst =
      family.parameterNames := by
  cases family with
  | ichimoku line => cases line <;> rfl
  | _ => rfl

theorem map_fst_settings_adjust (family : Family) (spec : IndicatorSpec) :
    (spec.adjust family.standard : Indicator α).settings.map Prod.fst =
      family.parameterNames := by
  rw [IndicatorSpec.settings_adjust, List.map_map,
    ← map_fst_settings_standard (α := α)]
  rfl

theorem mem_parameterNames {family : Family} {s : String × Setting α}
    (h : s ∈ (family.standard : Indicator α).settings) :
    s.1 ∈ family.parameterNames := by
  rw [← map_fst_settings_standard (α := α)]
  exact List.mem_map_of_mem h

theorem isSound_standard (family : Family) :
    ∀ s ∈ (family.standard : Indicator Float).settings, s.2.IsSound := by
  have htwo : (Setting.width (Factor.of (2 : Float))).IsSound := by
    constructor <;> decide
  have hthree : (Setting.width (Factor.of (3 : Float))).IsSound := by
    constructor <;> decide
  cases family with
  | ichimoku line =>
      cases line <;>
        simp [standard, configure, IndicatorSpec.countParam_eq_getD,
          Indicator.settings]
  | _ =>
      simp [standard, configure, IndicatorSpec.period,
        IndicatorSpec.countParam_eq_getD, IndicatorSpec.factorParam_eq_getD,
        Indicator.settings, htwo, hthree]

theorem isSound_adjust (family : Family) (spec : IndicatorSpec) :
    ∀ s ∈ (spec.adjust family.standard : Indicator Float).settings,
      s.2.IsSound := by
  rw [IndicatorSpec.settings_adjust]
  intro s hs
  obtain ⟨s, hstandard, rfl⟩ := List.mem_map.mp hs
  exact IndicatorSpec.isSound_adjustSetting
    (family.isSound_standard s hstandard)

end Family
end RuleBacktest
