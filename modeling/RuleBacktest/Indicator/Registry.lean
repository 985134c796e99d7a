import RuleBacktest.Error
import RuleBacktest.Indicator.Kind
import RuleBacktest.Rule.Tree
import RuleBacktest.Text.Count

/-!
# Names of indicators

A table leads from names to families of indicators; several names may lead to
one family.  Blanks in a name do not count, and neither does the case of its
ASCII letters.

A family reads its parameters from the specification.  A parameter that is
absent, or whose text is no positive number of the right kind, takes the value
that the family sets for it.
-/

namespace RuleBacktest

open Scalar

inductive Family where
  | price (field : PriceField)
  | trueRange
  | sma
  | ema
  | wma
  | hma
  | rsi
  | macd
  | stochastic
  | rateOfChange
  | momentum
  | cci
  | williamsR
  | awesomeOscillator
  | adx
  | directional (direction : Direction)
  | atr
  | standardDeviation
  | onBalanceVolume
  | vwap
  | accumulation
  | bollinger (band : Band)
  | keltner (band : Band)
  | donchian (band : Band)
  | parabolicStop
  | fisher
  | ichimoku (line : IchimokuLine)
  | superTrend
  deriving DecidableEq, Repr

namespace Family

def table : List (String × Family) :=
  [("CLOSE", price .close),
   ("PRICE", price .close),
   ("OPEN", price .opening),
   ("HIGH", price .high),
   ("LOW", price .low),
   ("VOLUME", price .volume),
   ("TR", trueRange),
   ("SMA", sma),
   ("SMA50", sma),
   ("EMA", ema),
   ("EMA20", ema),
   ("WMA", wma),
   ("HMA", hma),
   ("RSI", rsi),
   ("MACD", macd),
   ("STOCHASTIC", stochastic),
   ("STOCHASTICOSCILLATOR", stochastic),
   ("ROC", rateOfChange),
   ("MOMENTUM", momentum),
   ("CCI", cci),
   ("WILLIAMSR", williamsR),
   ("AWESOMEOSCILLATOR", awesomeOscillator),
   ("ADX", adx),
   ("PLUSDI", directional .plus),
   ("MINUSDI", directional .minus),
   ("ATR", atr),
   ("AVERAGETRUERANGE", atr),
   ("STANDARDDEVIATION", standardDeviation),
   ("OBV", onBalanceVolume),
   ("VWAP", vwap),
   ("ADL", accumulation),
   ("BOLLINGER", bollinger .upper),
   ("BOLLINGERBANDS", bollinger .upper),
   ("BOLLINGERUPPER", bollinger .upper),
   ("BOLLINGERBANDSUPPER", bollinger .upper),
   ("BOLLINGERLOWER", bollinger .lower),
   ("BOLLINGERBANDSLOWER", bollinger .lower),
   ("KELTNER", keltner .upper),
   ("KELTNERCHANNELS", keltner .upper),
   ("KELTNERUPPER", keltner .upper),
   ("KELTNERCHANNELUPPER", keltner .upper),
   ("KELTNERLOWER", keltner .lower),
   ("KELTNERCHANNELLOWER", keltner .lower),
   ("DONCHIAN", donchian .upper),
   ("DONCHIANCHANNELS", donchian .upper),
   ("DONCHIANUPPER", donchian .upper),
   ("DONCHIANCHANNELUPPER", donchian .upper),
   ("HIGHESTHIGH", donchian .upper),
   ("DONCHIANLOWER", donchian .lower),
   ("DONCHIANCHANNELLOWER", donchian .lower),
   ("LOWESTLOW", donchian .lower),
   ("PARABOLICSAR", parabolicStop),
   ("FISHER", fisher),
   ("ICHIMOKU", ichimoku .tenkan),
   ("ICHIMOKUCLOUD", ichimoku .tenkan),
   ("ICHIMOKUTENKAN", ichimoku .tenkan),
   ("ICHIMOKUTENKANSEN", ichimoku .tenkan),
   ("ICHIMOKUKIJUN", ichimoku .kijun),
   ("ICHIMOKUKIJUNSEN", ichimoku .kijun),
   ("SUPERTREND", superTrend)]

def names : List String :=
  table.map Prod.fst

def normalize (name : String) : String :=
  Text.upperAscii (Text.removeBlanks name)

def ofName? (name : String) : Option Family :=
  table.lookup (normalize name)

end Family

namespace IndicatorSpec

/-- A positive count, or the given one. -/
def countParam (spec : IndicatorSpec) (name : String) (otherwise : Nat) : Nat :=
  let read :=
    (spec.param? name).bind fun raw =>
      Text.count? Text.maxUnsigned64 (Text.trim raw)
  (read.filter (0 < ·)).getD otherwise

/-- A positive finite factor, or the given one. -/
def factorParam {α : Type} [Scalar α] (spec : IndicatorSpec) (name : String)
    (otherwise : α) : Factor α :=
  let read := (spec.param? name).bind fun raw =>
    (Numeral.ofText? (Text.trim raw)).bind (fun n => (ofNumeral? n : Option α))
  Factor.of ((read.filter fun x => decide (0 < x)).getD otherwise)

def period (spec : IndicatorSpec) (otherwise : Nat) : Nat :=
  spec.countParam "period" otherwise

end IndicatorSpec

namespace Family

variable {α : Type} [Scalar α]

def configure (spec : IndicatorSpec) : Family → Indicator α
  | price field => .price field
  | trueRange => .trueRange
  | sma => .sma (spec.period 50)
  | ema => .ema (spec.period 20)
  | wma => .wma (spec.period 20)
  | hma => .hma (spec.period 20)
  | rsi => .rsi (spec.period 14)
  | macd => .macd (spec.countParam "fast" 12) (spec.countParam "slow" 26)
  | stochastic => .stochastic (spec.countParam "kPeriod" 14)
  | rateOfChange => .rateOfChange (spec.period 12)
  | momentum => .rateOfChange (spec.period 14)
  | cci => .cci (spec.period 20)
  | williamsR => .williamsR (spec.period 14)
  | awesomeOscillator => .awesomeOscillator
  | adx => .adx (spec.period 14)
  | directional direction => .directional direction (spec.period 14)
  | atr => .atr (spec.period 14)
  | standardDeviation => .standardDeviation (spec.period 20)
  | onBalanceVolume => .onBalanceVolume
  | vwap => .vwap (spec.period 14)
  | accumulation => .accumulation
  | bollinger band =>
      .bollinger band (spec.period 20) (spec.factorParam "stdDev" 2)
  | keltner band =>
      .keltner band (spec.period 20) (spec.countParam "atr" 10)
        (spec.factorParam "multiplier" 2)
  | donchian band => .donchian band (spec.period 20)
  | parabolicStop => .parabolicStop
  | fisher => .fisher (spec.period 10)
  | ichimoku .tenkan => .ichimoku .tenkan (spec.countParam "tenkan" 9)
  | ichimoku .kijun => .ichimoku .kijun (spec.countParam "kijun" 26)
  | superTrend => .superTrend (spec.period 10) (spec.factorParam "multiplier" 3)

end Family

/-- The indicator that a specification denotes. -/
def IndicatorSpec.resolve {α : Type} [Scalar α] (spec : IndicatorSpec) :
    Except Failure (Indicator α) :=
  match Family.ofName? spec.name with
  | some family => .ok (family.configure spec)
  | none => .error (.unknownIndicator spec.name)

end RuleBacktest
