import RuleBacktest.Bar

/-!
# Indicators

An indicator is a family of series with its parameters settled.  Equal
indicators denote the same series, so an indicator is also the key under which
its series is kept.
-/

namespace RuleBacktest

open Scalar

/-- A multiplier of a band or channel.  The two zeros are one factor.  Of
multipliers that are not numbers there are two, one for each sign. -/
structure Factor (α : Type) where
  value : α
  negativeUndefined : Bool
  deriving DecidableEq, Repr

def Factor.of {α : Type} [Scalar α] (x : α) : Factor α :=
  ⟨if same x 0 then 0 else x, false⟩

inductive PriceField where
  | opening
  | high
  | low
  | close
  | volume
  deriving DecidableEq, Repr

inductive Band where
  | upper
  | lower
  deriving DecidableEq, Repr

inductive Direction where
  | plus
  | minus
  deriving DecidableEq, Repr

inductive IchimokuLine where
  | tenkan
  | kijun
  deriving DecidableEq, Repr

inductive Indicator (α : Type) where
  | price (field : PriceField)
  | trueRange
  | sma (period : Nat)
  | ema (period : Nat)
  | wma (period : Nat)
  | hma (period : Nat)
  | rsi (period : Nat)
  | macd (fast slow : Nat)
  | stochastic (period : Nat)
  | rateOfChange (period : Nat)
  | cci (period : Nat)
  | williamsR (period : Nat)
  | awesomeOscillator
  | adx (period : Nat)
  | directional (direction : Direction) (period : Nat)
  | atr (period : Nat)
  | standardDeviation (period : Nat)
  | onBalanceVolume
  | vwap (period : Nat)
  | accumulation
  | bollinger (band : Band) (period : Nat) (width : Factor α)
  | keltnerMiddle (period : Nat)
  | keltner (band : Band) (period rangePeriod : Nat) (width : Factor α)
  | donchian (band : Band) (period : Nat)
  | parabolicStop
  | fisher (period : Nat)
  | ichimoku (line : IchimokuLine) (period : Nat)
  | superTrend (period : Nat) (width : Factor α)
  deriving DecidableEq, Repr

namespace PriceField

def read {α : Type} [Scalar α] (b : Bar α) : PriceField → α
  | opening => b.opening
  | high => b.high
  | low => b.low
  | close => b.close
  | volume => b.volumeOrZero

def text : PriceField → String
  | opening => "OPEN"
  | high => "HIGH"
  | low => "LOW"
  | close => "CLOSE"
  | volume => "VOLUME"

end PriceField
end RuleBacktest
