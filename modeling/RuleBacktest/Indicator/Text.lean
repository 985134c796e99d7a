import RuleBacktest.Decimal.Written
import RuleBacktest.Indicator.Kind

/-!
# Indicators written

The name of the family, with the parameters in parentheses.
-/

namespace RuleBacktest

/-- The factor that a numeral denotes. -/
def Factor.ofNumeral (n : Numeral) : Factor Float :=
  match n with
  | .notANumber negative => ⟨Binary64.notANumber, negative⟩
  | n => .of (Binary64.ofNumeral n)

def Factor.text (f : Factor Float) : String :=
  Binary64.plainText f.value

namespace Indicator

def withParams (name : String) (params : List String) : String :=
  name ++ "(" ++ ",".intercalate params ++ ")"

def bandText : Band → String
  | .upper => "UPPER"
  | .lower => "LOWER"

def text : Indicator Float → String
  | price field => field.text
  | trueRange => "TR"
  | sma period => withParams "SMA" [toString period]
  | ema period => withParams "EMA" [toString period]
  | wma period => withParams "WMA" [toString period]
  | hma period => withParams "HMA" [toString period]
  | rsi period => withParams "RSI" [toString period]
  | macd fast slow => withParams "MACD" [toString fast, toString slow]
  | stochastic period => withParams "STOCHASTIC" [toString period]
  | rateOfChange period => withParams "ROC" [toString period]
  | cci period => withParams "CCI" [toString period]
  | williamsR period => withParams "WILLIAMSR" [toString period]
  | awesomeOscillator => "AWESOMEOSCILLATOR"
  | adx period => withParams "ADX" [toString period]
  | directional .plus period => withParams "PLUSDI" [toString period]
  | directional .minus period => withParams "MINUSDI" [toString period]
  | atr period => withParams "ATR" [toString period]
  | standardDeviation period => withParams "STDDEV" [toString period]
  | onBalanceVolume => "OBV"
  | vwap period => withParams "VWAP" [toString period]
  | accumulation => "ADL"
  | bollinger band period width =>
      withParams ("BOLLINGER" ++ bandText band) [toString period, width.text]
  | keltnerMiddle period => withParams "KELTNERMIDDLE" [toString period]
  | keltner band period rangePeriod width =>
      withParams ("KELTNER" ++ bandText band)
        [toString period, toString rangePeriod, width.text]
  | donchian band period =>
      withParams ("DONCHIAN" ++ bandText band) [toString period]
  | parabolicStop => "PARABOLICSAR"
  | fisher period => withParams "FISHER" [toString period]
  | ichimoku .tenkan period => withParams "ICHIMOKUTENKAN" [toString period]
  | ichimoku .kijun period => withParams "ICHIMOKUKIJUN" [toString period]
  | superTrend period width =>
      withParams "SUPERTREND" [toString period, width.text]

end Indicator
end RuleBacktest
