import RuleBacktest.Proofs.Outcome
import RuleBacktest.Proofs.Text.Trimming
import RuleBacktest.Settings.Load

/-!
# Settings that are written

The values of a configuration come without blanks around them, so the reader of
numerals sees the text that is looked at to tell whether anything is written.  A
seed that is written is read or refused.  A number that is written is read and
checked if it is a numeral; any other text counts as nothing written.
-/

namespace RuleBacktest

/-! ## Values without blanks around them -/

namespace Text

theorem trim_ofChars (cs : List Char) :
    trim (IniLine.ofChars cs) = IniLine.ofChars cs := by
  rw [trim, IniLine.ofChars, String.toList_ofList, trimChars_trimChars]

end Text

namespace Ini

theorem exists_ofChars_of_setting {line : List Char} {key v : String}
    (h : IniLine.ofText line = .setting key (some v)) :
    ∃ cs, v = IniLine.ofChars cs := by
  unfold IniLine.ofText at h
  generalize Text.trimChars
      ((Text.trimChars line).takeWhile fun c => !IniLine.isCommentMark c) =
    said at h
  simp only at h
  split at h
  · cases h
  · split at h
    · cases h
    · cases h
  · split at h
    · cases h
    · split at h
      · cases h
      · cases h
        exact ⟨_, rfl⟩

theorem trim_of_mem_collect {group : String} {number : Nat}
    {lines : List (List Char)} {entries : List IniEntry}
    (h : collect group number lines = .ok entries)
    {e : IniEntry}
    (he : e ∈ entries)
    {v : String}
    (hv : e.value = some v) :
    Text.trim v = v := by
  induction lines generalizing group number entries with
  | nil =>
      cases h
      cases he
  | cons line rest ih =>
      rw [collect] at h
      split at h
      · exact ih h he
      · exact ih h he
      · next key value hline =>
          cases hrest : collect group (number + 1) rest with
          | error fault =>
              rw [hrest] at h
              cases h
          | ok later =>
              rw [hrest] at h
              cases h
              cases List.mem_cons.mp he with
              | inl hfirst =>
                  rw [hfirst] at hv
                  have hvalue : value = some v := hv
                  rw [hvalue] at hline
                  obtain ⟨cs, rfl⟩ := exists_ofChars_of_setting hline
                  exact Text.trim_ofChars cs
              | inr hlater => exact ih hrest hlater
      · cases h
      · cases h

variable {text : String} {c : Ini}

theorem trim_of_get? (hread : ofText text = .ok c) {group key v : String}
    (h : c.get? group key = some v) : Text.trim v = v := by
  obtain ⟨e, hfound, hv⟩ := Option.bind_eq_some_iff.mp h
  have he := List.mem_reverse.mp (List.mem_of_find?_eq_some hfound)
  unfold ofText at hread
  cases hcollect : collect firstGroup 1 (lines text) with
  | error fault =>
      rw [hcollect] at hread
      cases hread
  | ok entries =>
      rw [hcollect] at hread
      cases hread
      exact trim_of_mem_collect hcollect he hv

theorem numeral?_eq_bind_nonBlank?
    (hread : ofText text = .ok c)
    (group key : String) :
    c.numeral? group key = (c.nonBlank? group key).bind Numeral.ofText? := by
  unfold numeral? nonBlank?
  cases hvalue : c.get? group key with
  | none => rfl
  | some v =>
      rw [Option.bind_some, Option.bind_some,
        Text.nonBlank?_of_trim (trim_of_get? hread hvalue)]
      split
      · next hempty =>
          -- An empty text is no numeral either.
          rw [String.isEmpty_iff.mp hempty]
          rfl
      · rfl

/-! ## What the settings come to -/

/-- How a number of the accounting section is settled. -/
inductive NumberFrom (c : Ini) (key : String) (otherwise : Float) : Float → Prop
  | read {raw : String} {n : Numeral} :
      c.nonBlank? "backtest" key = some raw → Numeral.ofText? raw = some n →
        NumberFrom c key otherwise (Binary64.ofNumeral n)
  | unread {raw : String} :
      c.nonBlank? "backtest" key = some raw → Numeral.ofText? raw = none →
        NumberFrom c key otherwise otherwise
  | unwritten : c.nonBlank? "backtest" key = none →
      NumberFrom c key otherwise otherwise

inductive SeedFrom (c : Ini) : Option Nat → Prop
  | read {raw : String} {seed : Nat} :
      c.nonBlank? "backtest" "equity_noise_seed" = some raw →
        Text.count? Text.maxUnsigned64 raw = some seed → SeedFrom c (some seed)
  | unwritten : c.nonBlank? "backtest" "equity_noise_seed" = none →
      SeedFrom c none

theorem double_eq_iff
    (hread : ofText text = .ok c)
    (key : String) (otherwise x : Float) :
    c.double "backtest" key otherwise = x ↔ c.NumberFrom key otherwise x := by
  rw [double, numeral?_eq_bind_nonBlank? hread]
  constructor
  · rintro rfl
    cases hwritten : c.nonBlank? "backtest" key with
    | none => exact .unwritten hwritten
    | some raw =>
        rw [Option.bind_some]
        cases hnumeral : Numeral.ofText? raw with
        | none => exact .unread hwritten hnumeral
        | some n => exact .read hwritten hnumeral
  · intro h
    cases h with
    | read hwritten hnumeral =>
        rw [hwritten, Option.bind_some, hnumeral]
        rfl
    | unread hwritten hnumeral =>
        rw [hwritten, Option.bind_some, hnumeral]
        rfl
    | unwritten hwritten =>
        rw [hwritten]
        rfl

theorem check_eq_ok_iff {p : Float → Prop} [DecidablePred p] {x y : Float}
    {e : Failure} :
    (if p x then .ok x else .error e : Except Failure Float) = .ok y ↔
      x = y ∧ p y := by
  by_cases hp : p x
  · rw [if_pos hp, Except.ok.injEq]
    exact ⟨fun h => ⟨h, h ▸ hp⟩, And.left⟩
  · rw [if_neg hp]
    constructor
    · intro h
      cases h
    · rintro ⟨rfl, hpass⟩
      exact absurd hpass hp

theorem capital_eq_ok_iff (x : Float) :
    c.capital = .ok x ↔
      c.double "backtest" "initial_capital" 100000 = x ∧
        x.isFinite = true ∧
        0 < x := by
  rw [← decide_eq_true_iff (p := 0 < x), ← Bool.and_eq_true]
  exact check_eq_ok_iff (p := fun x => (x.isFinite && decide (0 < x)) = true)

theorem riskFreeRate_eq_ok_iff (x : Float) :
    c.riskFreeRate = .ok x ↔
      c.double "backtest" "risk_free_rate" 0 = x ∧ 0 ≤ x ∧ x < 1 :=
  check_eq_ok_iff (p := fun x => 0 ≤ x ∧ x < 1)

theorem noiseSeed_eq_ok_iff (seed : Option Nat) :
    c.noiseSeed = .ok seed ↔ c.SeedFrom seed := by
  unfold noiseSeed
  constructor
  · intro h
    split at h
    · next hwritten =>
        cases h
        exact .unwritten hwritten
    · next raw hwritten =>
        split at h
        · next n hcount =>
            cases h
            exact .read hwritten hcount
        · cases h
  · intro h
    cases h with
    | read hwritten hcount => simp only [hwritten, hcount]
    | unwritten hwritten => simp only [hwritten]

theorem exists_settings_of_validate (hvalid : c.validate = .ok ()) :
    ∃ s, c.backtestSettings = .ok s := by
  obtain ⟨source, -, hplace⟩ := bind_eq_ok.mp hvalid
  cases source with
  | csv =>
      obtain ⟨-, -, hrest⟩ := bind_eq_ok.mp hplace
      obtain ⟨s, hs, -⟩ := bind_eq_ok.mp hrest
      exact ⟨s, hs⟩
  | sqlite =>
      obtain ⟨-, -, hrest⟩ := bind_eq_ok.mp hplace
      obtain ⟨s, hs, -⟩ := bind_eq_ok.mp hrest
      exact ⟨s, hs⟩

/-- What passes the check has settings.  They are in their bounds, each number
is the one that is written for it, or its default if nothing or no numeral is,
and a seed that is written is read. -/
theorem backtestSettings_of_written (hread : ofText text = .ok c) :
    (c.validate = .ok () → ∃ s, c.backtestSettings = .ok s) ∧
      ∀ s, c.backtestSettings = .ok s ↔
        (c.NumberFrom "initial_capital" 100000 s.capital ∧
            s.capital.isFinite = true ∧
            0 < s.capital) ∧
          (c.NumberFrom "risk_free_rate" 0 s.riskFreeRate ∧
            0 ≤ s.riskFreeRate ∧
            s.riskFreeRate < 1) ∧
          c.SeedFrom s.noiseSeed := by
  refine ⟨exists_settings_of_validate, ?_⟩
  rintro ⟨capital, rate, seed⟩
  rw [← double_eq_iff hread, ← double_eq_iff hread, ← capital_eq_ok_iff,
    ← riskFreeRate_eq_ok_iff, ← noiseSeed_eq_ok_iff]
  constructor
  · intro h
    obtain ⟨_, hcapital, hnext⟩ := bind_eq_ok.mp h
    obtain ⟨_, hrate, hlast⟩ := bind_eq_ok.mp hnext
    obtain ⟨_, hseed, hs⟩ := bind_eq_ok.mp hlast
    cases hs
    exact ⟨hcapital, hrate, hseed⟩
  · rintro ⟨hcapital, hrate, hseed⟩
    rw [backtestSettings, hcapital, hrate, hseed]
    rfl

/-- The capital is no numeral. -/
def mistypedText : String :=
  "[data]\ncsv_dir = d\n[backtest]\ninitial_capital = abc\n" ++
    "risk_free_rate = 0.05\nequity_noise_seed = 7\n"

def mistyped : Ini :=
  ⟨[⟨"data", "csv_dir", some "d"⟩, ⟨"backtest", "initial_capital", some "abc"⟩,
      ⟨"backtest", "risk_free_rate", some "0.05"⟩,
      ⟨"backtest", "equity_noise_seed", some "7"⟩]⟩

theorem ofText_mistypedText : ofText mistypedText = .ok mistyped :=
  rfl

theorem backtestSettings_mistyped :
    mistyped.backtestSettings = .ok ⟨100000, 0.05, some 7⟩ :=
  rfl

theorem validate_mistyped : mistyped.validate = .ok () := by
  have hsource : mistyped.dataSource = .ok .csv := rfl
  have hplace : mistyped.csvDirectory = .ok "d" := rfl
  have hrange : HistoryRange.ofText? "1y" = some (.years 1) := by
    decide +kernel
  have hunwritten (key : String)
      (hkey : key ∈ ["symbol", "range", "interval"]) :
      mistyped.nonBlank? "schedule" key = none := by
    revert key
    decide
  have hschedule : mistyped.schedule = .ok {} := by
    simp [schedule, hunwritten, HistoryRange.ofText, hrange]
  rw [validate, hsource]
  simp only [bind, Except.bind, hplace, backtestSettings_mistyped, hschedule]
  rfl

/-- The rate and the seed are those that are written. -/
theorem backtestSettings_of_written_mistyped :
    ofText mistypedText = .ok mistyped ∧
      mistyped.validate = .ok () ∧
      mistyped.NumberFrom "initial_capital" 100000 100000 ∧
      mistyped.NumberFrom "risk_free_rate" 0 0.05 ∧
      mistyped.SeedFrom (some 7) := by
  have hsettled :=
    ((backtestSettings_of_written ofText_mistypedText).2 _).mp
      backtestSettings_mistyped
  exact ⟨ofText_mistypedText, validate_mistyped, hsettled.1.1, hsettled.2.1.1,
    hsettled.2.2⟩

/-- A capital that is no numeral passes the check and is replaced by the
default. -/
theorem capital_of_mistyped :
    ofText mistypedText = .ok mistyped ∧ mistyped.validate = .ok () ∧
      mistyped.nonBlank? "backtest" "initial_capital" = some "abc" ∧
      Numeral.ofText? "abc" = none ∧
      ∃ s, mistyped.backtestSettings = .ok s ∧ s.capital = 100000 :=
  ⟨ofText_mistypedText, validate_mistyped, rfl, rfl, _,
    backtestSettings_mistyped, rfl⟩

end Ini
end RuleBacktest
