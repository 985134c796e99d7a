import Mathlib.Data.String.Basic
import RuleBacktest.Text.AsciiCase

/-!
# The case of ASCII letters

A capital and its small letter are thirty-two places apart, and no other
character has a second case.  So characters of one lower case are equal or are
the two cases of one letter, and a text of signs is the lower case of itself
alone.
-/

namespace RuleBacktest
namespace Text

variable {c d : Char}

theorem toLower_of_not_capital (h : ¬ (65 ≤ c.toNat ∧ c.toNat ≤ 90)) :
    c.toLower = c := by
  unfold Char.toLower
  rw [dif_neg]
  simp only [ge_iff_le, UInt32.le_iff_toNat_le]
  exact h

theorem toNat_toLower_of_capital
    (hlow : 65 ≤ c.toNat)
    (hhigh : c.toNat ≤ 90) :
    c.toLower.toNat = c.toNat + 32 := by
  have hrange : c.val ≥ 'A'.val ∧ c.val ≤ 'Z'.val := by
    simp only [ge_iff_le, UInt32.le_iff_toNat_le]
    exact ⟨hlow, hhigh⟩
  unfold Char.toLower
  rw [dif_pos hrange]
  change (c.val + 32).toNat = c.val.toNat + 32
  rw [UInt32.toNat_add]
  change (c.val.toNat + 32) % 4294967296 = c.val.toNat + 32
  change c.val.toNat ≤ 90 at hhigh
  omega

theorem toUpper_of_not_small (h : ¬ (97 ≤ c.toNat ∧ c.toNat ≤ 122)) :
    c.toUpper = c := by
  unfold Char.toUpper
  rw [dif_neg]
  simp only [UInt32.le_iff_toNat_le]
  exact h

theorem toNat_toUpper_of_small
    (hlow : 97 ≤ c.toNat)
    (hhigh : c.toNat ≤ 122) :
    c.toUpper.toNat = c.toNat - 32 := by
  have hrange : c.val ≥ 'a'.val ∧ c.val ≤ 'z'.val := by
    simp only [ge_iff_le, UInt32.le_iff_toNat_le]
    exact ⟨hlow, hhigh⟩
  unfold Char.toUpper
  rw [dif_pos hrange]
  change (c.val + ('A'.val - 'a'.val)).toNat = c.val.toNat - 32
  rw [UInt32.toNat_add]
  change 97 ≤ c.val.toNat at hlow
  change c.val.toNat ≤ 122 at hhigh
  change (c.val.toNat + 4294967264) % 4294967296 = c.val.toNat - 32
  omega

/-- Characters of one lower case are equal, or one is the capital of the
other. -/
theorem eq_or_capital_of_toLower_eq (h : c.toLower = d.toLower) :
    c = d ∨
      (65 ≤ c.toNat ∧ c.toNat ≤ 90 ∧ d.toNat = c.toNat + 32) ∨
      (65 ≤ d.toNat ∧ d.toNat ≤ 90 ∧ c.toNat = d.toNat + 32) := by
  by_cases hc : 65 ≤ c.toNat ∧ c.toNat ≤ 90
  · have hlower := toNat_toLower_of_capital hc.1 hc.2
    by_cases hd : 65 ≤ d.toNat ∧ d.toNat ≤ 90
    · left
      rw [h, toNat_toLower_of_capital hd.1 hd.2] at hlower
      apply Char.toNat_inj.mp
      omega
    · right
      left
      rw [h, toLower_of_not_capital hd] at hlower
      exact ⟨hc.1, hc.2, hlower⟩
  · rw [toLower_of_not_capital hc] at h
    by_cases hd : 65 ≤ d.toNat ∧ d.toNat ≤ 90
    · right
      right
      rw [h]
      exact ⟨hd.1, hd.2, toNat_toLower_of_capital hd.1 hd.2⟩
    · left
      rw [h, toLower_of_not_capital hd]

theorem map_toLower_eq_self {cs : List Char} (h : ∀ c ∈ cs, c.toLower = c) :
    cs.map Char.toLower = cs := by
  have hid : cs.map Char.toLower = cs.map id := List.map_congr_left h
  rw [hid, List.map_id]

/-- Signs stand before all letters, and only a text of the same signs becomes
them in lower case. -/
theorem lowerAscii_eq_iff {s sign : String}
    (hsign : ∀ c ∈ sign.toList, c.toNat < 65) :
    lowerAscii s = sign ↔ s = sign := by
  constructor
  · intro hlower
    have hchars : s.toList.map Char.toLower = sign.toList := by
      rw [← hlower, lowerAscii, String.toList_map]
    have hkept : ∀ c ∈ s.toList, c.toLower = c := by
      intro c hc
      apply toLower_of_not_capital
      rintro ⟨hlow, hhigh⟩
      have hmem : c.toLower ∈ sign.toList := by
        rw [← hchars]
        exact List.mem_map_of_mem hc
      have hbefore := hsign c.toLower hmem
      rw [toNat_toLower_of_capital hlow hhigh] at hbefore
      omega
    apply String.toList_inj.mp
    rw [← hchars, map_toLower_eq_self hkept]
  · rintro rfl
    apply String.toList_inj.mp
    rw [lowerAscii, String.toList_map]
    apply map_toLower_eq_self
    intro c hc
    have hbefore := hsign c hc
    apply toLower_of_not_capital
    omega

end Text
end RuleBacktest
