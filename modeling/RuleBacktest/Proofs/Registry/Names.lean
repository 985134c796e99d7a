import RuleBacktest.Indicator.Registry
import RuleBacktest.Proofs.Text.AsciiCase

/-!
# Names in the table

No key of the table stands in it twice, and so a name leads to the family that
stands beside it.  A specification denotes an indicator when its name, without
blanks and in capitals, is a key, and there is no other reason for a refusal.
-/

namespace RuleBacktest
namespace Family

variable {family : Family} {name : String}

theorem lookup_table :
    ∀ entry ∈ table, table.lookup entry.1 = some entry.2 := by
  decide +kernel

theorem mem_names_iff : name ∈ names ↔ ∃ family, (name, family) ∈ table := by
  simp [names]

theorem ofName?_of_mem_table (h : (normalize name, family) ∈ table) :
    ofName? name = some family :=
  lookup_table _ h

theorem ofName?_of_not_mem_names (h : normalize name ∉ names) :
    ofName? name = none := by
  rw [ofName?, List.lookup_eq_none_iff]
  intro entry hentry
  rw [bne_iff_ne]
  intro hname
  exact h (hname ▸ List.mem_map_of_mem hentry)

/-- Keys are made of characters that stand before the small letters. -/
theorem all_capitals_names :
    names.all (fun key =>
      key.toList.all fun c =>
        !Text.isBlank c && decide (c.toNat < 97)) = true := by
  decide +kernel

/-- Every key is spelled as names are looked up. -/
theorem normalize_of_mem_names {key : String} (h : key ∈ names) :
    normalize key = key := by
  have hkey := List.all_eq_true.mp all_capitals_names key h
  have hchars : ∀ c ∈ key.toList, (!Text.isBlank c) = true ∧ c.toNat < 97 := by
    intro c hc
    simpa using List.all_eq_true.mp hkey c hc
  have hfilter : (key.toList.filter fun c => !Text.isBlank c) = key.toList := by
    rw [List.filter_eq_self]
    intro c hc
    exact (hchars c hc).1
  have hblanks : Text.removeBlanks key = key := by
    rw [Text.removeBlanks, hfilter, String.ofList_toList]
  have hcapitals : ∀ c ∈ key.toList, c.toUpper = c := by
    intro c hc
    have hbefore := (hchars c hc).2
    apply Text.toUpper_of_not_small
    omega
  apply String.toList_inj.mp
  rw [normalize, hblanks, Text.upperAscii, String.toList_map]
  exact (List.map_congr_left hcapitals).trans (List.map_id _)

end Family

namespace IndicatorSpec

variable {α : Type} [Scalar α] {family : Family} {spec : IndicatorSpec}

theorem resolve_of_mem_table
    (h : (Family.normalize spec.name, family) ∈ Family.table) :
    (spec.resolve : Except Failure (Indicator α)) =
      .ok (family.configure spec) := by
  rw [resolve, Family.ofName?_of_mem_table h]

/-- A key as it stands in the table leads to the family beside it. -/
theorem resolve_key {key : String} (params : List RuleParam)
    (h : (key, family) ∈ Family.table) :
    (resolve ⟨key, params⟩ : Except Failure (Indicator α)) =
      .ok (family.configure ⟨key, params⟩) := by
  apply resolve_of_mem_table
  rwa [Family.normalize_of_mem_names (Family.mem_names_iff.mpr ⟨family, h⟩)]

theorem exists_resolve_of_mem_names
    (h : Family.normalize spec.name ∈ Family.names) :
    ∃ i : Indicator α, spec.resolve = .ok i := by
  obtain ⟨family, hfamily⟩ := Family.mem_names_iff.mp h
  exact ⟨family.configure spec, resolve_of_mem_table hfamily⟩

theorem resolve_eq_error_iff {failure : Failure} :
    (spec.resolve : Except Failure (Indicator α)) = .error failure ↔
      failure = .unknownIndicator spec.name ∧
        Family.normalize spec.name ∉ Family.names := by
  by_cases hname : Family.normalize spec.name ∈ Family.names
  · obtain ⟨i, hi⟩ := exists_resolve_of_mem_names (α := α) hname
    simp [hi, hname]
  · rw [resolve, Family.ofName?_of_not_mem_names hname]
    simp [hname, eq_comm]

theorem resolve_close :
    (resolve ⟨"CLOSE", []⟩ : Except Failure (Indicator α)) =
      .ok (.price .close) := by
  have hkey : ("CLOSE", Family.price .close) ∈ Family.table := by
    simp [Family.table]
  exact resolve_key [] hkey

theorem resolve_opening :
    (resolve ⟨"OPEN", []⟩ : Except Failure (Indicator α)) =
      .ok (.price .opening) := by
  have hkey : ("OPEN", Family.price .opening) ∈ Family.table := by
    simp [Family.table]
  exact resolve_key [] hkey

end IndicatorSpec
end RuleBacktest
