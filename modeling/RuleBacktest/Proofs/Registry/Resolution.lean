import Mathlib.Logic.Relation
import RuleBacktest.Proofs.Keyed
import RuleBacktest.Proofs.Registry.Names
import RuleBacktest.Proofs.Registry.Settings
import RuleBacktest.Proofs.Text.Respelling
import RuleBacktest.Proofs.Text.Trimming

/-!
# Indicators that texts denote

The family that a name leads to reads its parameters by name, and of the
parameters of one name the first alone.  Whoever changes the spelling of the
name or of the parameters, or adds or removes parameters that are not read,
leaves the indicator as it is, and the parameters of one name have a say in one
setting.
-/

namespace RuleBacktest

open Scalar Text

variable {α : Type} [Scalar α]

/-! ## Parameters of one name -/

namespace Family

/-- Names of parameters are told apart without regard to case. -/
theorem nodup_lowerAscii_parameterNames (family : Family) :
    (family.parameterNames.map lowerAscii).Nodup := by
  cases family with
  | ichimoku line => cases line <;> decide +kernel
  | _ =>
      simp only [parameterNames]
      decide +kernel

end Family

def RuleParam.isCalled (p : RuleParam) (name : String) : Bool :=
  sameIgnoringAsciiCase p.name name

/-- The parameter is not the first one of any name that the family reads. -/
def Family.PassesOver (family : Family) (before : List RuleParam)
    (p : RuleParam) : Prop :=
  ∀ name ∈ family.parameterNames, p.isCalled name = true →
    ∃ q ∈ before, q.isCalled name = true

/-- The second parameter is the first with letters of its name in another case
and with blanks put around its value. -/
structure RuleParam.Respelled (p q : RuleParam) : Prop where
  name : lowerAscii q.name = lowerAscii p.name
  value : ∃ before after, q.value.toList = before ++ p.value.toList ++ after ∧
    ∀ c ∈ before ++ after, isBlank c = true

theorem RuleParam.Respelled.trim_value {p q : RuleParam} (h : p.Respelled q) :
    trim q.value = trim p.value := by
  obtain ⟨before, after, hvalue, hblank⟩ := h.value
  rw [trim, trim, hvalue, trimChars_append_append _ hblank]

namespace IndicatorSpec

variable {family : Family} {word name : String}
  {before after params : List RuleParam} {p q : RuleParam}

theorem trimmedParam?_eq (word name : String) (params : List RuleParam) :
    trimmedParam? ⟨word, params⟩ name =
      (params.find? fun p => p.isCalled name).map fun p => trim p.value := by
  rw [trimmedParam?, param?, Option.map_map]
  rfl

theorem trimmedParam?_of_respelled (h : p.Respelled q) :
    trimmedParam? ⟨word, before ++ q :: after⟩ name =
      trimmedParam? ⟨word, before ++ p :: after⟩ name := by
  have hcalled : q.isCalled name = p.isCalled name := by
    rw [RuleParam.isCalled, sameIgnoringAsciiCase, h.name]
    rfl
  rw [trimmedParam?_eq, trimmedParam?_eq, List.find?_append, List.find?_append,
    List.find?_cons, List.find?_cons, hcalled]
  cases before.find? fun p => p.isCalled name with
  | some earlier => rfl
  | none =>
      cases p.isCalled name with
      | true => exact congrArg some h.trim_value
      | false => rfl

theorem trimmedParam?_of_passesOver
    (h : family.PassesOver before p)
    (hname : name ∈ family.parameterNames) :
    trimmedParam? ⟨word, before ++ p :: after⟩ name =
      trimmedParam? ⟨word, before ++ after⟩ name := by
  rw [trimmedParam?_eq, trimmedParam?_eq, List.find?_append, List.find?_append,
    List.find?_cons]
  cases hcalled : p.isCalled name with
  | false => rfl
  | true =>
      obtain ⟨earlier, hfirst⟩ :
          ∃ earlier, (before.find? fun p => p.isCalled name) = some earlier :=
        Option.isSome_iff_exists.mp
          (List.find?_isSome.mpr (h name hname hcalled))
      rw [hfirst]
      rfl

/-- Parameters of another name are read alike, whatever becomes of those of one
name. -/
theorem trimmedParam?_of_filter_eq {spec : IndicatorSpec} {field : String}
    (h : (params.filter fun p => !p.isCalled name) =
      spec.params.filter fun p => !p.isCalled name)
    (hother : lowerAscii field ≠ lowerAscii name) :
    trimmedParam? ⟨spec.name, params⟩ field = spec.trimmedParam? field := by
  have hread (ps : List RuleParam) :
      ps.find? (fun p => p.isCalled field) =
        (ps.filter fun p => !p.isCalled name).find? fun p => p.isCalled field :=
    (find?_filter_key_of_ne (fun p : RuleParam => lowerAscii p.name)
      hother ps).symm
  rw [trimmedParam?_eq, hread, h, ← hread, ← trimmedParam?_eq spec.name]

end IndicatorSpec

/-! ## Edits -/

namespace Family

/-- One edit of a specification that the family does not take notice of. -/
inductive Edit (family : Family) : IndicatorSpec → IndicatorSpec → Prop where
  | respellName {name word : String} {params : List RuleParam}
      (spelling : Text.Respelled name.toList word.toList) :
      Edit family ⟨name, params⟩ ⟨word, params⟩
  | anotherKey {name key : String} {params : List RuleParam}
      (entry : (key, family) ∈ table) :
      Edit family ⟨name, params⟩ ⟨key, params⟩
  | respellParam {name : String} {before after : List RuleParam}
      {p q : RuleParam}
      (spelling : p.Respelled q) :
      Edit family ⟨name, before ++ p :: after⟩ ⟨name, before ++ q :: after⟩
  | addParam {name : String} {before after : List RuleParam} {p : RuleParam}
      (unread : family.PassesOver before p) :
      Edit family ⟨name, before ++ after⟩ ⟨name, before ++ p :: after⟩
  | removeParam {name : String} {before after : List RuleParam} {p : RuleParam}
      (unread : family.PassesOver before p) :
      Edit family ⟨name, before ++ p :: after⟩ ⟨name, before ++ after⟩

/-- What leads to the family under one specification leads to it under the
other, where it reads the same. -/
structure ReadsAlike (family : Family) (spec other : IndicatorSpec) : Prop where
  entry : (normalize spec.name, family) ∈ table →
    (normalize other.name, family) ∈ table
  params : ∀ name ∈ family.parameterNames,
    other.trimmedParam? name = spec.trimmedParam? name

variable {family : Family} {spec other : IndicatorSpec}

theorem Edit.readsAlike (h : family.Edit spec other) :
    family.ReadsAlike spec other := by
  cases h with
  | respellName spelling =>
      refine ⟨fun hentry => ?_, fun _ _ => rfl⟩
      rwa [normalize, spelling.upperAscii_removeBlanks]
  | anotherKey entry =>
      refine ⟨fun _ => ?_, fun _ _ => rfl⟩
      rwa [normalize_of_mem_names (mem_names_iff.mpr ⟨family, entry⟩)]
  | respellParam spelling =>
      exact ⟨id,
        fun name _ => IndicatorSpec.trimmedParam?_of_respelled spelling⟩
  | addParam unread =>
      exact ⟨id,
        fun name hname =>
          IndicatorSpec.trimmedParam?_of_passesOver unread hname⟩
  | removeParam unread =>
      exact ⟨id,
        fun name hname =>
          (IndicatorSpec.trimmedParam?_of_passesOver unread hname).symm⟩

theorem readsAlike_of_edits (h : Relation.ReflTransGen family.Edit spec other) :
    family.ReadsAlike spec other := by
  induction h with
  | refl => exact ⟨id, fun _ _ => rfl⟩
  | tail _ hedit ih =>
      have hlast := hedit.readsAlike
      exact ⟨fun hentry => hlast.entry (ih.entry hentry),
        fun name hname =>
          (hlast.params name hname).trans (ih.params name hname)⟩

theorem ReadsAlike.resolve_eq
    (h : family.ReadsAlike spec other)
    (hentry : (normalize spec.name, family) ∈ table) :
    (other.resolve : Except Failure (Indicator α)) =
      .ok (spec.adjust family.standard) := by
  have hsame : (other.adjust family.standard : Indicator α) =
      spec.adjust family.standard :=
    IndicatorSpec.adjust_congr fun s hs => h.params s.1 (mem_parameterNames hs)
  rw [IndicatorSpec.resolve_of_mem_table (h.entry hentry), configure_eq_adjust,
    hsame]

end Family

/-! ## Resolution -/

/-- Only a name that is not in the table is refused.  Any other specification
denotes the standard indicator of its family with the settings that its
parameters state, and none of these is unsound. Edits that the family does not
notice, one after the other, leave the indicator as it is.  Whatever becomes of
the parameters of one name that the family reads, the first of them included,
the indicators before and after differ at most in the setting of that name. -/
theorem IndicatorSpec.resolve_of_any_text (spec : IndicatorSpec) :
    (∀ failure,
        (spec.resolve : Except Failure (Indicator Float)) = .error failure ↔
        failure = .unknownIndicator spec.name ∧
          upperAscii (removeBlanks spec.name) ∉ Family.names) ∧
      ∀ family, (upperAscii (removeBlanks spec.name), family) ∈ Family.table →
        ∃ i : Indicator Float,
          spec.resolve = .ok i ∧
          i = spec.adjust family.standard ∧
          i.settings.map Prod.fst = family.parameterNames ∧
          (∀ s ∈ i.settings, s.2.IsSound) ∧
          (∀ other, Relation.ReflTransGen family.Edit spec other →
            other.resolve = .ok i) ∧
          ∀ name ∈ family.parameterNames, ∀ params : List RuleParam,
            (params.filter fun p => !p.isCalled name) =
              (spec.params.filter fun p => !p.isCalled name) →
            ∃ j : Indicator Float,
              IndicatorSpec.resolve ⟨spec.name, params⟩ = .ok j ∧
              j.without name = i.without name := by
  refine ⟨fun failure => resolve_eq_error_iff, fun family hentry => ?_⟩
  have hresolve (params : List RuleParam) :
      (resolve ⟨spec.name, params⟩ : Except Failure (Indicator Float)) =
        .ok (adjust ⟨spec.name, params⟩ family.standard) := by
    rw [← family.configure_eq_adjust]
    exact resolve_of_mem_table hentry
  refine ⟨spec.adjust family.standard, hresolve spec.params, rfl,
    family.map_fst_settings_adjust spec, family.isSound_adjust spec, ?_, ?_⟩
  · intro other hedits
    exact (Family.readsAlike_of_edits hedits).resolve_eq hentry
  · intro name hname params hparams
    refine ⟨adjust ⟨spec.name, params⟩ family.standard, hresolve params, ?_⟩
    apply without_adjust_congr
    intro s hs hother
    apply trimmedParam?_of_filter_eq hparams
    intro hsame
    exact hother
      (List.inj_on_of_nodup_map family.nodup_lowerAscii_parameterNames
        (Family.mem_parameterNames hs) hname hsame)

/-- The first period is no count, and so the period is the standard one,
although a count follows. -/
def IndicatorSpec.mistypedBands : IndicatorSpec :=
  ⟨"bollinger bands", [⟨"period", "7.5"⟩, ⟨"period", "7"⟩, ⟨"stdDev", "+3"⟩]⟩

theorem IndicatorSpec.resolve_of_any_text_mistypedBands :
    (mistypedBands.resolve : Except Failure (Indicator Float)) =
        .ok (.bollinger .upper 20 (Factor.of 3)) ∧
      (resolve ⟨"BOLLINGERUPPER", [⟨"PERIOD", "\t7.5 "⟩, ⟨"stdDev", "+3"⟩]⟩ :
          Except Failure (Indicator Float)) =
        .ok (.bollinger .upper 20 (Factor.of 3)) := by
  have hentry :
      (upperAscii (removeBlanks mistypedBands.name), Family.bollinger .upper) ∈
        Family.table := by
    decide +kernel
  have hkey : ("BOLLINGERUPPER", Family.bollinger .upper) ∈ Family.table := by
    decide +kernel
  have hunread : (Family.bollinger .upper).PassesOver [⟨"period", "7.5"⟩]
      ⟨"period", "7"⟩ :=
    fun _ _ hcalled => ⟨_, List.mem_singleton_self _, hcalled⟩
  have hname : lowerAscii "PERIOD" = lowerAscii "period" := by
    apply String.toList_inj.mp
    rw [lowerAscii, lowerAscii, String.toList_map, String.toList_map]
    rfl
  have hspelling : RuleParam.Respelled ⟨"period", "7.5"⟩ ⟨"PERIOD", "\t7.5 "⟩ :=
    ⟨hname, ['\t'], [' '], rfl, by simp [isBlank]⟩
  have hedits : Relation.ReflTransGen (Family.bollinger .upper).Edit
      mistypedBands
      ⟨"BOLLINGERUPPER", [⟨"PERIOD", "\t7.5 "⟩, ⟨"stdDev", "+3"⟩]⟩ := by
    apply Relation.ReflTransGen.tail
    · exact (Relation.ReflTransGen.single (.anotherKey hkey)).tail
        (.removeParam hunread)
    · exact @Family.Edit.respellParam _ _ [] _ _ _ hspelling
  have hbands : (mistypedBands.resolve : Except Failure (Indicator Float)) =
      .ok (.bollinger .upper 20 (Factor.of 3)) := by
    decide +kernel
  obtain ⟨i, hi, -, -, -, hsame, -⟩ :=
    (resolve_of_any_text mistypedBands).2 _ hentry
  refine ⟨hbands, ?_⟩
  rw [hsame _ hedits, ← hi, hbands]

end RuleBacktest
