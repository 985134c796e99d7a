import Mathlib.Data.List.Forall2
import Mathlib.Data.List.Nodup
import RuleBacktest.Json.Decode
import RuleBacktest.Proofs.Json.ReadBack

/-!
# Records of fields read back

How deeply a document is nested decides whether a reader that counts its depth
reaches all of it.  A record whose fields have different names gives every field
back, those included that were left out; a value reads back from what is written
of it when its parts do and the depth suffices, and nothing that is read is
written more deeply than it was found.
-/

namespace RuleBacktest
namespace Json

/-! ## Nesting -/

mutual

def nesting : Json → Nat
  | null => 0
  | bool _ => 0
  | number _ => 0
  | text _ => 0
  | list items => nestingOfItems items + 1
  | object fields => nestingOfFields fields + 1

def nestingOfItems : List Json → Nat
  | [] => 0
  | item :: items => max item.nesting (nestingOfItems items)

def nestingOfFields : List (Option String × Json) → Nat
  | [] => 0
  | (_, value) :: fields => max value.nesting (nestingOfFields fields)

end

theorem nestingOfItems_le_iff {items : List Json} {depth : Nat} :
    nestingOfItems items ≤ depth ↔ ∀ item ∈ items, item.nesting ≤ depth := by
  induction items with
  | nil => simp [nestingOfItems]
  | cons item items ih => simp [nestingOfItems, ih]

theorem nestingOfFields_le_iff {fields : List (Option String × Json)}
    {depth : Nat} :
    nestingOfFields fields ≤ depth ↔
      ∀ field ∈ fields, field.2.nesting ≤ depth := by
  induction fields with
  | nil => simp [nestingOfFields]
  | cons field fields ih =>
      obtain ⟨name, value⟩ := field
      simp [nestingOfFields, ih]

theorem nesting_list_le_iff {items : List Json} {depth : Nat} :
    (list items).nesting ≤ depth + 1 ↔
      ∀ item ∈ items, item.nesting ≤ depth := by
  rw [nesting, Nat.add_le_add_iff_right, nestingOfItems_le_iff]

theorem not_nesting_list_le_zero (items : List Json) :
    ¬ (list items).nesting ≤ 0 := by
  simp [nesting]

theorem arePlain_iff {items : List Json} :
    ArePlain items ↔ ∀ item ∈ items, item.IsPlain := by
  induction items with
  | nil => simp [ArePlain]
  | cons item items ih => simp [ArePlain, ih]

theorem havePlainFields_iff {fields : List (Option String × Json)} :
    HavePlainFields fields ↔
      ∀ field ∈ fields, field.1.isSome = true ∧ field.2.IsPlain := by
  induction fields with
  | nil => simp [HavePlainFields]
  | cons field fields ih =>
      obtain ⟨name, value⟩ := field
      simp [HavePlainFields, ih, and_assoc]

/-! ## Fields that may be left out -/

/-- The fields that have a value. -/
def present (slots : List (String × Option Json)) : List (String × Json) :=
  slots.flatMap fun slot => ifPresent slot.1 id slot.2

@[simp] theorem present_nil : present [] = [] := rfl

@[simp] theorem present_cons (name : String) (slot : Option Json)
    (slots : List (String × Option Json)) :
    present ((name, slot) :: slots) = ifPresent name id slot ++ present slots :=
  rfl

@[simp] theorem ifPresent_id_map {β : Type} (name : String) (write : β → Json)
    (x : Option β) :
    ifPresent name id (x.map write) = ifPresent name write x := by
  cases x <;> rfl

@[simp] theorem ifPresent_none {β : Type} (name : String) (write : β → Json) :
    ifPresent name write none = [] := rfl

@[simp] theorem ifPresent_some {β : Type} (name : String) (write : β → Json)
    (x : β) :
    ifPresent name write (some x) = [(name, write x)] :=
  rfl

variable {slots : List (String × Option Json)}

theorem mem_present {name : String} {value : Json} :
    (name, value) ∈ present slots ↔ (name, some value) ∈ slots := by
  simp only [present, List.mem_flatMap, Prod.exists]
  constructor
  · rintro ⟨name', slot, hmem, hfield⟩
    cases slot with
    | none => cases hfield
    | some value' =>
        cases List.mem_singleton.mp hfield
        exact hmem
  · intro hmem
    exact ⟨name, some value, hmem, List.mem_singleton_self _⟩

theorem nesting_record_le_iff {depth : Nat} :
    (record (present slots)).nesting ≤ depth + 1 ↔
      ∀ slot ∈ slots, ∀ value ∈ slot.2, value.nesting ≤ depth := by
  rw [record, nesting, Nat.add_le_add_iff_right, nestingOfFields_le_iff]
  simp only [List.forall_mem_map, Prod.forall, mem_present, Option.mem_def]
  constructor
  · rintro h name _ hmem value rfl
    exact h name value hmem
  · intro h name value hmem
    exact h name _ hmem value rfl

theorem not_nesting_record_le_zero (fields : List (String × Json)) :
    ¬ (record fields).nesting ≤ 0 := by
  simp [record, nesting]

theorem isPlain_record (h : ∀ slot ∈ slots, ∀ value ∈ slot.2, value.IsPlain) :
    (record (present slots)).IsPlain := by
  rw [record, IsPlain, havePlainFields_iff]
  simp only [List.forall_mem_map, Prod.forall, mem_present]
  intro name value hmem
  exact ⟨rfl, h _ hmem value rfl⟩

theorem occurrences_present_of_notMem {name : String}
    (h : name ∉ slots.map Prod.fst) :
    occurrences name ((present slots).map fun f => (some f.1, f.2)) = [] := by
  rw [occurrences, List.map_eq_nil_iff, List.filter_eq_nil_iff]
  simp only [List.forall_mem_map, Prod.forall, mem_present]
  intro other value hmem hname
  have hsame : other = name := by simpa using hname
  exact h (hsame ▸ List.mem_map_of_mem hmem)

/-- A field of a record whose fields have different names occurs as often as it
has a value. -/
theorem occurrences_present
    (hnames : (slots.map Prod.fst).Nodup)
    {slot : String × Option Json}
    (hslot : slot ∈ slots) :
    occurrences slot.1 ((present slots).map fun f => (some f.1, f.2)) =
      slot.2.toList := by
  induction slots with
  | nil => cases hslot
  | cons first rest ih =>
      obtain ⟨hfirst, hrest⟩ := List.nodup_cons.mp hnames
      have hsplit :
          occurrences slot.1
              ((present (first :: rest)).map fun f => (some f.1, f.2)) =
            occurrences slot.1
              ((ifPresent first.1 id first.2).map fun f => (some f.1, f.2)) ++
              occurrences slot.1
                ((present rest).map fun f => (some f.1, f.2)) := by
        simp [occurrences, present]
      rw [hsplit]
      rcases List.mem_cons.mp hslot with rfl | hslot
      · rw [occurrences_present_of_notMem hfirst, List.append_nil]
        cases slot.2 <;> simp [occurrences, ifPresent]
      · have hother : first.1 ≠ slot.1 := by
          intro hsame
          exact hfirst (hsame ▸ List.mem_map_of_mem hslot)
        rw [ih hrest hslot]
        cases first.2 <;> simp [occurrences, ifPresent, hother]

theorem members?_record (slots : List (String × Option Json))
    (hnames : (slots.map Prod.fst).Nodup) :
    members? (slots.map Prod.fst) (record (present slots)) =
      some (slots.map Prod.snd) := by
  have honce : (slots.map Prod.fst).all (fun n =>
      decide ((occurrences n
            ((present slots).map fun f =>
              (some f.1, f.2))).length ≤ 1)) = true := by
    rw [List.all_eq_true, List.forall_mem_map]
    intro slot hslot
    rw [occurrences_present hnames hslot]
    cases slot.2 <;> rfl
  have hnamed :
      ((present slots).map fun f => (some f.1, f.2)).all
        (fun f => f.1.isSome) = true := by
    simp
  have hvalues : ((slots.map Prod.fst).map fun n =>
      (occurrences n ((present slots).map fun f => (some f.1, f.2))).head?) =
          slots.map Prod.snd := by
    rw [List.map_map]
    apply List.map_congr_left
    intro slot hslot
    rw [Function.comp_apply, occurrences_present hnames hslot]
    cases slot.2 <;> rfl
  have hrecord : record (present slots) =
      .object ((present slots).map fun f => (some f.1, f.2)) :=
    rfl
  simp only [hrecord, members?]
  rw [hnamed, honce, hvalues]
  rfl

/-! ## Values read back -/

variable {β : Type} {write : β → Json} {read : Nat → Json → Option β}

/-- What is written of a value is a plain document, and reads back at any depth
that suffices. -/
structure ReadsBack (write : β → Json) (read : Nat → Json → Option β) (x : β) :
    Prop where
  plain : (write x).IsPlain
  not_null : write x ≠ .null
  read_write : ∀ depth, (write x).nesting ≤ depth →
    read depth (write x) = some x

/-- What is read at a depth is written within that depth. -/
def WrittenWithin (write : β → Json) (read : Nat → Json → Option β)
    (depth : Nat) : Prop :=
  ∀ j x, read depth j = some x → (write x).nesting ≤ depth

/-- A record reads back if, one level deeper, its reader finds the parts of the
value. -/
theorem readsBack_record {x : β} {slots : List (String × Option Json)}
    (hwrite : write x = record (present slots))
    (hplain : ∀ slot ∈ slots, ∀ value ∈ slot.2, value.IsPlain)
    (hread : ∀ depth,
      (∀ slot ∈ slots, ∀ value ∈ slot.2, value.nesting ≤ depth) →
      read (depth + 1) (write x) = some x) :
    ReadsBack write read x where
  plain := hwrite ▸ isPlain_record hplain
  not_null := by simp [hwrite, record]
  read_write depth hdepth := by
    cases depth with
    | zero =>
        rw [hwrite] at hdepth
        exact absurd hdepth (not_nesting_record_le_zero _)
    | succ depth =>
        rw [hwrite, nesting_record_le_iff] at hdepth
        exact hread depth hdepth

theorem mapM_eq_some_iff {γ : Type} {f : β → Option γ} {xs : List β}
    {ys : List γ} :
    xs.mapM f = some ys ↔ List.Forall₂ (fun x y => f x = some y) xs ys := by
  induction xs generalizing ys with
  | nil => cases ys <;> simp
  | cons x xs ih =>
      rw [List.mapM_cons]
      cases ys with
      | nil => cases f x <;> cases xs.mapM f <;> simp
      | cons y ys =>
          rw [List.forall₂_cons, ← ih]
          cases f x <;> cases xs.mapM f <;> simp

theorem readsBack_items {xs : List β} (h : ∀ x ∈ xs, ReadsBack write read x) :
    ReadsBack (fun xs => list (xs.map write)) (items? read) xs where
  plain := by
    rw [IsPlain, arePlain_iff, List.forall_mem_map]
    exact fun x hx => (h x hx).plain
  not_null := by simp
  read_write depth hdepth := by
    cases depth with
    | zero => exact absurd hdepth (not_nesting_list_le_zero _)
    | succ depth =>
        rw [nesting_list_le_iff, List.forall_mem_map] at hdepth
        rw [items?, mapM_eq_some_iff, List.forall₂_map_left_iff,
          List.forall₂_same]
        exact fun x hx => (h x hx).read_write depth (hdepth x hx)

theorem writtenWithin_items {depth : Nat}
    (h : ∀ d < depth, WrittenWithin write read d) :
    WrittenWithin (fun xs => list (xs.map write)) (items? read) depth := by
  intro j xs hread
  cases depth with
  | zero => cases j <;> cases hread
  | succ depth =>
      cases j with
      | list items =>
          rw [items?, mapM_eq_some_iff] at hread
          rw [nesting_list_le_iff, List.forall_mem_map]
          induction hread with
          | nil => simp
          | cons hfirst _ ih =>
              exact List.forall_mem_cons.mpr
                ⟨h depth (Nat.lt_succ_self depth) _ _ hfirst, ih⟩
      | _ => cases hread

theorem optional?_map {depth : Nat} {x : Option β}
    (h : ∀ y ∈ x, ReadsBack write read y)
    (hdepth : ∀ j ∈ x.map write, j.nesting ≤ depth) :
    optional? (read depth) (x.map write) = some x := by
  cases x with
  | none => rfl
  | some y =>
      have hy := h y rfl
      have hread := hy.read_write depth (hdepth _ rfl)
      rw [Option.map_some]
      cases hwritten : write y with
      | null => exact absurd hwritten hy.not_null
      | _ =>
          rw [hwritten] at hread
          simp [optional?, hread]

@[simp] theorem optional?_string (x : Option String) :
    optional? string? (x.map ofString) = some x := by
  cases x <;> rfl

@[simp] theorem optional?_scalarText (x : Option String) :
    optional? scalarText? (x.map ofString) = some x := by
  cases x <;> rfl

@[simp] theorem required?_string (s : String) :
    required? string? (some (ofString s)) = some s :=
  rfl

theorem nesting_ofString_map (x : Option String) (depth : Nat) :
    ∀ value ∈ x.map ofString, value.nesting ≤ depth := by
  cases x <;> simp [ofString, nesting]

theorem isPlain_ofString_map (x : Option String) :
    ∀ value ∈ x.map ofString, value.IsPlain := by
  cases x <;> simp [ofString, IsPlain]

theorem isPlain_map {x : Option β} (h : ∀ y ∈ x, ReadsBack write read y) :
    ∀ value ∈ x.map write, value.IsPlain := by
  intro value hvalue
  obtain ⟨y, hy, rfl⟩ := Option.map_eq_some_iff.mp hvalue
  exact (h y hy).plain

theorem optional?_orNull {depth : Nat} {x : Option β}
    (h : ∀ y ∈ x, ReadsBack write read y)
    (hdepth : (orNull write x).nesting ≤ depth) :
    optional? (read depth) (some (orNull write x)) = some x := by
  cases x with
  | none => rfl
  | some y =>
      apply optional?_map h
      intro j hj
      cases hj
      exact hdepth

theorem isPlain_orNull {x : Option β} (h : ∀ y ∈ x, ReadsBack write read y) :
    (orNull write x).IsPlain := by
  cases x with
  | none => simp [orNull, IsPlain]
  | some y => exact (h y rfl).plain

theorem WrittenWithin.optional {depth : Nat}
    (h : WrittenWithin write read depth)
    {slot : Option Json} {x : Option β}
    (hread : optional? (read depth) slot = some x) :
    ∀ j ∈ x.map write, j.nesting ≤ depth := by
  intro j hj
  obtain ⟨y, rfl, rfl⟩ := Option.map_eq_some_iff.mp hj
  cases slot with
  | none => cases hread
  | some document =>
      have hvalue : read depth document = some y := by
        cases document with
        | null => cases hread
        | _ => simpa [optional?] using hread
      exact h _ _ hvalue

theorem WrittenWithin.orNull {depth : Nat}
    (h : WrittenWithin write read depth)
    {slot : Option Json} {x : Option β}
    (hread : optional? (read depth) slot = some x) :
    (orNull write x).nesting ≤ depth := by
  cases x with
  | none => exact Nat.zero_le depth
  | some y => exact h.optional hread _ rfl

/-! ## Texts read back -/

theorem read?_compact_bind {x : β} (h : ReadsBack write read x) {depth : Nat}
    (hdepth : (write x).nesting ≤ depth) :
    (read? (write x).compact).bind (read depth) = some x := by
  rw [read?_compact h.plain]
  exact h.read_write depth hdepth

/-- What has been read is written in a way that reads back. -/
theorem reread_eq (h : ∀ x, ReadsBack write read x) {depth : Nat}
    (hwithin : WrittenWithin write read depth) {text : String} {x : β}
    (hread : (read? text).bind (read depth) = some x) :
    (read? (write x).compact).bind (read depth) = some x := by
  obtain ⟨j, _, hj⟩ := Option.bind_eq_some_iff.mp hread
  exact read?_compact_bind (h x) (hwithin j x hj)

end Json
end RuleBacktest
