import RuleBacktest.Backtest.Request
import RuleBacktest.Proofs.Json.Fields

/-!
# Rule trees read back from JSON

Requests, configured rules and saved strategies are written field by field in
the order in which their readers name the fields, so that each reads back from
what is written of it.  Reading never finds a value that would be written more
deeply than it was found; so what has been read once can be written and read
again, and stands for the same rule tree or fails for the same cause.
-/

namespace RuleBacktest

open Json

/-! ## Parameters -/

namespace RuleParam

def slots (p : RuleParam) : List (String × Option Json) :=
  [("name", some (ofString p.name)), ("value", some (ofString p.value))]

theorem toJson_eq (p : RuleParam) : p.toJson = record (present p.slots) :=
  rfl

theorem members?_toJson (p : RuleParam) :
    members? ["name", "value"] p.toJson =
      some [some (ofString p.name), some (ofString p.value)] := by
  rw [toJson_eq]
  exact members?_record p.slots (by simp [slots])

theorem readsBack (p : RuleParam) : ReadsBack toJson ofJson? p := by
  apply readsBack_record p.toJson_eq
  · simp [slots, ofString, IsPlain]
  · intro depth _
    rw [ofJson?, members?_toJson]
    rfl

theorem writtenWithin (depth : Nat) : WrittenWithin toJson ofJson? depth := by
  intro j p hread
  cases depth with
  | zero => cases hread
  | succ depth =>
      rw [toJson_eq, nesting_record_le_iff]
      simp [slots, ofString, nesting]

theorem readsBack_list (ps : List RuleParam) :
    ReadsBack listToJson (items? ofJson?) ps := by
  apply readsBack_items
  intro p _
  exact readsBack p

theorem writtenWithin_list (depth : Nat) :
    WrittenWithin listToJson (items? ofJson?) depth := by
  apply writtenWithin_items
  intro inner _
  exact writtenWithin inner

end RuleParam

/-! ## Nodes of the request form -/

theorem RuleConfig.toJsons_eq (rules : List RuleConfig) :
    RuleConfig.toJsons rules = rules.map RuleConfig.toJson := by
  induction rules with
  | nil => rfl
  | cons rule rules ih => rw [RuleConfig.toJsons, ih, List.map_cons]

theorem RuleConfig.listOfJson?_eq :
    RuleConfig.listOfJson? = items? RuleConfig.ofJson? := by
  funext depth j
  cases depth with
  | zero => cases j <;> rfl
  | succ depth => cases j <;> simp [RuleConfig.listOfJson?, items?]

namespace RuleConfig

/-- What is written of a list of nodes. -/
def rulesToJson (rules : List RuleConfig) : Json :=
  .list (rules.map toJson)

def slots (fields : RuleFields) (rules : Option (List RuleConfig)) :
    List (String × Option Json) :=
  [("indicator", fields.indicator.map ofString),
    ("params", fields.params.map RuleParam.listToJson),
    ("operator", fields.operator.map ofString),
    ("compareType", fields.compareType.map ofString),
    ("value", fields.value.map ofString),
    ("compareIndicator", fields.compareIndicator.map ofString),
    ("compareParams", fields.compareParams.map RuleParam.listToJson),
    ("condition", fields.condition.map ofString),
    ("rules", rules.map rulesToJson)]

theorem toJson_eq (fields : RuleFields) (rules : Option (List RuleConfig)) :
    (node fields rules).toJson = record (present (slots fields rules)) := by
  cases rules with
  | none => simp [toJson, RuleFields.beforeRules, slots]
  | some rules =>
      simp [toJson, RuleFields.beforeRules, slots, toJsons_eq, rulesToJson]

theorem members?_toJson (fields : RuleFields)
    (rules : Option (List RuleConfig)) :
    members? ["indicator", "params", "operator", "compareType", "value",
        "compareIndicator", "compareParams", "condition", "rules"]
        (node fields rules).toJson =
      some ((slots fields rules).map Prod.snd) := by
  rw [toJson_eq]
  exact members?_record (slots fields rules) (by simp [slots])

theorem readsBack_node {fields : RuleFields} {rules : Option (List RuleConfig)}
    (hrules : ∀ rs ∈ rules, ReadsBack rulesToJson (items? ofJson?) rs) :
    ReadsBack toJson ofJson? (node fields rules) := by
  apply readsBack_record (toJson_eq fields rules)
  · have hparams : ∀ x : Option (List RuleParam),
        ∀ value ∈ x.map RuleParam.listToJson, value.IsPlain :=
      fun x => isPlain_map fun ps _ => RuleParam.readsBack_list ps
    simp only [slots, List.forall_mem_cons]
    exact ⟨isPlain_ofString_map _, hparams _, isPlain_ofString_map _,
      isPlain_ofString_map _, isPlain_ofString_map _, isPlain_ofString_map _,
      hparams _, isPlain_ofString_map _, isPlain_map hrules, by simp⟩
  · intro depth hdepth
    simp only [slots, List.forall_mem_cons] at hdepth
    obtain ⟨_, hparams, _, _, _, _, hcompareParams, _, hnested, _⟩ := hdepth
    have hread : ∀ x : Option (List RuleParam),
        (∀ j ∈ x.map RuleParam.listToJson, j.nesting ≤ depth) →
        optional? (items? RuleParam.ofJson? depth)
          (x.map RuleParam.listToJson) = some x :=
      fun x => optional?_map fun ps _ => RuleParam.readsBack_list ps
    rw [ofJson?, members?_toJson, listOfJson?_eq]
    simp [slots, hread _ hparams, hread _ hcompareParams,
      optional?_map hrules hnested]

mutual

theorem readsBack : ∀ rule : RuleConfig, ReadsBack toJson ofJson? rule
  | .node fields none => readsBack_node (by simp)
  | .node fields (some rules) => by
      apply readsBack_node
      rintro _ ⟨⟩
      exact readsBack_items (readsBack_all rules)

theorem readsBack_all :
    ∀ rules : List RuleConfig, ∀ rule ∈ rules, ReadsBack toJson ofJson? rule
  | [] => by simp
  | rule :: rules =>
      List.forall_mem_cons.mpr ⟨readsBack rule, readsBack_all rules⟩

end

theorem readsBack_rules (rules : List RuleConfig) :
    ReadsBack rulesToJson (items? ofJson?) rules :=
  readsBack_items (readsBack_all rules)

/-- Everything inside a node is found one level deeper than the node. -/
theorem writtenWithin_succ {depth : Nat}
    (hrules : WrittenWithin rulesToJson (items? ofJson?) depth) :
    WrittenWithin toJson ofJson? (depth + 1) := by
  intro j rule hread
  rw [ofJson?, listOfJson?_eq] at hread
  split at hread
  next =>
    simp only [Option.bind_eq_bind, Option.bind_eq_some_iff,
      Option.some.injEq] at hread
    obtain ⟨_, _, _, hparams, _, _, _, _, _, _, _, _, _, hcompareParams, _, _,
        _, hnested, rfl⟩ :=
      hread
    have hlist := RuleParam.writtenWithin_list depth
    rw [toJson_eq, nesting_record_le_iff]
    simp only [slots, List.forall_mem_cons]
    exact ⟨nesting_ofString_map _ _, hlist.optional hparams,
      nesting_ofString_map _ _, nesting_ofString_map _ _,
      nesting_ofString_map _ _, nesting_ofString_map _ _,
      hlist.optional hcompareParams, nesting_ofString_map _ _,
      hrules.optional hnested, by simp⟩
  next => cases hread

theorem writtenWithin (depth : Nat) : WrittenWithin toJson ofJson? depth := by
  induction depth using Nat.strongRecOn with
  | ind depth ih =>
      cases depth with
      | zero =>
          intro j rule hread
          cases hread
      | succ depth =>
          apply writtenWithin_succ
          exact writtenWithin_items fun d hd => ih d (by omega)

theorem writtenWithin_rules (depth : Nat) :
    WrittenWithin rulesToJson (items? ofJson?) depth := by
  apply writtenWithin_items
  intro inner _
  exact writtenWithin inner

end RuleConfig

/-! ## Configured rules -/

namespace RulesConfig

def slots (c : RulesConfig) : List (String × Option Json) :=
  [("condition", c.condition.map ofString),
    ("rules", c.rules.map RuleConfig.rulesToJson)]

theorem toJson_eq (c : RulesConfig) : c.toJson = record (present c.slots) := by
  have hrules : (fun rules => .list (RuleConfig.toJsons rules)) =
      RuleConfig.rulesToJson := by
    funext rules
    rw [RuleConfig.toJsons_eq, RuleConfig.rulesToJson]
  simp [toJson, slots, hrules]

theorem members?_toJson (c : RulesConfig) :
    members? ["condition", "rules"] c.toJson = some (c.slots.map Prod.snd) := by
  rw [toJson_eq]
  exact members?_record c.slots (by simp [slots])

theorem readsBack (c : RulesConfig) : ReadsBack toJson ofJson? c := by
  apply readsBack_record c.toJson_eq
  · simp only [slots, List.forall_mem_cons]
    exact ⟨isPlain_ofString_map _,
      isPlain_map fun rs _ => RuleConfig.readsBack_rules rs, by simp⟩
  · intro depth hdepth
    simp only [slots, List.forall_mem_cons] at hdepth
    have hread :=
      optional?_map (fun rs _ => RuleConfig.readsBack_rules rs) hdepth.2.1
    rw [ofJson?, members?_toJson, RuleConfig.listOfJson?_eq]
    simp [slots, hread]

theorem writtenWithin (depth : Nat) : WrittenWithin toJson ofJson? depth := by
  intro j c hread
  cases depth with
  | zero => cases hread
  | succ depth =>
      rw [ofJson?, RuleConfig.listOfJson?_eq] at hread
      split at hread
      next =>
        simp only [Option.bind_eq_bind, Option.bind_eq_some_iff,
          Option.some.injEq] at hread
        obtain ⟨_, _, _, hrules, rfl⟩ := hread
        rw [toJson_eq, nesting_record_le_iff]
        simp only [slots, List.forall_mem_cons]
        exact ⟨nesting_ofString_map _ _,
          (RuleConfig.writtenWithin_rules depth).optional hrules, by simp⟩
      next => cases hread

end RulesConfig

/-! ## Nodes of the saved form -/

namespace SavedNode

theorem toJsons_eq (nodes : List SavedNode) :
    toJsons nodes = nodes.map toJson := by
  induction nodes with
  | nil => rfl
  | cons first rest ih => rw [toJsons, ih, List.map_cons]

theorem listOfJson?_eq : listOfJson? = items? ofJson? := by
  funext depth j
  cases depth with
  | zero => cases j <;> rfl
  | succ depth => cases j <;> simp [listOfJson?, items?]

/-- What is written of a list of nodes. -/
def nodesToJson (nodes : List SavedNode) : Json :=
  .list (nodes.map toJson)

def slots (kind condition : Option String) (nodes : Option (List SavedNode))
    (rule : Option RuleConfig) : List (String × Option Json) :=
  [("type", kind.map ofString), ("condition", condition.map ofString),
    ("rules", nodes.map nodesToJson), ("rule", rule.map RuleConfig.toJson)]

theorem toJson_eq (kind condition : Option String)
    (nodes : Option (List SavedNode)) (rule : Option RuleConfig) :
    (node kind condition nodes rule).toJson =
      record (present (slots kind condition nodes rule)) := by
  cases nodes with
  | none => simp [toJson, slots]
  | some nodes => simp [toJson, slots, toJsons_eq, nodesToJson]

theorem members?_toJson (kind condition : Option String)
    (nodes : Option (List SavedNode)) (rule : Option RuleConfig) :
    members? ["type", "condition", "rules", "rule"]
        (node kind condition nodes rule).toJson =
      some ((slots kind condition nodes rule).map Prod.snd) := by
  rw [toJson_eq]
  exact members?_record (slots kind condition nodes rule) (by simp [slots])

theorem readsBack_node {kind condition : Option String}
    {nodes : Option (List SavedNode)} {rule : Option RuleConfig}
    (hnodes : ∀ ns ∈ nodes, ReadsBack nodesToJson (items? ofJson?) ns) :
    ReadsBack toJson ofJson? (node kind condition nodes rule) := by
  have hrule : ∀ r ∈ rule, ReadsBack RuleConfig.toJson RuleConfig.ofJson? r :=
    fun r _ => RuleConfig.readsBack r
  apply readsBack_record (toJson_eq kind condition nodes rule)
  · simp only [slots, List.forall_mem_cons]
    exact ⟨isPlain_ofString_map _, isPlain_ofString_map _, isPlain_map hnodes,
      isPlain_map hrule, by simp⟩
  · intro depth hdepth
    simp only [slots, List.forall_mem_cons] at hdepth
    obtain ⟨_, _, hnested, hruleDepth, _⟩ := hdepth
    rw [ofJson?, members?_toJson, listOfJson?_eq]
    simp [slots, optional?_map hnodes hnested, optional?_map hrule hruleDepth]

mutual

theorem readsBack : ∀ saved : SavedNode, ReadsBack toJson ofJson? saved
  | .node kind condition none rule => readsBack_node (by simp)
  | .node kind condition (some nodes) rule => by
      apply readsBack_node
      rintro _ ⟨⟩
      exact readsBack_items (readsBack_all nodes)

theorem readsBack_all :
    ∀ nodes : List SavedNode, ∀ saved ∈ nodes, ReadsBack toJson ofJson? saved
  | [] => by simp
  | first :: rest =>
      List.forall_mem_cons.mpr ⟨readsBack first, readsBack_all rest⟩

end

theorem readsBack_nodes (nodes : List SavedNode) :
    ReadsBack nodesToJson (items? ofJson?) nodes :=
  readsBack_items (readsBack_all nodes)

theorem writtenWithin_succ {depth : Nat}
    (hnodes : WrittenWithin nodesToJson (items? ofJson?) depth) :
    WrittenWithin toJson ofJson? (depth + 1) := by
  intro j saved hread
  rw [ofJson?, listOfJson?_eq] at hread
  split at hread
  next =>
    simp only [Option.bind_eq_bind, Option.bind_eq_some_iff,
      Option.some.injEq] at hread
    obtain ⟨_, _, _, _, _, hnested, _, hrule, rfl⟩ := hread
    rw [toJson_eq, nesting_record_le_iff]
    simp only [slots, List.forall_mem_cons]
    exact ⟨nesting_ofString_map _ _, nesting_ofString_map _ _,
      hnodes.optional hnested, (RuleConfig.writtenWithin depth).optional hrule,
      by simp⟩
  next => cases hread

theorem writtenWithin (depth : Nat) : WrittenWithin toJson ofJson? depth := by
  induction depth using Nat.strongRecOn with
  | ind depth ih =>
      cases depth with
      | zero =>
          intro j saved hread
          cases hread
      | succ depth =>
          apply writtenWithin_succ
          exact writtenWithin_items fun d hd => ih d (by omega)

theorem writtenWithin_nodes (depth : Nat) :
    WrittenWithin nodesToJson (items? ofJson?) depth := by
  apply writtenWithin_items
  intro inner _
  exact writtenWithin inner

end SavedNode

/-! ## Saved strategies -/

namespace SavedGroup

def slots (g : SavedGroup) : List (String × Option Json) :=
  [("condition", g.condition.map ofString),
    ("rules", g.rules.map SavedNode.nodesToJson)]

theorem toJson_eq (g : SavedGroup) : g.toJson = record (present g.slots) := by
  have hnodes : (fun nodes => .list (SavedNode.toJsons nodes)) =
      SavedNode.nodesToJson := by
    funext nodes
    rw [SavedNode.toJsons_eq, SavedNode.nodesToJson]
  simp [toJson, slots, hnodes]

theorem members?_toJson (g : SavedGroup) :
    members? ["condition", "rules"] g.toJson = some (g.slots.map Prod.snd) := by
  rw [toJson_eq]
  exact members?_record g.slots (by simp [slots])

theorem readsBack (g : SavedGroup) : ReadsBack toJson ofJson? g := by
  apply readsBack_record g.toJson_eq
  · simp only [slots, List.forall_mem_cons]
    exact ⟨isPlain_ofString_map _,
      isPlain_map fun ns _ => SavedNode.readsBack_nodes ns, by simp⟩
  · intro depth hdepth
    simp only [slots, List.forall_mem_cons] at hdepth
    have hread :=
      optional?_map (fun ns _ => SavedNode.readsBack_nodes ns) hdepth.2.1
    rw [ofJson?, members?_toJson, SavedNode.listOfJson?_eq]
    simp [slots, hread]

theorem writtenWithin (depth : Nat) : WrittenWithin toJson ofJson? depth := by
  intro j g hread
  cases depth with
  | zero => cases hread
  | succ depth =>
      rw [ofJson?, SavedNode.listOfJson?_eq] at hread
      split at hread
      next =>
        simp only [Option.bind_eq_bind, Option.bind_eq_some_iff,
          Option.some.injEq] at hread
        obtain ⟨_, _, _, hnodes, rfl⟩ := hread
        rw [toJson_eq, nesting_record_le_iff]
        simp only [slots, List.forall_mem_cons]
        exact ⟨nesting_ofString_map _ _,
          (SavedNode.writtenWithin_nodes depth).optional hnodes, by simp⟩
      next => cases hread

end SavedGroup

namespace SavedStrategy

def slots (s : SavedStrategy) : List (String × Option Json) :=
  [("entryRules", some (orNull SavedGroup.toJson s.entryRules)),
    ("exitRules", some (orNull SavedGroup.toJson s.exitRules))]

theorem toJson_eq (s : SavedStrategy) : s.toJson = record (present s.slots) :=
  rfl

theorem members?_toJson (s : SavedStrategy) :
    members? ["entryRules", "exitRules"] s.toJson =
      some (s.slots.map Prod.snd) := by
  rw [toJson_eq]
  exact members?_record s.slots (by simp [slots])

theorem readsBack (s : SavedStrategy) : ReadsBack toJson ofJson? s := by
  have hgroup : ∀ group : Option SavedGroup, ∀ g ∈ group,
      ReadsBack SavedGroup.toJson SavedGroup.ofJson? g :=
    fun _ g _ => g.readsBack
  apply readsBack_record s.toJson_eq
  · simpa [slots] using ⟨isPlain_orNull (hgroup s.entryRules),
      isPlain_orNull (hgroup s.exitRules)⟩
  · intro depth hdepth
    simp only [slots, List.forall_mem_cons, Option.mem_some_iff,
      forall_eq'] at hdepth
    have hentry := optional?_orNull (hgroup s.entryRules) hdepth.1
    have hexit := optional?_orNull (hgroup s.exitRules) hdepth.2.1
    rw [ofJson?, members?_toJson]
    simp [slots, hentry, hexit]

theorem writtenWithin (depth : Nat) : WrittenWithin toJson ofJson? depth := by
  intro j s hread
  cases depth with
  | zero => cases hread
  | succ depth =>
      rw [ofJson?] at hread
      split at hread
      next =>
        simp only [Option.bind_eq_bind, Option.bind_eq_some_iff,
          Option.some.injEq] at hread
        obtain ⟨_, hentry, _, hexit, rfl⟩ := hread
        have hgroup := SavedGroup.writtenWithin depth
        rw [toJson_eq, nesting_record_le_iff]
        simpa [slots] using ⟨hgroup.orNull hentry, hgroup.orNull hexit⟩
      next => cases hread

end SavedStrategy

/-! ## Requests -/

namespace BacktestRequest

def slots (r : BacktestRequest) : List (String × Option Json) :=
  [("stockSymbol", some (ofString r.stockSymbol)),
    ("range", some (ofString r.range)),
    ("interval", some (ofString r.interval)),
    ("entry", some (orNull RulesConfig.toJson r.entry)),
    ("exit", some (orNull RulesConfig.toJson r.exit))]

theorem toJson_eq (r : BacktestRequest) : r.toJson = record (present r.slots) :=
  rfl

theorem members?_toJson (r : BacktestRequest) :
    members? ["stockSymbol", "range", "interval", "entry", "exit"] r.toJson =
      some (r.slots.map Prod.snd) := by
  rw [toJson_eq]
  exact members?_record r.slots (by simp [slots])

theorem readsBack (r : BacktestRequest) : ReadsBack toJson ofJson? r := by
  have hrules : ∀ rules : Option RulesConfig, ∀ c ∈ rules,
      ReadsBack RulesConfig.toJson RulesConfig.ofJson? c :=
    fun _ c _ => c.readsBack
  apply readsBack_record r.toJson_eq
  · have hentry := isPlain_orNull (hrules r.entry)
    have hexit := isPlain_orNull (hrules r.exit)
    simp [slots, hentry, hexit, ofString, IsPlain]
  · intro depth hdepth
    simp only [slots, List.forall_mem_cons, Option.mem_some_iff,
      forall_eq'] at hdepth
    have hentry := optional?_orNull (hrules r.entry) hdepth.2.2.2.1
    have hexit := optional?_orNull (hrules r.exit) hdepth.2.2.2.2.1
    rw [ofJson?, members?_toJson]
    simp [slots, hentry, hexit]

theorem writtenWithin (depth : Nat) : WrittenWithin toJson ofJson? depth := by
  intro j r hread
  cases depth with
  | zero => cases hread
  | succ depth =>
      rw [ofJson?] at hread
      split at hread
      next =>
        simp only [Option.bind_eq_bind, Option.bind_eq_some_iff,
          Option.some.injEq] at hread
        obtain ⟨_, _, _, _, _, _, _, hentry, _, hexit, rfl⟩ := hread
        have hrules := RulesConfig.writtenWithin depth
        have hentryDepth := hrules.orNull hentry
        have hexitDepth := hrules.orNull hexit
        rw [toJson_eq, nesting_record_le_iff]
        simp [slots, hentryDepth, hexitDepth, ofString, nesting]
      next => cases hread

theorem ofText_eq_ok_iff {text : String} {r : BacktestRequest} :
    ofText text = .ok r ↔ (read? text).bind (ofJson? depthLimit) = some r := by
  rw [ofText]
  split <;> simp [*]

end BacktestRequest

theorem SavedStrategy.ofText_eq_ok_iff {text : String} {s : SavedStrategy} :
    ofText text = .ok s ↔ (read? text).bind (ofJson? depthLimit) = some s := by
  rw [ofText]
  split <;> simp [*]

/-! ## The texts of all three forms -/

/-- What becomes of the rules of a text: for each a tree, or the cause for which
there is none. -/
def BacktestRequest.treesOfText (text : String) :
    Except Failure (List (Except Failure RuleGroup)) :=
  (BacktestRequest.ofText text).map fun r =>
    [RulesConfig.groupOf r.entry, RulesConfig.groupOf r.exit]

def SavedStrategy.treesOfText (text : String) :
    Except Failure (List (Except Failure RuleGroup)) :=
  (SavedStrategy.ofText text).map fun s =>
    [RulesConfig.groupOf s.entryConfig, RulesConfig.groupOf s.exitConfig]

/-- Values are read back from their texts, and so is whatever has been read of
any text. -/
theorem wire_forms_read_back :
    (∀ r : BacktestRequest, r.toJson.nesting ≤ depthLimit →
        BacktestRequest.ofText r.toJson.compact = .ok r) ∧
      (∀ c : RulesConfig, c.toJson.nesting ≤ depthLimit →
        RulesConfig.ofText? c.toJson.compact = some c) ∧
      (∀ s : SavedStrategy, s.toJson.nesting ≤ depthLimit →
        SavedStrategy.ofText s.toJson.compact = .ok s) ∧
      ∀ text,
        (∀ r, BacktestRequest.ofText text = .ok r →
          BacktestRequest.ofText r.toJson.compact = .ok r ∧
            BacktestRequest.treesOfText r.toJson.compact =
              BacktestRequest.treesOfText text) ∧
        (∀ c, RulesConfig.ofText? text = some c →
          RulesConfig.ofText? c.toJson.compact = some c ∧
            (RulesConfig.ofText? c.toJson.compact).map RulesConfig.toGroup =
              (RulesConfig.ofText? text).map RulesConfig.toGroup) ∧
        ∀ s, SavedStrategy.ofText text = .ok s →
          SavedStrategy.ofText s.toJson.compact = .ok s ∧
            SavedStrategy.treesOfText s.toJson.compact =
              SavedStrategy.treesOfText text := by
  refine ⟨?_, ?_, ?_, ?_⟩
  · intro r hdepth
    exact BacktestRequest.ofText_eq_ok_iff.mpr
      (read?_compact_bind r.readsBack hdepth)
  · intro c hdepth
    exact read?_compact_bind c.readsBack hdepth
  · intro s hdepth
    exact SavedStrategy.ofText_eq_ok_iff.mpr
      (read?_compact_bind s.readsBack hdepth)
  · intro text
    refine ⟨?_, ?_, ?_⟩
    · intro r hread
      have hagain : BacktestRequest.ofText r.toJson.compact = .ok r :=
        BacktestRequest.ofText_eq_ok_iff.mpr
          (reread_eq BacktestRequest.readsBack
            (BacktestRequest.writtenWithin depthLimit)
            (BacktestRequest.ofText_eq_ok_iff.mp hread))
      refine ⟨hagain, ?_⟩
      rw [BacktestRequest.treesOfText, BacktestRequest.treesOfText, hagain,
        hread]
    · intro c hread
      have hagain : RulesConfig.ofText? c.toJson.compact = some c :=
        reread_eq RulesConfig.readsBack
          (RulesConfig.writtenWithin depthLimit) hread
      refine ⟨hagain, ?_⟩
      rw [hagain, hread]
    · intro s hread
      have hagain : SavedStrategy.ofText s.toJson.compact = .ok s :=
        SavedStrategy.ofText_eq_ok_iff.mpr
          (reread_eq SavedStrategy.readsBack
            (SavedStrategy.writtenWithin depthLimit)
            (SavedStrategy.ofText_eq_ok_iff.mp hread))
      refine ⟨hagain, ?_⟩
      rw [SavedStrategy.treesOfText, SavedStrategy.treesOfText, hagain, hread]

/-- A request with a group inside its rules, an empty list of parameters and
nothing to leave by. -/
def nestedRequest : BacktestRequest :=
  ⟨"ACMÉ \"x\"\n", "1y", "1d",
    some ⟨some "OR",
      some [.node
          { indicator := some "RSI", params := some [⟨"period", "14"⟩],
            operator := some "<", value := some "30" } none,
        .node { condition := some "AND" }
          (some [.node { indicator := some "CLOSE", params := some [] }
              (some [])])]⟩, none⟩

theorem wire_forms_read_back_nested :
    nestedRequest.toJson.nesting ≤ depthLimit ∧
      BacktestRequest.ofText nestedRequest.toJson.compact = .ok nestedRequest ∧
      ∀ r, BacktestRequest.ofText nestedRequest.toJson.compact = .ok r →
        BacktestRequest.treesOfText r.toJson.compact =
          BacktestRequest.treesOfText nestedRequest.toJson.compact := by
  have hdepth : nestedRequest.toJson.nesting ≤ depthLimit := by
    decide
  obtain ⟨hrequest, _, _, hagain⟩ := wire_forms_read_back
  exact ⟨hdepth, hrequest nestedRequest hdepth,
    fun r hread => ((hagain nestedRequest.toJson.compact).1 r hread).2⟩

end RuleBacktest
