/-
# A rule written in two forms

A rule can be written as a record and as an entry of the older form. `interchangeable_forms_iff`
says of which rules it makes no difference: the older form forgets the precedence of a rule without
renames and transforms, and puts into lower case the texts to be replaced, as the lookup of a value
does, while a record keeps them as they are written and so may hold some that are never met.
-/

import Mathlib.Data.List.Nodup
import Rolewright.Proofs.Mapping.Lookup

namespace Rolewright.Mapping

open Text

/-- What both forms write down. Each table is in the order of its names, as it is in any document
that was read. -/
structure WrittenRule where
  source : String
  target : String
  renames : Entries String
  transforms : Entries (Entries String)
  precedence : Int
  renames_ordered : renames.keys.Pairwise (· < ·)
  transforms_ordered : transforms.keys.Pairwise (· < ·)
  table_ordered : ∀ entry ∈ transforms, entry.2.keys.Pairwise (· < ·)
  /-- The word under which the older form holds the transforms names no property. -/
  unreserved : "value_mapping" ∉ renames.keys
  precedence_fits : -(Int.pow 2 31) ≤ precedence ∧ precedence < Int.pow 2 31

/-- A map of texts in a document. -/
def textMap (texts : Entries String) : List (String × Json) :=
  texts.map fun (name, text) => (name, .str text)

/-- The transforms in a document. -/
def tableMap (tables : Entries (Entries String)) : List (String × Json) :=
  tables.map fun (property, table) => (property, .obj (textMap table))

/-- A table with the texts to be replaced in lower case. Of several that become the same the last
one holds. -/
def lowered (table : Entries String) : Entries String :=
  table.foldl (fun entries (raw, target) => entries.put (lowerString raw) target) []

namespace WrittenRule

/-- The rule that is meant. -/
def rule (w : WrittenRule) : Rule :=
  { source := w.source, target := w.target, renames := w.renames, transforms := w.transforms,
    precedence := w.precedence }

/-- Whether the rule only names a module. -/
def isPlain (w : WrittenRule) : Bool :=
  w.renames.isEmpty && w.transforms.isEmpty

/-- The rule as a record. -/
def record (w : WrittenRule) : Json :=
  .obj [("precedence", .int w.precedence), ("property_renames", .obj (textMap w.renames)),
    ("source_type", .str w.source), ("target_primitive", .str w.target),
    ("value_transforms", .obj (tableMap w.transforms))]

/-- The renames that stand before the transforms in the older form. -/
def renamesBefore (w : WrittenRule) : Entries String :=
  w.renames.takeWhile (·.1 < "value_mapping")

/-- The renames that stand after the transforms in the older form. -/
def renamesAfter (w : WrittenRule) : Entries String :=
  w.renames.dropWhile (·.1 < "value_mapping")

/-- The map of properties of the older form: the renames, and the transforms under a word of their
own. -/
def properties (w : WrittenRule) : List (String × Json) :=
  textMap w.renamesBefore ++
    ("value_mapping", .obj (tableMap w.transforms)) :: textMap w.renamesAfter

/-- The rule as an entry of the older form, which has no map of properties when there is nothing to
put into it. -/
def olderEntry (w : WrittenRule) : Json :=
  .obj ([("ansible_module", .str w.target), ("precedence", .int w.precedence)] ++
    if w.isPlain then [] else [("property_mapping", .obj w.properties)])

/-- What the older form is read as. -/
def olderReading (w : WrittenRule) : Rule :=
  { w.rule with
    transforms := w.transforms.map fun (property, table) => (property, lowered table)
    precedence := if w.isPlain then 0 else w.precedence }

/-- The rules of a document with the rule as its only record. -/
def recordRules (w : WrittenRule) : List Rule :=
  (Registration.document (.arr [w.record])).rules

/-- The rules of a document with the rule as the only entry of the older form. -/
def olderRules (w : WrittenRule) : List Rule :=
  (Registration.document (.obj [(w.source, w.olderEntry)])).rules

end WrittenRule

/-- Some rules mean the same as others: they have the same precedences, and whatever else is
registered before and after them, the same becomes of every resource. -/
structure Interchangeable (rules others : List Rule) : Prop where
  precedences : rules.map (·.precedence) = others.map (·.precedence)
  resolve : ∀ before after type properties,
    (Registry.ofRules (before ++ rules ++ after)).resolve type properties =
      (Registry.ofRules (before ++ others ++ after)).resolve type properties

/-- A table holds for every text in lower case what is written last for a text that becomes it. -/
def IgnoresCase (table : Entries String) : Prop :=
  ∀ text, table.get? (lowerString text) =
    (table.reverse.find? fun entry => lowerString entry.1 = lowerString text).map (·.2)

/-! ## Reading a record -/

/-- A map is read back when each of its values is. -/
theorem asEntries_map {α : Type} {item : Json → Except String α} {write : α → Json}
    (reads : ∀ value, item (write value) = .ok value) (entries : Entries α) :
    asEntries item (.obj (entries.map fun (key, value) => (key, write value))) = .ok entries := by
  dsimp only [asEntries]
  induction entries with
  | nil => rfl
  | cons entry rest ih =>
      rw [List.map_cons, List.mapM_cons, ih]
      simp only [reads]
      rfl

theorem asEntries_textMap (texts : Entries String) :
    asEntries asText (.obj (textMap texts)) = .ok texts :=
  have reads (text : String) : asText (.str text) = .ok text := rfl
  asEntries_map reads texts

theorem asTransforms_tableMap (tables : Entries (Entries String)) :
    asTransforms (.obj (tableMap tables)) = .ok tables :=
  asEntries_map asEntries_textMap tables

namespace WrittenRule

variable (w : WrittenRule)

theorem asPrecedence_precedence : asPrecedence (.int w.precedence) = .ok w.precedence := by
  have fits : (-(Int.pow 2 31) ≤ w.precedence && w.precedence < Int.pow 2 31) = true := by
    simpa using w.precedence_fits
  rw [asPrecedence, if_pos fits]

/-- A record is read as the rule that is meant. -/
theorem recordRule_record : recordRule w.record = .ok w.rule := by
  simp only [recordRule, record, List.foldlM_cons, List.foldlM_nil, PartialRule.withField]
  simp [asPrecedence_precedence, asEntries_textMap, asTransforms_tableMap, asText, bind,
    Except.bind, pure, Except.pure, PartialRule.finish, rule]

end WrittenRule

/-! ## Reading the older form -/

/-- Renames of properties that have none yet go last. -/
theorem foldlM_withProperty_textMap {renames : Entries String} {rule : Rule}
    (unreserved : "value_mapping" ∉ renames.keys)
    (distinct : (Entries.keys (rule.renames ++ renames)).Nodup) :
    (textMap renames).foldlM withProperty rule =
      .ok { rule with renames := rule.renames ++ renames } := by
  induction renames generalizing rule with
  | nil =>
      rw [List.append_nil]
      rfl
  | cons entry rest ih =>
      obtain ⟨property, name⟩ := entry
      have named : property ≠ "value_mapping" := fun same => unreserved (same ▸ .head _)
      have fresh : property ∉ rule.renames.keys := by
        intro member
        rw [Entries.keys, List.map_append] at distinct
        exact (List.nodup_append.mp distinct).2.2 _ member _ (.head _) rfl
      have step : withProperty rule (property, .str name) =
          .ok { rule with renames := rule.renames ++ [(property, name)] } := by
        simp only [withProperty, if_neg named, Rule.rename, Entries.put_of_not_mem fresh]
      have distinct' : (Entries.keys ((rule.renames ++ [(property, name)]) ++ rest)).Nodup := by
        rwa [List.append_assoc, List.singleton_append]
      rw [textMap, List.map_cons, List.foldlM_cons, step]
      change (textMap rest).foldlM withProperty _ = _
      rw [ih (fun member => unreserved (.tail _ member)) distinct']
      simp only [List.append_assoc, List.singleton_append]

/-- The table of a property that has none yet goes last, in lower case. -/
theorem withTable_of_not_mem {rule : Rule} {property : String}
    (fresh : property ∉ rule.transforms.keys) (table : Entries String) :
    withTable rule property (.obj (textMap table)) =
      .ok { rule with transforms := rule.transforms ++ [(property, lowered table)] } := by
  have texts : (textMap table).map (fun field => (field.1, replacementText field.2)) = table := by
    simp [textMap, Function.comp_def, replacementText]
  change Except.ok (rule.transform property
    ((textMap table).map fun field => (field.1, replacementText field.2))) = _
  simp only [texts, Rule.transform, Entries.get?_eq_none fresh, Option.getD_none,
    Entries.put_of_not_mem fresh]
  rfl

theorem foldlM_withTable_tableMap {tables : Entries (Entries String)} {rule : Rule}
    (distinct : (Entries.keys (rule.transforms ++ tables)).Nodup) :
    (tableMap tables).foldlM (fun rule (property, table) => withTable rule property table) rule =
      .ok { rule with
        transforms := rule.transforms ++
          tables.map fun (property, table) => (property, lowered table) } := by
  induction tables generalizing rule with
  | nil => simp [tableMap, pure, Except.pure]
  | cons entry rest ih =>
      obtain ⟨property, table⟩ := entry
      have fresh : property ∉ rule.transforms.keys := by
        intro member
        rw [Entries.keys, List.map_append] at distinct
        exact (List.nodup_append.mp distinct).2.2 _ member _ (.head _) rfl
      have distinct' : (Entries.keys
          ((rule.transforms ++ [(property, lowered table)]) ++ rest)).Nodup := by
        rw [List.append_assoc, List.singleton_append]
        simpa [Entries.keys] using distinct
      rw [tableMap, List.map_cons, List.foldlM_cons]
      dsimp only
      rw [withTable_of_not_mem fresh]
      change (tableMap rest).foldlM _ _ = _
      rw [ih distinct']
      simp only [List.append_assoc, List.singleton_append, List.map_cons]

namespace WrittenRule

variable (w : WrittenRule)

theorem nodup_renames : w.renames.keys.Nodup :=
  w.renames_ordered.nodup

theorem nodup_transforms : w.transforms.keys.Nodup :=
  w.transforms_ordered.nodup

theorem renamesBefore_append : w.renamesBefore ++ w.renamesAfter = w.renames :=
  List.takeWhile_append_dropWhile

/-- The map of properties gives the renames as they are and the transforms in lower case. -/
theorem foldlM_withProperty_properties :
    w.properties.foldlM withProperty (.plain w.source w.target) =
      .ok { w.olderReading with precedence := 0 } := by
  have distinct := w.nodup_renames
  have unreserved := w.unreserved
  rw [← renamesBefore_append] at distinct unreserved
  obtain ⟨unreservedBefore, unreservedAfter⟩ :
      "value_mapping" ∉ w.renamesBefore.keys ∧ "value_mapping" ∉ w.renamesAfter.keys := by
    rw [← not_or, ← List.mem_append, Entries.keys, Entries.keys, ← List.map_append]
    exact unreserved
  have distinctBefore : w.renamesBefore.keys.Nodup := by
    rw [Entries.keys, List.map_append] at distinct
    exact (List.nodup_append.mp distinct).1
  have before := @foldlM_withProperty_textMap w.renamesBefore (.plain w.source w.target)
    unreservedBefore distinctBefore
  have tables (rule : Rule) (none : rule.transforms = []) :
      withProperty rule ("value_mapping", .obj (tableMap w.transforms)) =
        .ok { rule with
          transforms := w.transforms.map fun (property, table) => (property, lowered table) } := by
    simp only [withProperty, if_true]
    rw [foldlM_withTable_tableMap, none, List.nil_append]
    rw [none]
    exact w.nodup_transforms
  rw [properties, List.foldlM_append, before]
  change List.foldlM _ _ _ = _
  rw [List.foldlM_cons, tables _ rfl]
  change List.foldlM _ _ _ = _
  rw [foldlM_withProperty_textMap unreservedAfter distinct]
  simp only [Rule.plain, List.nil_append, renamesBefore_append]
  rfl

/-- An entry of the older form is read without the precedence of a plain rule, and with its texts
in lower case. -/
theorem olderRule_olderEntry : olderRule w.source w.olderEntry = .ok w.olderReading := by
  have fits : (-(Int.pow 2 31) ≤ w.precedence && w.precedence < Int.pow 2 31) = true := by
    simpa using w.precedence_fits
  have wide : (-(Int.pow 2 63) ≤ w.precedence && w.precedence < Int.pow 2 63) = true := by
    obtain ⟨lowest, highest⟩ := w.precedence_fits
    have narrow : Int.pow 2 31 ≤ Int.pow 2 63 := by decide
    rw [Bool.and_eq_true, decide_eq_true_eq, decide_eq_true_eq]
    omega
  have target : w.olderEntry.field? "ansible_module" = some (.str w.target) := rfl
  have properties : w.olderEntry.field? "property_mapping" =
      if w.isPlain then none else some (.obj w.properties) := by
    unfold olderEntry
    cases w.isPlain <;> rfl
  have precedence : (w.olderEntry.field? "precedence").bind Json.asInt64? = some w.precedence :=
    if_pos wide
  unfold olderRule
  rw [target, properties, precedence]
  cases plain : w.isPlain with
  | true =>
      obtain ⟨renames, transforms⟩ : w.renames = [] ∧ w.transforms = [] := by
        simpa [isPlain] using plain
      have reading : w.olderReading = .plain w.source w.target := by
        simp only [olderReading, rule, plain, renames, transforms, Rule.plain]
        rfl
      rw [reading]
      rfl
  | false =>
      change (w.properties.foldlM withProperty (.plain w.source w.target)).bind _ = _
      rw [foldlM_withProperty_properties]
      change (if _ then _ else _) = _
      rw [if_pos fits]
      have reading : w.olderReading = { w.olderReading with precedence := w.precedence } := by
        simp only [olderReading, plain]
        rfl
      rw [reading]
      rfl

end WrittenRule

/-! ## Documents -/

/-- A rule is used or left out as a whole. -/
theorem checkRule_eq (rule : Rule) :
    checkRule rule = .ok rule ∨ ∃ fault, checkRule rule = .error fault := by
  unfold checkRule
  split_ifs
  · exact .inr ⟨_, rfl⟩
  · exact .inr ⟨_, rfl⟩
  · split
    · exact .inl rfl
    · exact .inr ⟨_, rfl⟩
  · exact .inl rfl

/-- A rule that can be used has a source and a target, and a pattern that can be read. -/
def Rule.IsUsable (rule : Rule) : Prop :=
  checkRule rule = .ok rule

/-- Whether a rule can be used is decided by its source and its target. -/
theorem Rule.IsUsable.congr {a b : Rule} (source : a.source = b.source)
    (target : a.target = b.target) : a.IsUsable ↔ b.IsUsable := by
  unfold IsUsable checkRule
  rw [source, target]
  split_ifs
  · simp
  · simp
  · cases Pattern.read b.source <;> simp
  · simp

/-- What a document with one record keeps of it. -/
def kept (rule : Rule) : List Rule :=
  (checkRule rule).toOption.toList

theorem kept_of_isUsable {rule : Rule} (usable : rule.IsUsable) : kept rule = [rule] := by
  rw [kept, usable]
  rfl

theorem kept_of_not_isUsable {rule : Rule} (unusable : ¬ rule.IsUsable) : kept rule = [] := by
  obtain usable | ⟨fault, found⟩ := checkRule_eq rule
  · exact absurd usable unusable
  · rw [kept, found]
    rfl

theorem rules_add (label : String) (rule : Rule) :
    (Loaded.add ⟨[], []⟩ ⟨label, .ok rule⟩).rules = kept rule := by
  have checked : (Except.ok rule : Except String Rule).bind checkRule = checkRule rule := rfl
  unfold Loaded.add kept
  rw [checked]
  cases checkRule rule <;> rfl

namespace WrittenRule

variable (w : WrittenRule)

theorem recordRules_eq : w.recordRules = kept w.rule := by
  unfold recordRules Registration.rules loadDocument candidates recordCandidates
  simp only [List.zipIdx_cons, List.zipIdx_nil, List.map_cons, List.map_nil, recordRule_record]
  exact rules_add _ w.rule

theorem olderRules_eq (source : w.source ≠ "rules") : w.olderRules = kept w.olderReading := by
  unfold olderRules Registration.rules loadDocument candidates
  simp only [Entries.get?, if_neg source, List.map_cons, List.map_nil, olderRule_olderEntry]
  exact rules_add _ w.olderReading

/-- The word that marks a list of records is no resource type of the older form. -/
theorem olderRules_of_source_eq (source : w.source = "rules") : w.olderRules = [] := by
  unfold olderRules Registration.rules loadDocument candidates
  simp only [Entries.get?, if_pos source, olderEntry]
  rfl

end WrittenRule

/-! ## Looking up values -/

/-- What a table in lower case holds is what is written last for a text that becomes the key. -/
theorem get?_lowered (table : Entries String) (key : String) :
    (lowered table).get? key =
      (table.reverse.find? fun entry => lowerString entry.1 = key).map (·.2) := by
  suffices general : ∀ known : Entries String,
      (table.foldl (fun entries (raw, target) => entries.put (lowerString raw) target) known).get?
        key = ((table.reverse.find? fun entry => lowerString entry.1 = key).map (·.2)).or
          (known.get? key) by
    rw [lowered, general]
    simp [Entries.get?]
  induction table with
  | nil => exact fun _ => rfl
  | cons entry rest ih =>
      intro known
      rw [List.foldl_cons, ih, List.reverse_cons, List.find?_append, Entries.get?_put]
      cases rest.reverse.find? fun entry => lowerString entry.1 = key with
      | some found => rfl
      | none =>
          by_cases same : lowerString entry.1 = key <;> simp [same]

/-- Values are looked up under texts in lower case. -/
theorem exists_lowerString_eq {value : Value} {key : String} (known : value.lookupKey? = some key) :
    ∃ text, lowerString text = key := by
  unfold Value.lookupKey? at known
  split at known
  · cases known
  · obtain ⟨text, _, lower⟩ := Option.map_eq_some_iff.mp known
    exact ⟨text, lower⟩

theorem ignoresCase_iff (table : Entries String) :
    IgnoresCase table ↔
      ∀ text, table.get? (lowerString text) = (lowered table).get? (lowerString text) := by
  simp only [IgnoresCase, get?_lowered]

/-- A capital letter is never met. -/
example : ¬ IgnoresCase [("True", "yes")] :=
  fun ignores => absurd (ignores "true") (by decide)

namespace WrittenRule

variable (w : WrittenRule)

theorem get?_transforms_olderReading (property : String) :
    w.olderReading.transforms.get? property = (w.transforms.get? property).map lowered :=
  Entries.get?_map lowered w.transforms property

/-- Tables that ignore case replace the same values once they are in lower case. -/
theorem transformed_olderReading (ignores : ∀ entry ∈ w.transforms, IgnoresCase entry.2)
    (property : String) (value : Value) :
    w.olderReading.transformed property value = w.rule.transformed property value := by
  rw [Rule.transformed_eq, Rule.transformed_eq, get?_transforms_olderReading]
  change _ = Option.elim ((w.transforms.get? property).bind _) _ _
  cases found : w.transforms.get? property with
  | none => rfl
  | some table =>
      cases known : value.lookupKey? with
      | none => rfl
      | some key =>
          obtain ⟨text, rfl⟩ := exists_lowerString_eq known
          have same := (ignoresCase_iff table).mp (ignores _ (Entries.mem_of_get? found)) text
          simp only [Option.map_some, Option.bind_some, same]

theorem apply_olderReading (ignores : ∀ entry ∈ w.transforms, IgnoresCase entry.2) :
    w.olderReading.apply = w.rule.apply := by
  funext properties
  simp only [Rule.apply, transformed_olderReading w ignores]
  rfl

/-- Rules that do the same to single properties have tables that ignore case: what becomes of a
symbol tells whether its text is replaced, as a replacement is never a symbol. -/
theorem ignoresCase_of_apply_eq (same : w.rule.apply = w.olderReading.apply) :
    ∀ entry ∈ w.transforms, IgnoresCase entry.2 := by
  rintro ⟨property, table⟩ member
  rw [ignoresCase_iff]
  intro text
  have found : w.rule.transforms.get? property = some table :=
    Entries.get?_of_mem w.nodup_transforms member
  have found' : w.olderReading.transforms.get? property = some (lowered table) := by
    rw [get?_transforms_olderReading]
    exact congrArg (Option.map lowered) found
  have single (rule : Rule) : rule.apply [(property, .sym text)] =
      [(rule.renamed property, rule.transformed property (.sym text))] := rfl
  have values : w.rule.transformed property (.sym text) =
      w.olderReading.transformed property (.sym text) := by
    have alone := congrFun same [(property, .sym text)]
    rw [single, single] at alone
    exact congrArg Prod.snd (List.head_eq_of_cons_eq alone)
  rw [Rule.transformed_eq, Rule.transformed_eq, found, found'] at values
  change Option.elim (table.get? (lowerString text)) _ _ =
    Option.elim ((lowered table).get? (lowerString text)) _ _ at values
  generalize table.get? (lowerString text) = here at values ⊢
  generalize (lowered table).get? (lowerString text) = there at values ⊢
  cases here <;> cases there <;> simp_all

end WrittenRule

/-! ## The two forms compared -/

theorem lookup_singleton {rule : Rule} {type : String}
    (bears : rule.Names type ∨ rule.Covers type) :
    (Registry.ofRules [rule]).lookup type = some rule := by
  have found := Registry.chosen_lookup [rule] type
  generalize (Registry.ofRules [rule]).lookup type = answer at found ⊢
  cases found with
  | named best => rw [List.mem_singleton.mp best.mem]
  | covered _ best => rw [List.mem_singleton.mp best.mem]
  | missing unnamed uncovered =>
      cases bears with
      | inl names => exact absurd names (unnamed rule (.head _))
      | inr covers => exact absurd covers (uncovered rule (.head _))

/-- A rule that is replaced by one that is alike leaves all resolutions as they are. -/
theorem Interchangeable.of_alike {rule other : Rule} (alike : rule.Alike other) :
    Interchangeable [rule] [other] where
  precedences := by rw [List.map_singleton, List.map_singleton, alike.precedence]
  resolve before after type properties := by
    have unchanged (rules : List Rule) : List.Forall₂ Rule.Alike rules rules :=
      List.forall₂_same.mpr fun rule _ => .refl rule
    have replaced : List.Forall₂ Rule.Alike [rule] [other] := .cons alike .nil
    have lists : List.Forall₂ Rule.Alike (before ++ [rule] ++ after) (before ++ [other] ++ after) :=
      List.rel_append (List.rel_append (unchanged before) replaced) (unchanged after)
    rw [Registry.resolve_congr lists]

/-- Rules that can replace each other do the same to the resources they are for. -/
theorem Interchangeable.apply_eq {rule other : Rule} (same : Interchangeable [rule] [other])
    (source : rule.source = other.source) {type : String}
    (bears : rule.Names type ∨ rule.Covers type) : rule.apply = other.apply := by
  have bears' : other.Names type ∨ other.Covers type := by
    rwa [Rule.Names, Rule.Covers, ← source]
  funext properties
  have resolved := same.resolve [] [] type properties
  simp only [List.nil_append, List.append_nil, Registry.resolve, lookup_singleton bears,
    lookup_singleton bears', Resolution.mapped.injEq, Invocation.mk.injEq] at resolved
  exact resolved.2.1

/-- A rule means the same as a record and in the older form exactly if it is used in neither, or if
its type is not the word that marks a list of records, its precedence is not forgotten, and the
tables of a rule that is for some type ignore case. -/
theorem interchangeable_forms_iff (w : WrittenRule) :
    Interchangeable w.recordRules w.olderRules ↔
      ¬ w.rule.IsUsable ∨
        w.source ≠ "rules" ∧ (w.precedence = 0 ∨ w.isPlain = false) ∧
          ((∃ type, w.rule.Names type ∨ w.rule.Covers type) →
            ∀ entry ∈ w.transforms, IgnoresCase entry.2) := by
  have usable_iff : w.rule.IsUsable ↔ w.olderReading.IsUsable := Rule.IsUsable.congr rfl rfl
  rw [WrittenRule.recordRules_eq]
  by_cases usable : w.rule.IsUsable
  · rw [kept_of_isUsable usable]
    by_cases source : w.source = "rules"
    · rw [WrittenRule.olderRules_of_source_eq w source]
      constructor
      · intro same
        cases same.precedences
      · rintro (unusable | ⟨other, _⟩)
        · exact absurd usable unusable
        · exact absurd source other
    · rw [WrittenRule.olderRules_eq w source, kept_of_isUsable (usable_iff.mp usable)]
      constructor
      · intro same
        refine .inr ⟨source, ?_, ?_⟩
        · have precedence : w.precedence = if w.isPlain then 0 else w.precedence :=
            List.head_eq_of_cons_eq same.precedences
          cases plain : w.isPlain with
          | true => exact .inl (by rwa [plain] at precedence)
          | false => exact .inr rfl
        · rintro ⟨type, bears⟩
          exact w.ignoresCase_of_apply_eq (same.apply_eq rfl bears)
      · rintro (unusable | ⟨_, remembered, ignores⟩)
        · exact absurd usable unusable
        · refine .of_alike ⟨rfl, rfl, ?_, ?_⟩
          · rcases remembered with zero | full
            · simp [WrittenRule.rule, WrittenRule.olderReading, zero]
            · simp [WrittenRule.rule, WrittenRule.olderReading, full]
          · intro type bears
            exact (w.apply_olderReading (ignores ⟨type, bears⟩)).symm
  · have kept_older : w.olderRules = [] := by
      by_cases source : w.source = "rules"
      · exact w.olderRules_of_source_eq source
      · rw [w.olderRules_eq source, kept_of_not_isUsable (mt usable_iff.mpr usable)]
    rw [kept_of_not_isUsable usable, kept_older]
    exact ⟨fun _ => .inl usable, fun _ => ⟨rfl, fun _ _ _ _ => rfl⟩⟩

/-- A rule that only names a module, but with a precedence of its own. -/
def heavyPlainRule : WrittenRule where
  source := "t"
  target := "m"
  renames := []
  transforms := []
  precedence := 5
  renames_ordered := .nil
  transforms_ordered := .nil
  table_ordered := fun _ member => nomatch member
  unreserved := fun member => nomatch member
  precedence_fits := by decide

/-- The older form forgets its precedence. -/
theorem not_interchangeable_heavyPlainRule :
    ¬ Interchangeable heavyPlainRule.recordRules heavyPlainRule.olderRules := by
  intro same
  exact absurd same.precedences (by decide)

end Rolewright.Mapping
