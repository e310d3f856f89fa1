/-
# Loading rules

A document of rules is refused as a whole, and then nothing has changed, or it is taken record by
record: each record gives one rule or one message, whatever stands before and behind it, and the
rules come behind those that were there, in the order of the records (`loads_addDocument`). A rule
that was taken is sound, so that a registry has a place for it (`Registry.registers_of_isSound`). A
file is a document if it can be read and its text is one (`loads_addFile`).

What makes a record a rule is left to the readers of the two forms.
-/

import Rolewright.Mapping.File
import Rolewright.Proofs.Mapping.Lookup

namespace Rolewright.Mapping

open Text

/-! ## Records -/

/-- A record of a document: an item of a list of rules, or an entry of the older form. -/
inductive Record where
  | item (record : Json)
  | entry (type : String) (record : Json)

/-- What a record is read as. -/
def Record.read : Record → Except String Rule
  | .item record => recordRule record
  | .entry type record => olderRule type record

/-- The records of a document. A document that is none of these has no records at all, which is not
the same as none of them. -/
inductive HasRecords : Json → List Record → Prop
  | null : HasRecords .null []
  | list (records : List Json) : HasRecords (.arr records) (records.map .item)
  | underRules {fields : List (String × Json)} {records : List Json}
      (found : Entries.get? fields "rules" = some (.arr records)) :
      HasRecords (.obj fields) (records.map .item)
  | older {fields : List (String × Json)} (absent : Entries.get? fields "rules" = none) :
      HasRecords (.obj fields) (fields.map fun (type, record) => .entry type record)

/-- A rule can be used: its source and its target are not blank, and a pattern can be read. -/
structure Rule.IsSound (rule : Rule) : Prop where
  source : ∃ c ∈ rule.source.toList, isBlank c = false
  target : ∃ c ∈ rule.target.toList, isBlank c = false
  pattern : isWildcard rule.source = true → ∃ pattern, Pattern.read rule.source = .ok pattern

/-- A record is well formed: it spells this rule, and the rule is sound. -/
def Record.Gives (record : Record) (rule : Rule) : Prop :=
  record.read = .ok rule ∧ rule.IsSound

/-- Each of the records has given a rule or, if it gives none, a message. -/
inductive Accounts : List Record → List Rule → List String → Prop
  | nil : Accounts [] [] []
  | given {record : Record} {rule : Rule} {records : List Record} {rules : List Rule}
      {messages : List String} (gives : record.Gives rule)
      (later : Accounts records rules messages) :
      Accounts (record :: records) (rule :: rules) messages
  | skipped {record : Record} {message : String} {records : List Record} {rules : List Rule}
      {messages : List String} (malformed : ∀ rule, ¬ record.Gives rule)
      (later : Accounts records rules messages) :
      Accounts (record :: records) rules (message :: messages)

namespace Accounts

variable {records before later : List Record} {rules : List Rule} {messages : List String}

theorem count (accounts : Accounts records rules messages) :
    rules.length + messages.length = records.length := by
  induction accounts with
  | nil => rfl
  | given | skipped =>
      simp only [List.length_cons]
      omega

theorem isSound (accounts : Accounts records rules messages) : ∀ rule ∈ rules, rule.IsSound := by
  induction accounts with
  | nil => nofun
  | given gives _ ih => exact List.forall_mem_cons.mpr ⟨gives.2, ih⟩
  | skipped _ _ ih => exact ih

/-- What the records up to some place give is all that comes before what the others give. -/
theorem exists_of_append (accounts : Accounts (before ++ later) rules messages) :
    ∃ rules₁ messages₁ rules₂ messages₂, Accounts before rules₁ messages₁ ∧
      Accounts later rules₂ messages₂ ∧ rules = rules₁ ++ rules₂ ∧
      messages = messages₁ ++ messages₂ := by
  induction before generalizing rules messages with
  | nil => exact ⟨[], [], rules, messages, .nil, accounts, rfl, rfl⟩
  | cons record before ih =>
      cases accounts with
      | given gives accounts =>
          obtain ⟨rules₁, messages₁, rules₂, messages₂, first, second, rfl, rfl⟩ := ih accounts
          exact ⟨_, _, _, _, .given gives first, second, rfl, rfl⟩
      | skipped malformed accounts =>
          obtain ⟨rules₁, messages₁, rules₂, messages₂, first, second, rfl, rfl⟩ := ih accounts
          exact ⟨_, _, _, _, .skipped malformed first, second, rfl, rfl⟩

end Accounts

/-! ## Checks -/

theorem isBlankText_eq_false_iff {text : List Char} :
    isBlankText text = false ↔ ∃ c ∈ text, isBlank c = false := by
  rw [isBlankText, List.all_eq_false]
  simp only [Bool.not_eq_true]

/-- A rule passes the check exactly if it is sound, and it passes as it is. -/
theorem checkRule_eq_ok_iff {rule checked : Rule} :
    checkRule rule = .ok checked ↔ rule = checked ∧ rule.IsSound := by
  have split : rule.IsSound ↔ isBlankText rule.source.toList = false ∧
      isBlankText rule.target.toList = false ∧
      (isWildcard rule.source = true → ∃ pattern, Pattern.read rule.source = .ok pattern) := by
    rw [isBlankText_eq_false_iff, isBlankText_eq_false_iff]
    exact ⟨fun sound => ⟨sound.source, sound.target, sound.pattern⟩,
      fun ⟨source, target, pattern⟩ => ⟨source, target, pattern⟩⟩
  rw [split, checkRule]
  split_ifs with source target wild
  · simp [source]
  · simp [target]
  · cases read : Pattern.read rule.source <;> simp [source, target, wild]
  · simp [source, target, wild]

theorem bind_checkRule_eq_ok_iff {record : Record} {rule : Rule} :
    record.read.bind checkRule = .ok rule ↔ record.Gives rule := by
  rw [Record.Gives]
  cases record.read with
  | error fault => simp [Except.bind]
  | ok spelled =>
      change checkRule spelled = .ok rule ↔ Except.ok spelled = .ok rule ∧ rule.IsSound
      rw [checkRule_eq_ok_iff, Except.ok.injEq]
      exact and_congr_right fun same => by rw [same]

/-! ## Documents -/

theorem accounts_foldl {records : List Record} {candidates : List Candidate}
    (reads : candidates.map (·.rule) = records.map Record.read) (loaded : Loaded) :
    ∃ rules messages, Accounts records rules messages ∧
      candidates.foldl Loaded.add loaded =
        ⟨loaded.rules ++ rules, loaded.skipped ++ messages⟩ := by
  induction records generalizing candidates loaded with
  | nil =>
      obtain rfl := List.map_eq_nil_iff.mp reads
      exact ⟨[], [], .nil, by simp⟩
  | cons record records ih =>
      obtain ⟨candidate, others, rfl, read, reads⟩ := List.map_eq_cons_iff.mp reads
      obtain ⟨rules, messages, accounts, folded⟩ := ih reads (loaded.add candidate)
      rw [List.foldl_cons, folded, Loaded.add, read]
      cases checked : record.read.bind checkRule with
      | ok rule =>
          have gives := bind_checkRule_eq_ok_iff.mp checked
          exact ⟨rule :: rules, messages, .given gives accounts, by simp⟩
      | error fault =>
          have malformed (rule : Rule) : ¬ record.Gives rule := fun gives => by
            rw [bind_checkRule_eq_ok_iff.mpr gives] at checked
            cases checked
          exact ⟨rules, _ :: messages, .skipped malformed accounts, by simp; rfl⟩

theorem map_rule_recordCandidates (records : List Json) :
    (recordCandidates records).map (·.rule) = (records.map Record.item).map Record.read :=
  calc (recordCandidates records).map (·.rule)
      = records.zipIdx.map (fun entry => recordRule entry.1) := by
        rw [recordCandidates, List.map_map]
        rfl
    _ = (records.zipIdx.map Prod.fst).map recordRule := by rw [List.map_map]; rfl
    _ = records.map recordRule := by rw [List.zipIdx_map_fst]
    _ = (records.map Record.item).map Record.read := by rw [List.map_map]; rfl

/-- The records of a document are what is read, and a document without records is refused. -/
theorem candidates_spec (document : Json) :
    (∃ fault, candidates document = .error fault ∧ ∀ records, ¬ HasRecords document records) ∨
      ∃ found records, candidates document = .ok found ∧ HasRecords document records ∧
        found.map (·.rule) = records.map Record.read := by
  cases document with
  | null => exact .inr ⟨[], [], rfl, .null, rfl⟩
  | arr records => exact .inr ⟨_, _, rfl, .list records, map_rule_recordCandidates records⟩
  | obj fields =>
      cases found : Entries.get? fields "rules" with
      | none =>
          refine .inr ⟨_, _, by rw [candidates, found], .older found, ?_⟩
          rw [List.map_map, List.map_map]
          rfl
      | some held =>
          cases held with
          | arr records =>
              exact .inr ⟨_, _, by rw [candidates, found], .underRules found,
                map_rule_recordCandidates records⟩
          | _ =>
              refine .inl ⟨_, by rw [candidates, found], fun records has => ?_⟩
              cases has with
              | underRules here => cases found.symm.trans here
              | older absent => cases found.symm.trans absent
  | _ => exact .inl ⟨_, rfl, fun _ has => nomatch has⟩

/-! ## Registries -/

/-- A registry has a place for a rule that was registered at a position. -/
structure Registry.Registers (r : Registry) (rule : Rule) (position : Nat) : Prop where
  listed : r.rules[position]? = some rule
  /-- A rule for one type is among those of which the table of exact types holds the best. -/
  named : isWildcard rule.source = false → ∃ best place,
    r.exact.get? rule.source = some best ∧
      IsBest Outweighs (·.Names rule.source) r.rules (best, place)
  /-- A rule for the types of a pattern is tried with its pattern. -/
  tried : isWildcard rule.source = true → ∃ pattern,
    Pattern.read rule.source = .ok pattern ∧ ⟨pattern, rule, position⟩ ∈ r.wildcards

/-- No sound rule is left out of a registry. -/
theorem Registry.registers_of_isSound {rules : List Rule} {rule : Rule} {position : Nat}
    (listed : rules[position]? = some rule) (sound : rule.IsSound) :
    (Registry.ofRules rules).Registers rule position where
  listed := listed
  named plain := by
    have best := namedBy_get?_exact rules rule.source
    cases held : (ofRules rules).exact.get? rule.source with
    | none =>
        rw [held] at best
        exact absurd ⟨plain, rfl⟩ (best rule (List.mem_of_getElem? listed))
    | some known =>
        rw [held] at best
        obtain ⟨place, best⟩ := best
        exact ⟨known, place, rfl, best⟩
  tried wild := by
    obtain ⟨pattern, read⟩ := sound.pattern wild
    exact ⟨pattern, read, mem_wildcards_iff.mpr ⟨listed, wild, read⟩⟩

/-! ## Loading -/

/-- Some records have been taken, and these are the rules afterwards. -/
structure Takes (rules : List Rule) (records : List Record) (after : List Rule)
    (loaded : Loaded) : Prop where
  count : loaded.rules.length + loaded.skipped.length = records.length
  appended : after = rules ++ loaded.rules
  accounts : Accounts records loaded.rules loaded.skipped
  sound : ∀ rule ∈ loaded.rules, rule.IsSound
  /-- A well-formed record gives its rule, in its place, whatever stands before it. -/
  given : ∀ before record later rule, records = before ++ record :: later → record.Gives rule →
    ∃ rules₁ messages₁ rules₂ messages₂, Accounts before rules₁ messages₁ ∧
      Accounts later rules₂ messages₂ ∧ loaded.rules = rules₁ ++ rule :: rules₂ ∧
      loaded.skipped = messages₁ ++ messages₂
  /-- A registry of all rules leaves out none that was loaded. -/
  registered : ∀ position rule, loaded.rules[position]? = some rule →
    (Registry.ofRules after).Registers rule (rules.length + position)

/-- What loading should come to: it has failed, as there is no document or one without records, and
nothing has changed, or the records of the document have been taken. -/
def Loads {ε : Type} (rules : List Rule) (source : Option Json) :
    List Rule × Except ε Loaded → Prop
  | (after, .error _) =>
    after = rules ∧ ∀ document, source = some document → ∀ records, ¬ HasRecords document records
  | (after, .ok loaded) => ∃ document records,
    source = some document ∧ HasRecords document records ∧ Takes rules records after loaded

theorem Accounts.takes {records : List Record} {given : List Rule} {messages : List String}
    (accounts : Accounts records given messages) (rules : List Rule) :
    Takes rules records (rules ++ given) ⟨given, messages⟩ where
  count := accounts.count
  appended := rfl
  accounts := accounts
  sound := accounts.isSound
  given before record later rule split gives := by
    subst split
    obtain ⟨rules₁, messages₁, rules₂, messages₂, first, second, joined, skipped⟩ :=
      accounts.exists_of_append
    cases second with
    | given spelled others =>
        have same := Except.ok.inj (spelled.1.symm.trans gives.1)
        exact ⟨_, _, _, _, first, others, same ▸ joined, skipped⟩
    | skipped malformed _ => exact absurd gives (malformed rule)
  registered position rule held := by
    refine Registry.registers_of_isSound ?_ (accounts.isSound rule (List.mem_of_getElem? held))
    rw [List.getElem?_append_right (Nat.le_add_right _ _), Nat.add_sub_cancel_left]
    exact held

/-- Loading a document changes nothing or takes its records. -/
theorem loads_addDocument (rules : List Rule) (document : Json) :
    Loads rules (some document) (addDocument rules document) := by
  rcases candidates_spec document with
    ⟨fault, refused, formless⟩ | ⟨found, records, read, has, reads⟩
  · have outcome : addDocument rules document = (rules, .error fault) := by
      rw [addDocument, loadDocument, refused]
      rfl
    rw [outcome]
    exact ⟨rfl, fun _ same => Option.some.inj same ▸ formless⟩
  · obtain ⟨given, messages, accounts, folded⟩ := accounts_foldl reads ⟨[], []⟩
    have outcome : addDocument rules document = (rules ++ given, .ok ⟨given, messages⟩) := by
      rw [addDocument, loadDocument, read]
      change extend rules (.ok (found.foldl Loaded.add ⟨[], []⟩)) = _
      rw [folded, List.nil_append, List.nil_append]
      rfl
    rw [outcome]
    exact ⟨document, records, rfl, has, accounts.takes rules⟩

/-- The document in a file, if the file can be read and its text is one. -/
def documentAt? (d : Disk) (path : String) : Option Json :=
  (d.readText path).toOption.bind (readDocument? path)

/-- How faults are told makes no difference to what is loaded. -/
theorem Loads.mapError {ε ε' : Type} {rules : List Rule} {source : Option Json}
    {outcome : Except ε Loaded} (loads : Loads rules source (extend rules outcome)) (f : ε → ε') :
    Loads rules source (extend rules (outcome.mapError f)) := by
  cases outcome <;> exact loads

/-- Loading a file is loading the document in it, and changes nothing if there is none. -/
theorem loads_addFile (rules : List Rule) (d : Disk) (path : String) :
    Loads rules (documentAt? d path) (addFile rules d path) := by
  rw [addFile, documentAt?]
  cases readable : d.readText path with
  | error cause =>
      have refused : loadFile d path = .error (.access path cause) := by
        rw [loadFile, readable]
        rfl
      rw [refused]
      exact ⟨rfl, nofun⟩
  | ok text =>
      rw [Except.toOption, Option.bind_some]
      cases found : readDocument? path text with
      | none =>
          have refused : loadFile d path = .error (.mappingSyntax path) := by
            simp only [loadFile, readable, accessing, Except.mapError, bind, Except.bind, found]
            rfl
          rw [refused]
          exact ⟨rfl, nofun⟩
      | some document =>
          have outcome : loadFile d path =
              (loadDocument document).mapError (.mappingFile path) := by
            simp only [loadFile, readable, accessing, Except.mapError, bind, Except.bind, found]
          rw [outcome]
          exact Loads.mapError (loads_addDocument rules document) _

/-- Loading changes nothing or takes the records of one document, and a file counts as the document
in it. -/
theorem loads_documents_and_files (rules : List Rule) :
    (∀ document, Loads rules (some document) (addDocument rules document)) ∧
      ∀ d path, Loads rules (documentAt? d path) (addFile rules d path) :=
  ⟨loads_addDocument rules, loads_addFile rules⟩

/-- A record without a source and one with a broken pattern do not stand in the way of a third. -/
example : addDocument [.plain "a" "m"]
    (.arr [.obj [("source_type", .int 5)],
      .obj [("source_type", .str "[b"), ("target_primitive", .str "m")],
      .obj [("source_type", .str "c*"), ("target_primitive", .str "m")]]) =
    ([.plain "a" "m", .plain "c*" "m"],
      .ok ⟨[.plain "c*" "m"],
        ["record #1: invalid type: integer \x605\x60, expected a string",
          "[b: Pattern syntax error near position 0: invalid range pattern"]⟩) := by
  rfl

end Rolewright.Mapping
