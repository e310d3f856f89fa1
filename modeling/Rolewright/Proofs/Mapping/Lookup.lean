/-
# What a registry looks up

The rule for a type, told from the registrations alone: `Chosen` says which rule it should be, as
the best of all that bear on the type, and `lookup_eq_iff_chosen` that it is the one that is looked
up. The table of exact types that a registry keeps and the order in which it tries patterns are
means to that end; nothing is said about them elsewhere.

What it means that a pattern matches a type is left to `Pattern`.
-/

import Mathlib.Data.List.Forall2
import Mathlib.Data.List.Induction
import Mathlib.Tactic.SplitIfs
import Rolewright.Mapping.Builtin
import Rolewright.Mapping.Document

namespace Rolewright.Mapping

/-- Something that adds rules to a registry. -/
inductive Registration where
  | builtin
  | rule (rule : Rule)
  | document (document : Json)

/-- The rules that are added. A document that is refused adds none. -/
def Registration.rules : Registration → List Rule
  | .builtin => defaultRules
  | .rule added => [added]
  | .document added => ((loadDocument added).toOption.map (·.rules)).getD []

namespace Rule

/-- The rule is for exactly one type, and it is this one. -/
def Names (rule : Rule) (type : String) : Prop :=
  isWildcard rule.source = false ∧ rule.source = type

/-- The rule is for the types that a pattern matches, and this is one of them. -/
def Covers (rule : Rule) (type : String) : Prop :=
  isWildcard rule.source = true ∧
    ∃ pattern, Pattern.read rule.source = .ok pattern ∧ pattern.matches type.toList = true

end Rule

/-! ## The rule that should be chosen -/

/-- One of two equally specific rules, with their positions, has the higher precedence or was
registered later. -/
def Outweighs (a b : Rule × Nat) : Prop :=
  b.1.precedence < a.1.precedence ∨ b.1.precedence = a.1.precedence ∧ b.2 ≤ a.2

/-- One of two patterns has the longer literal beginning, or outweighs the other. -/
def Outranks (a b : Rule × Nat) : Prop :=
  literalLength b.1.source < literalLength a.1.source ∨
    literalLength b.1.source = literalLength a.1.source ∧ Outweighs a b

/-- A registered rule that applies and that beats all others that do. -/
structure IsBest (beats : Rule × Nat → Rule × Nat → Prop) (bears : Rule → Prop)
    (rules : List Rule) (best : Rule × Nat) : Prop where
  registered : rules[best.2]? = some best.1
  applies : bears best.1
  unbeaten : ∀ other, rules[other.2]? = some other.1 → bears other.1 → beats best other

/-- The rule for a type: the best of those that name it, and if there are none the best of those
that cover it. -/
inductive Chosen (rules : List Rule) (type : String) : Option Rule → Prop
  | named {best : Rule × Nat} (isBest : IsBest Outweighs (·.Names type) rules best) :
      Chosen rules type (some best.1)
  | covered {best : Rule × Nat} (unnamed : ∀ rule ∈ rules, ¬ rule.Names type)
      (isBest : IsBest Outranks (·.Covers type) rules best) : Chosen rules type (some best.1)
  | missing (unnamed : ∀ rule ∈ rules, ¬ rule.Names type)
      (uncovered : ∀ rule ∈ rules, ¬ rule.Covers type) : Chosen rules type none

variable {rules : List Rule} {type : String} {a b : Rule × Nat}

theorem Outweighs.position_eq (ab : Outweighs a b) (ba : Outweighs b a) : a.2 = b.2 := by
  unfold Outweighs at ab ba
  omega

theorem Outranks.position_eq (ab : Outranks a b) (ba : Outranks b a) : a.2 = b.2 := by
  unfold Outranks Outweighs at ab ba
  omega

/-- There is no more than one best rule where two that beat each other are the same. -/
theorem IsBest.unique {beats : Rule × Nat → Rule × Nat → Prop} {bears : Rule → Prop}
    (position_eq : ∀ {a b}, beats a b → beats b a → a.2 = b.2)
    (best : IsBest beats bears rules a) (other : IsBest beats bears rules b) : a.1 = b.1 := by
  have same : a.2 = b.2 := position_eq (best.unbeaten b other.registered other.applies)
    (other.unbeaten a best.registered best.applies)
  have registered := best.registered
  rw [same, other.registered] at registered
  exact (Option.some.inj registered).symm

theorem IsBest.mem {beats : Rule × Nat → Rule × Nat → Prop} {bears : Rule → Prop}
    (best : IsBest beats bears rules a) : a.1 ∈ rules :=
  List.mem_of_getElem? best.registered

/-- Only one answer is the right one. -/
theorem Chosen.unique {answer other : Option Rule} (first : Chosen rules type answer)
    (second : Chosen rules type other) : answer = other := by
  cases first with
  | named best =>
      cases second with
      | named best' => rw [best.unique Outweighs.position_eq best']
      | covered unnamed _ => exact absurd best.applies (unnamed _ best.mem)
      | missing unnamed _ => exact absurd best.applies (unnamed _ best.mem)
  | covered unnamed best =>
      cases second with
      | named best' => exact absurd best'.applies (unnamed _ best'.mem)
      | covered _ best' => rw [best.unique Outranks.position_eq best']
      | missing _ uncovered => exact absurd best.applies (uncovered _ best.mem)
  | missing unnamed uncovered =>
      cases second with
      | named best => exact absurd best.applies (unnamed _ best.mem)
      | covered _ best => exact absurd best.applies (uncovered _ best.mem)
      | missing _ _ => rfl

/-! ## Rules that cannot be told apart -/

/-- Two rules stand in for each other: they are chosen alike, and do the same to every resource
they are chosen for. -/
structure Rule.Alike (a b : Rule) : Prop where
  source : a.source = b.source
  target : a.target = b.target
  precedence : a.precedence = b.precedence
  apply : ∀ type, a.Names type ∨ a.Covers type → a.apply = b.apply

section Alike

variable {others : List Rule} {rule other : Rule}

theorem Rule.Names.congr (alike : rule.Alike other) : rule.Names type ↔ other.Names type := by
  rw [Names, Names, alike.source]

theorem Rule.Covers.congr (alike : rule.Alike other) : rule.Covers type ↔ other.Covers type := by
  rw [Covers, Covers, alike.source]

theorem Rule.Alike.symm (alike : rule.Alike other) : other.Alike rule where
  source := alike.source.symm
  target := alike.target.symm
  precedence := alike.precedence.symm
  apply type bears := by
    rw [← Names.congr alike, ← Covers.congr alike] at bears
    exact (alike.apply type bears).symm

theorem Rule.Alike.refl (rule : Rule) : rule.Alike rule :=
  ⟨rfl, rfl, rfl, fun _ _ => rfl⟩

theorem Outweighs.congr {a a' b b' : Rule} {i j : Nat} (left : a.Alike a') (right : b.Alike b') :
    Outweighs (a, i) (b, j) ↔ Outweighs (a', i) (b', j) := by
  simp only [Outweighs, left.precedence, right.precedence]

theorem Outranks.congr {a a' b b' : Rule} {i j : Nat} (left : a.Alike a') (right : b.Alike b') :
    Outranks (a, i) (b, j) ↔ Outranks (a', i) (b', j) := by
  simp only [Outranks, left.source, right.source, Outweighs.congr left right]

/-- Where one list has a rule, a list that is alike has one that is. -/
theorem exists_getElem?_of_forall₂ (lists : List.Forall₂ Rule.Alike rules others)
    {position : Nat} (registered : rules[position]? = some rule) :
    ∃ other, others[position]? = some other ∧ rule.Alike other := by
  induction lists generalizing position with
  | nil => cases registered
  | cons first _ ih =>
      cases position with
      | zero => exact ⟨_, rfl, Option.some.inj registered ▸ first⟩
      | succ position => exact ih registered

theorem forall₂_alike_symm (lists : List.Forall₂ Rule.Alike rules others) :
    List.Forall₂ Rule.Alike others rules :=
  List.Forall₂.flip (lists.imp fun _ _ alike => alike.symm)

/-- No rule of a list bears on a type if none bears on it in a list that is alike. -/
theorem none_bears_of_forall₂ {bears : Rule → Prop}
    (bears_congr : ∀ {a b : Rule}, a.Alike b → (bears a ↔ bears b))
    (lists : List.Forall₂ Rule.Alike rules others) (none : ∀ rule ∈ rules, ¬ bears rule) :
    ∀ other ∈ others, ¬ bears other := by
  intro other member applies
  obtain ⟨position, registered⟩ := List.mem_iff_getElem?.mp member
  obtain ⟨rule, there, alike⟩ :=
    exists_getElem?_of_forall₂ (forall₂_alike_symm lists) registered
  exact none rule (List.mem_of_getElem? there) ((bears_congr alike).mp applies)

/-- What stands in the place of the best rule is the best of a list that is alike. -/
theorem IsBest.congr {beats : Rule × Nat → Rule × Nat → Prop} {bears : Rule → Prop}
    (bears_congr : ∀ {a b : Rule}, a.Alike b → (bears a ↔ bears b))
    (beats_congr : ∀ {a a' b b' : Rule} {i j : Nat}, a.Alike a' → b.Alike b' →
      (beats (a, i) (b, j) ↔ beats (a', i) (b', j)))
    (lists : List.Forall₂ Rule.Alike rules others) {best : Rule × Nat}
    (isBest : IsBest beats bears rules best) :
    ∃ other, best.1.Alike other ∧ IsBest beats bears others (other, best.2) := by
  obtain ⟨best, position⟩ := best
  obtain ⟨other, there, alike⟩ := exists_getElem?_of_forall₂ lists isBest.registered
  refine ⟨other, alike, there, (bears_congr alike).mp isBest.applies, ?_⟩
  rintro ⟨rival, position'⟩ registered applies
  obtain ⟨rule, here, alike'⟩ :=
    exists_getElem?_of_forall₂ (forall₂_alike_symm lists) registered
  have beaten := isBest.unbeaten (rule, position') here ((bears_congr alike').mp applies)
  exact (beats_congr alike alike'.symm).mp beaten

/-- From lists that are alike, rules are chosen that are alike. -/
theorem Chosen.congr (lists : List.Forall₂ Rule.Alike rules others) {answer : Option Rule}
    (chosen : Chosen rules type answer) :
    (∃ rule other, answer = some rule ∧ Chosen others type (some other) ∧ rule.Alike other ∧
      (rule.Names type ∨ rule.Covers type)) ∨ answer = none ∧ Chosen others type none := by
  cases chosen with
  | named best =>
      obtain ⟨other, alike, best'⟩ := best.congr Rule.Names.congr Outweighs.congr lists
      exact .inl ⟨_, other, rfl, .named best', alike, .inl best.applies⟩
  | covered unnamed best =>
      obtain ⟨other, alike, best'⟩ := best.congr Rule.Covers.congr Outranks.congr lists
      have unnamed' := none_bears_of_forall₂ Rule.Names.congr lists unnamed
      exact .inl ⟨_, other, rfl, .covered unnamed' best', alike, .inr best.applies⟩
  | missing unnamed uncovered =>
      exact .inr ⟨rfl, .missing (none_bears_of_forall₂ Rule.Names.congr lists unnamed)
        (none_bears_of_forall₂ Rule.Covers.congr lists uncovered)⟩

end Alike

/-! ## Exact types -/

/-- What is registered once one more rule is. -/
theorem getElem?_append_singleton {rule : Rule} {position : Nat} {last : Rule} :
    (rules ++ [last])[position]? = some rule ↔
      rules[position]? = some rule ∨ position = rules.length ∧ rule = last := by
  rw [List.getElem?_append]
  split
  · rename_i inside
    simp [Nat.ne_of_lt inside]
  · rename_i outside
    rw [List.getElem?_eq_none (Nat.le_of_not_lt outside), List.getElem?_singleton]
    split
    · rename_i zero
      have here : position = rules.length := by omega
      simp [here, eq_comm]
    · rename_i beyond
      have elsewhere : position ≠ rules.length := by omega
      simp [elsewhere]

/-- A rule that is the best stays so when the next one does not apply or is beaten. -/
theorem IsBest.append {beats : Rule × Nat → Rule × Nat → Prop} {bears : Rule → Prop}
    {last : Rule} (best : IsBest beats bears rules a)
    (beaten : bears last → beats a (last, rules.length)) :
    IsBest beats bears (rules ++ [last]) a where
  registered := getElem?_append_singleton.mpr (.inl best.registered)
  applies := best.applies
  unbeaten other registered applies := by
    rcases getElem?_append_singleton.mp registered with old | ⟨position, rule⟩
    · exact best.unbeaten other old applies
    · obtain ⟨_, _⟩ := other
      obtain rfl : _ = last := rule
      obtain rfl : _ = rules.length := position
      exact beaten applies

/-- The next rule is the best if it applies and beats all before it. -/
theorem isBest_last {beats : Rule × Nat → Rule × Nat → Prop} {bears : Rule → Prop}
    {last : Rule} (applies : bears last) (itself : beats (last, rules.length) (last, rules.length))
    (beaten : ∀ other, rules[other.2]? = some other.1 → bears other.1 →
      beats (last, rules.length) other) :
    IsBest beats bears (rules ++ [last]) (last, rules.length) where
  registered := getElem?_append_singleton.mpr (.inr ⟨rfl, rfl⟩)
  applies := applies
  unbeaten other registered applies := by
    rcases getElem?_append_singleton.mp registered with old | ⟨position, rule⟩
    · exact beaten other old applies
    · obtain ⟨_, _⟩ := other
      obtain rfl : _ = last := rule
      obtain rfl : _ = rules.length := position
      exact itself

namespace Registry

/-- One more rule changes the table of exact types for its own type only. -/
theorem get?_putExact (exact : Entries Rule) (rule : Rule) (type : String) :
    (putExact exact rule).get? type =
      if rule.source = type then
        match exact.get? type with
        | some known => some (if known.precedence ≤ rule.precedence then rule else known)
        | none => some rule
      else exact.get? type := by
  unfold putExact
  split_ifs with here
  · subst here
    cases known : exact.get? rule.source with
    | none => simp only [Entries.get?_put, if_true]
    | some other =>
        dsimp only
        split
        · simp only [Entries.get?_put, if_true]
        · exact known
  · cases known : exact.get? rule.source with
    | none => simp only [Entries.get?_put, if_neg here]
    | some other =>
        dsimp only
        split
        · simp only [Entries.get?_put, if_neg here]
        · rfl

/-- The table of exact types after one more registration. -/
theorem exact_ofRules_append (rules : List Rule) (last : Rule) :
    (ofRules (rules ++ [last])).exact =
      if isWildcard last.source then (ofRules rules).exact
      else putExact (ofRules rules).exact last := by
  unfold ofRules
  cases wild : isWildcard last.source <;> simp [List.filter_append, wild]

/-- A type of which the last rule is not is told of in the table as before. -/
theorem get?_exact_append_of_not_names {last : Rule} (unnamed : ¬ last.Names type) :
    (ofRules (rules ++ [last])).exact.get? type = (ofRules rules).exact.get? type := by
  rw [exact_ofRules_append]
  split
  · rfl
  · rename_i plain
    rw [get?_putExact, if_neg]
    exact fun source => unnamed ⟨Bool.eq_false_iff.mpr plain, source⟩

/-- The type of the last rule is told of in the table by that rule, unless the one before it has a
higher precedence. -/
theorem get?_exact_append_of_names {last : Rule} (names : last.Names type) :
    (ofRules (rules ++ [last])).exact.get? type =
      match (ofRules rules).exact.get? type with
      | some known => some (if known.precedence ≤ last.precedence then last else known)
      | none => some last := by
  obtain ⟨plain, source⟩ := names
  rw [exact_ofRules_append, plain, if_neg Bool.false_ne_true, get?_putExact, if_pos source]

/-- What the table of exact types should hold for a type: the best rule that names it, if any. -/
def NamedBy (rules : List Rule) (type : String) : Option Rule → Prop
  | some rule => ∃ position, IsBest Outweighs (·.Names type) rules (rule, position)
  | none => ∀ rule ∈ rules, ¬ rule.Names type

theorem NamedBy.append_of_not_names {answer : Option Rule} {last : Rule}
    (named : NamedBy rules type answer) (unnamed : ¬ last.Names type) :
    NamedBy (rules ++ [last]) type answer := by
  cases answer with
  | none =>
      intro rule member
      rcases List.mem_append.mp member with old | new
      · exact named rule old
      · rwa [List.mem_singleton.mp new]
  | some rule =>
      obtain ⟨position, best⟩ := named
      exact ⟨position, best.append fun applies => absurd applies unnamed⟩

/-- The first rule that names a type is the best. -/
theorem NamedBy.append_first {last : Rule} (unnamed : NamedBy rules type none)
    (names : last.Names type) : NamedBy (rules ++ [last]) type (some last) := by
  refine ⟨rules.length, isBest_last names (.inr ⟨rfl, Nat.le_refl _⟩) ?_⟩
  intro other registered applies
  exact absurd applies (unnamed _ (List.mem_of_getElem? registered))

/-- A further rule that names a type takes the place of the best unless its precedence is lower. -/
theorem NamedBy.append_further {known last : Rule} (named : NamedBy rules type (some known))
    (names : last.Names type) :
    NamedBy (rules ++ [last]) type
      (some (if known.precedence ≤ last.precedence then last else known)) := by
  obtain ⟨position, best⟩ := named
  split
  · rename_i heavier
    refine ⟨rules.length, isBest_last names (.inr ⟨rfl, Nat.le_refl _⟩) ?_⟩
    intro other registered applies
    have beaten := best.unbeaten other registered applies
    have inside := (List.getElem?_eq_some_iff.mp registered).1
    simp only [Outweighs] at beaten ⊢
    omega
  · rename_i lighter
    exact ⟨position, best.append fun _ => .inl (Int.lt_of_not_ge lighter)⟩

/-- What the table of exact types holds for a type is the best rule that names it. -/
theorem namedBy_get?_exact (rules : List Rule) (type : String) :
    NamedBy rules type ((ofRules rules).exact.get? type) := by
  induction rules using List.reverseRecOn with
  | nil => exact fun _ member => nomatch member
  | append_singleton rules last ih =>
      by_cases names : last.Names type
      · rw [get?_exact_append_of_names names]
        cases known : (ofRules rules).exact.get? type with
        | none =>
            rw [known] at ih
            exact ih.append_first names
        | some rule =>
            rw [known] at ih
            exact ih.append_further names
      · rw [get?_exact_append_of_not_names names]
        exact ih.append_of_not_names names

/-! ## Patterns -/

theorem comesFirst_iff (v w : WildcardRule) :
    v.comesFirst w = true ↔ Outranks (v.rule, v.position) (w.rule, w.position) := by
  unfold WildcardRule.comesFirst Outranks Outweighs
  dsimp only
  split_ifs <;> simp only [decide_eq_true_eq] <;> omega

/-- The patterns of a registry are the registered ones that can be read. -/
theorem mem_wildcards_iff {w : WildcardRule} :
    w ∈ (ofRules rules).wildcards ↔ rules[w.position]? = some w.rule ∧
      isWildcard w.rule.source = true ∧ Pattern.read w.rule.source = .ok w.pattern := by
  unfold ofRules
  rw [List.mem_mergeSort, List.mem_filterMap]
  constructor
  · rintro ⟨⟨rule, position⟩, registered, found⟩
    unfold wildcard? at found
    split at found
    · cases found
    · rename_i wild
      split at found
      · rename_i pattern read
        obtain rfl := Option.some.inj found
        exact ⟨List.mem_zipIdx_iff_getElem?.mp registered, by simpa using wild, read⟩
      · cases found
  · rintro ⟨registered, wild, read⟩
    refine ⟨(w.rule, w.position), List.mem_zipIdx_iff_getElem?.mpr registered, ?_⟩
    simp only [wildcard?, wild, read]
    rfl

/-- Patterns are tried in the order of their rank. -/
theorem pairwise_wildcards (rules : List Rule) :
    (ofRules rules).wildcards.Pairwise fun v w =>
      Outranks (v.rule, v.position) (w.rule, w.position) := by
  have ordered := @List.pairwise_mergeSort _ WildcardRule.comesFirst ?_ ?_
    (rules.zipIdx.filterMap wildcard?)
  · exact ordered.imp fun {v w} first => (comesFirst_iff v w).mp first
  · intro u v w
    simp only [comesFirst_iff, Outranks, Outweighs]
    omega
  · intro v w
    rw [Bool.or_eq_true, comesFirst_iff, comesFirst_iff]
    unfold Outranks Outweighs
    omega

/-- The first pattern that matches a type is the best rule that covers it. -/
theorem isBest_of_find?_wildcards {w : WildcardRule}
    (found : (ofRules rules).wildcards.find? (fun w => w.pattern.matches type.toList) = some w) :
    IsBest Outranks (·.Covers type) rules (w.rule, w.position) := by
  obtain ⟨first, before, after, split, passed⟩ := List.find?_eq_some_iff_append.mp found
  obtain ⟨registered, wild, read⟩ := mem_wildcards_iff.mp (List.mem_of_find?_eq_some found)
  refine ⟨registered, ⟨wild, w.pattern, read, first⟩, ?_⟩
  rintro ⟨rule, position⟩ registered' ⟨wild', pattern, read', covers⟩
  have tried : ⟨pattern, rule, position⟩ ∈ (ofRules rules).wildcards :=
    mem_wildcards_iff.mpr ⟨registered', wild', read'⟩
  have ordered := pairwise_wildcards rules
  rw [split] at tried ordered
  rcases List.mem_append.mp tried with earlier | here
  · have unmatched := passed _ earlier
    rw [covers] at unmatched
    cases unmatched
  · rcases List.mem_cons.mp here with rfl | later
    · exact .inr ⟨rfl, .inr ⟨rfl, Nat.le_refl _⟩⟩
    · have behind := (List.pairwise_cons.mp (List.pairwise_append.mp ordered).2.1).1
      exact behind ⟨pattern, rule, position⟩ later

/-- A registry looks up the rule that should be chosen. -/
theorem chosen_lookup (rules : List Rule) (type : String) :
    Chosen rules type ((ofRules rules).lookup type) := by
  have exact := namedBy_get?_exact rules type
  unfold lookup
  cases known : (ofRules rules).exact.get? type with
  | some rule =>
      rw [known] at exact
      obtain ⟨_, best⟩ := exact
      exact .named best
  | none =>
      rw [known] at exact
      cases found : (ofRules rules).wildcards.find? fun w => w.pattern.matches type.toList with
      | some w => exact .covered exact (isBest_of_find?_wildcards found)
      | none =>
          refine .missing exact ?_
          rintro rule member ⟨wild, pattern, read, covers⟩
          obtain ⟨position, registered⟩ := List.mem_iff_getElem?.mp member
          have tried : ⟨pattern, rule, position⟩ ∈ (ofRules rules).wildcards :=
            mem_wildcards_iff.mpr ⟨registered, wild, read⟩
          exact List.find?_eq_none.mp found _ tried covers

/-- Registries of rules that are alike make the same of every resource. -/
theorem resolve_congr {others : List Rule} (lists : List.Forall₂ Rule.Alike rules others) :
    (ofRules rules).resolve type = (ofRules others).resolve type := by
  have chosen := chosen_lookup others type
  funext properties
  unfold resolve
  obtain ⟨rule, other, found, chosen', alike, bears⟩ | ⟨missing, chosen'⟩ :=
    (chosen_lookup rules type).congr lists
  · rw [found, chosen.unique chosen']
    dsimp only
    rw [alike.target, alike.apply type bears, alike.source]
  · rw [missing, chosen.unique chosen']

/-- After any registrations the rule that is looked up for a type is the one that should be chosen,
and no other; in particular it names the type wherever some rule does. -/
theorem lookup_eq_iff_chosen (registrations : List Registration) (type : String) :
    let rules := registrations.flatMap (·.rules)
    (∀ answer, (ofRules rules).lookup type = answer ↔ Chosen rules type answer) ∧
      ((∃ rule ∈ rules, rule.Names type) ↔
        ∃ rule, (ofRules rules).lookup type = some rule ∧ rule.Names type) := by
  intro rules
  have chosen := chosen_lookup rules type
  refine ⟨fun answer => ⟨?_, chosen.unique⟩, ?_, ?_⟩
  · rintro rfl
    exact chosen
  · rintro ⟨rule, member, names⟩
    generalize (ofRules rules).lookup type = answer at chosen
    cases chosen with
    | named best => exact ⟨_, rfl, best.applies⟩
    | covered unnamed _ => exact absurd names (unnamed rule member)
    | missing unnamed _ => exact absurd names (unnamed rule member)
  · rintro ⟨rule, found, names⟩
    rw [found] at chosen
    cases chosen with
    | named best => exact ⟨_, best.mem, names⟩
    | covered _ best => exact ⟨_, best.mem, names⟩

end Registry

end Rolewright.Mapping
