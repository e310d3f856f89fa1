/-
# The registry of rules

Rules gathered for looking up. A rule for exactly the type wins over every pattern; among patterns
the one with the longest literal beginning wins. Between rules that are equally specific the higher
precedence decides, then the later registration.
-/

import Rolewright.Mapping.Rule

namespace Rolewright.Mapping

/-- A pattern rule as it is tried: its pattern, the rule, and when it was registered. -/
structure WildcardRule where
  pattern : Pattern
  rule : Rule
  position : Nat

namespace WildcardRule

/-- Whether a pattern rule is tried before another one. -/
def comesFirst (a b : WildcardRule) : Bool :=
  let lengthA := literalLength a.rule.source
  let lengthB := literalLength b.rule.source
  if lengthA ≠ lengthB then lengthB < lengthA
  else if a.rule.precedence ≠ b.rule.precedence then b.rule.precedence < a.rule.precedence
  else b.position ≤ a.position

end WildcardRule

/-- Rules gathered for looking up. -/
structure Registry where
  /-- All rules, in the order of registration. -/
  rules : List Rule
  /-- For each type that a rule names exactly, the rule that wins. -/
  exact : Entries Rule
  /-- The pattern rules, in the order in which they are tried. -/
  wildcards : List WildcardRule

namespace Registry

/-- Registers a rule for exactly one type, unless one of higher precedence is there. -/
def putExact (exact : Entries Rule) (rule : Rule) : Entries Rule :=
  match exact.get? rule.source with
  | some known => if known.precedence ≤ rule.precedence then exact.put rule.source rule else exact
  | none => exact.put rule.source rule

/-- A rule whose source is a pattern, unless the pattern cannot be read. -/
def wildcard? (entry : Rule × Nat) : Option WildcardRule :=
  if !isWildcard entry.1.source then none
  else
    match Pattern.read entry.1.source with
    | .ok pattern => some ⟨pattern, entry.1, entry.2⟩
    | .error _ => none

/-- The registry of some rules. -/
def ofRules (rules : List Rule) : Registry :=
  { rules
    exact := (rules.filter fun rule => !isWildcard rule.source).foldl putExact []
    wildcards := (rules.zipIdx.filterMap wildcard?).mergeSort WildcardRule.comesFirst }

/-- The rule for a type. -/
def lookup (r : Registry) (type : String) : Option Rule :=
  match r.exact.get? type with
  | some rule => some rule
  | none => (r.wildcards.find? fun w => w.pattern.matches type.toList).map (·.rule)

/-- What becomes of a resource. -/
def resolve (r : Registry) (type : String) (properties : Entries Value) : Resolution :=
  match r.lookup type with
  | some rule => .mapped ⟨rule.target, rule.apply properties, rule.source⟩
  | none => .unmapped

end Registry

end Rolewright.Mapping
