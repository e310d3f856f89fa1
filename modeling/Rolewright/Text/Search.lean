/-
# Fixed texts inside a text

Looking for a fixed text at the start, at the end or anywhere inside another, and taking it off.
-/

namespace Rolewright.Text

/-- What follows the fixed text `mark` at the start. -/
def afterPrefix? (mark cs : List Char) : Option (List Char) :=
  mark.isPrefixOf? cs

theorem afterPrefix?_append (mark cs : List Char) : afterPrefix? mark (mark ++ cs) = some cs := by
  induction mark with
  | nil => cases cs <;> rfl
  | cons c mark ih => exact (if_pos (beq_self_eq_true c)).trans ih

/-- A text that begins with another character does not start with the mark. -/
theorem afterPrefix?_cons_eq_none {c : Char} {cs : List Char} (other : cs.head? ≠ some c)
    (mark : List Char) : afterPrefix? (c :: mark) cs = none := by
  cases cs with
  | nil => rfl
  | cons d ds =>
      have differ : (c == d) = false := beq_false_of_ne fun same => other (congrArg some same.symm)
      exact if_neg (ne_true_of_eq_false differ)

/-- What precedes the fixed text `mark` at the end. -/
def beforeSuffix? (mark cs : List Char) : Option (List Char) :=
  mark.isSuffixOf? cs

/-- The text without `mark` at its start, or unchanged when it does not start so. -/
def withoutPrefix (mark cs : List Char) : List Char :=
  (afterPrefix? mark cs).getD cs

theorem withoutPrefix_cons_eq_self {c : Char} {cs : List Char} (other : cs.head? ≠ some c)
    (mark : List Char) : withoutPrefix (c :: mark) cs = cs := by
  rw [withoutPrefix, afterPrefix?_cons_eq_none other]
  rfl

/-- The text without `mark` at its end, or unchanged when it does not end so. -/
def withoutSuffix (mark cs : List Char) : List Char :=
  (beforeSuffix? mark cs).getD cs

/-- The parts before and after the first place where `mark` stands. -/
def splitAtFirst? (mark : List Char) : List Char → Option (List Char × List Char)
  | [] => if mark.isEmpty then some ([], []) else none
  | c :: cs =>
    match afterPrefix? mark (c :: cs) with
    | some rest => some ([], rest)
    | none => (splitAtFirst? mark cs).map fun (before, rest) => (c :: before, rest)

/-- Whether `mark` stands anywhere in the text. -/
def containsText (mark cs : List Char) : Bool :=
  (splitAtFirst? mark cs).isSome

/-- If all others fail, a search among choices finds what it finds in the one that is left. -/
theorem findSome?_eq_of_unique {α β : Type} {f : α → Option β} {choices : List α} {choice : α}
    (known : choice ∈ choices) (others : ∀ other ∈ choices, other ≠ choice → f other = none) :
    choices.findSome? f = f choice := by
  induction choices with
  | nil => cases known
  | cons first rest ih =>
      obtain ⟨before, others⟩ := List.forall_mem_cons.mp others
      rw [List.findSome?_cons]
      by_cases same : first = choice
      · subst same
        cases found : f first with
        | some _ => rfl
        | none =>
            refine List.findSome?_eq_none_iff.mpr fun other member => ?_
            by_cases same : other = first
            · rwa [same]
            · exact others other member same
      · rw [before same]
        exact ih ((List.mem_cons.mp known).resolve_left (Ne.symm same)) others

/-- The text with every `old` replaced by `new`. -/
def replaceChar (old : Char) (new : List Char) (cs : List Char) : List Char :=
  cs.flatMap fun c => if c = old then new else [c]

/-- The first suffix of the text, the whole text included, on which `probe` succeeds. -/
def searchFirst? {α : Type} (probe : List Char → Option α) : List Char → Option α
  | [] => probe []
  | c :: cs =>
    match probe (c :: cs) with
    | some found => some found
    | none => searchFirst? probe cs

end Rolewright.Text
