/-
# Balanced code

Code in which every quote is closed and every bracket has its partner. Both scans pass over it: the
one that looks for separators is afterwards as deep as before and has seen none on the way, at any
depth but the top (`IsBalanced.uncut`), and the one that looks for the end of a group does not find
it there (`IsBalanced.closing?_append`). So what one pair of brackets or quotes encloses is in one
piece, and is what is found between them (`IsBalanced.enclosed?_eq`).
-/

import Rolewright.Proofs.Recipe.Excerpts
import Rolewright.Proofs.Recipe.Rows
import Rolewright.Value.Parse

namespace Rolewright.Value

open Recipe Text

variable {sep quote left right : Char} {code more text : List Char}

/-- A bracket that opens a group and the one that closes it. -/
inductive IsBracketPair : Char → Char → Prop
  | round : IsBracketPair '(' ')'
  | square : IsBracketPair '[' ']'
  | curly : IsBracketPair '\x7b' '\x7d'

/-- What may stand between quotes: a backslash is followed by the character that it escapes. -/
inductive IsEscaped (quote : Char) : List Char → Prop
  | nil : IsEscaped quote []
  | plain {c : Char} {text : List Char} (other : c ≠ quote) (backslash : c ≠ '\\')
      (later : IsEscaped quote text) : IsEscaped quote (c :: text)
  | pair {c : Char} {text : List Char} (later : IsEscaped quote text) :
      IsEscaped quote ('\\' :: c :: text)

/-- Code in which everything that is opened is closed. -/
inductive IsBalanced : List Char → Prop
  | nil : IsBalanced []
  | plain {c : Char} {code : List Char} (other : Nesting.isStructural c = false)
      (later : IsBalanced code) : IsBalanced (c :: code)
  | quoted {quote : Char} {text code : List Char} (known : Nesting.quotes quote = true)
      (escaped : IsEscaped quote text) (later : IsBalanced code) :
      IsBalanced (quote :: (text ++ quote :: code))
  | group {left right : Char} {inside code : List Char} (pair : IsBracketPair left right)
      (within : IsBalanced inside) (later : IsBalanced code) :
      IsBalanced (left :: (inside ++ right :: code))

/-- A text that is plain within quotes needs no escapes there. -/
theorem IsEscaped.of_isPlainWithin (plain : IsPlainWithin quote text) : IsEscaped quote text := by
  induction text with
  | nil => exact .nil
  | cons c cs ih =>
      obtain ⟨⟨other, backslash, -⟩, inside⟩ := plain.cons
      exact .plain other backslash (ih inside)

/-- Balanced code stays so when more of it follows. -/
theorem IsBalanced.append (first : IsBalanced code) (second : IsBalanced more) :
    IsBalanced (code ++ more) := by
  induction first with
  | nil => exact second
  | plain other _ ih => exact .plain other ih
  | quoted known escaped _ ih => simpa using IsBalanced.quoted known escaped ih
  | group pair within _ _ ih => simpa using IsBalanced.group pair within ih

/-! ## The scan for separators -/

/-- Pieces of which the first has some code before it. -/
def prepend (code : List Char) : List (List Char) → List (List Char)
  | [] => [code]
  | piece :: rest => (code ++ piece) :: rest

/-- Code that belongs to one piece and leaves nothing open. -/
def IsPiece (sep : Char) (code : List Char) : Prop :=
  ∀ rest, pieces sep .start (code ++ rest) = prepend code (pieces sep .start rest)

theorem prepend_append (code more : List Char) {parts : List (List Char)} (some : parts ≠ []) :
    prepend (code ++ more) parts = prepend code (prepend more parts) := by
  cases parts with
  | nil => exact absurd rfl some
  | cons piece rest => simp [prepend]

theorem prepend_nil {parts : List (List Char)} (some : parts ≠ []) : prepend [] parts = parts := by
  cases parts with
  | nil => exact absurd rfl some
  | cons piece rest => rfl

theorem pieces_ne_nil (sep : Char) (s : Nesting) (cs : List Char) : pieces sep s cs ≠ [] := by
  obtain ⟨first, rest, pieces_eq, -⟩ := exists_pieces_eq_cons sep s cs
  rw [pieces_eq]
  exact List.cons_ne_nil _ _

/-- A character that separates nothing begins the first piece. -/
theorem pieces_cons {s : Nesting} {c : Char} (inside : (s.atTop && c == sep) = false)
    (cs : List Char) : pieces sep s (c :: cs) = prepend [c] (pieces sep (s.step c) cs) := by
  rw [pieces, inside]
  cases pieces sep (s.step c) cs <;> rfl

/-- Parts of one piece make one piece. -/
theorem IsPiece.append (first : IsPiece sep code) (second : IsPiece sep more) :
    IsPiece sep (code ++ more) := by
  intro rest
  rw [List.append_assoc, first, second, ← prepend_append _ _ (pieces_ne_nil _ _ _)]

/-- Reading the code takes the scan from one state to another, and no separator in it counts. -/
inductive Uncut (sep : Char) : Nesting → List Char → Nesting → Prop
  | nil {s : Nesting} : Uncut sep s [] s
  | cons {s t : Nesting} {c : Char} {code : List Char}
      (kept : s.atTop = true → Nesting.isStructural c = false → c ≠ sep)
      (later : Uncut sep (s.step c) code t) : Uncut sep s (c :: code) t

namespace Uncut

variable {s t u : Nesting}

/-- Code without a cut behind other such code has none. -/
theorem append (first : Uncut sep s code t) (second : Uncut sep t more u) :
    Uncut sep s (code ++ more) u := by
  induction first with
  | nil => exact second
  | cons kept _ ih => exact .cons kept (ih second)

/-- Characters without a meaning for the scan leave it as it is. -/
theorem of_all (quoteless : s.quote = none)
    (plain : ∀ c ∈ code, Nesting.isStructural c = false ∧ (s.atTop = true → c ≠ sep)) :
    Uncut sep s code s := by
  induction code with
  | nil => exact .nil
  | cons c cs ih =>
      obtain ⟨⟨here, other⟩, later⟩ := List.forall_mem_cons.mp plain
      simp only [Nesting.isStructural, Bool.or_eq_false_iff] at here
      have step : s.step c = s := by simp [Nesting.step, quoteless, here]
      exact .cons (fun top _ => other top) (by rw [step]; exact ih later)

/-- Code without a cut goes in front of the first piece of what follows, -/
theorem pieces_append (uncut : Uncut sep s code t) (rest : List Char) :
    pieces sep s (code ++ rest) = prepend code (pieces sep t rest) := by
  induction uncut with
  | nil => exact (prepend_nil (pieces_ne_nil _ _ _)).symm
  | @cons s t c code kept later ih =>
      have inside : (s.atTop && c == sep && !Nesting.isStructural c) = false := by
        rw [Bool.eq_false_iff]
        intro cut
        simp only [Bool.and_eq_true, beq_iff_eq, Bool.not_eq_true'] at cut
        exact kept cut.1.1 cut.2 cut.1.2
      rw [List.cons_append, pieces, inside, ih]
      cases pieces sep t rest <;> rfl

/-- and in front of what stands before a mark. -/
theorem splitAtMark?_append (uncut : Uncut sep s code t) (mark rest : List Char) :
    splitAtMark? (sep :: mark) s (code ++ rest) =
      (splitAtMark? (sep :: mark) t rest).map fun halves => (code ++ halves.1, halves.2) := by
  induction uncut with
  | nil => simp
  | @cons s t c code kept later ih =>
      have unmarked : (if s.atTop && !Nesting.isStructural c then
          afterPrefix? (sep :: mark) (c :: (code ++ rest)) else none) = none := by
        split
        · rename_i counts
          simp only [Bool.and_eq_true, Bool.not_eq_true'] at counts
          have other := kept counts.1 counts.2
          exact afterPrefix?_cons_eq_none (by simpa using other) mark
        · rfl
      rw [List.cons_append, splitAtMark?, unmarked, ih, Option.map_map]
      rfl

end Uncut

theorem isPiece_of_uncut {sep : Char} (uncut : Uncut sep .start code .start) : IsPiece sep code :=
  fun rest => uncut.pieces_append rest

theorem splitAtMark?_of_uncut {c : Char} {mark : List Char} (uncut : Uncut c .start code .start) :
    splitAtMark? (c :: mark) .start code = none := by
  have found := uncut.splitAtMark?_append mark []
  rwa [List.append_nil] at found

/-- It is no pair, with an arrow or a colon. -/
theorem pairWith?_of_uncut (uncut : Uncut '=' .start code .start) (colon : colonKey? code = none)
    (shorter : List Char → Value) : pairWith? shorter code = none := by
  rw [pairWith?, splitAtMark?_of_uncut uncut, colonPair?, colon]
  rfl

/-- No cut lies within quotes. -/
theorem IsEscaped.uncut (escaped : IsEscaped quote text) (depth : Int) :
    Uncut sep ⟨depth, some quote, false⟩ text ⟨depth, some quote, false⟩ := by
  induction escaped with
  | nil => exact .nil
  | plain other backslash _ ih =>
      refine .cons nofun ?_
      simpa [Nesting.step, other, backslash] using ih
  | pair _ ih =>
      refine .cons nofun (.cons nofun ?_)
      simpa [Nesting.step] using ih

/-- A text in quotes is cut nowhere. -/
theorem IsEscaped.uncut_quoted (escaped : IsEscaped quote text)
    (known : Nesting.quotes quote = true) (depth : Int) :
    Uncut sep ⟨depth, none, false⟩ (quote :: (text ++ [quote])) ⟨depth, none, false⟩ := by
  have other : quote ≠ '\\' := by
    rintro rfl
    cases known
  have opening : Nesting.step ⟨depth, none, false⟩ quote = ⟨depth, some quote, false⟩ := by
    simp [Nesting.step, known]
  have closing : Nesting.step ⟨depth, some quote, false⟩ quote = ⟨depth, none, false⟩ := by
    simp [Nesting.step, other]
  refine .cons (fun _ plain => ?_) ?_
  · simp [Nesting.isStructural, known] at plain
  · rw [opening]
    exact (escaped.uncut depth).append (.cons nofun (by rw [closing]; exact .nil))

namespace IsBracketPair

variable (pair : IsBracketPair left right)

include pair

theorem step_left (depth : Int) :
    Nesting.step ⟨depth, none, false⟩ left = ⟨depth + 1, none, false⟩ := by
  cases pair <;> rfl

theorem step_right (depth : Int) :
    Nesting.step ⟨depth + 1, none, false⟩ right = ⟨depth, none, false⟩ := by
  cases pair <;> simp [Nesting.step, Nesting.quotes, Nesting.opens, Nesting.closes]

theorem isStructural_left : Nesting.isStructural left = true := by
  cases pair <;> rfl

theorem isStructural_right : Nesting.isStructural right = true := by
  cases pair <;> rfl

/-- Brackets around code that is cut nowhere. -/
theorem uncut {depth : Int}
    (within : Uncut sep ⟨depth + 1, none, false⟩ code ⟨depth + 1, none, false⟩) :
    Uncut sep ⟨depth, none, false⟩ (left :: (code ++ [right])) ⟨depth, none, false⟩ := by
  refine .cons (fun _ plain => ?_) ?_
  · exact absurd pair.isStructural_left (ne_true_of_eq_false plain)
  · rw [pair.step_left]
    refine within.append (.cons (fun _ plain => ?_) (by rw [pair.step_right]; exact .nil))
    exact absurd pair.isStructural_right (ne_true_of_eq_false plain)

end IsBracketPair

/-- Within brackets balanced code is cut nowhere. -/
theorem IsBalanced.uncut (balanced : IsBalanced code) {depth : Int} (within : 0 < depth) :
    Uncut sep ⟨depth, none, false⟩ code ⟨depth, none, false⟩ := by
  induction balanced generalizing depth with
  | nil => exact .nil
  | @plain c code other _ ih =>
      have low : Nesting.atTop ⟨depth, none, false⟩ = false := by
        simp [Nesting.atTop, Int.ne_of_gt within]
      have here : Uncut sep ⟨depth, none, false⟩ [c] ⟨depth, none, false⟩ :=
        .of_all rfl (by simp [other, low])
      exact here.append (ih within)
  | quoted known escaped _ ih => simpa using (escaped.uncut_quoted known depth).append (ih within)
  | group pair _ _ ihWithin ih =>
      have deeper : 0 < depth + 1 := Int.add_pos within Int.one_pos
      simpa using (pair.uncut (ihWithin deeper)).append (ih within)

/-- A group of balanced code is cut nowhere. -/
theorem IsBalanced.uncut_group (balanced : IsBalanced code) (pair : IsBracketPair left right) :
    Uncut sep .start (left :: (code ++ [right])) .start :=
  pair.uncut (balanced.uncut Int.one_pos)

/-! ## The scan for the end of a group -/

/-- What a scan finds behind code that it has passed over. -/
def behind (code : List Char) (found : Option (List Char × List Char)) :
    Option (List Char × List Char) :=
  found.map fun (inside, rest) => (code ++ inside, rest)

theorem behind_nil (found : Option (List Char × List Char)) : behind [] found = found := by
  cases found <;> rfl

theorem behind_append (code more : List Char) (found : Option (List Char × List Char)) :
    behind (code ++ more) found = behind code (behind more found) := by
  cases found <;> simp [behind]

/-- A character that is neither quote nor bracket belongs to the group. -/
theorem closing?_cons {left right : Char} {depth : Nat} {c : Char} {code : List Char}
    (quotes : Nesting.quotes c = false) (opening : c ≠ left) (closing : c ≠ right) :
    closing? left right depth none false (c :: code) =
      behind [c] (closing? left right depth none false code) := by
  simp [closing?, behind, quotes, opening, closing]

/-- So does all that stands in quotes. -/
theorem IsEscaped.closing?_append (escaped : IsEscaped quote text) (depth : Nat)
    (rest : List Char) :
    closing? left right depth (some quote) false (text ++ rest) =
      behind text (closing? left right depth (some quote) false rest) := by
  induction escaped with
  | nil => exact (behind_nil _).symm
  | plain other backslash _ ih =>
      simp [closing?, other, backslash, ih, behind, Function.comp_def]
  | pair _ ih =>
      simp [closing?, ih, behind, Function.comp_def]

variable (left right) in
/-- No bracket counts in a text in quotes. -/
theorem IsEscaped.closing?_quoted (escaped : IsEscaped quote text)
    (known : Nesting.quotes quote = true) (depth : Nat) (rest : List Char) :
    closing? left right depth none false (quote :: (text ++ quote :: rest)) =
      behind (quote :: (text ++ [quote])) (closing? left right depth none false rest) := by
  have other : quote ≠ '\\' := by
    rintro rfl
    cases known
  have opening : closing? left right depth none false (quote :: (text ++ quote :: rest)) =
      behind [quote] (closing? left right depth (some quote) false (text ++ quote :: rest)) := by
    simp [closing?, behind, known]
  have closing : closing? left right depth (some quote) false (quote :: rest) =
      behind [quote] (closing? left right depth none false rest) := by
    simp [closing?, behind, other]
  rw [opening, escaped.closing?_append, closing, ← behind_append, ← behind_append]
  rfl

/-- The brackets of a group either both count or both do not. -/
theorem IsBracketPair.closing?_group {left' right' : Char} (counted : IsBracketPair left right)
    (pair : IsBracketPair left' right') {inside : List Char}
    (within : ∀ depth rest, closing? left right depth none false (inside ++ rest) =
      behind inside (closing? left right depth none false rest)) (depth : Nat) (rest : List Char) :
    closing? left right depth none false (left' :: (inside ++ right' :: rest)) =
      behind (left' :: (inside ++ [right'])) (closing? left right depth none false rest) := by
  by_cases same : left' = left
  · have partner : right' = right := by cases pair <;> cases counted <;> first | rfl | cases same
    subst same partner
    have opening (code : List Char) : closing? left' right' depth none false (left' :: code) =
        behind [left'] (closing? left' right' (depth + 1) none false code) := by
      cases counted <;> simp [closing?, behind, Nesting.quotes]
    have closing : closing? left' right' (depth + 1) none false (right' :: rest) =
        behind [right'] (closing? left' right' depth none false rest) := by
      cases counted <;> simp [closing?, behind, Nesting.quotes]
    rw [opening, within, closing, ← behind_append, ← behind_append]
    rfl
  -- Brackets of another kind are passed over like any other character.
  · obtain ⟨unquoted, unclosed, partner, other⟩ :
        Nesting.quotes left' = false ∧ left' ≠ right ∧ Nesting.quotes right' = false ∧
          right' ≠ left ∧ right' ≠ right := by
      cases pair <;> cases counted <;> first | exact absurd rfl same | decide
    rw [closing?_cons unquoted same unclosed, within, closing?_cons partner other.1 other.2,
      ← behind_append, ← behind_append]
    rfl

/-- Balanced code does not end the group that it stands in. -/
theorem IsBalanced.closing?_append (balanced : IsBalanced code)
    (counted : IsBracketPair left right) (depth : Nat) (rest : List Char) :
    closing? left right depth none false (code ++ rest) =
      behind code (closing? left right depth none false rest) := by
  induction balanced generalizing depth rest with
  | nil => exact (behind_nil _).symm
  | plain other _ ih =>
      simp only [Nesting.isStructural, Bool.or_eq_false_iff] at other
      rw [List.cons_append, closing?_cons other.1.1, ih, ← behind_append]
      · rfl
      · rintro rfl
        cases counted <;> cases other.1.2
      · rintro rfl
        cases counted <;> cases other.2
  | quoted known escaped _ ih =>
      have whole := escaped.closing?_quoted left right known depth
      rw [List.cons_append, List.append_assoc, List.cons_append, whole, ih, ← behind_append]
      simp
  | group pair _ _ ihWithin ih =>
      rw [List.cons_append, List.append_assoc, List.cons_append,
        counted.closing?_group pair ihWithin, ih, ← behind_append]
      simp

/-- What a pair of brackets encloses is the balanced code between them. -/
theorem IsBalanced.enclosed?_eq (balanced : IsBalanced code) (pair : IsBracketPair left right) :
    enclosed? left right (left :: (code ++ [right])) = some code := by
  have closing : closing? left right 0 none false [right] = some ([], []) := by
    cases pair <;> rfl
  rw [enclosed?, balanced.closing?_append pair, closing]
  simp [behind]

end Rolewright.Value
