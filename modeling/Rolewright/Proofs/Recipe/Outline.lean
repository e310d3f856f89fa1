/-
# The outline of a source file

The types and the spans of what a source file declares. The outline rests on little of what is
found: everything but the type and the span of a resource, and the lines and the guards of a
stretch, can be left out before the stretches are joined (`outline_extract`).
-/

import Rolewright.Proofs.Recipe.Statements
import Rolewright.Proofs.Recipe.Stretches

namespace Rolewright.Recipe

open Text

/-- The types and the spans of the declarations, in their order. -/
def SourceFile.outline (f : SourceFile) : List (String × Span) :=
  f.declarations.map fun d => (d.type, d.span)

namespace Finding

/-- A resource of which no more is known than its type and its span. -/
def ofHead (type : String) (span : Span) : Finding :=
  .declared
    { type
      name := ""
      properties := []
      guards := []
      notifies := []
      span
      unparsed := []
      unfinished := false }

/-- What the outline rests on. -/
def bare : Finding → Finding
  | .declared d => ofHead d.type d.span
  | .unknown first last guards => .unknown first last guards
  | _ => .included ""

/-- What a finding adds to the outline of a file. -/
def outline (file : String) : Finding → List (String × Span)
  | .declared d => [(d.type, d.span)]
  | .unknown first last _ => [(unparsedType, ⟨file, first, max last first⟩)]
  | _ => []

theorem outline_bare (file : String) (finding : Finding) :
    finding.bare.outline file = finding.outline file := by
  cases finding <;> rfl

theorem map_declarations (o : Origin) (finding : Finding) :
    (finding.declarations o).map (fun d => (d.type, d.span)) = finding.outline o.file := by
  cases finding <;> rfl

end Finding

/-- Joining stretches takes no more of a finding than the outline does. -/
theorem joined_map_bare (pending : Option Stretch) (findings : List Finding) :
    joined pending (findings.map .bare) = (joined pending findings).map .bare := by
  induction findings generalizing pending with
  | nil => cases pending <;> rfl
  | cons finding rest ih =>
      by_cases unknown : ∃ first last guards, finding = .unknown first last guards
      · obtain ⟨first, last, guards, rfl⟩ := unknown
        rw [List.map_cons, Finding.bare]
        cases pending with
        | none => exact ih _
        | some stretch =>
            rw [joined, joined]
            split
            · exact ih _
            · rw [ih]
              rfl
      · have settles (first last : Nat) (guards : List Guard) :
            finding ≠ .unknown first last guards :=
          fun same => unknown ⟨first, last, guards, same⟩
        have settles' (first last : Nat) (guards : List Guard) :
            finding.bare ≠ .unknown first last guards := by
          cases finding with
          | unknown first last guards => exact absurd rfl (settles first last guards)
          | _ => exact Finding.noConfusion
        rw [List.map_cons, joined_cons _ _ settles, joined_cons _ _ settles', ih]
        cases pending <;> rfl

/-- The outline of a source file is that of its bare findings. -/
theorem outline_extract (file : String) (types : List String) (source : List Char) :
    (SourceFile.extract file types source).outline =
      (joined none ((findingsOf file types source).map .bare)).flatMap (Finding.outline file) := by
  rw [SourceFile.outline, declarations_extract, List.map_flatMap, joined_map_bare,
    List.flatMap_map]
  simp only [Finding.map_declarations, Finding.outline_bare]

namespace Origin

variable (o : Origin) (type : String) (argument : List Char) (guards : List Guard)

/-- Whatever stands in its body, a block declares its type, from its header to its end. -/
theorem bare_blockDeclaration (block : Block) :
    (Finding.declared (o.blockDeclaration block type argument guards)).bare =
      .ofHead type (o.span block.header.first block.last) := by
  have embodies := o.embodies_blockDeclaration type argument guards block
  rw [Finding.bare, embodies.type, embodies.span]
  rfl

theorem bare_shortDeclaration (line : Line) :
    (Finding.declared (o.shortDeclaration line type argument guards)).bare =
      .ofHead type (o.span line.first line.last) := by
  have embodies := o.embodies_shortDeclaration type argument guards line
  rw [Finding.bare, embodies.type, embodies.span]
  rfl

end Origin

end Rolewright.Recipe
