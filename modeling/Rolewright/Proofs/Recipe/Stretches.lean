/-
# Declarations are findings, with stretches joined

Gathering keeps a pending stretch while it can still grow. What that comes to can be said of the
list of findings alone: neighbouring stretches under the same guards are joined, nothing else
changes, and each finding is declared by itself (`declarations_extract`).
-/

import Rolewright.Proofs.Recipe.Gathering

namespace Rolewright.Recipe

open Text

/-- The stretch as it was found. -/
def Stretch.finding (stretch : Stretch) : Finding :=
  .unknown stretch.first stretch.last stretch.guards

/-- The declaration that a stretch becomes. -/
def Stretch.declaration (o : Origin) (stretch : Stretch) : Declaration where
  type := unparsedType
  name := o.file ++ ":" ++ toString stretch.first
  properties := [("source", .raw (o.text stretch.first stretch.last))]
  guards := stretch.guards
  notifies := []
  span := o.span stretch.first stretch.last
  unparsed := []
  unfinished := false

/-- What a finding declares by itself. -/
def Finding.declarations (o : Origin) : Finding → List Declaration
  | .declared d => [d]
  | .unknown first last guards => [(Stretch.mk first last guards).declaration o]
  | _ => []

/-- The findings after a stretch, which is joined with those that follow it under the same
guards. -/
def joined : Option Stretch → List Finding → List Finding
  | pending, [] => (pending.map Stretch.finding).toList
  | none, .unknown first last guards :: rest => joined (some ⟨first, last, guards⟩) rest
  | some stretch, .unknown first last guards :: rest =>
    if stretch.guards = guards && stretch.last < first then joined (some { stretch with last }) rest
    else stretch.finding :: joined (some ⟨first, last, guards⟩) rest
  | pending, finding :: rest =>
    (pending.map Stretch.finding).toList ++ finding :: joined none rest

/-- Whatever is no stretch ends the pending one. -/
theorem joined_cons {finding : Finding} (pending : Option Stretch) (rest : List Finding)
    (settles : ∀ first last guards, finding ≠ .unknown first last guards) :
    joined pending (finding :: rest) =
      (pending.map Stretch.finding).toList ++ finding :: joined none rest := by
  cases finding with
  | unknown first last guards => exact absurd rfl (settles first last guards)
  | _ => cases pending <;> rfl

/-- Where there is no stretch there is nothing to join. -/
theorem joined_map_declared (declarations : List Declaration) :
    joined none (declarations.map .declared) = declarations.map .declared := by
  induction declarations with
  | nil => rfl
  | cons d rest ih =>
      have settles : ∀ first last guards, Finding.declared d ≠ .unknown first last guards := nofun
      rw [List.map_cons, joined_cons _ _ settles, ih]
      rfl

namespace Gathering

variable {o : Origin}

theorem declarations_flush (o : Origin) (g : Gathering) :
    (g.flush o).declarations = g.found.declarations ++
      ((g.pending.map Stretch.finding).toList).flatMap (Finding.declarations o) := by
  unfold flush
  cases g.pending with
  | none => exact (List.append_nil _).symm
  | some stretch => rfl

/-- A finding that is no stretch is declared after the pending one. -/
theorem declarations_add {finding : Finding} (g : Gathering)
    (settles : ∀ first last guards, finding ≠ .unknown first last guards) :
    (g.add o finding).found.declarations =
        (g.flush o).declarations ++ finding.declarations o ∧
      (g.add o finding).pending = none := by
  cases finding with
  | unknown first last guards => exact absurd rfl (settles first last guards)
  | declared d => exact ⟨rfl, rfl⟩
  | _ => exact ⟨(List.append_nil _).symm, rfl⟩

/-- Gathering declares what is found, with the stretches joined. -/
theorem declarations_foldl_add (findings : List Finding) (g : Gathering) :
    ((findings.foldl (add o) g).flush o).declarations =
      g.found.declarations ++ (joined g.pending findings).flatMap (Finding.declarations o) := by
  induction findings generalizing g with
  | nil => exact declarations_flush o g
  | cons finding rest ih =>
      rw [List.foldl_cons, ih]
      by_cases unknown : ∃ first last guards, finding = .unknown first last guards
      · obtain ⟨first, last, guards, rfl⟩ := unknown
        obtain ⟨found, pending⟩ := g
        cases pending with
        | none => rfl
        | some stretch =>
            simp only [add, joined]
            split
            · rfl
            · rw [declarations_flush]
              simp [List.append_assoc]
      · have settles (first last : Nat) (guards : List Guard) :
            finding ≠ .unknown first last guards :=
          fun same => unknown ⟨first, last, guards, same⟩
        obtain ⟨declarations, pending⟩ := g.declarations_add (o := o) settles
        rw [declarations, pending, declarations_flush, joined_cons _ _ settles]
        simp [List.append_assoc]

end Gathering

/-- A source file declares what was found in it, with the stretches joined. -/
theorem declarations_extract (file : String) (types : List String) (source : List Char) :
    (SourceFile.extract file types source).declarations =
      (joined none (findingsOf file types source)).flatMap
        (Finding.declarations ⟨file, types, lines source⟩) :=
  Gathering.declarations_foldl_add _ _

end Rolewright.Recipe
