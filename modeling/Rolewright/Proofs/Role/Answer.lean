/-
# What an answer is parsed into

`Response.parse` in two parts: the files that blocks with a path give, and the files of sections,
which count only when there are none of the first kind. Every defect of an answer is an error, and
an answer without files has at least the defect of being empty, so no answer with a defect and no
answer without files can pass a check of its findings.
-/

import Rolewright.Role.Response

namespace Rolewright.Response

/-- The files of the blocks that name a path. -/
def named (text : List Char) : Response :=
  (pathBlocks (Text.rows text)).foldl add ⟨Role.empty, []⟩

/-- The files of an answer: those of its blocks, or else those of its sections. -/
def found (text : List Char) : Response :=
  if (named text).role.isEmpty then
    { named text with
      role := (sectionBlocks (Text.rows text)).foldl
        (fun role block => role.insertMissing (String.ofList block.1) block.2) (named text).role }
  else named text

theorem parse_eq (text : List Char) :
    parse text =
      if (found text).role.isEmpty then
        { found text with defects := (found text).defects ++ [noFiles] }
      else found text := rfl

theorem role_parse (text : List Char) : (parse text).role = (found text).role := by
  rw [parse_eq]
  split <;> rfl

theorem defects_found (text : List Char) : (found text).defects = (named text).defects := by
  unfold found
  split <;> rfl

theorem defects_parse (text : List Char) :
    (parse text).defects =
      (named text).defects ++ if (found text).role.isEmpty then [noFiles] else [] := by
  rw [parse_eq, ← defects_found]
  split
  · rfl
  · exact (List.append_nil _).symm

/-- An answer without files has that as one of its defects. -/
theorem noFiles_mem_defects {text : List Char} (empty : (parse text).role.isEmpty = true) :
    noFiles ∈ (parse text).defects := by
  rw [role_parse] at empty
  rw [defects_parse, if_pos empty]
  exact List.mem_append_right _ (List.mem_singleton.mpr rfl)

/-- A block adds at most one defect, and that is an error. -/
theorem severity_add {r : Response} {block : List Char × String}
    (errors : ∀ d ∈ r.defects, d.severity = .error) :
    ∀ d ∈ (add r block).defects, d.severity = .error := by
  intro d member
  unfold add at member
  dsimp only at member
  split at member
  · rcases List.mem_append.mp member with before | new
    · exact errors d before
    · rw [List.mem_singleton.mp new]
      rfl
  · exact errors d member

theorem severity_named (text : List Char) : ∀ d ∈ (named text).defects, d.severity = .error := by
  unfold named
  refine List.foldlRecOn (motive := fun r => ∀ d ∈ r.defects, d.severity = .error) _ add ?_ ?_
  · intro d member
    cases member
  · intro r errors block _
    exact severity_add errors

/-- Every defect of an answer is an error. -/
theorem severity_of_mem_defects {text : List Char} {d : Diagnostic}
    (member : d ∈ (parse text).defects) : d.severity = .error := by
  rw [defects_parse] at member
  rcases List.mem_append.mp member with block | empty
  · exact severity_named text d block
  · split at empty
    · rw [List.mem_singleton.mp empty]
      rfl
    · cases empty

end Rolewright.Response
