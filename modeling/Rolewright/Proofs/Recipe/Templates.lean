/-
# The templates of a source file

The list of templates grows while declarations are added, one by one and from many places. At every
moment it names the sources of the template declarations gathered so far, each once and in the order
in which they first occur (`Listed`), for nothing but `declare` adds a template declaration and no
declaration changes once it is there. So it does at the end (`extract_templates`), for a template in
the body of another resource, in a loop or in a block on one line as for any other.
-/

import Rolewright.Proofs.Recipe.Layout

namespace Rolewright.Recipe

open Text

/-- The template that a declaration renders: its `source` where that is text, and otherwise what
`stem` makes of its name, with the ending of templates. -/
def Declaration.sourceBy (stem : String → String) (d : Declaration) : String :=
  match d.properties.get? "source" with
  | some (.str text) => text
  | some (.sym text) => text
  | _ => stem d.name ++ ".erb"

/-- The text of the last component of a path. -/
def lastText (path : String) : String :=
  ((Path.components path).getLast?.map Component.text).getD ""

/-- The text of the last component of a path, or the whole path where that component is the root or
one of the dots rather than a name. -/
def lastNameOrAll (path : String) : String :=
  match (Path.components path).getLast? with
  | some (.name text) => text
  | _ => path

/-- The templates of a source file are the sources of its template declarations, each once and in
the order of their first occurrence. -/
def SourceFile.ListsTemplates (stem : String → String) (f : SourceFile) : Prop :=
  f.templates =
    ((f.declarations.filter (·.type = "template")).map (·.sourceBy stem)).eraseDups

theorem Declaration.templateSource_eq (d : Declaration) :
    d.templateSource = d.sourceBy lastNameOrAll := by
  have stem : (Path.fileName? d.name).getD d.name = lastNameOrAll d.name := by
    unfold Path.fileName? lastNameOrAll
    cases (Path.components d.name).getLast? with
    | none => rfl
    | some last => cases last <;> rfl
  unfold templateSource sourceBy
  rw [stem]
  cases d.properties.get? "source" with
  | none => rfl
  | some value => cases value <;> rfl

/-- An item behind a list without repetitions stays only if it is new. -/
theorem eraseDups_concat (items : List String) (item : String) :
    (items ++ [item]).eraseDups =
      if item ∈ items then items.eraseDups else items.eraseDups ++ [item] := by
  have alone : [item].eraseDups = [item] := by simp [List.eraseDups_cons]
  rw [List.eraseDups_append]
  by_cases known : item ∈ items <;> simp [List.removeAll, known, alone]

namespace SourceFile

variable {f : SourceFile}

/-- A listed source is one of a template declaration. -/
theorem ListsTemplates.mem_iff {stem : String → String} (lists : f.ListsTemplates stem)
    (source : String) :
    source ∈ f.templates ↔
      ∃ d ∈ f.declarations, d.type = "template" ∧ d.sourceBy stem = source := by
  rw [lists, List.mem_eraseDups]
  simp [and_assoc]

/-- A declaration of another type adds no template. -/
theorem ListsTemplates.append {stem : String → String} (lists : f.ListsTemplates stem)
    {d : Declaration} (other : d.type ≠ "template") :
    ({ f with declarations := f.declarations ++ [d] } : SourceFile).ListsTemplates stem := by
  have same : (f.declarations ++ [d]).filter (·.type = "template") =
      f.declarations.filter (·.type = "template") := by
    simp [List.filter_append, other]
  unfold ListsTemplates
  rw [same]
  exact lists

end SourceFile

namespace Gathering

/-- The file lists the templates gathered so far. -/
def Listed (g : Gathering) : Prop :=
  g.found.ListsTemplates lastNameOrAll

variable {o : Origin} {g : Gathering}

/-- What was not understood is no template, though it carries a property of that name. -/
theorem Listed.flush (listed : g.Listed) : (g.flush o).ListsTemplates lastNameOrAll := by
  unfold Gathering.flush
  split
  · exact listed
  · exact listed.append (show unparsedType ≠ "template" by decide)

theorem listsTemplates_declare {f : SourceFile} (lists : f.ListsTemplates lastNameOrAll)
    (d : Declaration) : (declare f d).ListsTemplates lastNameOrAll := by
  by_cases template : d.type = "template"
  · have sources : (((f.declarations ++ [d]).filter (·.type = "template")).map
        (·.sourceBy lastNameOrAll)) =
          (f.declarations.filter (·.type = "template")).map (·.sourceBy lastNameOrAll) ++
            [d.templateSource] := by
      simp [List.filter_append, template, d.templateSource_eq]
    have known : d.templateSource ∈ f.templates ↔ d.templateSource ∈
        (f.declarations.filter (·.type = "template")).map (·.sourceBy lastNameOrAll) := by
      rw [lists, List.mem_eraseDups]
    unfold SourceFile.ListsTemplates declare
    dsimp only
    rw [sources, eraseDups_concat, ← lists]
    simp only [template, decide_true, Bool.true_and, Bool.not_eq_true', List.contains_eq_mem,
      decide_eq_false_iff_not, known, ite_not]
  · have same : declare f d = { f with declarations := f.declarations ++ [d] } := by
      simp [declare, template]
    rw [same]
    exact lists.append template

/-- One finding more leaves the templates listed. -/
theorem Listed.add (listed : g.Listed) (finding : Finding) : (g.add o finding).Listed := by
  cases finding with
  | declared d => exact listsTemplates_declare listed.flush d
  | «attribute» path value => exact listed.flush (o := o)
  | «variable» name value => exact listed.flush (o := o)
  | included recipe => exact listed.flush (o := o)
  | unknown first last guards =>
      unfold Gathering.add
      cases g.pending with
      | none => exact listed
      | some stretch =>
          dsimp only
          split
          · exact listed
          · exact listed.flush

theorem Listed.foldl_add (listed : g.Listed) (findings : List Finding) :
    (findings.foldl (Gathering.add o) g).Listed := by
  induction findings generalizing g with
  | nil => exact listed
  | cons finding findings ih => exact ih (listed.add finding)

end Gathering

/-- The templates of a source file are exactly the sources of its template declarations, each once
and in the order of their first occurrence; and every template that is found anywhere in the source
has its own source among them. -/
theorem extract_templates (file : String) (types : List String) (source : List Char) :
    let f := SourceFile.extract file types source
    f.ListsTemplates lastNameOrAll ∧
      ∀ d, .declared d ∈ findingsOf file types source → d.type = "template" →
        d ∈ f.declarations ∧ d.sourceBy lastNameOrAll ∈ f.templates := by
  intro f
  have lists : f.ListsTemplates lastNameOrAll := by
    have nothing : Gathering.Listed
        ⟨⟨(Path.fileStem? file).getD "", file, [], [], [], [], [], String.ofList source⟩, none⟩ :=
      rfl
    exact (nothing.foldl_add _).flush
  refine ⟨lists, fun d found template => ?_⟩
  have kept : d ∈ f.declarations :=
    (keeps_extract fun _ member => (finding_stands member).1).1 _ found
  exact ⟨kept, (lists.mem_iff _).mpr ⟨d, kept, template, rfl⟩⟩

/-- A template in the body of another resource. -/
def nestedTemplate : List Char :=
  "file 'x' do\n template 'a/b' do\n end\nend\n".toList

/-- It is found, and its source is listed. -/
theorem extract_templates_nested :
    ∃ d, .declared d ∈ findingsOf "recipes/default.rb" [] nestedTemplate ∧
      d.type = "template" ∧ d.sourceBy lastNameOrAll = "b.erb" ∧
      "b.erb" ∈ (SourceFile.extract "recipes/default.rb" [] nestedTemplate).templates := by
  have declares : (SourceFile.extract "recipes/default.rb" [] nestedTemplate).declarations.any
      (fun d => d.type = "template" && d.sourceBy lastNameOrAll = "b.erb") = true := by
    decide +kernel
  obtain ⟨d, declared, is⟩ := List.any_eq_true.mp declares
  simp only [Bool.and_eq_true, decide_eq_true_eq] at is
  obtain ⟨template, source⟩ := is
  have parsed : d.isUnparsed = false := by
    rw [Declaration.isUnparsed, template]
    decide
  have found := found_of_not_isUnparsed declared parsed
  have listed := (extract_templates _ _ _).2 d found template
  exact ⟨d, found, template, source, source ▸ listed.2⟩

/-- A template in a loop and one in a block on one line are listed, too, and what two of them render
is listed once. -/
example :
    (SourceFile.extract "recipes/default.rb" []
      ("xs.each do |x|\n template x do\n source 'c'\n end\nend\n".toList ++
        "template 'c' do source :d end\ntemplate('e') do source 'c' end\n".toList)).templates =
      ["c", "d"] := by
  decide +kernel

/-- A name that ends in dots is taken whole, so that its last component is not the source. -/
theorem not_listsTemplates_lastText_parent :
    ¬ (SourceFile.extract "recipes/default.rb" [] "template 'a/..'\n".toList).ListsTemplates
      lastText := by
  unfold SourceFile.ListsTemplates
  decide +kernel

end Rolewright.Recipe
