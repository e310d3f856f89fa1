/-
# Using the resources of a cookbook

The resources that a cookbook defines are known to its recipes under the names they are given. Such
a name is made in one place, from a call in the file or from the names of the cookbook and of the
file, and is read in another, as the word before an argument. So a recipe can use a resource exactly
if its name is such a word, and one that a row does not begin with for another reason
(`declaresUse_load_iff`). A hyphen is taken out of the name of the cookbook, but it stays in that of
the file, and then no row can use the resource.
-/

import Rolewright.Proofs.Cookbook.Inputs
import Rolewright.Proofs.Recipe.Layout
import Rolewright.Proofs.Recipe.Listing
import Rolewright.Proofs.Recipe.Rendering

namespace Rolewright

namespace Recipe

open Text

/-! ## Where nothing but a use is written -/

/-- The row that uses a resource under the name `x`. -/
def useOf (type : String) : List Char :=
  type.toList ++ " 'x'".toList

/-- The file declares one resource, of this type and named `x`, and nothing that was not
understood. -/
def SourceFile.DeclaresUse (f : SourceFile) (type : String) : Prop :=
  ∃ d, f.declarations = [d] ∧ d.type = type ∧ d.name = "x" ∧ d.isUnparsed = false

/-- The words that open a block, whatever stands behind them on the row. -/
def blockWords : List String :=
  ["if", "unless", "case", "while", "until", "for", "def", "class", "module"]

/-- A name that a row can use as a type: a word in lower case that means nothing else there. -/
structure IsUsable (name : String) : Prop where
  starts : name.toList.head?.any isNameStart = true
  lower : name.toList.all (fun c => c.isLower || c.isDigit || c == '_') = true
  free : name ∉ unparsedType :: "include_recipe" :: blockWords

/-- The name in a use. -/
def usedName : Quoted where
  text := ['x']
  some := by decide
  isQuotable := ⟨by decide, by decide, by decide⟩
  doubleQuote := by decide
  comment := by decide

theorem useOf_eq_sentence (type : String) : useOf type = sentence type usedName :=
  (sentence_eq type usedName).symm

/-- Whether a line with this role opens a block by its first word, and not as a call. -/
def LineRole.opensByWord : LineRole → Bool
  | .opens (.call _ _) _ => false
  | .opens _ _ => true
  | _ => false

/-- A block that is no call declares nothing by itself. -/
theorem not_declared_of_childless {o : Origin} {guards : List Guard} {block : Block}
    (other : ∀ head params, block.kind ≠ .call head params)
    (childless : ∀ branch ∈ block.branches, branch.children = []) (d : Declaration) :
    .declared d ∉ o.nodeFindings guards (.block block) := by
  have none : Origin.topResource? block = none := by
    unfold Origin.topResource?
    split
    · rename_i kind
      exact absurd kind (other _ _)
    · rfl
  intro given
  by_cases shut : block.kind = .sealed
  · rw [Origin.nodeFindings_of_sealed none shut] at given
    exact nomatch List.mem_singleton.mp given
  · rw [Origin.nodeFindings_of_isPlain ⟨none, shut⟩] at given
    obtain ⟨scope, paired, node, held, -⟩ := Origin.mem_branchFindings.mp given
    rw [childless _ (List.of_mem_zip paired).2] at held
    cases held

/-! ## The line of a use -/

section Use

variable {file type : String} {types : List String} {source : List Char} {d : Declaration}

theorem ofSource_use (starts : type.toList.head?.any isNameStart = true)
    (inner : type.toList.all isAsciiWord = true) (single : lines source = [useOf type]) :
    Line.ofSource source = [⟨useOf type, 1, 1, []⟩] := by
  have statement : IsStatement (sentence type usedName) :=
    isStatement_quoting starts inner isFlat_nil isFlat_nil usedName.isQuotable (by decide)
  have plain : Heredoc.opened (indented 0 (sentence type usedName)) = [] := by
    rw [Heredoc.opened_indented]
    exact Heredoc.opened_quoting _ _ (isFlat_word_append inner isFlat_nil) isFlat_nil rfl
  have read := (statement.isAlone 0).statements_cons plain [] 1
  rw [statements] at read
  rw [Line.ofSource, single, useOf_eq_sentence]
  exact read

/-- Words that open no block leave a statement, for at the top there is nothing to divide or end. -/
theorem standsAlone_use (starts : type.toList.head?.any isNameStart = true)
    (inner : type.toList.all isAsciiWord = true) (free : type ∉ blockWords) :
    (LineRole.ofText (useOf type)).standsAlone = true := by
  by_cases control : type ∈ controlWords
  · have each : ∀ word ∈ controlWords, word ∉ blockWords →
        (LineRole.ofText (useOf word)).standsAlone = true := by decide +kernel
    exact each type control free
  · have isHead : IsHead type.toList := ⟨starts, inner, fun word known same =>
      control (String.toList_inj.mp same ▸ known)⟩
    have calm : assignsBlock usedName.text = false := by decide
    rw [useOf_eq_sentence, ofText_entry isHead, calm]
    rfl

theorem exists_opens_use (opens : type ∈ blockWords) :
    ∃ kind condition, (∀ head params, kind ≠ .call head params) ∧
      LineRole.ofText (useOf type) = .opens kind condition := by
  have each : ∀ word ∈ blockWords, (LineRole.ofText (useOf word)).opensByWord = true := by
    decide +kernel
  have role := each type opens
  cases found : LineRole.ofText (useOf type) with
  | opens kind condition =>
      refine ⟨kind, condition, ?_, rfl⟩
      rintro head params rfl
      rw [found] at role
      cases role
  | arm | ends | «statement» =>
      rw [found] at role
      cases role

theorem findingsOf_use (file : String) (starts : type.toList.head?.any isNameStart = true)
    (lower : type.toList.all (fun c => c.isLower || c.isDigit || c == '_') = true)
    (single : lines source = [useOf type]) (known : type ∈ types) (free : type ∉ blockWords) :
    findingsOf file types source =
      [if type = "include_recipe" then .included "x"
        else .declared (Origin.shortDeclaration ⟨file, types, lines source⟩
          ⟨useOf type, 1, 1, []⟩ type usedName.argument [])] := by
  have inner := all_isAsciiWord_of_lower lower
  have knows : Origin.knows ⟨file, types, lines source⟩ type = true := by
    simp [Origin.knows, known]
  have nodes : Node.ofLines [⟨useOf type, 1, 1, []⟩] = [.statement ⟨useOf type, 1, 1, []⟩] :=
    Node.ofLines_statements (List.forall_mem_singleton.mpr (standsAlone_use starts inner free))
  rw [findingsOf, ofSource_use starts inner single, nodes, Origin.nodesFindings,
    Origin.nodesFindings, List.append_nil, Origin.nodeFindings, useOf_eq_sentence,
    lineFindings_sentence usedName _ _ _ _ _ starts inner, lower, knows]
  rfl

theorem not_declared_of_blockWord (opens : type ∈ blockWords)
    (single : lines source = [useOf type]) : .declared d ∉ findingsOf file types source := by
  have name : ∀ word ∈ blockWords, word.toList.head?.any isNameStart = true ∧
      word.toList.all isAsciiWord = true := by decide
  obtain ⟨starts, inner⟩ := name type opens
  obtain ⟨kind, condition, other, role⟩ := exists_opens_use opens
  have nodes : Node.ofLines [⟨useOf type, 1, 1, []⟩] = _ := Node.ofLines_opens role
  rw [findingsOf, ofSource_use starts inner single, nodes, Origin.mem_nodesFindings]
  rintro ⟨node, among, given⟩
  obtain rfl := List.mem_singleton.mp among
  refine not_declared_of_childless other (fun branch member => ?_) d given
  rw [List.mem_singleton.mp member]

end Use

/-! ## What a use declares -/

section Declares

variable {file type : String} {types : List String} {source : List Char} {d : Declaration}

/-- The type of whatever is found is a word in lower case. -/
theorem type_of_declared (found : .declared d ∈ findingsOf file types source) :
    d.type.toList.head?.any isNameStart = true ∧
      d.type.toList.all (fun c => c.isLower || c.isDigit || c == '_') = true := by
  obtain ⟨node, -, given⟩ := Origin.mem_nodesFindings.mp found
  obtain ⟨met, -, gives⟩ := Origin.exists_gives given
  cases gives with
  | «statement» given =>
      obtain ⟨head, type, argument, guards, -, header, embodies⟩ :=
        isOf_of_mem_statementFindings given
      rw [embodies.type]
      exact type_of_resourceHeader? header
  | resource resource =>
      obtain ⟨head, params, -, header⟩ := exists_head_of_resource resource
      rw [(Origin.embodies_blockDeclaration _ _ _ _ _).type]
      exact type_of_resourceHeader? header

/-- A row with a type that is known and an argument declares a resource of that type exactly if the
type is usable. -/
theorem declaresUse_extract_iff (known : type ∈ types) (single : lines source = [useOf type]) :
    (SourceFile.extract file types source).DeclaresUse type ↔ IsUsable type := by
  constructor
  · rintro ⟨d, only, rfl, -, parsed⟩
    have declared : d ∈ (SourceFile.extract file types source).declarations := by
      rw [only]
      exact .head _
    have found := found_of_not_isUnparsed declared parsed
    obtain ⟨starts, lower⟩ := type_of_declared found
    refine ⟨starts, lower, fun taken => ?_⟩
    rcases List.mem_cons.mp taken with unparsed | taken
    · rw [Declaration.isUnparsed, unparsed] at parsed
      cases parsed
    by_cases opens : d.type ∈ blockWords
    · exact not_declared_of_blockWord opens single found
    · have includes := (List.mem_cons.mp taken).resolve_right opens
      rw [findingsOf_use file starts lower single known opens, if_pos includes] at found
      exact nomatch List.mem_singleton.mp found
  · rintro ⟨starts, lower, free⟩
    obtain ⟨understood, apart⟩ := not_or.mp (mt List.mem_cons.mpr free)
    obtain ⟨included, opens⟩ := not_or.mp (mt List.mem_cons.mpr apart)
    have found := findingsOf_use file starts lower single known opens
    rw [if_neg included] at found
    have embodies := Origin.embodies_shortDeclaration ⟨file, types, lines source⟩ type
      usedName.argument [] ⟨useOf type, 1, 1, []⟩
    have only : (SourceFile.extract file types source).declarations =
        [Origin.shortDeclaration ⟨file, types, lines source⟩ ⟨useOf type, 1, 1, []⟩ type
          usedName.argument []] := by
      rw [declarations_extract, found]
      rfl
    refine ⟨_, only, embodies.type, ?_, ?_⟩
    · have plain : IsPlainText "x".toList := by
        rw [IsPlainText]
        decide
      rw [embodies.name]
      exact resourceName_quoted plain (by decide) type 1
    · rw [Declaration.isUnparsed, embodies.type]
      exact beq_false_of_ne understood

end Declares

end Recipe

namespace Cookbook

open Recipe Text

/-- Each resource of the cookbook can be used under the name it is given: a recipe with that single
line declares it. -/
def UsesResources (c : Cookbook) : Prop :=
  ∀ r ∈ c.customResources, ∀ f ∈ c.recipes, lines f.source.toList = [useOf r.name] →
    f.DeclaresUse r.name

/-- The resources of a cookbook are those of its files, and its recipes are extracted with their
names among the types. -/
theorem customResources_load {d : Disk} {path : String} {c : Cookbook}
    (loaded : load d path = .ok c) :
    c.customResources = (rubyFiles d path "resources").map (fun (file, bytes) =>
        CustomResource.parse c.name (Path.relative path file) (lenientText bytes)) ∧
      c.recipes = sourceFiles d path "recipes" (c.customResources.map (·.name)) := by
  unfold load at loaded
  dsimp only at loaded
  split at loaded
  · generalize accessing (Path.join path "metadata.rb") _ = read at loaded
    cases read with
    | error failure => cases loaded
    | ok bytes =>
        cases loaded
        exact ⟨rfl, rfl⟩
  · cases loaded
    exact ⟨rfl, rfl⟩

/-- A loaded cookbook has the resource that each file of `resources` defines and the source file of
each recipe; and a recipe with the single line of a use declares that resource exactly if the name
of the resource is usable. -/
theorem declaresUse_load_iff {d : Disk} {path : String} {c : Cookbook}
    (loaded : load d path = .ok c) :
    c.customResources = (rubyFiles d path "resources").map (fun (file, bytes) =>
        CustomResource.parse c.name (Path.relative path file) (lenientText bytes)) ∧
      c.recipes.map (fun f => (f.file, f.source)) = (rubyFiles d path "recipes").map
        (fun (file, bytes) => (Path.relative path file, String.ofList (lenientText bytes))) ∧
      ∀ r ∈ c.customResources, ∀ f ∈ c.recipes, lines f.source.toList = [useOf r.name] →
        (f.DeclaresUse r.name ↔ IsUsable r.name) := by
  obtain ⟨resources, recipes⟩ := customResources_load loaded
  refine ⟨resources, ?_, fun r defined f member single => ?_⟩
  · rw [recipes, sourceFiles, List.map_map]
    exact List.map_congr_left fun entry _ => SourceFile.origin_extract _ _ _
  · rw [recipes] at member
    obtain ⟨entry, -, rfl⟩ := List.mem_map.mp member
    rw [SourceFile.source_extract, String.toList_ofList] at single
    exact declaresUse_extract_iff (List.mem_map_of_mem defined) single

/-! ## File names with and without a hyphen -/

/-- A cookbook with a resource in a file of this name, and a recipe that uses it. -/
def siteDisk (stem : String) : Disk :=
  ⟨[(["web"], .directory), (["web", "metadata.rb"], .file (encode "name 'web'\n".toList)),
    (["web", "resources"], .directory), (["web", "resources", stem ++ ".rb"], .file []),
    (["web", "recipes"], .directory),
    (["web", "recipes", "default.rb"],
      .file (encode ("web_" ++ stem ++ " 'x'\n").toList))], []⟩

/-- What a cookbook with one resource and one recipe comes to: the name of the resource, and the
text of the recipe with the types that it declares. -/
def loadedUse? (d : Disk) : Option (List String × List (String × List String)) :=
  (load d "web").toOption.map fun c =>
    (c.customResources.map (·.name), c.recipes.map fun f => (f.source, f.declarations.map (·.type)))

theorem exists_load_of_loadedUse? {d : Disk} {name source : String} {types : List String}
    (loads : loadedUse? d = some ([name], [(source, types)])) :
    ∃ c r f, load d "web" = .ok c ∧ r ∈ c.customResources ∧ f ∈ c.recipes ∧ r.name = name ∧
      f.source = source ∧ f.declarations.map (·.type) = types := by
  obtain ⟨c, loaded, same⟩ := Option.map_eq_some_iff.mp loads
  obtain ⟨resources, recipes⟩ := Prod.mk.inj same
  obtain ⟨r, only, named⟩ := List.map_eq_singleton_iff.mp resources
  obtain ⟨f, alone, told⟩ := List.map_eq_singleton_iff.mp recipes
  obtain ⟨told, declared⟩ := Prod.mk.inj told
  have ok : load d "web" = .ok c := by
    cases found : load d "web" with
    | error failure =>
        rw [found] at loaded
        cases loaded
    | ok other =>
        rw [found] at loaded
        cases loaded
        rfl
  exact ⟨c, r, f, ok, only ▸ .head _, alone ▸ .head _, named, told, declared⟩

/-- A file name in lower case gives a resource that the recipe declares. -/
theorem declaresUse_load_site :
    ∃ c r f, load (siteDisk "site") "web" = .ok c ∧ r ∈ c.customResources ∧ f ∈ c.recipes ∧
      r.name = "web_site" ∧ lines f.source.toList = [useOf r.name] ∧ f.DeclaresUse r.name := by
  have loads : loadedUse? (siteDisk "site") =
      some (["web_site"], [("web_site 'x'\n", ["web_site"])]) := by decide +kernel
  obtain ⟨c, r, f, loaded, defined, member, named, told, -⟩ := exists_load_of_loadedUse? loads
  have single : lines f.source.toList = [useOf r.name] := by
    rw [told, named]
    decide +kernel
  have usable : IsUsable r.name := by
    rw [named]
    exact ⟨by decide, by decide, by decide⟩
  exact ⟨c, r, f, loaded, defined, member, named, single,
    ((declaresUse_load_iff loaded).2.2 r defined f member single).mpr usable⟩

/-- A hyphen in the file name stays in the name of the resource, and the recipe that uses it holds
nothing that is understood. -/
theorem not_usesResources_hyphen :
    ∃ c, load (siteDisk "my-site") "web" = .ok c ∧ ¬ c.UsesResources := by
  have loads : loadedUse? (siteDisk "my-site") =
      some (["web_my-site"], [("web_my-site 'x'\n", [unparsedType])]) := by decide +kernel
  obtain ⟨c, r, f, loaded, defined, member, named, told, declared⟩ :=
    exists_load_of_loadedUse? loads
  refine ⟨c, loaded, fun uses => ?_⟩
  have single : lines f.source.toList = [useOf r.name] := by
    rw [told, named]
    decide +kernel
  obtain ⟨d, only, typed, -⟩ := uses r defined f member single
  rw [only, List.map_singleton, typed, named] at declared
  exact absurd (List.cons.inj declared).1 (by decide)

end Cookbook

end Rolewright
