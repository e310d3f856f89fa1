/-
# Paths in pieces

What a path denotes can be read off its pieces between slashes: the first of them tells where the
path starts, and each of them where it goes. The operations on paths that files are written and
searched by only rearrange these pieces. They continue a path, cut off its last name, put another
name beside that one, and leave out what means nothing.
-/

import Mathlib.Data.List.Basic
import Mathlib.Data.List.TakeWhile
import Rolewright.Disk.Search
import Rolewright.Disk.Work
import Rolewright.Proofs.Path

namespace Rolewright.Path

/-! ## Steps of pieces -/

/-- The step that some pieces take before the steps of each. -/
def lead : List (List Char) → List Component
  | [] => []
  | first :: rest =>
    if first = [] then if rest = [] then [] else [.root]
    else if first = ['.'] then [.here]
    else []

/-- A path has at least one piece, the empty path an empty one. -/
theorem pieces_ne_nil (cs : List Char) : pieces cs ≠ [] := by
  obtain ⟨rest, split⟩ := exists_pieces_eq cs
  rw [split]
  exact List.cons_ne_nil _ _

/-- A path takes the steps of its pieces. -/
theorem components_eq_lead_append (path : String) :
    components path = lead (pieces path.toList) ++ (pieces path.toList).filterMap component? := by
  unfold components isAbsolute
  dsimp only
  congr 1
  cases path.toList with
  | nil => rfl
  | cons c cs =>
      rw [pieces]
      by_cases slash : c = '/'
      · simp [slash, lead, pieces_ne_nil]
      · obtain ⟨rest, split⟩ := exists_pieces_eq cs
        simp [slash, split, lead]

/-- Where a first piece leads from does not depend on what follows, if anything does. -/
theorem lead_append_cons {pieces : List (List Char)} (nonempty : pieces ≠ [])
    (p q : List Char) (ps qs : List (List Char)) :
    lead (pieces ++ p :: ps) = lead (pieces ++ q :: qs) := by
  obtain ⟨first, rest, rfl⟩ := List.exists_cons_of_ne_nil nonempty
  simp [lead]

/-- Nor does it where the first piece is not empty. -/
theorem lead_append {pieces : List (List Char)} (nonempty : pieces ≠ []) (named : pieces ≠ [[]])
    (others : List (List Char)) : lead (pieces ++ others) = lead pieces := by
  obtain ⟨first, rest, rfl⟩ := List.exists_cons_of_ne_nil nonempty
  by_cases absolute : first = []
  · have more : rest ≠ [] := fun none => named (by rw [absolute, none])
    simp [lead, absolute, more]
  · simp [lead, absolute]

/-- A path with an empty first piece and more behind it begins at the root. -/
theorem lead_cons_eq_root_iff {first : List Char} {rest : List (List Char)} :
    lead (first :: rest) = [.root] ↔ first = [] ∧ rest ≠ [] := by
  by_cases absolute : first = []
  · simp [lead, absolute]
  · by_cases here : first = ['.']
    · simp [lead, here]
    · simp [lead, absolute, here]

/-- This is what makes a path absolute. -/
theorem isAbsolute_iff {path : String} :
    isAbsolute path = true ↔ lead (pieces path.toList) = [.root] := by
  rw [isAbsolute]
  cases path.toList with
  | nil => simp [pieces, lead]
  | cons c cs =>
      rw [pieces]
      by_cases slash : c = '/'
      · simp [slash, lead, pieces_ne_nil]
      · obtain ⟨rest, split⟩ := exists_pieces_eq cs
        simp [slash, split, lead_cons_eq_root_iff]

/-- Only the empty path has a single piece that is empty. -/
theorem eq_nil_of_pieces_eq {cs : List Char} (still : pieces cs = [[]]) : cs = [] := by
  cases cs with
  | nil => rfl
  | cons c cs =>
      obtain ⟨rest, split⟩ := exists_pieces_eq cs
      rw [pieces, split] at still
      split at still
      · cases still
      · cases still

theorem map_toList_map_ofList (pieces : List (List Char)) :
    (pieces.map String.ofList).map String.toList = pieces := by
  simp [Function.comp_def]

theorem map_ofList_map_toList (texts : List String) :
    (texts.map String.toList).map String.ofList = texts := by
  simp [Function.comp_def]

/-- Pieces between slashes put together with slashes. -/
def ofPieces (pieces : List (List Char)) : String :=
  String.intercalate "/" (pieces.map String.ofList)

/-- Pieces without slashes are the pieces of the path that they make, -/
theorem pieces_ofPieces {parts : List (List Char)} (nonempty : parts ≠ [])
    (noSlash : ∀ piece ∈ parts, '/' ∉ piece) : pieces (ofPieces parts).toList = parts := by
  rw [pieces_eq_splitOn, ofPieces, String.toList_intercalate, map_toList_map_ofList]
  exact List.splitOn_intercalate _ noSlash nonempty

/-- with the same components, -/
theorem filterMap_pieces_ofPieces {parts : List (List Char)}
    (noSlash : ∀ piece ∈ parts, '/' ∉ piece) :
    (pieces (ofPieces parts).toList).filterMap component? = parts.filterMap component? := by
  by_cases none : parts = []
  · rw [none]
    rfl
  · rw [pieces_ofPieces none noSlash]

/-- so that its components can be told from them. -/
theorem components_ofPieces {parts : List (List Char)} (noSlash : ∀ piece ∈ parts, '/' ∉ piece) :
    components (ofPieces parts) = lead parts ++ parts.filterMap component? := by
  by_cases none : parts = []
  · rw [none]
    rfl
  · rw [components_eq_lead_append, pieces_ofPieces none noSlash]

/-! ## Names -/

/-- The names of a path, as they are written. -/
def names (path : String) : List String :=
  (pieces path.toList).map String.ofList

theorem names_ne_nil (path : String) : names path ≠ [] :=
  fun none => pieces_ne_nil path.toList (List.map_eq_nil_iff.mp none)

/-- A path without slashes is a name. -/
theorem names_of_noSlash {path : String} (noSlash : '/' ∉ path.toList) : names path = [path] := by
  rw [names, pieces_eq_splitOn, List.splitOn_eq_singleton noSlash, List.map_singleton,
    String.ofList_toList]

/-- A path is its names put together. -/
theorem intercalate_names (path : String) : String.intercalate "/" (names path) = path := by
  rw [← String.toList_inj, String.toList_intercalate, names, map_toList_map_ofList,
    pieces_eq_splitOn]
  exact List.intercalate_splitOn _

/-- The names of a path determine it. -/
theorem names_injective {p q : String} (same : names p = names q) : p = q := by
  rw [← intercalate_names p, same, intercalate_names]

/-- Names with slashes between them make the path of these pieces. -/
theorem intercalate_eq_ofPieces (texts : List String) :
    String.intercalate "/" texts = ofPieces (texts.map String.toList) := by
  rw [ofPieces, map_ofList_map_toList]

theorem ofComponents_names (texts : List String) :
    ofComponents (texts.map .name) = String.intercalate "/" texts := by
  rw [ofComponents, List.map_map]
  exact congrArg _ (List.map_id _)

instance (name : String) : Decidable (IsOrdinary name) :=
  decidable_of_iff (name ≠ "" ∧ name ≠ "." ∧ name ≠ ".." ∧ '/' ∉ name.toList)
    ⟨fun ⟨nonempty, notHere, notParent, noSlash⟩ => ⟨nonempty, notHere, notParent, noSlash⟩,
      fun ⟨nonempty, notHere, notParent, noSlash⟩ => ⟨nonempty, notHere, notParent, noSlash⟩⟩

/-- A name that can be that of a file is not empty -/
theorem IsOrdinary.toList_ne_nil {name : String} (ordinary : IsOrdinary name) :
    name.toList ≠ [] :=
  fun same => ordinary.nonempty (String.toList_inj.mp same)

/-- and is not the directory itself. -/
theorem IsOrdinary.toList_ne_dot {name : String} (ordinary : IsOrdinary name) :
    name.toList ≠ ['.'] :=
  fun same => ordinary.notHere (String.toList_inj.mp same)

section Ordinary

variable {texts : List String} (ordinary : ∀ name ∈ texts, IsOrdinary name)

include ordinary

/-- It holds no slash, -/
theorem noSlash_of_isOrdinary : ∀ piece ∈ texts.map String.toList, '/' ∉ piece :=
  List.forall_mem_map.mpr fun name member => (ordinary name member).noSlash

/-- so that such names are the pieces of the path that they make, -/
theorem pieces_intercalate (nonempty : texts ≠ []) :
    pieces (String.intercalate "/" texts).toList = texts.map String.toList := by
  rw [intercalate_eq_ofPieces]
  exact pieces_ofPieces (by simpa using nonempty) (noSlash_of_isOrdinary ordinary)

/-- which has no lead of its own. -/
theorem lead_map_toList : lead (texts.map String.toList) = [] := by
  cases texts with
  | nil => rfl
  | cons name rest =>
      have leading := ordinary name (.head _)
      rw [List.map_cons, lead, if_neg leading.toList_ne_nil, if_neg leading.toList_ne_dot]

end Ordinary

/-- A slash parts the pieces before it from those behind it. -/
theorem pieces_append_slash (cs ds : List Char) :
    pieces (cs ++ '/' :: ds) = pieces cs ++ pieces ds := by
  induction cs with
  | nil => simp [pieces]
  | cons c cs ih =>
      rw [List.cons_append, pieces, pieces]
      by_cases slash : c = '/'
      · rw [if_pos slash, if_pos slash, ih, List.cons_append]
      · obtain ⟨rest, split⟩ := exists_pieces_eq cs
        rw [if_neg slash, if_neg slash, ih, split]
        rfl

/-! ## Continued paths -/

/-- A continued path has the pieces of the continuation, and before them pieces that take the steps
of the base. -/
theorem exists_pieces_join (base : String) {rest : String}
    (relative : lead (pieces rest.toList) = []) :
    ∃ before, pieces (join base rest).toList = before ++ pieces rest.toList ∧
      components base = lead (before ++ pieces rest.toList) ++ before.filterMap component? := by
  obtain ⟨piece, others, split⟩ := List.exists_cons_of_ne_nil (pieces_ne_nil rest.toList)
  have notAbsolute : isAbsolute rest = false := by
    rw [Bool.eq_false_iff, Ne, isAbsolute_iff, relative]
    exact fun same => nomatch same
  rw [join, notAbsolute]
  by_cases none : base = ""
  · refine ⟨[], ?_, ?_⟩
    · simp [none]
    · rw [none, List.nil_append, relative]
      rfl
  by_cases ended : base.toList.getLast? = some '/'
  · obtain ⟨front, spelled⟩ := List.getLast?_eq_some_iff.mp ended
    refine ⟨pieces front, ?_, ?_⟩
    · simp [spelled, pieces_append_slash]
    · rw [components_eq_lead_append, spelled, pieces_append_slash, split,
        lead_append_cons (pieces_ne_nil front) piece [] others []]
      simp [pieces, component?]
  · refine ⟨pieces base.toList, ?_, ?_⟩
    · simp [none, ended, pieces_append_slash]
    · rw [components_eq_lead_append, lead_append (pieces_ne_nil _)]
      exact fun same => none (String.toList_inj.mp (eq_nil_of_pieces_eq same))

/-- A relative continuation adds the steps of its pieces. -/
theorem components_join_of_relative (base : String) {rest : String}
    (relative : lead (pieces rest.toList) = []) :
    components (join base rest) = components base ++ (pieces rest.toList).filterMap component? := by
  obtain ⟨before, split, steps⟩ := exists_pieces_join base relative
  rw [components_eq_lead_append, split, steps, List.filterMap_append, List.append_assoc]

/-- Names below a base. -/
theorem components_join (base : String) {texts : List String}
    (ordinary : ∀ name ∈ texts, IsOrdinary name) (nonempty : texts ≠ []) :
    components (join base (String.intercalate "/" texts)) =
      components base ++ texts.map .name := by
  have parts := pieces_intercalate ordinary nonempty
  rw [components_join_of_relative base (parts ▸ lead_map_toList ordinary), parts,
    filterMap_component? ordinary]

/-! ## Paths of files -/

/-- Whether a path, after some steps, ends in a name, and is written so. -/
structure EndsIn (path : String) (front : List Component) (name : String) : Prop where
  ordinary : IsOrdinary name
  components : components path = front ++ [.name name]
  last : (pieces path.toList).getLast? = some name.toList

/-- A path of names below a base ends in the last of them. -/
theorem endsIn_join (base : String) (front : List String) (name : String)
    (ordinary : ∀ n ∈ front ++ [name], IsOrdinary n) :
    EndsIn (join base (String.intercalate "/" (front ++ [name])))
      (Path.components base ++ front.map .name) name := by
  have nonempty : front ++ [name] ≠ [] := by simp
  have parts := pieces_intercalate ordinary nonempty
  obtain ⟨before, split, -⟩ := exists_pieces_join base (parts ▸ lead_map_toList ordinary)
  refine ⟨ordinary name (by simp), ?_, ?_⟩
  · rw [components_join base ordinary nonempty]
    simp
  · rw [split, parts]
    simp

namespace EndsIn

variable {path : String} {front : List Component} {name : String}

/-- The last of the names is the name of the file. -/
theorem fileName? (ends : EndsIn path front name) : fileName? path = some name := by
  rw [Path.fileName?, ends.components, List.getLast?_concat]

/-- A path that ends in a name may be that of a file. -/
theorem namesDirectory (ends : EndsIn path front name) : Disk.namesDirectory path = false := by
  rw [Disk.namesDirectory, ends.last]
  simp [ends.ordinary.toList_ne_nil, ends.ordinary.toList_ne_dot]

end EndsIn

/-- Whether a piece stands for no step. -/
def isBare (piece : List Char) : Bool :=
  piece.isEmpty || piece == ['.']

/-- Pieces without those at their end that stand for no step. -/
def stripped (pieces : List (List Char)) : List (List Char) :=
  (pieces.reverse.dropWhile isBare).reverse

/-- A piece that is empty or a dot is no component, -/
theorem component?_of_isBare {piece : List Char} (bare : isBare piece = true) :
    component? piece = none :=
  component?_eq_none_iff.mpr (by simpa [isBare] using bare)

/-- so that it may be left out at the end: what is left was there before, -/
theorem mem_of_mem_stripped {pieces : List (List Char)} {piece : List Char}
    (member : piece ∈ stripped pieces) : piece ∈ pieces :=
  List.mem_reverse.mp ((List.dropWhile_sublist _).mem (List.mem_reverse.mp member))

/-- with the same components. -/
theorem filterMap_stripped (pieces : List (List Char)) :
    (stripped pieces).filterMap component? = pieces.filterMap component? := by
  have dropped : (pieces.reverse.takeWhile isBare).reverse.filterMap component? = [] :=
    List.filterMap_eq_nil_iff.mpr fun piece member =>
      component?_of_isBare (List.mem_takeWhile_imp (List.mem_reverse.mp member))
  have whole : stripped pieces ++ (pieces.reverse.takeWhile isBare).reverse = pieces := by
    rw [stripped, ← List.reverse_append, List.takeWhile_append_dropWhile, List.reverse_reverse]
  conv => rhs; rw [← whole, List.filterMap_append, dropped, List.append_nil]

/-- Behind a piece that is a name nothing is left out. -/
theorem stripped_cons {first : List Char} (named : isBare first = false)
    (rest : List (List Char)) : stripped (first :: rest) = first :: stripped rest := by
  rw [stripped, stripped, List.reverse_cons, List.dropWhile_append]
  split
  · rename_i none
    simp [List.isEmpty_iff.mp none, named]
  · simp

/-- An ordinary name is not such a piece. -/
theorem isBare_of_isOrdinary {name : String} (ordinary : IsOrdinary name) :
    isBare name.toList = false := by
  simp [isBare, ordinary.toList_ne_nil, ordinary.toList_ne_dot]

/-- The pieces of the directory part of a path. -/
def trunk (pieces : List (List Char)) : List (List Char) :=
  let leads := pieces.head? == some [] || pieces.head? == some ['.']
  let lead := if leads then pieces.take 1 else []
  lead ++ stripped (((pieces.drop lead.length).reverse.dropWhile isBare).drop 1).reverse

/-- The directory of a path is made of the pieces before the last name, or is the root. -/
theorem directoryOf_eq (path : String) :
    Disk.directoryOf path =
      if isAbsolute path && (trunk (pieces path.toList)).length ≤ 1 then "/"
      else ofPieces (trunk (pieces path.toList)) := by
  unfold Disk.directoryOf trunk stripped
  simp only [List.reverse_reverse]
  rfl

/-- The first piece stays, whether or not it stands for a step. -/
theorem trunk_append_name (first : List Char) (between : List (List Char)) {name : String}
    (ordinary : IsOrdinary name) :
    trunk (first :: between ++ [name.toList]) = first :: stripped between := by
  have named := isBare_of_isOrdinary ordinary
  have leads : ((first :: between ++ [name.toList]).head? == some [] ||
      (first :: between ++ [name.toList]).head? == some ['.']) = isBare first := by
    cases first with
    | nil => rfl
    | cons c cs => simp [isBare]
  unfold trunk
  dsimp only
  rw [leads]
  cases bare : isBare first with
  | true => simp [named]
  | false => simpa [named] using stripped_cons bare between

/-- A name by itself has nothing before it. -/
theorem trunk_name {name : String} (ordinary : IsOrdinary name) : trunk [name.toList] = [] := by
  have named := isBare_of_isOrdinary ordinary
  simp [trunk, named, ordinary.toList_ne_nil, ordinary.toList_ne_dot, stripped]

/-- The directory part of a path that ends in a name takes the steps before the name. -/
theorem EndsIn.components_directoryOf {path : String} {front : List Component} {name : String}
    (ends : EndsIn path front name) : Path.components (Disk.directoryOf path) = front := by
  obtain ⟨before, split⟩ := List.getLast?_eq_some_iff.mp ends.last
  have noSlash : ∀ piece ∈ before, '/' ∉ piece := fun piece member =>
    slash_not_mem_of_mem_pieces (split ▸ List.mem_append_left _ member)
  have steps : lead (before ++ [name.toList]) ++ before.filterMap component? = front := by
    have whole := ends.components
    rw [components_eq_lead_append, split, List.filterMap_append, ← List.append_assoc,
      List.filterMap_cons_some (component?_of_isOrdinary ends.ordinary)] at whole
    exact List.append_cancel_right whole
  rw [directoryOf_eq, ← steps, split]
  cases before with
  | nil =>
      have relative : lead [name.toList] = [] :=
        lead_map_toList (List.forall_mem_singleton.mpr ends.ordinary)
      have notAbsolute : isAbsolute path ≠ true := by
        rw [Ne, isAbsolute_iff, split, List.nil_append, relative]
        exact fun same => nomatch same
      rw [List.nil_append, trunk_name ends.ordinary, relative, Bool.eq_false_iff.mpr notAbsolute]
      rfl
  | cons first between =>
      have absolute : isAbsolute path = true ↔ first = [] := by
        rw [isAbsolute_iff, split, List.cons_append, lead_cons_eq_root_iff]
        simp
      rw [trunk_append_name first between ends.ordinary]
      by_cases bare : first = [] ∧ stripped between = []
      · have none : between.filterMap component? = [] := by
          rw [← filterMap_stripped, bare.2, List.filterMap_nil]
        have moved : ([] :: between).filterMap component? = [] := by
          rw [List.filterMap_cons_none rfl, none]
        have slash : Path.components "/" = [Component.root] := by decide +kernel
        rw [absolute.mpr bare.1, bare.1, bare.2, moved]
        simpa [lead] using slash
      · have kept : ¬ (isAbsolute path && (first :: stripped between).length ≤ 1) = true := by
          simpa [absolute] using bare
        have same : lead (first :: stripped between) =
            lead (first :: between ++ [name.toList]) := by
          by_cases empty : first = []
          · have more : stripped between ≠ [] := fun none => bare ⟨empty, none⟩
            simp [lead, empty, more]
          · simp [lead, empty]
        rw [if_neg kept, components_ofPieces, same, List.filterMap_cons, List.filterMap_cons,
          filterMap_stripped]
        intro piece member
        rcases List.mem_cons.mp member with rfl | later
        · exact noSlash piece (.head _)
        · exact noSlash piece (.tail _ (mem_of_mem_stripped later))

/-- The name of the temporary file beside a file is ordinary. -/
theorem isOrdinary_append_tmp {name : String} (ordinary : IsOrdinary name) :
    IsOrdinary (name ++ ".tmp") := by
  have differs {text : String} (short : text.length < 4) : name ++ ".tmp" ≠ text := by
    intro same
    rw [← same, String.length_append] at short
    exact absurd (Nat.le_add_left 4 name.length) (Nat.not_le_of_lt short)
  refine ⟨differs (by decide), differs (by decide), differs (by decide), ?_⟩
  rw [String.toList_append, List.mem_append]
  exact not_or.mpr ⟨ordinary.noSlash, by decide⟩

/-- The path beside a file under which its text waits. -/
theorem EndsIn.waitingPath {path : String} {front : List Component} {name : String}
    (ends : EndsIn path front name) :
    EndsIn (DiskWork.waitingPath path) front (name ++ ".tmp") := by
  have waiting := endsIn_join (Disk.directoryOf path) [] (name ++ ".tmp")
    (by simpa using isOrdinary_append_tmp ends.ordinary)
  rw [ends.components_directoryOf, List.map_nil, List.append_nil, List.nil_append] at waiting
  rw [DiskWork.waitingPath, ends.fileName?]
  exact waiting

/-! ## Searches -/

/-- Empty pieces are no components. -/
theorem filterMap_filter_isEmpty (pieces : List (List Char)) :
    (pieces.filter fun piece => !piece.isEmpty).filterMap component? =
      pieces.filterMap component? := by
  rw [List.filterMap_filter]
  apply List.filterMap_congr
  intro piece _
  cases piece with
  | nil => rfl
  | cons c cs => rfl

/-- The components of an absolute path are the root and those behind the slash. -/
theorem components_slash (rest : String) :
    components ("/" ++ rest) = .root :: (pieces rest.toList).filterMap component? := by
  rw [components_eq_lead_append, String.toList_append]
  simp [pieces, lead, pieces_ne_nil, component?]

/-- Dots at the front are no components, -/
theorem filterMap_dropWhile_here (pieces : List (List Char)) :
    (pieces.dropWhile (· == ['.'])).filterMap component? = pieces.filterMap component? := by
  induction pieces with
  | nil => rfl
  | cons piece rest ih =>
      by_cases here : piece = ['.']
      · rw [here, List.dropWhile_cons_of_pos (by decide), ih, List.filterMap_cons_none rfl]
      · rw [List.dropWhile_cons_of_neg (by simpa using here)]

/-- and pieces that are not empty lead from nowhere without them. -/
theorem lead_dropWhile_here {pieces : List (List Char)} (named : ∀ piece ∈ pieces, piece ≠ []) :
    lead (pieces.dropWhile (· == ['.'])) = [] := by
  induction pieces with
  | nil => rfl
  | cons piece rest ih =>
      obtain ⟨first, others⟩ := List.forall_mem_cons.mp named
      by_cases here : piece = ['.']
      · rw [here, List.dropWhile_cons_of_pos (by decide)]
        exact ih others
      · rw [List.dropWhile_cons_of_neg (by simpa using here), lead, if_neg first, if_neg here]

/-- A search from a directory finds files under the steps of the directory, but for a single dot in
front. -/
theorem components_searchRoot (root : String) :
    components (Disk.searchRoot root) =
      (if isAbsolute root then [.root] else []) ++ (pieces root.toList).filterMap component? := by
  have noSlash : ∀ piece ∈ (pieces root.toList).filter (fun piece => !piece.isEmpty),
      '/' ∉ piece := fun piece member =>
    slash_not_mem_of_mem_pieces (List.mem_of_mem_filter member)
  rw [← filterMap_filter_isEmpty, Disk.searchRoot]
  dsimp only
  split
  · exact (components_slash _).trans (congrArg _ (filterMap_pieces_ofPieces noSlash))
  · refine (components_ofPieces fun piece member =>
      noSlash piece ((List.dropWhile_sublist _).mem member)).trans ?_
    rw [filterMap_dropWhile_here]
    congr 1
    apply lead_dropWhile_here
    intro piece member
    simpa using (List.mem_filter.mp member).2

/-- A single dot is no step of a search. -/
theorem here_not_mem_searchRoot (root : String) : .here ∉ components (Disk.searchRoot root) := by
  rw [components_searchRoot, List.mem_append, not_or]
  constructor
  · split <;> simp
  · intro member
    obtain ⟨piece, -, step⟩ := List.mem_filterMap.mp member
    unfold component? at step
    split at step
    · cases step
    · split at step <;> cases step

/-- A directory takes the steps of a search from it, behind a single dot if it is written with
one. -/
theorem components_eq_searchRoot (root : String) :
    components root = components (Disk.searchRoot root) ∨
      components root = .here :: components (Disk.searchRoot root) := by
  rw [components_searchRoot]
  unfold components
  dsimp only
  split
  · exact .inl rfl
  · split
    · exact .inr rfl
    · exact .inl rfl

/-- What is found below a root is named by the root as it was searched and the names below it. -/
theorem found_eq_join (root : String) (texts : List String) :
    Disk.found root texts = join (Disk.searchRoot root) (String.intercalate "/" texts) := by
  rw [Disk.found]
  split
  · rename_i none
    rw [String.isEmpty_iff.mp none]
    simp [join]
  · rfl

/-- The path of a file that a search finds starts with the directory that the search starts from,
unless that is written with a single dot in front. -/
theorem relative?_found (base : String) {texts : List String}
    (ordinary : ∀ name ∈ texts, IsOrdinary name) (nonempty : texts ≠ []) :
    relative? base (Disk.found base texts) =
      if (components base).head? = some .here then none else some (texts.map .name) := by
  have absent := here_not_mem_searchRoot base
  rw [relative?, found_eq_join, components_join _ ordinary nonempty]
  rcases components_eq_searchRoot base with same | behind
  · have plain : (components base).head? ≠ some .here := fun here =>
      absent (same ▸ List.mem_of_head? here)
    rw [if_neg plain, same, List.isPrefixOf?_eq_some_iff_append_eq]
  · rw [behind, List.head?_cons, if_pos rfl, Option.eq_none_iff_forall_ne_some]
    intro others prefixed
    have split := List.isPrefixOf?_eq_some_iff_append_eq.mp prefixed
    have member : .here ∈ components (Disk.searchRoot base) ++ texts.map .name :=
      split ▸ .head _
    rcases List.mem_append.mp member with inRoot | inNames
    · exact absent inRoot
    · simp at inNames

end Rolewright.Path
