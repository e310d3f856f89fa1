/-
# Gathering keeps every finding

A source file keeps all that was found in it: declarations and inclusions as they are, assignments
by their keys, and a stretch that was not understood inside a declaration that quotes it
(`keeps_extract`). Such a declaration quotes the lines of its span and nothing else, however often
its stretch has grown (`Gathering.Added.sound`).
-/

import Rolewright.Recipe.Extract

namespace Rolewright.Recipe

open Text

namespace SourceFile

/-- Some declaration spans these lines. -/
def Covers (f : SourceFile) (first last : Nat) : Prop :=
  ∃ d ∈ f.declarations, d.span.first ≤ first ∧ last ≤ d.span.last

/-- What was found is still there. -/
def Keeps (f : SourceFile) : Finding → Prop
  | .declared d => d ∈ f.declarations
  | .attribute path _ => (f.attributes.get? path).isSome
  | .variable name _ => (f.locals.get? name).isSome
  | .included recipe => recipe ∈ f.includes
  | .unknown first last _ => f.Covers first last

/-- A source file to which nothing was done but to add. -/
structure Grown (f g : SourceFile) : Prop where
  declarations : f.declarations ⊆ g.declarations
  attributes : ∀ path, (f.attributes.get? path).isSome → (g.attributes.get? path).isSome
  locals : ∀ name, (f.locals.get? name).isSome → (g.locals.get? name).isSome
  includes : f.includes ⊆ g.includes

theorem Keeps.grown {f g : SourceFile} {finding : Finding} (keeps : f.Keeps finding)
    (grown : f.Grown g) : g.Keeps finding := by
  cases finding with
  | declared d => exact grown.declarations keeps
  | «attribute» path value => exact grown.attributes path keeps
  | «variable» name value => exact grown.locals name keeps
  | included recipe => exact grown.includes keeps
  | unknown first last guards =>
      obtain ⟨d, member, spans⟩ := keeps
      exact ⟨d, grown.declarations member, spans⟩

theorem grown_declarations (f : SourceFile) (others : List Declaration) (templates : List String) :
    f.Grown { f with declarations := f.declarations ++ others, templates } :=
  ⟨List.subset_append_left _ _, fun _ => id, fun _ => id, fun _ => id⟩

theorem isSome_get?_put (entries : Entries Value) (key : String) (value : Value) {other : String}
    (known : (entries.get? other).isSome) : ((entries.put key value).get? other).isSome := by
  rw [Entries.get?_put]
  split
  · rfl
  · exact known

end SourceFile

/-- A declaration that quotes the physical lines it stands on, and nothing else. -/
structure Declaration.IsVerbatim (physical : List (List Char)) (d : Declaration) : Prop where
  first_pos : 1 ≤ d.span.first
  first_le : d.span.first ≤ d.span.last
  last_le : d.span.last ≤ physical.length
  source : d.properties =
    [("source", .raw (String.ofList (excerpt physical d.span.first d.span.last)))]

/-- A finding that quotes lines quotes some that are there. -/
def Finding.IsInside (physical : List (List Char)) : Finding → Prop
  | .unknown first last _ => 1 ≤ first ∧ first ≤ last ∧ last ≤ physical.length
  | _ => True

/-- A stretch that holds the lines of a finding. -/
def Stretch.Holds (stretch : Stretch) : Finding → Prop
  | .unknown first last _ => stretch.first ≤ first ∧ last ≤ stretch.last
  | _ => False

namespace Gathering

/-- What was found is in the file or still pending. -/
def Keeps (g : Gathering) (finding : Finding) : Prop :=
  g.found.Keeps finding ∨ ∃ stretch, g.pending = some stretch ∧ stretch.Holds finding

/-- Whatever is declared was found so or quotes its lines, and a pending stretch is inside the
source. -/
structure Sound (o : Origin) (findings : List Finding) (g : Gathering) : Prop where
  declarations : ∀ d ∈ g.found.declarations, .declared d ∈ findings ∨ d.IsVerbatim o.physical
  pending : ∀ stretch, g.pending = some stretch →
    1 ≤ stretch.first ∧ stretch.first ≤ stretch.last ∧ stretch.last ≤ o.physical.length

section Flush

variable {o : Origin} {g : Gathering} {findings : List Finding} {finding : Finding}

theorem grown_flush (o : Origin) (g : Gathering) : g.found.Grown (g.flush o) := by
  unfold flush
  split
  · exact ⟨fun _ => id, fun _ => id, fun _ => id, fun _ => id⟩
  · exact g.found.grown_declarations _ _

/-- Nothing pending is lost when it becomes a declaration. -/
theorem Keeps.flush (keeps : g.Keeps finding) : (g.flush o).Keeps finding := by
  rcases keeps with found | ⟨stretch, pending, holds⟩
  · exact found.grown (grown_flush o g)
  · cases finding with
    | unknown first last guards =>
        rw [Gathering.flush, pending]
        refine ⟨_, List.mem_append_right _ (.head _), holds.1, ?_⟩
        exact Nat.le_trans holds.2 (Nat.le_max_left _ _)
    | _ => exact holds.elim

/-- A stretch that ends quotes the lines it has come to. -/
theorem Sound.flush (sound : g.Sound o findings) :
    ∀ d ∈ (g.flush o).declarations, .declared d ∈ findings ∨ d.IsVerbatim o.physical := by
  intro d member
  unfold Gathering.flush at member
  split at member
  · exact sound.declarations d member
  · rename_i stretch pending
    obtain ⟨positive, ordered, inside⟩ := sound.pending stretch pending
    rcases List.mem_append.mp member with old | new
    · exact sound.declarations d old
    · obtain rfl := List.mem_singleton.mp new
      have last : max stretch.last stretch.first = stretch.last := Nat.max_eq_left ordered
      refine .inr ⟨positive, Nat.le_max_right _ _, ?_, ?_⟩
      · simpa only [Origin.span, last] using inside
      · simp only [Origin.span, Origin.text, last]

end Flush

/-! ## One finding more -/

/-- What gathering one more finding comes to: the pending stretch is wider, or another one is
begun, or what was pending is settled and the finding is in the file. -/
inductive Added (o : Origin) (g : Gathering) : Finding → Gathering → Prop
  | widened {first last : Nat} {guards : List Guard} {stretch : Stretch}
      (pending : g.pending = some stretch) (after : stretch.last < first) :
      Added o g (.unknown first last guards) ⟨g.found, some { stretch with last }⟩
  | begun (first last : Nat) (guards : List Guard) :
      Added o g (.unknown first last guards) ⟨g.flush o, some ⟨first, last, guards⟩⟩
  | settled {finding : Finding} {f : SourceFile} (grown : (g.flush o).Grown f)
      (keeps : f.Keeps finding)
      (declarations : ∀ d ∈ f.declarations, d ∈ (g.flush o).declarations ∨ finding = .declared d) :
      Added o g finding ⟨f, none⟩

theorem added_add (o : Origin) (g : Gathering) (finding : Finding) :
    Added o g finding (g.add o finding) := by
  cases finding with
  | declared d =>
      refine .settled ((g.flush o).grown_declarations _ _) ?_ ?_
      · exact List.mem_append_right _ (.head _)
      · intro other member
        rcases List.mem_append.mp member with old | new
        · exact .inl old
        · exact .inr (congrArg _ (List.mem_singleton.mp new).symm)
  | «attribute» path value =>
      refine .settled ⟨fun _ => id, ?_, fun _ => id, fun _ => id⟩ ?_ fun _ => .inl
      · exact fun _ => SourceFile.isSome_get?_put _ path value
      · simp [SourceFile.Keeps, Entries.get?_put]
  | «variable» name value =>
      refine .settled ⟨fun _ => id, fun _ => id, ?_, fun _ => id⟩ ?_ fun _ => .inl
      · exact fun _ => SourceFile.isSome_get?_put _ name value
      · simp [SourceFile.Keeps, Entries.get?_put]
  | included recipe =>
      refine .settled ⟨fun _ => id, fun _ => id, fun _ => id, ?_⟩ ?_ fun _ => .inl
      · exact List.subset_append_left _ _
      · exact List.mem_append_right _ (.head _)
  | unknown first last guards =>
      unfold add
      cases pending : g.pending with
      | none =>
          have flushed : g.flush o = g.found := by rw [flush, pending]
          have begun := Added.begun (o := o) (g := g) first last guards
          rwa [flushed] at begun
      | some stretch =>
          dsimp only
          split
          · rename_i joins
            rw [Bool.and_eq_true, decide_eq_true_eq, decide_eq_true_eq] at joins
            exact .widened pending joins.2
          · exact .begun first last guards

section Add

variable {o : Origin} {g next : Gathering} {findings : List Finding} {finding kept : Finding}

/-- What is added is kept. -/
theorem Added.keeps (added : Added o g finding next) (sound : g.Sound o findings) :
    next.Keeps finding := by
  cases added with
  | widened pending after =>
      have ordered := (sound.pending _ pending).2.1
      exact .inr ⟨_, rfl, Nat.le_trans ordered (Nat.le_of_lt after), Nat.le_refl _⟩
  | begun first last guards => exact .inr ⟨_, rfl, Nat.le_refl _, Nat.le_refl _⟩
  | settled grown keeps declarations => exact .inl keeps

/-- What was kept before is kept further. -/
theorem Added.keeps_old (added : Added o g finding next) (inside : finding.IsInside o.physical)
    (keeps : g.Keeps kept) : next.Keeps kept := by
  cases added with
  | @widened first last guards stretch pending after =>
      rcases keeps with found | ⟨other, here, holds⟩
      · exact .inl found
      · obtain rfl : stretch = other := Option.some.inj (pending.symm.trans here)
        have later : stretch.last ≤ last := Nat.le_of_lt (Nat.lt_of_lt_of_le after inside.2.1)
        cases kept with
        | unknown _ _ _ => exact .inr ⟨_, rfl, holds.1, Nat.le_trans holds.2 later⟩
        | _ => exact holds.elim
  | begun first last guards => exact .inl keeps.flush
  | settled grown _ _ => exact .inl (keeps.flush.grown grown)

theorem Added.sound (added : Added o g finding next) (member : finding ∈ findings)
    (inside : finding.IsInside o.physical) (sound : g.Sound o findings) :
    next.Sound o findings := by
  cases added with
  | widened pending after =>
      refine ⟨sound.declarations, ?_⟩
      rintro _ ⟨⟩
      obtain ⟨positive, ordered, _⟩ := sound.pending _ pending
      obtain ⟨_, ordered', inside'⟩ := inside
      have later := Nat.lt_of_lt_of_le after ordered'
      exact ⟨positive, Nat.le_trans ordered (Nat.le_of_lt later), inside'⟩
  | begun first last guards =>
      refine ⟨sound.flush, ?_⟩
      rintro _ ⟨⟩
      exact inside
  | settled _ _ declarations =>
      refine ⟨?_, fun _ pending => nomatch pending⟩
      intro d there
      rcases declarations d there with old | rfl
      · exact sound.flush d old
      · exact .inl member

end Add

theorem sound_of_nothing {o : Origin} {findings : List Finding} {f : SourceFile}
    (nothing : f.declarations = []) : Sound o findings ⟨f, none⟩ where
  declarations := by simp [nothing]
  pending := by simp

/-! ## All findings -/

/-- Whatever is gathered is kept, and all that is declared was found or is quoted. -/
theorem foldl_add {o : Origin} {all : List Finding}
    (inside : ∀ finding ∈ all, finding.IsInside o.physical) (findings : List Finding)
    (among : findings ⊆ all) (g : Gathering) (sound : g.Sound o all) :
    (findings.foldl (add o) g).Sound o all ∧
      (∀ kept, g.Keeps kept → (findings.foldl (add o) g).Keeps kept) ∧
      ∀ finding ∈ findings, (findings.foldl (add o) g).Keeps finding := by
  induction findings generalizing g with
  | nil => exact ⟨sound, fun _ => id, fun _ member => nomatch member⟩
  | cons finding findings ih =>
      have added := added_add o g finding
      have here : finding ∈ all := among (.head _)
      have ⟨sound', old, new⟩ := ih (fun _ member => among (.tail _ member)) (g.add o finding)
        (added.sound here (inside _ here) sound)
      refine ⟨sound', ?_, ?_⟩
      · exact fun kept keeps => old kept (added.keeps_old (inside _ here) keeps)
      · intro other member
        rcases List.mem_cons.mp member with rfl | later
        · exact old _ (added.keeps sound)
        · exact new other later

end Gathering

/-! ## Extraction -/

/-- What a source is found to hold, in order. -/
def findingsOf (file : String) (types : List String) (source : List Char) : List Finding :=
  Origin.nodesFindings ⟨file, types, lines source⟩ [] (Node.ofLines (Line.ofSource source))

section Extract

variable {file : String} {types : List String} {source : List Char}

/-- A source file keeps all that was found in it, and declares only what was found or what quotes
its lines. -/
theorem keeps_extract
    (inside : ∀ finding ∈ findingsOf file types source, finding.IsInside (lines source)) :
    (∀ finding ∈ findingsOf file types source,
        (SourceFile.extract file types source).Keeps finding) ∧
      ∀ d ∈ (SourceFile.extract file types source).declarations,
        .declared d ∈ findingsOf file types source ∨ d.IsVerbatim (lines source) := by
  unfold SourceFile.extract
  extract_lets origin empty findings
  have quotable : ∀ finding ∈ findings, finding.IsInside origin.physical := inside
  obtain ⟨sound, _, kept⟩ := Gathering.foldl_add quotable findings (fun _ => id) ⟨empty, none⟩
    (Gathering.sound_of_nothing rfl)
  exact ⟨fun finding member => (kept finding member).flush, sound.flush⟩

end Extract

end Rolewright.Recipe
