/-
# What feedback says of a report

Feedback partitions the findings that block. Its items stand in the order of their categories, each
category that blocks has one, and each finding that blocks is counted in the item of its category.
What an item says is about all findings of its category: the worst severity among them and the first
distinct places and messages (`IsFirstDistinct`). What was reported before only marks an item as
recurring, and a category without an item as resolved.
-/

import Mathlib.Algebra.BigOperators.Group.List.Lemmas
import Mathlib.Algebra.GroupWithZero.Nat
import Mathlib.Data.List.Dedup
import Mathlib.Data.List.Induction
import Rolewright.Conversion.Feedback
import Rolewright.Conversion.Session

namespace Rolewright

/-- Some texts are the first distinct ones of a list, as many as may be. They stand in the order in
which they come first in the list, and what is left out comes first after all of them. -/
structure IsFirstDistinct (limit : Nat) (texts chosen : List String) : Prop where
  atMost : chosen.length ≤ limit
  distinct : chosen.Nodup
  among : ∀ text ∈ chosen, text ∈ texts
  all : chosen.length < limit → ∀ text ∈ texts, text ∈ chosen
  ordered : chosen.Pairwise fun text later => texts.idxOf text < texts.idxOf later
  first : ∀ text ∈ texts, text ∉ chosen → ∀ other ∈ chosen, texts.idxOf other < texts.idxOf text

/-- A category blocks a report: a finding of the category does. -/
def Report.IsBlockedBy (report : Report) (category : String) : Prop :=
  ∃ d ∈ report.blocking, d.category = category

/-- A category blocked an attempt when it was reported on. -/
def Attempt.IsBlockedBy (a : Attempt) (category : String) : Prop :=
  ∃ report, a.report = some report ∧ report.IsBlockedBy category

/-- What an item says is true of some findings. -/
structure FeedbackItem.TellsOf (item : FeedbackItem) (own : List Diagnostic) : Prop where
  occurrences : item.occurrences = own.length
  attained : ∃ d ∈ own, d.severity = item.severity
  worst : ∀ d ∈ own, d.severity.rank ≤ item.severity.rank
  locations : IsFirstDistinct 8 (own.filterMap (·.location)) item.locations
  messages : IsFirstDistinct 5 (own.map (·.message)) item.messages

/-- Feedback groups the findings that block a report by their categories, and says which of the
categories blocked an attempt before, and which blocked the attempt before and do so no more. -/
structure Feedback.Partitions (f : Feedback) (report : Report) (history : List Attempt) : Prop where
  ordered : f.categories.Pairwise (· < ·)
  covers : ∀ category, category ∈ f.categories ↔ report.IsBlockedBy category
  counted : (f.items.map (·.occurrences)).sum = report.blocking.length
  tells : ∀ item ∈ f.items, item.TellsOf (report.blocking.filter (·.category == item.category))
  recurring : ∀ item ∈ f.items,
    item.recurring = true ↔ ∃ a ∈ history.dropLast, a.IsBlockedBy item.category
  resolvedOrdered : f.resolved.Pairwise (· < ·)
  resolved : ∀ category, category ∈ f.resolved ↔
    (∃ a, history.dropLast.getLast? = some a ∧ a.IsBlockedBy category) ∧
      ¬ report.IsBlockedBy category
  apart : ∀ item ∈ f.items, item.category ∉ f.resolved

namespace Feedback

/-! ## First distinct texts -/

/-- Without duplicates texts stand in the order in which they come first. -/
theorem pairwise_idxOf_eraseDups (texts : List String) :
    texts.eraseDups.Pairwise fun text later => texts.idxOf text < texts.idxOf later := by
  induction texts using List.reverseRecOn with
  | nil => exact .nil
  | append_singleton texts last ih =>
      have inFront {text : String} (member : text ∈ texts) :
          (texts ++ [last]).idxOf text = texts.idxOf text :=
        List.idxOf_append_of_mem member
      have kept : texts.eraseDups.Pairwise fun text later =>
          (texts ++ [last]).idxOf text < (texts ++ [last]).idxOf later :=
        ih.imp_of_mem fun first second less => by
          rwa [inFront (List.mem_eraseDups.mp first), inFront (List.mem_eraseDups.mp second)]
      rw [List.eraseDups_append]
      by_cases known : last ∈ texts
      · rwa [show [last].removeAll texts = [] by simp [List.removeAll, known], List.eraseDups_nil,
          List.append_nil]
      · have atEnd : (texts ++ [last]).idxOf last = texts.length := by
          rw [List.idxOf_append_of_notMem known, List.idxOf_cons_self, Nat.add_zero]
        rw [show [last].removeAll texts = [last] by simp [List.removeAll, known],
          show [last].eraseDups = [last] from rfl]
        refine List.pairwise_append.mpr ⟨kept, List.pairwise_singleton _ _, ?_⟩
        intro text before later isLast
        have member := List.mem_eraseDups.mp before
        rw [List.mem_singleton.mp isLast, atEnd, inFront member]
        exact List.idxOf_lt_length_iff.mpr member

/-- The first texts that differ are kept, in order, up to the limit. -/
theorem isFirstDistinct_firstDistinct (limit : Nat) (texts : List String) :
    IsFirstDistinct limit texts (firstDistinct limit texts) where
  atMost := List.length_take_le _ _
  distinct := by
    refine ((pairwise_idxOf_eraseDups texts).sublist (List.take_sublist _ _)).imp ?_
    rintro text _ less rfl
    exact Nat.lt_irrefl _ less
  among text chosen := List.mem_eraseDups.mp (List.mem_of_mem_take chosen)
  all few text member := by
    rw [firstDistinct, List.length_take] at few
    rw [firstDistinct, List.take_of_length_le (by omega)]
    exact List.mem_eraseDups.mpr member
  ordered := (pairwise_idxOf_eraseDups texts).sublist (List.take_sublist _ _)
  first text member left other chosen := by
    have split := pairwise_idxOf_eraseDups texts
    rw [← List.take_append_drop limit texts.eraseDups] at split
    refine (List.pairwise_append.mp split).2.2 other chosen text ?_
    rw [← List.mem_eraseDups, ← List.take_append_drop limit texts.eraseDups] at member
    exact (List.mem_append.mp member).resolve_left left

/-! ## Categories in order -/

/-- Sorting in a text adds that text -/
theorem mem_insertSorted {text other : String} {texts : List String} :
    other ∈ insertSorted text texts ↔ other = text ∨ other ∈ texts := by
  induction texts with
  | nil => exact List.mem_cons
  | cons t rest ih =>
      rw [insertSorted]
      split
      · exact List.mem_cons
      · split
        · rw [List.mem_cons, ih, List.mem_cons]
          exact or_left_comm
        · rename_i notBelow notAbove
          obtain rfl : text = t :=
            String.le_antisymm (String.not_lt.mp notAbove) (String.not_lt.mp notBelow)
          rw [List.mem_cons, or_self_left]

/-- and keeps the order. -/
theorem pairwise_insertSorted {text : String} {texts : List String}
    (ordered : texts.Pairwise (· < ·)) : (insertSorted text texts).Pairwise (· < ·) := by
  induction ordered with
  | nil => exact List.pairwise_singleton _ _
  | @cons t rest first ordered ih =>
      rw [insertSorted]
      split
      · rename_i below
        exact .cons (List.forall_mem_cons.mpr
          ⟨below, fun other member => String.lt_trans below (first other member)⟩)
          (.cons first ordered)
      · split
        · rename_i above
          refine .cons (fun other member => ?_) ih
          rcases mem_insertSorted.mp member with rfl | old
          · exact above
          · exact first other old
        · exact .cons first ordered

/-- The categories that block a report are listed in order, each once, -/
theorem pairwise_blockedCategories (report : Report) :
    (blockedCategories report).Pairwise (· < ·) := by
  unfold blockedCategories
  induction report.blocking.map (·.category) with
  | nil => exact .nil
  | cons category rest ih => exact pairwise_insertSorted ih

/-- and they are all that do. -/
theorem mem_blockedCategories {report : Report} {category : String} :
    category ∈ blockedCategories report ↔ report.IsBlockedBy category := by
  rw [Report.IsBlockedBy, ← List.mem_map, blockedCategories]
  induction report.blocking.map (·.category) with
  | nil => exact Iff.rfl
  | cons other rest ih => rw [List.foldr_cons, mem_insertSorted, ih, List.mem_cons]

/-! ## Counting -/

/-- Things that are grouped by keys are all counted, each in its group. -/
theorem sum_length_filter {α : Type} {key : α → String} {keys : List String} (distinct : keys.Nodup)
    {items : List α} (keyed : ∀ k, k ∈ keys ↔ ∃ item ∈ items, key item = k) :
    (keys.map fun k => (items.filter (key · == k)).length).sum = items.length := by
  have same : keys.Perm (items.map key).dedup := by
    refine (List.perm_ext_iff_of_nodup distinct (List.nodup_dedup _)).mpr fun k => ?_
    rw [keyed, List.mem_dedup, List.mem_map]
  have counts (k : String) : (items.filter (key · == k)).length = (items.map key).count k := by
    rw [List.count_eq_countP, List.countP_map, List.countP_eq_length_filter]
    rfl
  simp only [counts]
  rw [(same.map _).sum_eq, List.sum_map_count_dedup_eq_length, List.length_map]

/-! ## Severities -/

/-- The worse of two severities is as bad as either -/
theorem rank_le_worse (a b : Severity) : a.rank ≤ (a.worse b).rank ∧ b.rank ≤ (a.worse b).rank := by
  unfold Severity.worse
  split
  · omega
  · omega

/-- and is one of them. -/
theorem worse_eq_or (a b : Severity) : a.worse b = a ∨ a.worse b = b := by
  unfold Severity.worse
  split
  · exact .inr rfl
  · exact .inl rfl

/-- The worst of some severities is one of them, and at least as bad as each. -/
theorem foldl_worse (findings : List Diagnostic) (start : Severity) :
    let worst := findings.foldl (fun worst d => worst.worse d.severity) start
    (worst = start ∨ ∃ d ∈ findings, d.severity = worst) ∧ start.rank ≤ worst.rank ∧
      ∀ d ∈ findings, d.severity.rank ≤ worst.rank := by
  induction findings generalizing start with
  | nil => exact ⟨.inl rfl, Nat.le_refl _, nofun⟩
  | cons d rest ih =>
      obtain ⟨attained, least, bounds⟩ := ih (start.worse d.severity)
      obtain ⟨fromStart, fromOwn⟩ := rank_le_worse start d.severity
      rw [List.foldl_cons]
      refine ⟨?_, Nat.le_trans fromStart least,
        List.forall_mem_cons.mpr ⟨Nat.le_trans fromOwn least, bounds⟩⟩
      rcases attained with same | ⟨other, member, same⟩
      · rw [same]
        exact (worse_eq_or start d.severity).imp_right fun own => ⟨d, .head _, own.symm⟩
      · exact .inr ⟨other, .tail _ member, same⟩

/-- The worst severity of findings, as long as there are any. -/
theorem worst_of_ne_nil {findings : List Diagnostic} (some : findings ≠ []) :
    let worst := findings.foldl (fun worst d => worst.worse d.severity) .info
    (∃ d ∈ findings, d.severity = worst) ∧ ∀ d ∈ findings, d.severity.rank ≤ worst.rank := by
  obtain ⟨attained, -, bounds⟩ := foldl_worse findings .info
  refine ⟨attained.elim (fun isInfo => ?_) id, bounds⟩
  -- Findings of which none is worse than a remark are remarks.
  obtain ⟨d, member⟩ := List.exists_mem_of_ne_nil _ some
  have bound := bounds d member
  rw [isInfo] at bound ⊢
  refine ⟨d, member, ?_⟩
  cases severity : d.severity with
  | info => rfl
  | warning | error =>
      rw [severity] at bound
      cases bound

/-! ## The whole of it -/

/-- The categories that blocked an attempt, in order; none without a report. -/
def blockedBefore (a : Attempt) : List String :=
  (a.report.map blockedCategories).getD []

/-- The categories that blocked an attempt before the last. -/
def known (history : List Attempt) : List String :=
  history.dropLast.flatMap blockedBefore

/-- The categories that blocked the last attempt but one, in order. -/
def previous (history : List Attempt) : List String :=
  (history.dropLast.getLast?.map blockedBefore).getD []

/-- The categories that blocked an attempt are those that block its report. -/
theorem mem_blockedBefore {a : Attempt} {category : String} :
    category ∈ blockedBefore a ↔ a.IsBlockedBy category := by
  unfold Attempt.IsBlockedBy blockedBefore
  cases a.report with
  | none => simp
  | some report => simp [mem_blockedCategories]

theorem pairwise_blockedBefore (a : Attempt) : (blockedBefore a).Pairwise (· < ·) := by
  unfold blockedBefore
  cases a.report with
  | none => exact .nil
  | some report => exact pairwise_blockedCategories report

/-- A category is known if it blocked an attempt before the latest. -/
theorem mem_known {history : List Attempt} {category : String} :
    category ∈ known history ↔ ∃ a ∈ history.dropLast, a.IsBlockedBy category := by
  simp only [known, List.mem_flatMap, mem_blockedBefore]

/-- The previous attempt is the last one before that. -/
theorem mem_previous {history : List Attempt} {category : String} :
    category ∈ previous history ↔
      ∃ a, history.dropLast.getLast? = some a ∧ a.IsBlockedBy category := by
  unfold previous
  cases history.dropLast.getLast? with
  | none => simp
  | some a => simp [mem_blockedBefore]

theorem pairwise_previous (history : List Attempt) : (previous history).Pairwise (· < ·) := by
  unfold previous
  cases history.dropLast.getLast? with
  | none => exact .nil
  | some a => exact pairwise_blockedBefore a

/-- Feedback where something blocks. -/
theorem ofReport_of_blocked {report : Report} (history : List Attempt)
    (blocked : blockedCategories report ≠ []) :
    ofReport report (history.map (·.review)) =
      { attempt := (history.getLast?.map (·.number)).getD 1
        items := (blockedCategories report).map fun category =>
          item (report.blocking.filter (·.category == category))
            ((known history).contains category) category
        resolved :=
          (previous history).filter fun category => !(blockedCategories report).contains category
        generic := false } := by
  rw [ofReport]
  refine (if_neg (by simpa using blocked)).trans ?_
  dsimp only
  rw [← List.map_dropLast, List.flatMap_map, List.getLast?_map, List.getLast?_map, Option.map_map,
    Option.map_map]
  rfl

/-- Nothing blocks a report of remarks only. -/
theorem blockedCategories_eq_nil_iff {report : Report} :
    blockedCategories report = [] ↔ ∀ d ∈ report.diagnostics, d.severity = .info := by
  have passes (d : Diagnostic) : d.isBlocking = true ↔ d.severity ≠ .info := by
    rw [Diagnostic.isBlocking]
    cases d.severity <;> decide
  rw [List.eq_nil_iff_forall_not_mem]
  refine ⟨fun none d member => ?_, fun remarks category blocked => ?_⟩
  · by_contra severity
    exact none d.category (mem_blockedCategories.mpr
      ⟨d, List.mem_filter.mpr ⟨member, (passes d).mpr severity⟩, rfl⟩)
  · obtain ⟨d, member, -⟩ := mem_blockedCategories.mp blocked
    obtain ⟨reported, blocks⟩ := List.mem_filter.mp member
    exact (passes d).mp blocks (remarks d reported)

/-- An item tells of the diagnostics of its category that block, and of no others. -/
theorem tellsOf_item {report : Report} {category : String}
    (blocks : report.IsBlockedBy category) (recurring : Bool) :
    let own := report.blocking.filter (·.category == category)
    (item own recurring category).TellsOf own := by
  intro own
  obtain ⟨d, member, same⟩ := blocks
  have some : own ≠ [] :=
    List.ne_nil_of_mem (List.mem_filter.mpr ⟨member, beq_iff_eq.mpr same⟩)
  obtain ⟨attained, worst⟩ := worst_of_ne_nil some
  exact ⟨rfl, attained, worst, isFirstDistinct_firstDistinct _ _,
    isFirstDistinct_firstDistinct _ _⟩

/-- Feedback partitions the findings that block a report. It is general exactly where none does. -/
theorem partitions_ofReport (report : Report) (history : List Attempt) :
    let f := ofReport report (history.map (·.review))
    (f.generic = true ↔ ∀ d ∈ report.diagnostics, d.severity = .info) ∧
      (f.generic = true ∨ f.Partitions report history) := by
  intro f
  by_cases blocked : blockedCategories report = []
  · have general : f = general (((history.map (·.review)).getLast?.map (·.attempt)).getD 1) := by
      rw [show f = ofReport report _ from rfl, ofReport, blocked]
      rfl
    rw [general]
    exact ⟨iff_of_true rfl (blockedCategories_eq_nil_iff.mp blocked), .inl rfl⟩
  · have made : f = _ := ofReport_of_blocked history blocked
    have categories : f.categories = blockedCategories report := by
      rw [made, Feedback.categories, List.map_map]
      exact List.map_id _
    have items {told : FeedbackItem} (member : told ∈ f.items) :
        ∃ category ∈ blockedCategories report,
          told = item (report.blocking.filter (·.category == category))
            ((known history).contains category) category := by
      rw [made] at member
      obtain ⟨category, blocks, rfl⟩ := List.mem_map.mp member
      exact ⟨category, blocks, rfl⟩
    have resolved (category : String) : category ∈ f.resolved ↔
        category ∈ previous history ∧ category ∉ blockedCategories report := by
      rw [made, List.mem_filter, Bool.not_eq_true', Bool.eq_false_iff, Ne, List.contains_iff_mem]
    refine ⟨?_, .inr ?_⟩
    · rw [← blockedCategories_eq_nil_iff, made]
      exact iff_of_false Bool.false_ne_true blocked
    constructor
    case ordered =>
      rw [categories]
      exact pairwise_blockedCategories report
    case covers =>
      intro category
      rw [categories, mem_blockedCategories]
    case counted =>
      rw [made, List.map_map]
      refine sum_length_filter ((pairwise_blockedCategories report).imp ?_) fun category =>
        mem_blockedCategories
      rintro category _ less rfl
      exact String.lt_irrefl _ less
    case tells =>
      intro told member
      obtain ⟨category, blocks, rfl⟩ := items member
      exact tellsOf_item (mem_blockedCategories.mp blocks) _
    case recurring =>
      intro told member
      obtain ⟨category, -, rfl⟩ := items member
      rw [← mem_known]
      exact List.contains_iff_mem
    case resolvedOrdered =>
      rw [made]
      exact (pairwise_previous history).filter _
    case resolved =>
      intro category
      rw [resolved, mem_previous, mem_blockedCategories]
    case apart =>
      intro told member isResolved
      obtain ⟨category, blocks, rfl⟩ := items member
      exact ((resolved category).mp isResolved).2 blocks

end Feedback

end Rolewright
