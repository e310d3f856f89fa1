/-
# The chain of repairs

What a session asks for, from attempt to attempt. The first request is the one for the whole
cookbook. Every attempt but the last was rejected and holds the feedback that comes of its report
and of the reports before it, and the next request is the first one again with that feedback. The
last attempt holds none.

`chained_transition` is the step, told of the attempts with the latest first, as a session holds
them; `isRepairChain_convert` is the run, told in the order in which the attempts were made.
-/

import Rolewright.Proofs.Conversion.Tally

namespace Rolewright

namespace Attempt

/-- An attempt asks what it should after some others, the latest of them first: a first one for the
whole cookbook, and a later one again, with the feedback that the one before it holds. -/
def Follows (first : Request) (a : Attempt) : List Attempt → Prop
  | [] => a.request = first
  | previous :: older => ∃ feedback, previous.feedback = some feedback ∧
      a.request = { first with attempt := older.length + 2, feedback := some feedback }

/-- An attempt was rejected, and holds the feedback on its report and on those before it. -/
def IsRepaired (a : Attempt) (earlier : List Attempt) : Prop :=
  ∃ report, a.report = some report ∧ report.isClean = false ∧
    a.feedback = some (Feedback.ofReport report ((a :: earlier).reverse.map (·.review)))

/-- Attempts, the latest first, of which each was repaired. -/
def Repaired (first : Request) : List Attempt → Prop
  | [] => True
  | a :: earlier => a.Follows first earlier ∧ a.IsRepaired earlier ∧ Repaired first earlier

/-- Attempts, the latest first, of which the latest is not repaired yet and all the others are. -/
def Chained (first : Request) : List Attempt → Prop
  | [] => True
  | latest :: earlier =>
    latest.Follows first earlier ∧ latest.feedback = none ∧ Repaired first earlier

variable {first : Request} {a b : Attempt} {earlier attempts : List Attempt}

/-- What an attempt follows is told by its request alone. -/
theorem Follows.congr (follows : a.Follows first earlier) (request : b.request = a.request) :
    b.Follows first earlier := by
  cases earlier with
  | nil => exact request.trans follows
  | cons previous older =>
      obtain ⟨feedback, given, asked⟩ := follows
      exact ⟨feedback, given, request.trans asked⟩

/-- Whatever an attempt was told, the request after it is the first one with the new feedback. -/
theorem Follows.withFeedback_request (follows : a.Follows first earlier) (number : Nat)
    (feedback : Feedback) :
    a.request.withFeedback number feedback =
      { first with attempt := number, feedback := some feedback } := by
  cases earlier with
  | nil => rw [show a.request = first from follows, Request.withFeedback]
  | cons previous older =>
      obtain ⟨_, _, asked⟩ := follows
      rw [asked, Request.withFeedback]

/-- Every attempt of a repaired history follows the ones before it and was repaired after them. -/
theorem Repaired.follows_and_isRepaired {later : List Attempt}
    (repaired : Repaired first (later ++ a :: earlier)) :
    a.Follows first earlier ∧ a.IsRepaired earlier := by
  induction later with
  | nil => exact ⟨repaired.1, repaired.2.1⟩
  | cons _ _ ih => exact ih repaired.2.2

theorem Chained.follows {later : List Attempt} (chained : Chained first (later ++ a :: earlier)) :
    a.Follows first earlier := by
  cases later with
  | nil => exact chained.1
  | cons _ _ => exact (Repaired.follows_and_isRepaired chained.2.2).1

/-- All attempts of a chain but the latest were repaired. -/
theorem Chained.isRepaired {later : List Attempt}
    (chained : Chained first (later ++ b :: a :: earlier)) : a.IsRepaired earlier := by
  cases later with
  | nil => exact chained.2.2.2.1
  | cons _ later =>
      have repaired : Repaired first ((later ++ [b]) ++ a :: earlier) := by
        rw [List.append_assoc]
        exact chained.2.2
      exact (Repaired.follows_and_isRepaired repaired).2

/-- A change of the latest attempt that is not about what it asks or what it was told. -/
theorem Chained.modifyHead {change : Attempt → Attempt} (chained : Chained first attempts)
    (request : ∀ a, (change a).request = a.request)
    (feedback : ∀ a, (change a).feedback = a.feedback) :
    Chained first (attempts.modifyHead change) := by
  cases attempts with
  | nil => trivial
  | cons latest earlier =>
      obtain ⟨follows, untold, repaired⟩ := chained
      exact ⟨follows.congr (request latest), (feedback latest).trans untold, repaired⟩

/-- A rejected attempt that is told what comes of its report is repaired by the next one. -/
theorem Chained.repair {report : Report} {feedback : Feedback}
    (chained : Chained first (a :: earlier)) (reported : a.report = some report)
    (blocked : report.isClean = false)
    (made : feedback = Feedback.ofReport report ((a :: earlier).reverse.map (·.review))) :
    Chained first
      (.fresh (earlier.length + 1 + 1) (a.request.withFeedback (earlier.length + 1 + 1) feedback) ::
        { a with feedback := some feedback } :: earlier) := by
  obtain ⟨follows, -, repaired⟩ := chained
  refine ⟨⟨feedback, rfl, follows.withFeedback_request _ _⟩, rfl, follows.congr rfl, ?_, repaired⟩
  refine ⟨report, reported, blocked, ?_⟩
  rw [made, List.reverse_cons, List.reverse_cons, List.map_append, List.map_append]
  rfl

end Attempt

/-- Attempts in the order in which they were made, as a chain of repairs that starts from a
request. -/
structure IsRepairChain (first : Request) (attempts : List Attempt) : Prop where
  numbered : ∀ k a, attempts[k]? = some a → a.number = k + 1
  opening : ∀ a, attempts[0]? = some a → a.request = first
  repaired : ∀ k a b, attempts[k]? = some a → attempts[k + 1]? = some b →
    ∃ report feedback, a.report = some report ∧ report.isClean = false ∧
      feedback = Feedback.ofReport report ((attempts.take (k + 1)).map (·.review)) ∧
      a.feedback = some feedback ∧
      b.request = { first with attempt := k + 2, feedback := some feedback }
  untold : ∀ a, attempts.getLast? = some a → a.feedback = none

/-- A list around the item at a position. -/
theorem eq_take_append_cons_of_getElem? {α : Type} {items : List α} {k : Nat} {a : α}
    (here : items[k]? = some a) : items = items.take k ++ a :: items.drop (k + 1) := by
  obtain ⟨bound, rfl⟩ := List.getElem?_eq_some_iff.mp here
  rw [← List.drop_eq_getElem_cons bound, List.take_append_drop]

/-- The attempts of a session in the order in which they were made. -/
theorem isRepairChain_reverse {first : Request} {attempts : List Attempt}
    (chained : Attempt.Chained first attempts) (numbered : Attempt.Numbered attempts) :
    IsRepairChain first attempts.reverse where
  numbered k a here := by
    have numbers := congrArg (·[k]?) (Run.map_number_reverse numbered)
    obtain ⟨bound, -⟩ := List.getElem?_eq_some_iff.mp here
    rw [List.length_reverse] at bound
    rw [List.getElem?_map, here, List.getElem?_range' (by simpa using bound)] at numbers
    have number : a.number = 1 + 1 * k := Option.some.inj numbers
    omega
  opening a here := by
    have start := congrArg List.reverse (eq_take_append_cons_of_getElem? here)
    rw [List.reverse_reverse, List.take_zero, List.nil_append, List.reverse_cons] at start
    exact Attempt.Chained.follows (start ▸ chained)
  repaired k a b here next := by
    have split := eq_take_append_cons_of_getElem? next
    rw [List.take_add_one, here, Option.toList_some, List.append_assoc, List.singleton_append]
      at split
    have around : attempts = (attempts.reverse.drop (k + 2)).reverse ++
        b :: a :: (attempts.reverse.take k).reverse := by
      simpa using congrArg List.reverse split
    rw [around] at chained
    obtain ⟨feedback, told, asked⟩ := chained.follows
    obtain ⟨report, reported, blocked, made⟩ := chained.isRepaired
    have length : (attempts.reverse.take k).reverse.length = k := by
      have bound := (List.getElem?_eq_some_iff.mp here).1
      rw [List.length_reverse, List.length_take_of_le (Nat.le_of_lt bound)]
    rw [length] at asked
    refine ⟨report, feedback, reported, blocked, ?_, told, asked⟩
    rw [told, List.reverse_cons, List.reverse_reverse] at made
    rw [List.take_add_one, here]
    exact Option.some.inj made
  untold a here := by
    rw [List.getLast?_reverse] at here
    cases attempts with
    | nil => cases here
    | cons latest earlier =>
        obtain rfl : latest = a := Option.some.inj here
        exact chained.2.1

namespace Run

variable {w : Surroundings} {settings : SessionSettings} {registry : Mapping.Registry}
  {cookbook : Cookbook} {s next : State} {calls made : List Inquiry}

/-- Every transition keeps the chain: a repair adds to it, and nothing else touches what is asked
or told. -/
theorem chained_transition
    (chained : Attempt.Chained (.build cookbook registry settings.examples) s.session.attempts)
    (standing : Standing cookbook s calls)
    (t : Transition w settings registry cookbook s made next) :
    Attempt.Chained (.build cookbook registry settings.examples) next.session.attempts := by
  have asked (request : Request) : Attempt.Chained (.build cookbook registry settings.examples)
      (asked w settings (looked s) request).session.attempts := by
    rw [attempts_asked]
    exact chained.modifyHead (fun _ => rfl) (fun _ => rfl)
  have checked (candidate : Role) :
      Attempt.Chained (.build cookbook registry settings.examples)
        (checked w settings (looked s) candidate).session.attempts := by
    rw [attempts_checked]
    exact chained.modifyHead (fun _ => rfl) (fun _ => rfl)
  cases t with
  | stopped going told => exact chained
  | begun now =>
      have none := standing.start now
      rw [attempts_begin, attempts_looked, none]
      exact ⟨rfl, rfl, trivial⟩
  | vacant now _ _ =>
      rw [attempts_vacant]
      exact (asked _).modifyHead (fun _ => rfl) (fun _ => rfl)
  | filled now _ _ =>
      rw [attempts_filled]
      exact (asked _).modifyHead (fun _ => rfl) (fun _ => rfl)
  | unanswered now _ => exact asked _
  | askingStopped now => exact asked _
  | askingDied now _ => exact asked _
  | askingOverran now _ => exact asked _
  | accepted now _ _ =>
      rw [attempts_reported]
      exact (checked _).modifyHead (fun _ => rfl) (fun _ => rfl)
  | rejected now _ _ =>
      rw [session_judge, attempts_reported]
      exact (checked _).modifyHead (fun _ => rfl) (fun _ => rfl)
  | unchecked now _ => exact checked _
  | checkingStopped now => exact checked _
  | checkingDied now _ => exact checked _
  | checkingOverran now _ => exact checked _
  | @repaired request report now =>
      obtain ⟨latest, earlier, attempts, rfl, reported, blocked⟩ := standing.repairing now
      rw [attempts_repair (s := looked s) attempts]
      rw [attempts] at chained
      refine chained.repair reported blocked ?_
      rw [feedback, Session.reviews, attempts_looked, attempts]

/-- At every moment of a run the attempts are a chain. -/
theorem chained_stateAfter (n : Nat) :
    Attempt.Chained (.build cookbook registry settings.examples)
      (stateAfter w settings registry cookbook n).session.attempts := by
  -- Which report a repair is about is in `Standing`.
  have both := invariant w settings registry cookbook
    (fun s calls =>
      Attempt.Chained (.build cookbook registry settings.examples) s.session.attempts ∧
        Standing cookbook s calls)
    ⟨trivial, standing_initial⟩
    (fun _ _ _ _ ⟨chained, standing⟩ t =>
      ⟨chained_transition chained standing t, standing_transition standing t⟩) n
  exact both.1

/-- The attempts of a session are a chain of repairs that starts from the request for the whole
cookbook, at every moment and in what the session leaves. -/
theorem isRepairChain_convert :
    let first := Request.build cookbook registry settings.examples
    first.attempt = 1 ∧ first.feedback = none ∧
      (∀ n, IsRepairChain first
        (stateAfter w settings registry cookbook n).session.attempts.reverse) ∧
      IsRepairChain first (convert w settings registry cookbook).attempts := by
  intro first
  have chain (n : Nat) :
      IsRepairChain first (stateAfter w settings registry cookbook n).session.attempts.reverse :=
    isRepairChain_reverse (chained_stateAfter n) (tallied_stateAfter n).numbered
  refine ⟨rfl, rfl, chain, ?_⟩
  rcases convert_eq w settings registry cookbook with
    ⟨outcome, -, concluded⟩ | ⟨message, -, crashed⟩
  · rw [concluded]
    exact chain _
  · rw [crashed]
    have unattempted : IsRepairChain first (List.reverse []) :=
      isRepairChain_reverse trivial trivial
    exact unattempted

end Run

end Rolewright
