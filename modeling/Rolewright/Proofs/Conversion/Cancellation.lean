/-
# Cancelling a session

A session is told to stop by a sign that stays once it is given, and looks for it before every step
and in every wait between two calls. What it does is decided by these looks alone
(`prompt_convert`): if the last of them sees the sign, the session is cancelled there and then and
keeps its latest candidate; if none does, it ends as if there were no sign. Each call comes right
after a look that saw nothing, so that at most one is made once the sign is there.

A run is compared with the same run in surroundings that give no sign. Up to the first look that
sees it they are the same, step by step.
-/

import Mathlib.Order.Basic
import Rolewright.Proofs.Conversion.Remainder

namespace Rolewright

namespace Moment

/-- A moment comes before another one if no less has been done at the other one. -/
instance : Preorder Moment where
  le m n := m.generations ≤ n.generations ∧ m.validations ≤ n.validations ∧ m.looks ≤ n.looks
  le_refl _ := ⟨Nat.le_refl _, Nat.le_refl _, Nat.le_refl _⟩
  le_trans _ _ _ first second :=
    ⟨Nat.le_trans first.1 second.1, Nat.le_trans first.2.1 second.2.1,
      Nat.le_trans first.2.2 second.2.2⟩

variable (m : Moment)

theorem le_generated : m ≤ m.generated :=
  ⟨Nat.le_succ _, Nat.le_refl _, Nat.le_refl _⟩

theorem le_validated : m ≤ m.validated :=
  ⟨Nat.le_refl _, Nat.le_succ _, Nat.le_refl _⟩

theorem le_looked : m ≤ m.looked :=
  ⟨Nat.le_refl _, Nat.le_refl _, Nat.le_succ _⟩

end Moment

/-! ## Looks -/

/-- The sign stays once it is given. -/
def Lasts (cancelled : Moment → Bool) : Prop :=
  ∀ ⦃m n⦄, m ≤ n → cancelled m = true → cancelled n = true

/-- No look sees the sign. -/
def IsUnseen (cancelled : Moment → Bool) (looks : List Moment) : Prop :=
  ∀ look ∈ looks, cancelled look = false

/-- The last look sees the sign, and none before it does. -/
def IsSeenLast (cancelled : Moment → Bool) (looks : List Moment) : Prop :=
  ∃ earlier last, looks = earlier ++ [last] ∧ IsUnseen cancelled earlier ∧ cancelled last = true

section Looks

variable {cancelled : Moment → Bool} {looks others : List Moment} {look : Moment}

theorem isUnseen_nil : IsUnseen cancelled [] := List.forall_mem_nil _

theorem isSeenLast_singleton (told : cancelled look = true) : IsSeenLast cancelled [look] :=
  ⟨[], look, rfl, isUnseen_nil, told⟩

theorem IsUnseen.append (unseen : IsUnseen cancelled looks) (later : IsUnseen cancelled others) :
    IsUnseen cancelled (looks ++ others) :=
  List.forall_mem_append.mpr ⟨unseen, later⟩

/-- Where the sign is not there yet, it was not there before. -/
theorem unseen_of_le (stays : Lasts cancelled) {m n : Moment} (le : m ≤ n)
    (unseen : cancelled n = false) : cancelled m = false :=
  Bool.eq_false_iff.mpr fun told => Bool.false_ne_true (unseen.symm.trans (stays le told))

theorem IsUnseen.cons (unseen : cancelled look = false) (later : IsUnseen cancelled looks) :
    IsUnseen cancelled (look :: looks) :=
  List.forall_mem_cons.mpr ⟨unseen, later⟩

theorem IsUnseen.append_seenLast (unseen : IsUnseen cancelled looks)
    (later : IsSeenLast cancelled others) : IsSeenLast cancelled (looks ++ others) := by
  obtain ⟨earlier, last, rfl, nothing, told⟩ := later
  exact ⟨looks ++ earlier, last, (List.append_assoc _ _ _).symm, unseen.append nothing, told⟩

end Looks

/-! ## Calls and the waits between them -/

namespace Call

variable {α ε : Type}

/-- The looks that are taken in the waits between calls. Whoever dies of a wait does so before any
look. -/
def looks (call : Call α ε) (backoff : Backoff) (cancelled : Moment → Bool) :
    (left made : Nat) → Moment → List Moment
  | 0, _, _ => []
  | left + 1, made, moment =>
    match call.answer moment with
    | .failed error =>
      if call.mayRepeat error then
        match call.pause cancelled (call.after moment) (call.retry backoff made error).delay with
        | .overran => []
        | .cancelled => [call.after moment]
        | .passed =>
          call.after moment ::
            looks call backoff cancelled left (made + 1) (call.after moment).looked
      else []
    | .given _ | .fatal _ => []

variable (call : Call α ε) (backoff : Backoff) (cancelled : Moment → Bool)

/-- Either the last look breaks off the calls, or they are made as if there were no sign. -/
theorem repeatedly_by_looks (left made : Nat) (moment : Moment) :
    let record := call.repeatedly backoff cancelled left made moment
    let looks := call.looks backoff cancelled left made moment
    IsSeenLast cancelled looks ∧ record.result = .cancelled ∨
      IsUnseen cancelled looks ∧ record.result ≠ .cancelled ∧
        record = call.repeatedly backoff (fun _ => false) left made moment := by
  induction left generalizing made moment with
  | zero =>
      rw [looks, repeatedly, repeatedly]
      cases call.answer moment <;>
        exact .inr ⟨isUnseen_nil, (by intro stopped; cases stopped), rfl⟩
  | succ left ih =>
      rw [looks, repeatedly, repeatedly]
      cases call.answer moment with
      | given answer => exact .inr ⟨isUnseen_nil, (by intro stopped; cases stopped), rfl⟩
      | fatal message => exact .inr ⟨isUnseen_nil, (by intro stopped; cases stopped), rfl⟩
      | failed error =>
          dsimp only [pause]
          cases call.mayRepeat error with
          | false => exact .inr ⟨isUnseen_nil, (by intro stopped; cases stopped), rfl⟩
          | true =>
              dsimp only
              cases (call.clock (call.after moment)).overruns
                (call.retry backoff made error).delay with
              | true => exact .inr ⟨isUnseen_nil, (by intro stopped; cases stopped), rfl⟩
              | false =>
                  cases told : cancelled (call.after moment) with
                  | true => exact .inl ⟨isSeenLast_singleton told, rfl⟩
                  | false =>
                      have first : IsUnseen cancelled [call.after moment] := isUnseen_nil.cons told
                      rcases ih (made + 1) (call.after moment).looked with
                        ⟨seen, stopped⟩ | ⟨unseen, goes, same⟩
                      · exact .inl ⟨first.append_seenLast seen, stopped⟩
                      · refine .inr ⟨first.append unseen, goes, ?_⟩
                        simp only [Bool.false_eq_true, if_false, same]

/-- A call goes on after a look that saw nothing. -/
theorem looks_of_goesOn {left made : Nat} {moment : Moment}
    (on : call.goesOn backoff cancelled made moment = true) :
    cancelled (call.after moment) = false ∧ call.looks backoff cancelled (left + 1) made moment =
      call.after moment ::
        call.looks backoff cancelled left (made + 1) (call.after moment).looked := by
  obtain ⟨error, answer, repeatable, passed⟩ := call.exists_of_goesOn backoff cancelled on
  refine ⟨Bool.eq_false_iff.mpr fun told => ?_, ?_⟩
  · rw [pause, told] at passed
    split at passed <;> cases passed
  · rw [looks]
    simp only [answer, repeatable, passed, if_true]

variable (grows : ∀ m, m ≤ call.after m)

include grows

theorem le_moment_repeatedly (left made : Nat) (moment : Moment) :
    moment ≤ (call.repeatedly backoff cancelled left made moment).moment := by
  induction left generalizing made moment with
  | zero =>
      rw [repeatedly]
      cases call.answer moment <;> exact grows moment
  | succ left ih =>
      by_cases on : call.goesOn backoff cancelled made moment = true
      · obtain ⟨retry, -, step⟩ := call.repeatedly_of_goesOn backoff cancelled left made on
        rw [step]
        exact le_trans (grows moment) (le_trans (Moment.le_looked _) (ih _ _))
      · obtain ⟨-, -, -, now⟩ := call.repeatedly_of_not_goesOn backoff cancelled
          (.inr (Bool.eq_false_iff.mpr on) : left + 1 = 0 ∨ _)
        rcases now with now | now <;> rw [now]
        · exact grows moment
        · exact le_trans (grows moment) (Moment.le_looked _)

/-- The calls come before the moment of their record. Each comes right after a look that saw
nothing, the first one apart, and only at the last one the sign can be there. -/
theorem moments_log (stays : Lasts cancelled) (left made : Nat) (moment : Moment) :
    let log := call.log backoff cancelled left made moment
    (∀ entry ∈ log, entry.1 ≤ (call.repeatedly backoff cancelled left made moment).moment) ∧
      log.Pairwise (fun entry _ => cancelled entry.1 = false) ∧
      ∀ entry ∈ log, entry.1 = moment ∨
        ∃ look ∈ call.looks backoff cancelled left made moment, cancelled look = false ∧
          entry.1 = look.looked := by
  have here := call.le_moment_repeatedly backoff cancelled grows
  induction left generalizing made moment with
  | zero =>
      refine ⟨List.forall_mem_singleton.mpr (here 0 made moment), List.pairwise_singleton _ _,
        List.forall_mem_singleton.mpr (.inl rfl)⟩
  | succ left ih =>
      dsimp only
      rw [log]
      split
      · rename_i on
        obtain ⟨retry, -, step⟩ := call.repeatedly_of_goesOn backoff cancelled left made on
        obtain ⟨told, looks⟩ := call.looks_of_goesOn backoff cancelled on
        obtain ⟨before, ordered, right⟩ := ih (made + 1) (call.after moment).looked
        refine ⟨List.forall_mem_cons.mpr ⟨here _ made moment, ?_⟩, .cons ?_ ordered,
          List.forall_mem_cons.mpr ⟨.inl rfl, ?_⟩⟩
        · rw [step]
          exact before
        · exact fun _ _ => unseen_of_le stays (grows moment) told
        · intro entry member
          rw [looks]
          rcases right entry member with first | ⟨look, among, unseen, after⟩
          · exact .inr ⟨call.after moment, .head _, told, first⟩
          · exact .inr ⟨look, .tail _ among, unseen, after⟩
      · refine ⟨List.forall_mem_singleton.mpr (here _ made moment), List.pairwise_singleton _ _,
          List.forall_mem_singleton.mpr (.inl rfl)⟩

end Call

/-! ## Steps -/

/-- The moment of a call. -/
def Inquiry.moment : Inquiry → Moment
  | .asked _ moment .. | .checked _ moment .. => moment

/-- The same surroundings without the sign to stop. -/
def Surroundings.undisturbed (w : Surroundings) : Surroundings :=
  { w with cancelled := fun _ => false }

/-- A session that has been cancelled. -/
def State.IsCancelled (s : State) : Prop :=
  ∃ role diagnostics, s.phase = .concluded (.failed .cancelled role diagnostics)

namespace Run

variable (w : Surroundings) (settings : SessionSettings) (registry : Mapping.Registry)
  (cookbook : Cookbook)

/-- The looks in the waits of the next step. -/
def waits (s : State) : List Moment :=
  match s.phase with
  | .generating request =>
    (ask w request).looks settings.backoff w.cancelled settings.backoff.retries.toNat 0 s.moment
  | .validating _ candidate _ =>
    (check w candidate).looks settings.backoff w.cancelled settings.backoff.retries.toNat 0 s.moment
  | .start | .repairing .. | .concluded _ | .crashed _ => []

/-- The looks of the next step, the one before it first. -/
def looks (s : State) : List Moment :=
  if s.ended?.isSome then []
  else s.moment :: if w.cancelled s.moment then [] else waits w settings (looked s)

/-- The looks that a session takes in so many steps. -/
def looksBefore : Nat → List Moment
  | 0 => []
  | n + 1 => looksBefore n ++ looks w settings (stateAfter w settings registry cookbook n)

/-- The looks of a whole session. -/
def looksTaken : List Moment :=
  looksBefore w settings registry cookbook (steps settings cookbook)

variable {w settings registry cookbook}

/-! ### What a look decides -/

theorem not_isCancelled_of_generating {s : State} {request : Request}
    (now : s.phase = .generating request) : ¬ s.IsCancelled := by
  rintro ⟨role, diagnostics, phase⟩
  cases now.symm.trans phase

theorem not_isCancelled_judge (s : State) (request : Request) (report : Report) :
    ¬ (judge s request report).IsCancelled := by
  unfold judge
  rintro ⟨role, diagnostics, phase⟩
  split at phase <;> cases phase

/-- The looks in the waits between calls of the generator decide whether the session is cancelled
there. -/
theorem generate_by_looks (s : State) (request : Request) :
    let waits :=
      (ask w request).looks settings.backoff w.cancelled settings.backoff.retries.toNat 0 s.moment
    IsSeenLast w.cancelled waits ∧
        generate w settings cookbook s request = cancel (asked w settings s request) ∨
      IsUnseen w.cancelled waits ∧ ¬ (generate w settings cookbook s request).IsCancelled ∧
        generate w settings cookbook s request =
          generate w.undisturbed settings cookbook s request := by
  rcases (ask w request).repeatedly_by_looks settings.backoff w.cancelled
    settings.backoff.retries.toNat 0 s.moment with ⟨seen, stopped⟩ | ⟨unseen, goes, same⟩
  · refine .inl ⟨seen, ?_⟩
    rw [generate_eq, Call.persistently, stopped]
  · refine .inr ⟨unseen, ?_, ?_⟩
    · rw [generate_eq, Call.persistently]
      cases result : ((ask w request).repeatedly settings.backoff w.cancelled
          settings.backoff.retries.toNat 0 s.moment).result with
      | answered text =>
          dsimp only [receive_eq]
          split
          · exact not_isCancelled_judge _ _ _
          · rintro ⟨role, diagnostics, phase⟩
            cases phase
      | gaveUp error =>
          rintro ⟨role, diagnostics, phase⟩
          dsimp only [giveUp] at phase
          split at phase <;> cases phase
      | cancelled => exact absurd result goes
      | died _ | overran =>
          rintro ⟨role, diagnostics, phase⟩
          cases phase
    · have calls : (ask w request).persistently settings.backoff w.cancelled s.moment =
          (ask w.undisturbed request).persistently settings.backoff w.undisturbed.cancelled
            s.moment := same
      rw [generate, calls, generate]

/-- So do those between calls of the gateway. -/
theorem validate_by_looks (s : State) (request : Request) (candidate : Role)
    (defects : List Diagnostic) :
    let waits := (check w candidate).looks settings.backoff w.cancelled
      settings.backoff.retries.toNat 0 s.moment
    IsSeenLast w.cancelled waits ∧
        validate w settings s request candidate defects = cancel (checked w settings s candidate) ∨
      IsUnseen w.cancelled waits ∧ ¬ (validate w settings s request candidate defects).IsCancelled ∧
        validate w settings s request candidate defects =
          validate w.undisturbed settings s request candidate defects := by
  rcases (check w candidate).repeatedly_by_looks settings.backoff w.cancelled
    settings.backoff.retries.toNat 0 s.moment with ⟨seen, stopped⟩ | ⟨unseen, goes, same⟩
  · refine .inl ⟨seen, ?_⟩
    rw [validate_eq, Call.persistently, stopped]
  · refine .inr ⟨unseen, ?_, ?_⟩
    · rw [validate_eq, Call.persistently]
      cases result : ((check w candidate).repeatedly settings.backoff w.cancelled
          settings.backoff.retries.toNat 0 s.moment).result with
      | answered found =>
          dsimp only
          split
          · rintro ⟨role, diagnostics, phase⟩
            cases phase
          · exact not_isCancelled_judge _ _ _
      | gaveUp error =>
          rintro ⟨role, diagnostics, phase⟩
          cases phase
      | cancelled => exact absurd result goes
      | died _ | overran =>
          rintro ⟨role, diagnostics, phase⟩
          cases phase
    · have calls : (check w candidate).persistently settings.backoff w.cancelled s.moment =
          (check w.undisturbed candidate).persistently settings.backoff w.undisturbed.cancelled
            s.moment := same
      rw [validate, calls, validate]

/-- What a step does after a look that saw nothing. -/
theorem step_of_unseen {s : State} (unseen : w.cancelled s.moment = false) :
    step w settings registry cookbook s =
      match s.phase with
      | .concluded _ | .crashed _ => s
      | .start => begin settings registry cookbook (looked s)
      | .generating request => generate w settings cookbook (looked s) request
      | .validating request candidate defects =>
        validate w settings (looked s) request candidate defects
      | .repairing request report => repair (looked s) request report := by
  obtain ⟨session, moment, left, phase⟩ := s
  rw [step]
  cases phase with
  | concluded outcome | crashed message => rfl
  | start | generating _ | validating _ _ _ | repairing _ _ =>
      exact if_neg (Bool.eq_false_iff.mp unseen)

/-- A step either ends with a look that sees the sign, and the session is cancelled, or it is taken
as if there were no sign. -/
theorem step_by_looks (registry : Mapping.Registry) (cookbook : Cookbook) {s : State}
    (going : s.ended? = none) :
    IsSeenLast w.cancelled (looks w settings s) ∧
        (∃ t, step w settings registry cookbook s = cancel t) ∨
      IsUnseen w.cancelled (looks w settings s) ∧
        ¬ (step w settings registry cookbook s).IsCancelled ∧
          step w settings registry cookbook s =
            step w.undisturbed settings registry cookbook s := by
  have on : s.ended?.isSome = false := by rw [going]; rfl
  rw [looks, on]
  obtain ⟨session, moment, left, phase⟩ := s
  cases told : w.cancelled moment with
  | true =>
      refine .inl ⟨isSeenLast_singleton told, looked ⟨session, moment, left, phase⟩, ?_⟩
      cases phase with
      | concluded outcome | crashed message => cases going
      | start | generating _ | validating _ _ _ | repairing _ _ => exact if_pos told
  | false =>
      have first : IsUnseen w.cancelled [moment] := isUnseen_nil.cons told
      rw [step_of_unseen told, step_of_unseen (w := w.undisturbed) rfl]
      cases phase with
      | concluded outcome | crashed message => cases going
      | start => exact .inr ⟨first, not_isCancelled_of_generating rfl, rfl⟩
      | repairing request report => exact .inr ⟨first, not_isCancelled_of_generating rfl, rfl⟩
      | generating request =>
          rcases generate_by_looks (looked ⟨session, moment, left, .generating request⟩) request
            with ⟨seen, stopped⟩ | ⟨unseen, goes, same⟩
          · exact .inl ⟨first.append_seenLast seen, _, stopped⟩
          · exact .inr ⟨first.append unseen, goes, same⟩
      | validating request candidate defects =>
          rcases validate_by_looks
            (looked ⟨session, moment, left, .validating request candidate defects⟩) request
            candidate defects with ⟨seen, stopped⟩ | ⟨unseen, goes, same⟩
          · exact .inl ⟨first.append_seenLast seen, _, stopped⟩
          · exact .inr ⟨first.append unseen, goes, same⟩

/-! ### When calls are made -/

theorem moment_generate (s : State) (request : Request) :
    (generate w settings cookbook s request).moment =
      ((ask w request).persistently settings.backoff w.cancelled s.moment).moment := by
  rw [generate_eq]
  cases ((ask w request).persistently settings.backoff w.cancelled s.moment).result with
  | answered text =>
      dsimp only [receive_eq]
      split
      · rw [moment_judge]
        rfl
      · rfl
  | gaveUp error | cancelled | died message | overran => rfl

theorem moment_validate (s : State) (request : Request) (candidate : Role)
    (defects : List Diagnostic) :
    (validate w settings s request candidate defects).moment =
      ((check w candidate).persistently settings.backoff w.cancelled s.moment).moment := by
  rw [validate_eq]
  cases ((check w candidate).persistently settings.backoff w.cancelled s.moment).result with
  | answered found =>
      dsimp only
      split
      · rfl
      · rw [moment_judge]
        rfl
  | gaveUp error | cancelled | died message | overran => rfl

/-- Calls that are made between two states come at moments between these, each right after a look
that saw nothing, and only at the last of them the sign can be there. -/
structure Prompt (cancelled : Moment → Bool) (looks : List Moment) (calls : List Inquiry)
    (moment : Moment) : Prop where
  before : ∀ call ∈ calls, call.moment ≤ moment
  ordered : calls.Pairwise fun call _ => cancelled call.moment = false
  afterLook : ∀ call ∈ calls, ∃ look ∈ looks, cancelled look = false ∧ call.moment = look.looked

theorem prompt_nil (cancelled : Moment → Bool) (looks : List Moment) (moment : Moment) :
    Prompt cancelled looks [] moment :=
  ⟨List.forall_mem_nil _, .nil, List.forall_mem_nil _⟩

/-- The calls of a step that begins with a look that saw nothing. -/
theorem prompt_calls {α ε : Type} (call : Call α ε) (backoff : Backoff) {cancelled : Moment → Bool}
    (stays : Lasts cancelled) (grows : ∀ m, m ≤ call.after m) {look : Moment}
    (unseen : cancelled look = false) (inquiry : Moment × Answer α ε → Inquiry)
    (same : ∀ entry, (inquiry entry).moment = entry.1) :
    Prompt cancelled
      (look :: call.looks backoff cancelled backoff.retries.toNat 0 look.looked)
      ((call.log backoff cancelled backoff.retries.toNat 0 look.looked).map inquiry)
      (call.persistently backoff cancelled look.looked).moment := by
  obtain ⟨before, ordered, right⟩ :=
    call.moments_log backoff cancelled grows stays backoff.retries.toNat 0 look.looked
  refine ⟨List.forall_mem_map.mpr ?_, List.pairwise_map.mpr ?_, List.forall_mem_map.mpr ?_⟩
  · intro entry member
    rw [same]
    exact before entry member
  · refine ordered.imp fun {entry _} unseen => ?_
    rwa [same]
  · intro entry member
    rw [same]
    rcases right entry member with first | ⟨later, among, unseen, after⟩
    · exact ⟨look, .head _, unseen, first⟩
    · exact ⟨later, .tail _ among, unseen, after⟩

/-- So are those of any step, and it does not go back in time. -/
theorem prompt_step (stays : Lasts w.cancelled) {s : State} (going : s.ended? = none) :
    s.moment ≤ (step w settings registry cookbook s).moment ∧
      Prompt w.cancelled (looks w settings s) (inquiries w settings s)
        (step w settings registry cookbook s).moment := by
  have on : s.ended?.isSome = false := by rw [going]; rfl
  rw [looks, on, inquiries]
  cases told : w.cancelled s.moment with
  | true =>
      refine ⟨?_, prompt_nil _ _ _⟩
      obtain ⟨session, moment, left, phase⟩ := s
      rw [step]
      cases phase with
      | concluded outcome | crashed message => cases going
      | start | generating _ | validating _ _ _ | repairing _ _ =>
          dsimp only at told ⊢
          rw [if_pos told]
          exact moment.le_looked
  | false =>
      rw [step_of_unseen told]
      obtain ⟨session, moment, left, phase⟩ := s
      cases phase with
      | concluded outcome | crashed message => cases going
      | start | repairing _ _ => exact ⟨moment.le_looked, prompt_nil _ _ _⟩
      | generating request =>
          have grows := Moment.le_generated
          dsimp only
          rw [moment_generate]
          exact ⟨le_trans moment.le_looked
              ((ask w request).le_moment_repeatedly settings.backoff w.cancelled grows _ _ _),
            prompt_calls (ask w request) settings.backoff stays grows told _ fun _ => rfl⟩
      | validating request candidate defects =>
          have grows := Moment.le_validated
          dsimp only
          rw [moment_validate]
          exact ⟨le_trans moment.le_looked
              ((check w candidate).le_moment_repeatedly settings.backoff w.cancelled grows _ _ _),
            prompt_calls (check w candidate) settings.backoff stays grows told _ fun _ => rfl⟩

/-! ## Whole sessions -/

theorem looks_of_ended {s : State} (closed : s.ended?.isSome) : looks w settings s = [] := by
  rw [looks, if_pos closed]

/-- Further calls may follow if the sign was not there before them. -/
theorem Prompt.append {cancelled : Moment → Bool} (stays : Lasts cancelled)
    {looks more : List Moment} {calls made : List Inquiry} {now later : Moment}
    (prompt : Prompt cancelled looks calls now) (next : Prompt cancelled more made later)
    (le : now ≤ later) (idle : cancelled now = true → made = []) :
    Prompt cancelled (looks ++ more) (calls ++ made) later where
  before := List.forall_mem_append.mpr
    ⟨fun call member => le_trans (prompt.before call member) le, next.before⟩
  ordered := by
    refine List.pairwise_append.mpr ⟨prompt.ordered, next.ordered, fun call earlier _ after => ?_⟩
    refine unseen_of_le stays (prompt.before call earlier) (Bool.eq_false_iff.mpr fun told => ?_)
    rw [idle told] at after
    cases after
  afterLook := by
    refine List.forall_mem_append.mpr ⟨fun call member => ?_, fun call member => ?_⟩
    · obtain ⟨look, among, right⟩ := prompt.afterLook call member
      exact ⟨look, List.mem_append_left _ among, right⟩
    · obtain ⟨look, among, right⟩ := next.afterLook call member
      exact ⟨look, List.mem_append_right _ among, right⟩

theorem prompt_stateAfter (stays : Lasts w.cancelled) (n : Nat) :
    Prompt w.cancelled (looksBefore w settings registry cookbook n)
      (callsBefore w settings registry cookbook n)
      (stateAfter w settings registry cookbook n).moment := by
  induction n with
  | zero => exact prompt_nil _ _ _
  | succ n ih =>
      rw [stateAfter_succ, looksBefore, callsBefore]
      cases closed : (stateAfter w settings registry cookbook n).ended? with
      | some concluded =>
          have isSome := Option.isSome_of_mem closed
          rw [looks_of_ended isSome, inquiries_of_ended w settings isSome, List.append_nil,
            List.append_nil, step_of_ended w settings registry cookbook isSome]
          exact ih
      | none =>
          obtain ⟨le, next⟩ := prompt_step stays closed
          exact ih.append stays next le fun told => if_pos told

/-- After so many steps a session has been cancelled by its last look, or no look has seen the
sign, and it stands where it would stand without one. -/
theorem stateAfter_by_looks (n : Nat) :
    IsSeenLast w.cancelled (looksBefore w settings registry cookbook n) ∧
        (∃ t, stateAfter w settings registry cookbook n = cancel t) ∨
      IsUnseen w.cancelled (looksBefore w settings registry cookbook n) ∧
        ¬ (stateAfter w settings registry cookbook n).IsCancelled ∧
          stateAfter w settings registry cookbook n =
            stateAfter w.undisturbed settings registry cookbook n := by
  induction n with
  | zero =>
      refine .inr ⟨isUnseen_nil, ?_, rfl⟩
      rintro ⟨role, diagnostics, phase⟩
      cases phase
  | succ n ih =>
      rw [stateAfter_succ, stateAfter_succ, looksBefore]
      cases closed : (stateAfter w settings registry cookbook n).ended? with
      | some concluded =>
          have isSome := Option.isSome_of_mem closed
          rw [looks_of_ended isSome, List.append_nil,
            step_of_ended w settings registry cookbook isSome]
          refine ih.imp_right fun ⟨unseen, goes, same⟩ => ⟨unseen, goes, ?_⟩
          rw [same] at isSome ⊢
          exact (step_of_ended w.undisturbed settings registry cookbook isSome).symm
      | none =>
          rcases ih with ⟨-, t, stopped⟩ | ⟨unseen, -, same⟩
          -- A session that goes on has not been cancelled.
          · rw [stopped] at closed
            cases closed
          · rw [← same]
            rcases step_by_looks registry cookbook closed with
              ⟨seen, stopped⟩ | ⟨later, goes, taken⟩
            · exact .inl ⟨unseen.append_seenLast seen, stopped⟩
            · exact .inr ⟨unseen.append later, goes, taken⟩

end Run

/-- The best effort of a session is its latest candidate. -/
theorem Session.bestEffort_eq (s : Session) :
    s.bestEffort.1 = (s.attempts.find? (·.candidate.isSome)).bind (·.candidate) := by
  unfold bestEffort
  cases s.attempts.find? (·.candidate.isSome) <;> rfl

/-- A session that was cancelled, with its latest candidate. -/
def Concluded.IsStopped (c : Concluded) : Prop :=
  ∃ diagnostics, c.outcome = .failed .cancelled (c.kept?.bind (·.candidate)) diagnostics

theorem State.isStopped_of_cancel {t : State} {c : Concluded}
    (closed : (Run.cancel t).ended? = some c) : c.IsStopped := by
  obtain rfl := Option.some.inj closed
  refine ⟨t.session.bestEffort.2, ?_⟩
  rw [Session.kept?_conclude, ← Session.bestEffort_eq]
  rfl

/-- Only a session that has been cancelled ends as cancelled. -/
theorem State.isCancelled_of_ended {s : State} {c : Concluded} (closed : s.ended? = some c)
    {role : Option Role} {diagnostics : List Diagnostic}
    (outcome : c.outcome = .failed .cancelled role diagnostics) : s.IsCancelled := by
  obtain ⟨session, moment, left, phase⟩ := s
  cases phase with
  | start | generating _ | validating _ _ _ | repairing _ _ => cases closed
  | concluded other =>
      obtain rfl := Option.some.inj closed
      exact ⟨role, diagnostics, congrArg _ outcome⟩
  | crashed message =>
      obtain rfl := Option.some.inj closed
      cases outcome

/-- Of things that fail a test unless they are the last, at most one passes it. -/
theorem countP_le_one {α : Type} {test : α → Bool} {items : List α}
    (ordered : items.Pairwise fun item _ => test item = false) : items.countP test ≤ 1 := by
  induction ordered with
  | nil => exact Nat.zero_le 1
  | @cons item items first _ ih =>
      cases items with
      | nil => exact List.countP_le_length
      | cons next items => rwa [List.countP_cons_of_neg (by simp [first next (.head _)])]

namespace Run

variable {w : Surroundings} {settings : SessionSettings} {registry : Mapping.Registry}
  {cookbook : Cookbook}

/-- A session is cancelled at the look that sees the sign, and otherwise ends as if there were none;
at most one call is made once the sign is there. -/
theorem prompt_convert (stays : Lasts w.cancelled) :
    (transcript w settings registry cookbook).countP (fun call => w.cancelled call.moment) ≤ 1 ∧
      (∀ call ∈ transcript w settings registry cookbook,
        ∃ look ∈ looksTaken w settings registry cookbook,
          w.cancelled look = false ∧ call.moment = look.looked) ∧
      (IsSeenLast w.cancelled (looksTaken w settings registry cookbook) ∧
          (convert w settings registry cookbook).IsStopped ∨
        IsUnseen w.cancelled (looksTaken w settings registry cookbook) ∧
          (∀ role diagnostics, (convert w settings registry cookbook).outcome ≠
            .failed .cancelled role diagnostics) ∧
          convert w settings registry cookbook =
            convert w.undisturbed settings registry cookbook) := by
  have prompt : Prompt w.cancelled (looksTaken w settings registry cookbook)
      (transcript w settings registry cookbook) _ := prompt_stateAfter stays _
  refine ⟨countP_le_one prompt.ordered, prompt.afterLook, ?_⟩
  have ended := ended_stateAfter w settings registry cookbook
  rcases stateAfter_by_looks (steps settings cookbook) with
    ⟨seen, t, stopped⟩ | ⟨unseen, goes, same⟩
  · rw [stopped] at ended
    exact .inl ⟨seen, State.isStopped_of_cancel ended⟩
  · have other := ended_stateAfter w.undisturbed settings registry cookbook
    rw [← same, ended] at other
    exact .inr ⟨unseen, fun role diagnostics outcome =>
      goes (State.isCancelled_of_ended ended outcome), Option.some.inj other⟩

/-- A session that is told to stop while its first candidate is checked keeps that candidate, though
the gateway rejects it and attempts are left. -/
theorem prompt_convert_checked :
    let text := "\x60\x60\x60yaml path=tasks/main.yml\n- debug:\n\x60\x60\x60"
    let error := Diagnostic.error "parser-error" "a task has no module" "tasks/main.yml"
    let w := { Surroundings.scripted [.given text] [.given ⟨false, [error]⟩] with
      cancelled := fun moment => decide (1 ≤ moment.validations) }
    Lasts w.cancelled ∧
      (convert w ⟨3, .standard, 0⟩ (.ofRules []) (.bare "web")).IsStopped ∧
      (convert w ⟨3, .standard, 0⟩ (.ofRules []) (.bare "web")).outcome.role?.isSome := by
  intro text error w
  have stays : Lasts w.cancelled := fun m n le told =>
    decide_eq_true (Nat.le_trans (of_decide_eq_true told) le.2.1)
  have outcome : (convert w ⟨3, .standard, 0⟩ (.ofRules []) (.bare "web")).outcome =
      .failed .cancelled (some ((Response.parse text.toList).role.complete (.bare "web")))
        [error] := by
    decide +kernel
  obtain ⟨-, -, ⟨-, stopped⟩ | ⟨-, goes, -⟩⟩ :=
    @prompt_convert w ⟨3, .standard, 0⟩ (.ofRules []) (.bare "web") stays
  · exact ⟨stays, stopped, by rw [outcome]; rfl⟩
  · exact absurd outcome (goes _ _)

end Run

end Rolewright
