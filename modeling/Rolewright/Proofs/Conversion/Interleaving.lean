/-
# Sessions in any order

The sessions of a pool share a limit and nothing else. Which of them starts or goes on next is left
open: a schedule is any list of moves, and a course is one whose moves can all be made. Whatever the
order, each session goes the way that it takes by itself, at most as many run as the limit allows,
every course comes to an end, and what stands there in the end is the session of each cookbook in
the order of the cookbooks. A worker that dies leaves a crashed session under the name of its
cookbook and touches no other.

All of it rests on what one move can do (`exists_of_canMove`). It fails for one reason only, a limit
that cannot be kept count of (`runsEach_iff`).
-/

import Mathlib.Algebra.BigOperators.Group.List.Lemmas
import Mathlib.Algebra.GroupWithZero.Nat
import Rolewright.Conversion.Pool
import Rolewright.Proofs.Conversion.Course

namespace Rolewright

/-! ## Whose session it is, and what a fatal call makes of it -/

namespace Session

variable (s : Session)

@[simp]
theorem cookbook_record (event : Event) : (s.record event).cookbook = s.cookbook := rfl

@[simp]
theorem cookbook_begin (request : Request) : (s.begin request).cookbook = s.cookbook := rfl

@[simp]
theorem cookbook_onLatest (change : Attempt → Attempt) :
    (s.onLatest change).cookbook = s.cookbook := by
  unfold onLatest
  split <;> rfl

@[simp]
theorem cookbook_foldl_record {β : Type} (event : β → Event) (items : List β) :
    (items.foldl (fun s item => s.record (event item)) s).cookbook = s.cookbook := by
  induction items generalizing s with
  | nil => rfl
  | cons item items ih => exact ih _

end Session

namespace Call

variable {α ε : Type} (call : Call α ε) (backoff : Backoff) (cancelled : Moment → Bool)

/-- A call that was fatal was the last one. -/
theorem exists_died_of_mem_log {left made : Nat} {moment : Moment}
    {entry : Moment × Answer α ε} (member : entry ∈ call.log backoff cancelled left made moment)
    (fatal : entry.2.isFatal = true) :
    ∃ message, (call.repeatedly backoff cancelled left made moment).result = .died message := by
  have first (left made : Nat) {moment : Moment} (fatal : (call.answer moment).isFatal = true) :
      ∃ message, (call.repeatedly backoff cancelled left made moment).result = .died message := by
    unfold repeatedly
    cases answer : call.answer moment with
    | fatal message => exact ⟨message, rfl⟩
    | given _ | failed _ => simp [answer, Answer.isFatal] at fatal
  induction left generalizing made moment with
  | zero =>
      rw [log, List.mem_singleton] at member
      exact first 0 made (by rwa [member] at fatal)
  | succ left ih =>
      rw [log] at member
      rcases List.mem_cons.mp member with rfl | later
      · exact first _ made fatal
      · split at later
        · rename_i on
          obtain ⟨retry, -, step⟩ := call.repeatedly_of_goesOn backoff cancelled left made on
          rw [step]
          exact ih later
        · cases later

end Call

namespace Run

variable {w : Surroundings} {settings : SessionSettings} {registry : Mapping.Registry}
  {cookbook : Cookbook} {s next : State} {made : List Inquiry}

theorem exists_died_of_mem_askLog {request : Request} {i : Inquiry}
    (member : i ∈ askLog w settings s request) (fatal : i.isFatal = true) :
    ∃ message, (askRecord w settings s request).result = .died message := by
  obtain ⟨entry, logged, rfl⟩ := List.mem_map.mp member
  exact (ask w request).exists_died_of_mem_log settings.backoff w.cancelled logged fatal

theorem exists_died_of_mem_checkLog {candidate : Role} {i : Inquiry}
    (member : i ∈ checkLog w settings s candidate) (fatal : i.isFatal = true) :
    ∃ message, (checkRecord w settings s candidate).result = .died message := by
  obtain ⟨entry, logged, rfl⟩ := List.mem_map.mp member
  exact (check w candidate).exists_died_of_mem_log settings.backoff w.cancelled logged fatal

theorem cookbook_transition (t : Transition w settings registry cookbook s made next) :
    next.session.cookbook = s.session.cookbook := by
  cases t <;>
    simp [cancel, giveUp, begin, repair, asked, checked, received, faulted, produced, reported,
      entered, looked]

/-- A step with a fatal call leaves a crashed session. -/
theorem exists_crashed_of_transition (t : Transition w settings registry cookbook s made next)
    {i : Inquiry} (member : i ∈ made) (fatal : i.isFatal = true) :
    ∃ message, next.phase = .crashed message := by
  cases t with
  | stopped _ _ | begun _ | repaired _ => cases member
  | askingDied _ _ _ | askingOverran _ _ _ | checkingDied _ _ _ | checkingOverran _ _ _ =>
      exact ⟨_, rfl⟩
  | vacant _ _ _ result | filled _ _ _ result | unanswered _ _ result | askingStopped _ result =>
      obtain ⟨message, died⟩ := exists_died_of_mem_askLog member fatal
      cases result.symm.trans died
  | accepted _ _ _ result | rejected _ _ _ result | unchecked _ _ result
  | checkingStopped _ result =>
      obtain ⟨message, died⟩ := exists_died_of_mem_checkLog member fatal
      cases result.symm.trans died

variable (w settings registry cookbook)

/-- At every moment a session bears the name of its cookbook, and once a call was fatal it has
crashed. -/
theorem named_stateAfter (n : Nat) :
    (stateAfter w settings registry cookbook n).session.cookbook = cookbook.name ∧
      ∀ i ∈ callsBefore w settings registry cookbook n, i.isFatal = true →
        ∃ message, (stateAfter w settings registry cookbook n).phase = .crashed message := by
  refine invariant w settings registry cookbook
    (fun s calls => s.session.cookbook = cookbook.name ∧
      ∀ i ∈ calls, i.isFatal = true → ∃ message, s.phase = .crashed message)
    ⟨rfl, List.forall_mem_nil _⟩ (fun s calls made next holds t => ?_) n
  refine ⟨(cookbook_transition t).trans holds.1, fun i member fatal => ?_⟩
  rcases List.mem_append.mp member with earlier | now
  · exact absurd (holds.2 i earlier fatal) (not_crashed_of_transition t)
  · exact exists_crashed_of_transition t now fatal

theorem cookbook_convert : (convert w settings registry cookbook).cookbook = cookbook.name := by
  have named := (named_stateAfter w settings registry cookbook (steps settings cookbook)).1
  rcases convert_eq w settings registry cookbook with
    ⟨outcome, -, concluded⟩ | ⟨message, -, crashed⟩
  · rw [concluded, ← named]
    rfl
  · rw [crashed, ← named]
    rfl

/-- A session whose worker dies in a call is left as crashed. -/
theorem exists_convert_eq_crashed
    (fatal : ∃ i ∈ transcript w settings registry cookbook, i.isFatal = true) :
    ∃ message, convert w settings registry cookbook = .crashed cookbook.name message := by
  obtain ⟨named, dead⟩ := named_stateAfter w settings registry cookbook (steps settings cookbook)
  obtain ⟨i, member, fatal⟩ := fatal
  obtain ⟨message, crashed⟩ := dead i member fatal
  rcases convert_eq w settings registry cookbook with ⟨outcome, now, -⟩ | ⟨message, -, result⟩
  · cases crashed.symm.trans now
  · exact ⟨message, named ▸ result⟩

/-- Each state on the way leads to where the first one leads. -/
theorem finish_stateAfter (n : Nat) :
    finish w settings registry cookbook (stateAfter w settings registry cookbook n) =
      convert w settings registry cookbook := by
  induction n with
  | zero => rfl
  | succ n ih =>
      rw [stateAfter_succ]
      cases closed : (stateAfter w settings registry cookbook n).ended? with
      | none => rw [finish_step w settings registry cookbook closed, ih]
      | some concluded =>
          rw [step_of_ended w settings registry cookbook (Option.isSome_of_mem closed), ih]

end Run

namespace Pool

variable (s : Setting)

/-! ## A session by itself -/

/-- The session of a cookbook, run by itself. -/
def Setting.alone (cookbook : Cookbook) : Concluded :=
  convert (s.surroundings cookbook) s.settings s.registry cookbook

/-- The session of a cookbook after so many steps of its own. -/
def Setting.after (cookbook : Cookbook) (n : Nat) : State :=
  Run.stateAfter (s.surroundings cookbook) s.settings s.registry cookbook n

theorem Setting.step_after (cookbook : Cookbook) (n : Nat) :
    Run.step (s.surroundings cookbook) s.settings s.registry cookbook (s.after cookbook n) =
      s.after cookbook (n + 1) :=
  (Run.stateAfter_succ _ _ _ _ n).symm

/-- Where a session can be if it goes its own way, whenever its steps were taken. -/
inductive OnCourse (cookbook : Cookbook) : Stage → Prop
  | waiting : OnCourse cookbook .waiting
  | running (n : Nat) (going : (s.after cookbook n).ended? = none) :
      OnCourse cookbook (.running (s.after cookbook n))
  | done : OnCourse cookbook (.done (s.alone cookbook))

/-- Bounds the moves that a session still takes. -/
def effort (cookbook : Cookbook) : Stage → Nat
  | .waiting => (Run.initial s.settings cookbook).remaining + 1
  | .running state => state.remaining
  | .done _ => 0

/-- What a move makes of the one session it is about. -/
inductive Progress (pool : Pool) (cookbook : Cookbook) : Stage → Stage → Prop
  | started (room : running pool < s.limit) :
      Progress pool cookbook .waiting (.running (Run.initial s.settings cookbook))
  | advanced (state : State) :
      Progress pool cookbook (.running state) (advanced s cookbook state)

variable {s} {pool : Pool} {cookbook : Cookbook} {stage next : Stage}

variable (s cookbook) in
/-- The next step either ends a session, as it ends by itself, or leads to its next state. -/
theorem advanced_after (n : Nat) :
    advanced s cookbook (s.after cookbook n) = .done (s.alone cookbook) ∨
      advanced s cookbook (s.after cookbook n) = .running (s.after cookbook (n + 1)) ∧
        (s.after cookbook (n + 1)).ended? = none := by
  simp only [advanced, s.step_after]
  cases closed : (s.after cookbook (n + 1)).ended? with
  | none => exact .inr ⟨rfl, rfl⟩
  | some session =>
      have finished := Run.finish_stateAfter (s.surroundings cookbook) s.settings s.registry
        cookbook (n + 1)
      exact .inl (congrArg Stage.done
        ((Run.finish_of_ended _ _ _ _ closed).symm.trans finished))

theorem OnCourse.progress (onCourse : OnCourse s cookbook stage)
    (progress : Progress s pool cookbook stage next) : OnCourse s cookbook next := by
  cases progress with
  | started _ => exact .running 0 rfl
  | advanced _ =>
      cases onCourse with
      | running n going =>
          rcases advanced_after s cookbook n with ended | ⟨goes, still⟩
          · exact ended ▸ .done
          · exact goes ▸ .running (n + 1) still

/-- Whatever a move is about has less left to do after it. -/
theorem OnCourse.effort_lt (onCourse : OnCourse s cookbook stage)
    (progress : Progress s pool cookbook stage next) :
    effort s cookbook next < effort s cookbook stage := by
  cases progress with
  | started _ => exact Nat.lt_succ_self _
  | advanced _ =>
      cases onCourse with
      | running n going =>
          have less := Run.remaining_step (s.surroundings cookbook) s.settings s.registry cookbook
            (s.after cookbook n) going
          rw [s.step_after] at less
          rcases advanced_after s cookbook n with ended | ⟨goes, -⟩
          · rw [ended]
            exact Nat.zero_lt_of_lt less
          · rw [goes]
            exact less

/-! ## What one move does -/

variable (s) in
theorem play_cons (m : Move) (schedule : List Move) (pool : Pool) :
    play s (m :: schedule) pool = play s schedule (move s pool m) := rfl

variable (s) in
theorem play_append (schedule later : List Move) (pool : Pool) :
    play s (schedule ++ later) pool = play s later (play s schedule pool) :=
  List.foldl_append

variable (s) in
/-- The moves that can be made: a session that waits starts where there is room for it, and one that
runs takes its next step. -/
inductive CanMove (pool : Pool) : Move → Prop
  | start {position : Nat} (cookbook : Cookbook)
      (there : pool[position]? = some (cookbook, .waiting)) (room : running pool < s.limit) :
      CanMove pool (.start position)
  | advance {position : Nat} (cookbook : Cookbook) (state : State)
      (there : pool[position]? = some (cookbook, .running state)) :
      CanMove pool (.advance position)

variable {m : Move}

/-- A move that can be made changes one session and leaves the others as they are. -/
theorem exists_of_canMove (can : CanMove s pool m) :
    ∃ before cookbook stage after next,
      pool = before ++ (cookbook, stage) :: after ∧
      move s pool m = before ++ (cookbook, next) :: after ∧
      Progress s pool cookbook stage next := by
  have split {position : Nat} {entry : Cookbook × Stage} (there : pool[position]? = some entry)
      (new : Cookbook × Stage) : ∃ before after,
        pool = before ++ entry :: after ∧ pool.set position new = before ++ new :: after := by
    obtain ⟨within, rfl⟩ := List.getElem?_eq_some_iff.mp there
    obtain ⟨before, after, whole, -, changed⟩ : ∃ before after,
        pool = before ++ pool[position] :: after ∧ before.length = position ∧
          pool.set position new = before ++ new :: after := List.exists_of_set within
    exact ⟨before, after, whole, changed⟩
  cases can with
  | start cookbook there room =>
      obtain ⟨before, after, whole, changed⟩ :=
        split there (cookbook, .running (Run.initial s.settings cookbook))
      refine ⟨before, cookbook, _, after, _, whole, ?_, .started room⟩
      simp only [move, there, if_pos room, changed]
  | advance cookbook state there =>
      obtain ⟨before, after, whole, changed⟩ := split there (cookbook, advanced s cookbook state)
      refine ⟨before, cookbook, _, after, _, whole, ?_, .advanced state⟩
      simp only [move, there, changed]

theorem move_of_not_canMove (cannot : ¬ CanMove s pool m) : move s pool m = pool := by
  cases m with
  | start position =>
      simp only [move]
      split
      · rename_i cookbook there
        exact if_neg fun room => cannot (.start cookbook there room)
      · rfl
  | advance position =>
      simp only [move]
      split
      · rename_i cookbook state there
        exact absurd (.advance cookbook state there) cannot
      · rfl

/-! ## What every schedule keeps to -/

theorem running_append_cons (before after : Pool) (entry : Cookbook × Stage) :
    running (before ++ entry :: after) =
      running (before ++ after) + if entry.2.isRunning then 1 else 0 := by
  simp only [running, List.filter_append, List.filter_cons, List.length_append]
  split
  · rw [List.length_cons, Nat.add_assoc]
  · rw [Nat.add_zero]

variable (s) in
/-- What all sessions of a pool still have to do. -/
def work (pool : Pool) : Nat := (pool.map fun entry => effort s entry.1 entry.2).sum

variable (s) in
/-- A pool of these cookbooks in which every session goes its own way and no more run than may. -/
structure Sound (cookbooks : List Cookbook) (pool : Pool) : Prop where
  whose : pool.map Prod.fst = cookbooks
  course : ∀ entry ∈ pool, OnCourse s entry.1 entry.2
  bounded : running pool ≤ s.limit

variable {cookbooks : List Cookbook}

theorem running_initial (cookbooks : List Cookbook) : running (initial cookbooks) = 0 := by
  simp [running, initial, Stage.isRunning]

variable (s) in
theorem sound_initial (cookbooks : List Cookbook) : Sound s cookbooks (initial cookbooks) where
  whose := by
    rw [initial, List.map_map]
    exact List.map_id cookbooks
  course := by
    intro entry member
    obtain ⟨cookbook, -, rfl⟩ := List.mem_map.mp member
    exact .waiting
  bounded := by simp [running_initial]

theorem Sound.move (sound : Sound s cookbooks pool) (can : CanMove s pool m) :
    Sound s cookbooks (move s pool m) ∧ work s (Pool.move s pool m) < work s pool := by
  obtain ⟨before, cookbook, stage, after, next, whole, moved, progress⟩ := exists_of_canMove can
  have own : OnCourse s cookbook stage := sound.course (cookbook, stage) (by simp [whole])
  rw [moved]
  refine ⟨⟨?_, ?_, ?_⟩, ?_⟩
  · simp [← sound.whose, whole]
  · intro entry member
    rcases List.mem_append.mp member with earlier | rest
    · exact sound.course entry (by simp [whole, earlier])
    · rcases List.mem_cons.mp rest with rfl | later
      · exact own.progress progress
      · exact sound.course entry (by simp [whole, later])
  · have bounded := sound.bounded
    rw [running_append_cons]
    cases progress with
    | started room =>
        rw [whole, running_append_cons] at room
        exact Nat.succ_le_of_lt (by simpa [Stage.isRunning] using room)
    | advanced state =>
        rw [whole, running_append_cons] at bounded
        refine Nat.le_trans (Nat.add_le_add_left ?_ _) bounded
        split <;> simp [Stage.isRunning]
  · have less := own.effort_lt progress
    simp only [work, whole, List.map_append, List.map_cons, List.sum_append, List.sum_cons]
    omega

theorem Sound.play (sound : Sound s cookbooks pool) (schedule : List Move) :
    Sound s cookbooks (play s schedule pool) := by
  induction schedule generalizing pool with
  | nil => exact sound
  | cons m schedule ih =>
      by_cases can : CanMove s pool m
      · exact ih (sound.move can).1
      · exact ih ((move_of_not_canMove can).symm ▸ sound)

theorem Sound.getElem? (sound : Sound s cookbooks pool) {position : Nat}
    (there : pool[position]? = some (cookbook, stage)) :
    cookbooks[position]? = some cookbook ∧ OnCourse s cookbook stage := by
  refine ⟨?_, sound.course _ (List.mem_of_getElem? there)⟩
  rw [← sound.whose, List.getElem?_map, there]
  rfl

/-! ## Every course comes to an end -/

variable (s) in
/-- What becomes of a pool by moves each of which can be made when its turn comes. -/
inductive Course : Pool → List Move → Pool → Prop
  | rest (pool : Pool) : Course pool [] pool
  | move {pool : Pool} {m : Move} {schedule : List Move} {last : Pool} (can : CanMove s pool m)
      (onward : Course (move s pool m) schedule last) : Course pool (m :: schedule) last

variable {schedule : List Move} {last : Pool}

theorem Course.sound (course : Course s pool schedule last) (sound : Sound s cookbooks pool) :
    Sound s cookbooks last ∧ schedule.length + work s last ≤ work s pool := by
  induction course with
  | rest pool => exact ⟨sound, by simp⟩
  | move can onward ih =>
      obtain ⟨kept, less⟩ := sound.move can
      obtain ⟨stays, bound⟩ := ih kept
      refine ⟨stays, ?_⟩
      rw [List.length_cons]
      omega

theorem Setting.limit_pos : 0 < s.limit := Nat.lt_of_lt_of_le Nat.one_pos (Nat.le_max_right _ _)

/-- Where no move can be made, every session is through. -/
theorem Sound.eq_of_rest (sound : Sound s cookbooks pool) (rest : ∀ m, ¬ CanMove s pool m) :
    pool = cookbooks.map fun cookbook => (cookbook, .done (s.alone cookbook)) := by
  have stands (entry : Cookbook × Stage) (member : entry ∈ pool) :
      entry.2.isRunning = false := by
    obtain ⟨position, there⟩ := List.getElem?_of_mem member
    obtain ⟨cookbook, stage⟩ := entry
    cases stage with
    | waiting | done _ => rfl
    | running state => exact absurd (.advance cookbook state there) (rest (.advance position))
  have room : running pool < s.limit := by
    have none : running pool = 0 := by
      rw [running, List.length_eq_zero_iff, List.filter_eq_nil_iff]
      intro entry member
      simp [stands entry member]
    rw [none]
    exact Setting.limit_pos
  have through (entry : Cookbook × Stage) (member : entry ∈ pool) :
      entry = (entry.1, .done (s.alone entry.1)) := by
    obtain ⟨position, there⟩ := List.getElem?_of_mem member
    have still := stands entry member
    obtain ⟨cookbook, stage⟩ := entry
    have own : OnCourse s cookbook stage := sound.course _ member
    cases own with
    | waiting => exact absurd (.start cookbook there room) (rest (.start position))
    | running n _ => cases still
    | done => rfl
  rw [← sound.whose, List.map_map]
  exact (List.map_id pool).symm.trans (List.map_congr_left through)

@[simp]
theorem results_map_done (cookbooks : List Cookbook) :
    results (cookbooks.map fun cookbook => (cookbook, .done (s.alone cookbook))) =
      cookbooks.map s.alone := by
  induction cookbooks with
  | nil => rfl
  | cons cookbook cookbooks ih =>
      rw [List.map_cons, List.map_cons, ← ih]
      rfl

/-! ## One session after the other -/

/-- A session that runs, and is let run for long enough, ends as it does by itself. -/
theorem play_replicate_advance (before after : Pool) (onCourse : OnCourse s cookbook stage)
    (started : stage ≠ .waiting) {n : Nat} (enough : effort s cookbook stage ≤ n) :
    play s (List.replicate n (.advance before.length)) (before ++ (cookbook, stage) :: after) =
      before ++ (cookbook, .done (s.alone cookbook)) :: after := by
  induction n generalizing stage with
  | zero =>
      cases onCourse with
      | waiting => exact absurd rfl started
      | done => rfl
      | running n going =>
          have closed := Run.isSome_ended_of_remaining (Nat.le_zero.mp enough)
          rw [going] at closed
          cases closed
  | succ n ih =>
      rw [List.replicate_succ, play_cons]
      cases onCourse with
      | waiting => exact absurd rfl started
      | done =>
          have still : Pool.move s (before ++ (cookbook, .done (s.alone cookbook)) :: after)
              (.advance before.length) =
                before ++ (cookbook, .done (s.alone cookbook)) :: after := by
            simp [Pool.move]
          rw [still]
          exact ih .done nofun (Nat.zero_le _)
      | running k going =>
          have goes : Pool.move s (before ++ (cookbook, .running (s.after cookbook k)) :: after)
              (.advance before.length) =
                before ++ (cookbook, advanced s cookbook (s.after cookbook k)) :: after := by
            simp [Pool.move]
          have onCourse : OnCourse s cookbook (.running (s.after cookbook k)) := .running k going
          have progress : Progress s before cookbook _ _ := .advanced (s.after cookbook k)
          have less := onCourse.effort_lt progress
          rw [goes]
          refine ih (onCourse.progress progress) ?_ (by omega)
          rcases advanced_after s cookbook k with ended | ⟨still, -⟩ <;> simp [*]

/-- Sessions that run one after the other are all through in the end. -/
theorem play_oneByOne (cookbooks : List Cookbook) (before : Pool) (idle : running before = 0) :
    play s ((cookbooks.zipIdx before.length).flatMap fun (cookbook, position) =>
        .start position ::
          List.replicate (Run.initial s.settings cookbook).remaining (.advance position))
      (before ++ initial cookbooks) =
        before ++ cookbooks.map fun cookbook => (cookbook, .done (s.alone cookbook)) := by
  induction cookbooks generalizing before with
  | nil => rfl
  | cons cookbook cookbooks ih =>
      have room : running (before ++ (cookbook, .waiting) :: initial cookbooks) < s.limit := by
        have idle' : running (before ++ initial cookbooks) = 0 := by
          have none := running_initial cookbooks
          simp only [running, List.filter_append, List.length_append] at idle none ⊢
          omega
        rw [running_append_cons, idle']
        exact Setting.limit_pos
      have starts : Pool.move s (before ++ (cookbook, .waiting) :: initial cookbooks)
          (.start before.length) =
            before ++ (cookbook, .running (Run.initial s.settings cookbook)) ::
              initial cookbooks := by
        simp only [Pool.move, List.getElem?_append_right (Nat.le_refl _), Nat.sub_self,
          List.getElem?_cons_zero, if_pos room, List.set_append_right _ _ (Nat.le_refl _),
          List.set_cons_zero]
      have own : OnCourse s cookbook (.running (Run.initial s.settings cookbook)) :=
        .running 0 rfl
      have idleNext : running (before ++ [(cookbook, Stage.done (s.alone cookbook))]) = 0 := by
        rw [running_append_cons, List.append_nil, idle]
        rfl
      have rest := ih (before ++ [(cookbook, .done (s.alone cookbook))]) idleNext
      rw [List.length_append, List.length_singleton, List.append_assoc, List.append_assoc] at rest
      rw [List.zipIdx_cons, List.flatMap_cons, play_append, play_cons]
      exact (congrArg _ ((congrArg _ starts).trans
        (play_replicate_advance before (initial cookbooks) own nofun (Nat.le_refl _)))).trans rest

end Pool

/-- The sessions on several cookbooks are those on each of them. -/
theorem convertAll_eq (s : Pool.Setting) (cookbooks : List Cookbook) :
    convertAll s cookbooks = cookbooks.map s.alone := by
  have through := Pool.play_oneByOne (s := s) cookbooks [] rfl
  rw [List.nil_append, List.length_nil] at through
  rw [convertAll, Pool.oneByOne, through]
  exact Pool.results_map_done cookbooks

theorem convertAll?_eq_some_iff (s : Pool.Setting) (cookbooks : List Cookbook) :
    convertAll? s cookbooks = some (cookbooks.map s.alone) ↔ s.limit ≤ Pool.highestLimit := by
  unfold convertAll?
  split
  · rename_i low
    simp [low, convertAll_eq]
  · rename_i high
    simp [high]

namespace Pool

/-- What a pool promises of its sessions, in whatever order they are run. -/
structure Setting.RunsEach (s : Setting) (cookbooks : List Cookbook) : Prop where
  /-- There is one session for each cookbook, in their order, and each is the one it has alone. -/
  returns : convertAll? s cookbooks = some (cookbooks.map s.alone)
  /-- The same sessions are there after any course that cannot go on. -/
  complete : ∀ schedule last, Course s (initial cookbooks) schedule last →
    (∀ m, ¬ CanMove s last m) → results last = cookbooks.map s.alone
  /-- No course goes on forever. -/
  ends : ∃ most, ∀ schedule last, Course s (initial cookbooks) schedule last →
    schedule.length ≤ most
  /-- A session that is through on the way is the one of the cookbook at its position. -/
  own : ∀ (schedule : List Move) (position : Nat) (cookbook : Cookbook) (session : Concluded),
    (play s schedule (initial cookbooks))[position]? = some (cookbook, Stage.done session) →
      cookbooks[position]? = some cookbook ∧ session = s.alone cookbook
  /-- No more sessions run than may. -/
  bounded : ∀ schedule : List Move, running (play s schedule (initial cookbooks)) ≤ s.limit
  /-- A session bears the name of its cookbook. -/
  named : ∀ cookbook ∈ cookbooks, (s.alone cookbook).cookbook = cookbook.name
  /-- A worker that dies in a call leaves a session that crashed, under the name of its cookbook. -/
  crashed : ∀ cookbook ∈ cookbooks,
    (∃ i ∈ Run.transcript (s.surroundings cookbook) s.settings s.registry cookbook,
      i.isFatal = true) →
        ∃ message, s.alone cookbook = .crashed cookbook.name message

/-- Every pool keeps its promise, on any cookbooks, exactly if its limit can be kept count of. -/
theorem runsEach_iff (s : Setting) (cookbooks : List Cookbook) :
    s.RunsEach cookbooks ↔ s.limit ≤ highestLimit := by
  refine ⟨fun runs => (convertAll?_eq_some_iff s cookbooks).mp runs.returns, fun low => ?_⟩
  have start := sound_initial s cookbooks
  refine ⟨(convertAll?_eq_some_iff s cookbooks).mpr low, ?_, ?_, ?_, ?_, ?_, ?_⟩
  · intro schedule last course rest
    rw [(course.sound start).1.eq_of_rest rest, results_map_done]
  · refine ⟨work s (initial cookbooks), fun schedule last course => ?_⟩
    have bound := (course.sound start).2
    omega
  · intro schedule position cookbook session there
    obtain ⟨whose, onCourse⟩ := (start.play schedule).getElem? there
    cases onCourse
    exact ⟨whose, rfl⟩
  · exact fun schedule => (start.play schedule).bounded
  · exact fun cookbook _ => Run.cookbook_convert _ _ _ cookbook
  · exact fun cookbook _ fatal => Run.exists_convert_eq_crashed _ _ _ cookbook fatal

/-- One cookbook is already too much for a pool that sets its limit too high. -/
theorem not_runsEach_boundless :
    let w := Surroundings.scripted [.failed (.rejected 401)] []
    ¬ Setting.RunsEach ⟨⟨2, .standard, 0⟩, .ofRules [], fun _ => w, Nat.pow 2 61⟩
      [.bare "a"] := by
  intro w runs
  have low := (convertAll?_eq_some_iff _ _).mp runs.returns
  exact absurd low (by decide)

end Pool

end Rolewright
