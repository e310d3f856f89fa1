/-
# Waits that double

The wait before a repetition is computed in words: a factor of 32 bits, a product that stops at the
longest duration, and a limit. Where the limit is no more than `2 ^ 31` times the first wait, none
of these is noticed, and the waits are powers of two times the first one up to the limit. A wait
that the other side asks for is cut at the same limit, so all the waits of an attempt together are
bounded too (`waits_doubling`).

How long a session waits is read off its events, and that they bound the waits of each attempt is an
invariant of its run (`Run.patient_stateAfter`).
-/

import Mathlib.Algebra.Group.Action.Defs
import Mathlib.Algebra.Order.BigOperators.Group.List
import Mathlib.Algebra.Order.Ring.Nat
import Rolewright.Proofs.Conversion.Chronicle

namespace Rolewright

/-! ## One wait -/

namespace Backoff

variable {initial limit : Duration}

/-- From the last doubling on, the waits are at their limit, unless there is nothing to double. -/
theorem min_doubled {first most retry : Nat} (reaches : most ≤ first * 2 ^ doublings ∨ first = 0) :
    min (first * 2 ^ Nat.min (retry - 1) doublings) most = min (first * 2 ^ (retry - 1)) most := by
  rcases Nat.le_total (retry - 1) doublings with early | late
  · rw [show Nat.min (retry - 1) doublings = retry - 1 from Nat.min_eq_left early]
  · rw [show Nat.min (retry - 1) doublings = doublings from Nat.min_eq_right late]
    rcases reaches with reaches | rfl
    · have further : first * 2 ^ doublings ≤ first * 2 ^ (retry - 1) :=
        Nat.mul_le_mul_left _ (Nat.pow_le_pow_right Nat.two_pos late)
      rw [Nat.min_eq_right reaches, Nat.min_eq_right (Nat.le_trans reaches further)]
    · rw [Nat.zero_mul, Nat.zero_mul]

/-- The waits double up to the limit. -/
theorem nanoseconds_delay_between (held : initial.nanoseconds ≤ Duration.longest.nanoseconds)
    (limited : limit.nanoseconds ≤ Duration.longest.nanoseconds)
    (reaches : limit.nanoseconds ≤ 2 ^ 31 * initial.nanoseconds ∨ initial = .zero)
    (retries : UInt32) (retry : Nat) :
    ((between initial limit retries).delay retry none).nanoseconds =
      min (initial.nanoseconds * 2 ^ (retry - 1)) (max limit.nanoseconds initial.nanoseconds) := by
  have bounded : max limit.nanoseconds initial.nanoseconds ≤ Duration.longest.nanoseconds :=
    Nat.max_le.mpr ⟨limited, held⟩
  have all : max limit.nanoseconds initial.nanoseconds ≤ initial.nanoseconds * 2 ^ doublings ∨
      initial.nanoseconds = 0 := by
    rcases reaches with reaches | rfl
    · refine .inl (Nat.max_le.mpr ⟨?_, Nat.le_mul_of_pos_right _ (Nat.two_pow_pos _)⟩)
      rwa [Nat.mul_comm] at reaches
    · exact .inr rfl
  rw [delay_none (b := between initial limit retries) bounded]
  exact min_doubled all

end Backoff

/-! ## The waits of a call -/

/-- No more repetitions are announced than there are left, and none is waited for beyond the
limit. -/
theorem Call.retries_repeatedly_le {α ε : Type} (call : Call α ε) (backoff : Backoff)
    (cancelled : Moment → Bool) (left made : Nat) (moment : Moment) :
    let record := call.repeatedly backoff cancelled left made moment
    record.retries.length ≤ left ∧
      ∀ retry ∈ record.retries, retry.delay.nanoseconds ≤ backoff.limit.nanoseconds := by
  induction left generalizing made moment with
  | zero =>
      rw [repeatedly]
      cases call.answer moment <;> exact ⟨Nat.le_refl 0, List.forall_mem_nil _⟩
  | succ left ih =>
      rw [repeatedly]
      cases call.answer moment with
      | given answer => exact ⟨Nat.zero_le _, List.forall_mem_nil _⟩
      | fatal message => exact ⟨Nat.zero_le _, List.forall_mem_nil _⟩
      | failed error =>
          dsimp only
          cases call.mayRepeat error with
          | false => exact ⟨Nat.zero_le _, List.forall_mem_nil _⟩
          | true =>
              dsimp only
              have once : ∀ retry ∈ [call.retry backoff made error],
                  retry.delay.nanoseconds ≤ backoff.limit.nanoseconds :=
                List.forall_mem_singleton.mpr (backoff.nanoseconds_delay_le _ _)
              split
              · exact ⟨Nat.succ_le_succ (Nat.zero_le _), once⟩
              · exact ⟨Nat.succ_le_succ (Nat.zero_le _), once⟩
              · obtain ⟨few, short⟩ := ih (made + 1) (call.after moment).looked
                exact ⟨Nat.succ_le_succ few, List.forall_mem_cons.mpr
                  ⟨backoff.nanoseconds_delay_le _ _, short⟩⟩

/-! ## The waits of an attempt -/

/-- How long an event says that the generator is waited for in an attempt. -/
def Event.askingWait? (attempt : Nat) : Event → Option Duration
  | .generationRetried retried _ _ delay => if retried = attempt then some delay else none
  | _ => none

/-- The waits between the calls of the generator in an attempt, by the events of a session. -/
def askingWaits (attempt : Nat) (events : List Event) : List Duration :=
  events.filterMap (Event.askingWait? attempt)

namespace Run

variable {w : Surroundings} {settings : SessionSettings} {registry : Mapping.Registry}
  {cookbook : Cookbook} {s next : State}

/-- By its events a session has waited no more often in an attempt than it may, and never longer
than the limit. An attempt that has not been asked for yet has had no wait. -/
structure Patient (backoff : Backoff) (s : State) : Prop where
  few (attempt : Nat) : (askingWaits attempt s.session.events).length ≤ backoff.retries.toNat
  short (attempt : Nat) : ∀ wait ∈ askingWaits attempt s.session.events,
    wait.nanoseconds ≤ backoff.limit.nanoseconds
  ahead (attempt : Nat) : s.session.attempts.length < attempt →
    askingWaits attempt s.session.events = []
  unasked (request : Request) : s.phase = .generating request →
    askingWaits s.session.attempts.length s.session.events = []

theorem askingWaits_append (attempt : Nat) (events more : List Event) :
    askingWaits attempt (events ++ more) = askingWaits attempt events ++ askingWaits attempt more :=
  List.filterMap_append

/-- The repetitions that are announced are those of the attempt for which the generator is asked. -/
theorem askingWaits_asked (attempt : Nat) (request : Request) :
    askingWaits attempt (asked w settings s request).session.events =
      askingWaits attempt s.session.events ++
        if s.session.attempts.length = attempt then
          (askRecord w settings s request).retries.map Retry.delay
        else [] := by
  rw [events_asked, askingWaits_append]
  congr 1
  rw [askingWaits, List.filterMap_cons_none rfl, askingEvents, List.filterMap_map]
  split
  · rename_i same
    have every : Event.askingWait? attempt ∘ (fun retry : Retry GenerationError =>
        Event.generationRetried s.session.attempts.length retry.number retry.error.message
          retry.delay) = some ∘ Retry.delay := by
      funext retry
      simp [Event.askingWait?, same]
    rw [every, List.filterMap_eq_map]
  · rename_i other
    refine List.filterMap_eq_nil_iff.mpr fun retry _ => ?_
    simp [Event.askingWait?, other]

/-- A step that announces no repetition keeps the bounds, if it asks for further attempts only. -/
theorem Patient.keep {backoff : Backoff} (patient : Patient backoff s)
    (told : ∀ attempt, askingWaits attempt next.session.events =
      askingWaits attempt s.session.events)
    (attempts : s.session.attempts.length ≤ next.session.attempts.length)
    (further : ∀ request, next.phase = .generating request →
      s.session.attempts.length < next.session.attempts.length) : Patient backoff next where
  few attempt := by
    rw [told]
    exact patient.few attempt
  short attempt := by
    rw [told]
    exact patient.short attempt
  ahead attempt beyond := by
    rw [told]
    exact patient.ahead attempt (Nat.lt_of_le_of_lt attempts beyond)
  unasked request now := by
    rw [told]
    exact patient.ahead _ (further request now)

/-- A call of the generator keeps the bounds: its attempt has had no wait before. -/
theorem Patient.ask {request : Request} (patient : Patient settings.backoff s)
    (now : s.phase = .generating request)
    (told : ∀ attempt, askingWaits attempt next.session.events =
      askingWaits attempt (asked w settings (looked s) request).session.events)
    (attempts : next.session.attempts.length = s.session.attempts.length)
    (settled : ∀ request, next.phase ≠ .generating request) : Patient settings.backoff next := by
  obtain ⟨few, short⟩ := (Run.ask w request).retries_repeatedly_le settings.backoff w.cancelled
    settings.backoff.retries.toNat 0 (looked s).moment
  have waits (attempt : Nat) : askingWaits attempt next.session.events =
      askingWaits attempt s.session.events ++
        if s.session.attempts.length = attempt then
          (askRecord w settings (looked s) request).retries.map Retry.delay
        else [] := by
    rw [told, askingWaits_asked]
    rfl
  refine ⟨fun attempt => ?_, fun attempt => ?_, fun attempt beyond => ?_,
    fun request asks => absurd asks (settled request)⟩
  · rw [waits]
    split
    · rename_i same
      rw [← same, patient.unasked request now, List.nil_append, List.length_map]
      exact few
    · rw [List.append_nil]
      exact patient.few attempt
  · rw [waits]
    split
    · rename_i same
      rw [← same, patient.unasked request now, List.nil_append, List.forall_mem_map]
      exact short
    · rw [List.append_nil]
      exact patient.short attempt
  · rw [attempts] at beyond
    rw [waits, if_neg (Nat.ne_of_lt beyond), List.append_nil]
    exact patient.ahead attempt beyond

/-- Repetitions of calls of the gateway are no waits for the generator. -/
theorem askingWaits_checked (attempt : Nat) (candidate : Role) :
    askingWaits attempt (checked w settings (looked s) candidate).session.events =
      askingWaits attempt s.session.events := by
  simp [askingWaits, checkingEvents, Event.askingWait?]

/-- A step that announces no repetition and does not lead to a call of the generator keeps the
bounds. -/
theorem Patient.rest {backoff : Backoff} (patient : Patient backoff s)
    (told : ∀ attempt, askingWaits attempt next.session.events =
      askingWaits attempt s.session.events)
    (attempts : next.session.attempts.length = s.session.attempts.length)
    (settled : ∀ request, next.phase ≠ .generating request) : Patient backoff next :=
  patient.keep told (Nat.le_of_eq attempts.symm) fun request asks => absurd asks (settled request)

theorem phase_judge_ne_generating (s : State) (request : Request) (report : Report)
    (other : Request) : (judge s request report).phase ≠ .generating other := by
  unfold judge
  split <;> nofun

/-- Every transition keeps the bounds on the waits. -/
theorem patient_transition {made : List Inquiry} (patient : Patient settings.backoff s)
    (t : Transition w settings registry cookbook s made next) : Patient settings.backoff next := by
  cases t with
  | stopped going told => exact patient.rest (fun _ => rfl) rfl (by simp [cancel])
  | begun now =>
      refine patient.keep (fun attempt => ?_) (Nat.le_succ _) fun _ _ => Nat.lt_succ_self _
      simp [begin, entered, askingWaits, Event.askingWait?]
  | @vacant request text _ _ now _ _ _ =>
      refine patient.ask (w := w) now (fun attempt => ?_) (by simp)
        (phase_judge_ne_generating _ _ _)
      rw [session_judge, events_faulted, events_received]
  | @filled request text _ _ now _ _ _ =>
      refine patient.ask (w := w) now (fun attempt => ?_) (by simp) (by simp)
      rw [events_produced, events_received, askingWaits_append]
      exact List.append_nil _
  | unanswered now _ _ =>
      exact patient.ask now (fun _ => rfl) (by simp [giveUp]) (by simp [giveUp])
  | askingStopped now _ =>
      exact patient.ask now (fun _ => rfl) (by simp [cancel]) (by simp [cancel])
  | askingDied now _ _ | askingOverran now _ _ =>
      exact patient.ask now (fun _ => rfl) (by simp) (by simp)
  | accepted now _ _ _ =>
      refine patient.rest (fun attempt => ?_) (by simp) (by simp)
      rw [events_reported, askingWaits_append, askingWaits_checked]
      exact List.append_nil _
  | rejected now _ _ _ =>
      refine patient.rest (fun attempt => ?_) (by simp) (phase_judge_ne_generating _ _ _)
      rw [session_judge, events_reported, askingWaits_append, askingWaits_checked]
      exact List.append_nil _
  | unchecked now _ _ =>
      exact patient.rest (fun attempt => askingWaits_checked attempt _) (by simp) (by simp)
  | checkingStopped now _ =>
      exact patient.rest (fun attempt => askingWaits_checked attempt _) (by simp [cancel])
        (by simp [cancel])
  | checkingDied now _ _ | checkingOverran now _ _ =>
      exact patient.rest (fun attempt => askingWaits_checked attempt _) (by simp) (by simp)
  | @repaired request report now =>
      have later : (repair (looked s) request report).session.attempts.length =
          s.session.attempts.length + 1 := by
        simp [repair, entered]
      refine patient.keep (fun attempt => ?_) (by omega) fun _ _ => by omega
      rw [events_repair, askingWaits_append]
      exact List.append_nil _

variable (w settings registry cookbook) in
/-- At every moment of a run the waits of each attempt are within their bounds. -/
theorem patient_stateAfter (n : Nat) :
    Patient settings.backoff (stateAfter w settings registry cookbook n) :=
  invariant w settings registry cookbook (fun s _ => Patient settings.backoff s)
    ⟨fun _ => Nat.zero_le _, fun _ => nofun, fun _ _ => rfl, nofun⟩
    (fun _ _ _ _ patient t => patient_transition patient t) n

/-- A session waits for the generator no longer in an attempt than as often as it may and up to the
limit each time. -/
theorem Patient.sum_askingWaits_le {backoff : Backoff} (patient : Patient backoff s)
    (attempt : Nat) :
    ((askingWaits attempt s.session.events).map Duration.nanoseconds).sum ≤
      backoff.retries.toNat * backoff.limit.nanoseconds := by
  have each := List.sum_le_card_nsmul
    ((askingWaits attempt s.session.events).map Duration.nanoseconds) backoff.limit.nanoseconds
    (List.forall_mem_map.mpr (patient.short attempt))
  rw [List.length_map, smul_eq_mul] at each
  exact Nat.le_trans each (Nat.mul_le_mul_right _ (patient.few attempt))

end Run

/-- The waits double up to the limit, exactly and however often a call is repeated. So they never
get shorter, lie between the first one and the limit, and no attempt of any run waits for the
generator longer than the limit for each repetition, whatever the generator asks for. -/
theorem Backoff.waits_doubling {initial limit : Duration}
    (held : initial.nanoseconds ≤ Duration.longest.nanoseconds)
    (limited : limit.nanoseconds ≤ Duration.longest.nanoseconds)
    (reaches : limit.nanoseconds ≤ 2 ^ 31 * initial.nanoseconds ∨ initial = .zero)
    (retries : UInt32) :
    let backoff := between initial limit retries
    let wait (retry : Nat) : Nat := (backoff.delay retry none).nanoseconds
    let most := max limit.nanoseconds initial.nanoseconds
    (∀ retry, 1 ≤ retry → wait retry = min (initial.nanoseconds * 2 ^ (retry - 1)) most) ∧
    (∀ retry later, 1 ≤ retry → retry ≤ later → wait retry ≤ wait later) ∧
    (∀ retry, 1 ≤ retry → initial.nanoseconds ≤ wait retry ∧ wait retry ≤ most) ∧
    ∀ w (settings : SessionSettings) registry cookbook n attempt,
      ((askingWaits attempt
          (Run.stateAfter w { settings with backoff } registry cookbook n).session.events).map
        Duration.nanoseconds).sum ≤ retries.toNat * most := by
  intro backoff wait most
  have doubles (retry : Nat) : wait retry = min (initial.nanoseconds * 2 ^ (retry - 1)) most :=
    nanoseconds_delay_between held limited reaches retries retry
  refine ⟨fun retry _ => doubles retry, fun retry later _ before => ?_, fun retry _ => ?_, ?_⟩
  · have more : initial.nanoseconds * 2 ^ (retry - 1) ≤ initial.nanoseconds * 2 ^ (later - 1) :=
      Nat.mul_le_mul_left _ (Nat.pow_le_pow_right Nat.two_pos (Nat.sub_le_sub_right before 1))
    rw [doubles, doubles]
    exact min_le_min_right most more
  · rw [doubles]
    exact ⟨le_min (Nat.le_mul_of_pos_right _ (Nat.two_pow_pos _)) (Nat.le_max_right _ _),
      Nat.min_le_right _ _⟩
  · intro w settings registry cookbook n attempt
    have patient := Run.patient_stateAfter w { settings with backoff } registry cookbook n
    exact patient.sum_askingWaits_le attempt

/-- The standard backoff goes from half a second to eight, and of a generator that asks for a minute
each time a session takes no more than eight seconds before each of four repetitions. -/
theorem Backoff.waits_doubling_standard :
    let wait (retry : Nat) : Nat := (standard.delay retry none).nanoseconds
    let impatient := Surroundings.scripted
      (List.replicate 9 (.failed (.rateLimited (some (.ofSeconds 60))))) []
    let ended := Run.stateAfter impatient ⟨2, standard, 0⟩ (.ofRules []) (.bare "web") 6
    wait 3 = 2000000000 ∧ wait 5 ≤ wait (2 ^ 32 - 1) ∧ 500000000 ≤ wait 9 ∧ wait 9 ≤ 8000000000 ∧
      ((askingWaits 1 ended.session.events).map Duration.nanoseconds).sum ≤ 4 * 8000000000 := by
  intro wait impatient ended
  obtain ⟨doubles, grows, between, bounded⟩ := @waits_doubling (.ofMilliseconds 500)
    (.ofMilliseconds 8000) (by decide) (by decide) (.inl (by decide)) 4
  have total := bounded impatient ⟨2, standard, 0⟩ (.ofRules []) (.bare "web") 6 1
  have most : (4 : UInt32).toNat * max (Duration.ofMilliseconds 8000).nanoseconds
      (Duration.ofMilliseconds 500).nanoseconds = 4 * 8000000000 := by decide
  have named : Backoff.between (.ofMilliseconds 500) (.ofMilliseconds 8000) 4 = standard := rfl
  dsimp only at total
  rw [most, named] at total
  refine ⟨doubles 3 (by decide), grows 5 (2 ^ 32 - 1) (by decide) (by decide),
    (between 9 (by decide)).1, (between 9 (by decide)).2, ?_⟩
  dsimp only [ended]
  exact total

end Rolewright
