import FlowAtlas.Proofs.Decimal.Overflow
import FlowAtlas.Service.Augmentation
import Mathlib.Tactic.Positivity

/-! Whatever a service does there is one diagram to show: the one that it draws, or the one at hand with an alert. -/

namespace FlowAtlas

open Fields

def Failure.Told (failure : Failure) : Prop := failure.status = .null ∨ ∃ code, failure.status = .int code

structure Alert.Tells (alert : Alert) (failure : Failure) : Prop where
  kind : alert.kind = AlertKind.ofFailure failure
  detail : alert.detail = failure.text
  status : Json.ofOption .int alert.status = failure.status

theorem Alert.ofFailure_told {failure : Failure} (told : failure.Told) :
    ∃ alert, ofFailure failure = .valid alert ∧ alert.Tells failure := by
  rcases told with none | ⟨code, some⟩
  · refine ⟨⟨AlertKind.ofFailure failure, failure.text, .none⟩, ?_, rfl, rfl, none.symm⟩
    rw [ofFailure, none]
    rfl
  · refine ⟨⟨AlertKind.ofFailure failure, failure.text, code⟩, ?_, rfl, rfl, some.symm⟩
    rw [ofFailure, some]
    rfl

theorem ServiceOptions.seconds?_eq (options : ServiceOptions) :
    options.seconds? = if options.timeoutMs.natAbs < Binary64.overflow then
      some ((Binary64.ofInt options.timeoutMs).divNat 1000) else none := by
  rw [seconds?, Binary64.ofInt?_eq]
  split <;> rfl

section outcomes

variable (options : ServiceOptions) (question : Question)

/-- The flowchart in the reply of a service that is asked. -/
inductive Draws : Option Service → String → Prop where
  | reply {service : Service} {reply flowchart : String}
      (measured : options.timeoutMs.natAbs < Binary64.overflow) (answer : service question = .ok reply)
      (found : Flowchart.ofReply? reply = some flowchart) : Draws (some service) flowchart

/-- Why there is no flowchart: no service, a time limit that is no number, no reply, or one without a flowchart. -/
inductive Fails : Option Service → Failure → Prop where
  | noKey : Fails none .noKey
  | endless {service : Service} (past : Binary64.overflow ≤ options.timeoutMs.natAbs) :
      Fails (some service) .endlessWait
  | refused {service : Service} {failure : Failure} (measured : options.timeoutMs.natAbs < Binary64.overflow)
      (answer : service question = .error failure) : Fails (some service) failure
  | unusable {service : Service} {reply : String} (measured : options.timeoutMs.natAbs < Binary64.overflow)
      (answer : service question = .ok reply) (none : Flowchart.ofReply? reply = none) :
      Fails (some service) .noFlowchart

theorem draws_or_fails (service : Option Service) :
    (∃ flowchart, Draws options question service flowchart) ∨ ∃ failure, Fails options question service failure := by
  cases service with
  | none => exact Or.inr ⟨_, .noKey⟩
  | some service =>
      by_cases measured : options.timeoutMs.natAbs < Binary64.overflow
      · cases answer : service question with
        | error failure => exact Or.inr ⟨_, .refused measured answer⟩
        | ok reply =>
            cases found : Flowchart.ofReply? reply with
            | none => exact Or.inr ⟨_, .unusable measured answer found⟩
            | some flowchart => exact Or.inl ⟨_, .reply measured answer found⟩
      · exact Or.inr ⟨_, .endless (Nat.not_lt.mp measured)⟩

end outcomes

def ServiceOptions.question (options : ServiceOptions) (summary : Summary) (text : String) : Question :=
  ⟨summary.prompt text, (Binary64.ofInt options.timeoutMs).divNat 1000⟩

section augment

variable {options : ServiceOptions} {service : Option Service} (sink : Sink) {summary : Summary} {text : String}

def ServiceOptions.asked (options : ServiceOptions) (service : Option Service) (question : Question) : List Question :=
  if service.isSome ∧ options.timeoutMs.natAbs < Binary64.overflow then [question] else []

theorem augment_draws (enabled : options.enabled = true) {flowchart : String}
    (draws : Draws options (options.question summary text) service flowchart) :
    augment options service sink summary text = .valid
      { drawing := { text := flowchart, source := .generated }
        questions := options.asked service (options.question summary text) } := by
  cases draws with
  | @reply service reply _ measured answer found =>
      have redrawn : Augmentation.redraw service (options.question summary text) = .ok flowchart := by
        simp [Augmentation.redraw, answer, found, bind, Except.bind]
      rw [ServiceOptions.question] at redrawn
      simp [augment, enabled, options.seconds?_eq, measured, redrawn, ServiceOptions.asked, ServiceOptions.question]

theorem augment_fails (enabled : options.enabled = true) {failure : Failure}
    (fails : Fails options (options.question summary text) service failure) :
    augment options service sink summary text =
      Augmentation.fallback sink text (options.asked service (options.question summary text)) failure := by
  cases fails with
  | noKey => simp [augment, enabled, ServiceOptions.asked]
  | endless past => simp [augment, enabled, options.seconds?_eq, Nat.not_lt.mpr past, ServiceOptions.asked]
  | @refused service _ measured answer =>
      have redrawn : Augmentation.redraw service (options.question summary text) = .error failure := by
        simp [Augmentation.redraw, answer, bind, Except.bind]
      rw [ServiceOptions.question] at redrawn
      simp [augment, enabled, options.seconds?_eq, measured, redrawn, ServiceOptions.asked, ServiceOptions.question]
  | @unusable service reply measured answer none =>
      have redrawn : Augmentation.redraw service (options.question summary text) = .error .noFlowchart := by
        simp [Augmentation.redraw, answer, none, bind, Except.bind]
      rw [ServiceOptions.question] at redrawn
      simp [augment, enabled, options.seconds?_eq, measured, redrawn, ServiceOptions.asked, ServiceOptions.question]

end augment

/-- What there is to show: the flowchart of the service, or the text at hand with an alert that is sent once. -/
structure Augmentation.Shows (outcome : Augmentation) (options : ServiceOptions) (service : Option Service)
    (question : Question) (text : String) : Prop where
  disabled : options.enabled = false → outcome = { drawing := { text } }
  asked : options.enabled = true → outcome.questions = options.asked service question
  generated : options.enabled = true →
    (outcome.drawing.source = .generated ↔ ∃ flowchart, Draws options question service flowchart)
  drawn : options.enabled = true → ∀ flowchart, Draws options question service flowchart →
    outcome.drawing = { text := flowchart, source := .generated } ∧ outcome.alerts = []
  kept : options.enabled = true → outcome.drawing.source ≠ .generated →
    ∃ failure alert, Fails options question service failure ∧ alert.Tells failure ∧
      outcome.drawing = { text, alert := some alert } ∧ outcome.alerts = [alert]

theorem Draws.unique {options : ServiceOptions} {question : Question} {service : Option Service}
    {first second : String} (one : Draws options question service first)
    (other : Draws options question service second) : first = second := by
  cases one with
  | reply _ answer found =>
      cases other with
      | reply _ again same =>
          cases answer.symm.trans again
          exact Option.some.inj (found.symm.trans same)

theorem Draws.not_fails {options : ServiceOptions} {question : Question} {service : Option Service}
    {flowchart : String} {failure : Failure} (draws : Draws options question service flowchart) :
    ¬Fails options question service failure := by
  intro fails
  cases draws with
  | reply measured answer found =>
      cases fails with
      | endless past => exact Nat.not_lt.mpr past measured
      | refused _ refused => cases answer.symm.trans refused
      | unusable _ again none =>
          cases answer.symm.trans again
          cases found.symm.trans none

theorem Fails.told {options : ServiceOptions} {question : Question} {service : Option Service}
    {failure : Failure} (fails : Fails options question service failure)
    (told : ∀ serve failure, service = some serve → serve question = .error failure → failure.Told) :
    failure.Told := by
  cases fails with
  | noKey => exact Or.inr ⟨401, rfl⟩
  | endless => exact Or.inl rfl
  | refused _ answer => exact told _ _ rfl answer
  | unusable => exact Or.inl rfl

def busy : Service := fun _ => .error { cause := .refusal, text := "rate limited", status := .int 429 }

def untitled : Summary where
  root := "/"
  moment := "1970-01-01T00:00:00+00:00"
  files := 0
  routines := 0
  classes := 0
  imports := 0
  decisions := 0
  layerCounts := []
  important := []

theorem ServiceOptions.ofJson_timeout {limit : Int} (positive : 0 < limit) :
    ofJson .value (.object [("enabled", .bool true), ("timeout_ms", .int limit)]) =
      .valid { enabled := true, timeoutMs := limit } := by
  have accepted : above 0 limit = .valid limit := if_pos positive
  have read : optionalEither "timeoutMs" "timeout_ms" 30000 (fun v => (readInteger v).andThen (above 0))
      [("enabled", .bool true), ("timeout_ms", .int limit)] = .valid limit := by
    change (above 0 limit).under _ = _
    rw [accepted]
    rfl
  simp only [ofJson, Origin.readRecord, read]
  rfl

end FlowAtlas
