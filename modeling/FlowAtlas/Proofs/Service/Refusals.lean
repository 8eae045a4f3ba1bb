import FlowAtlas.Proofs.Service.Fallback
import FlowAtlas.Surroundings

namespace FlowAtlas

namespace AlertKind

def ofStatus (status : Int) : AlertKind :=
  if status = 402 then insufficientCredit
  else if status = 429 then rateLimit
  else if status = 401 ∨ status = 403 then authentication
  else generic

def decisiveTerms : List String :=
  ["credit balance", "insufficient credit", "insufficient balance", "billing", "quota", "usage limit", "rate limit",
    "rate_limit", "too many requests", "authentication", "unauthorized", "invalid x-api-key", "api key", "permission"]

theorem speaksOf_mono {failure : Failure} {terms more : List String} (subset : terms ⊆ more)
    (silent : failure.speaksOf more = false) : failure.speaksOf terms = false := by
  rw [Failure.speaksOf, List.any_eq_false] at silent ⊢
  exact fun term member => silent term (subset member)

theorem ofFailure_silent {failure : Failure} (silent : failure.speaksOf decisiveTerms = false) :
    ofFailure failure =
      if failure.hasStatus 402 then insufficientCredit
      else if failure.hasStatus 429 then rateLimit
      else if failure.hasStatus 401 || failure.hasStatus 403 then authentication
      else generic := by
  have none : ∀ terms : List String, terms ⊆ decisiveTerms → failure.speaksOf terms = false :=
    fun _ subset => speaksOf_mono subset silent
  simp only [ofFailure, none _ (by decide : ["credit balance", "insufficient credit", "insufficient balance",
    "billing"] ⊆ decisiveTerms), none _ (by decide : ["quota", "usage limit"] ⊆ decisiveTerms),
    none _ (by decide : ["rate limit", "rate_limit", "too many requests"] ⊆ decisiveTerms),
    none _ (by decide : ["authentication", "unauthorized", "invalid x-api-key", "api key", "permission"] ⊆
      decisiveTerms), Bool.or_false, Bool.false_eq_true, if_false]

theorem ofFailure_status {failure : Failure} {status : Int} (told : failure.status = .int status)
    (silent : failure.speaksOf decisiveTerms = false) : ofFailure failure = ofStatus status := by
  have reads : ∀ code, failure.hasStatus code = decide (status = code) := by
    intro code
    rw [Failure.hasStatus, told]
    rfl
  rw [ofFailure_silent silent, ofStatus]
  simp only [reads, Bool.or_eq_true, decide_eq_true_eq]

theorem ofFailure_untold {failure : Failure} (untold : failure.status = .null)
    (silent : failure.speaksOf decisiveTerms = false) : ofFailure failure = generic := by
  have reads : ∀ code, failure.hasStatus code = false := by
    intro code
    rw [Failure.hasStatus, untold]
  rw [ofFailure_silent silent]
  simp only [reads, Bool.or_self, Bool.false_eq_true, if_false]

end AlertKind

namespace Reply

/-- A body that is a value without fields, or one that nests too deeply, is taken for a fault. -/
inductive Misread (reply : Reply) : BodyFault → Prop where
  | unfielded {value : Json} (read : reply.value = .ok value) (plain : ∀ fields, value ≠ .object fields) :
      Misread reply (.noFields value.kindName)
  | tooDeep {container : Json.Container} {reason : String}
      (stopped : reply.value = .error (.notJson (.tooDeep container) reason)) :
      Misread reply (.notJson (.tooDeep container) reason)

def Legible (reply : Reply) : Prop := ∀ fault, ¬reply.Misread fault

variable {reply : Reply}

theorem value_fault {fault : BodyFault} (stopped : reply.value = .error fault) :
    ∃ stop : Json.Stop, fault = .notJson stop.fault (stop.message reply.body.toList) := by
  rw [value] at stopped
  cases read : Json.readChars leniency reply.body.toList with
  | ok value =>
      rw [read] at stopped
      cases stopped
  | error stop =>
      rw [read] at stopped
      exact ⟨stop, (Except.error.inj stopped).symm⟩

theorem failure_misread {fault : BodyFault} (misread : reply.Misread fault) : reply.failure = .ofBody fault := by
  cases misread with
  | @unfielded value read plain =>
      rw [failure, read]
      cases value with
      | object fields => exact absurd rfl (plain fields)
      | _ => rfl
  | tooDeep stopped => rw [failure, stopped]

theorem failure_told (legible : reply.Legible) :
    reply.failure.cause = .refusal ∧ reply.failure.status = .int reply.status := by
  cases read : reply.value with
  | error fault =>
      obtain ⟨⟨fault, left⟩, rfl⟩ := value_fault read
      rw [failure, read]
      cases fault with
      | tooDeep container => exact absurd (.tooDeep read) (legible _)
      | _ => exact ⟨rfl, rfl⟩
  | ok value =>
      rw [failure, read]
      cases value with
      | object fields =>
          dsimp only
          split <;> exact ⟨rfl, rfl⟩
      | _ => exact absurd (.unfielded read fun _ => nofun) (legible _)

theorem kindName_unfielded {value : Json} (plain : ∀ fields, value ≠ .object fields) :
    value.kindName ∈ ["NoneType", "bool", "int", "float", "str", "list"] := by
  cases value with
  | object fields => exact absurd rfl (plain fields)
  | _ => simp [Json.kindName]

theorem misread_silent {fault : BodyFault} (misread : reply.Misread fault) :
    (Failure.ofBody fault).speaksOf AlertKind.decisiveTerms = false := by
  cases misread with
  | unfielded _ plain =>
      have silent : ∀ kind ∈ ["NoneType", "bool", "int", "float", "str", "list"],
          (Failure.ofBody (.noFields kind)).speaksOf AlertKind.decisiveTerms = false := by decide +kernel
      exact silent _ (kindName_unfielded plain)
  | @tooDeep container reason stopped =>
      obtain ⟨⟨fault, left⟩, same⟩ := value_fault stopped
      obtain ⟨rfl, rfl⟩ := BodyFault.notJson.inj same
      have silent : ∀ label ∈ [Json.Fault.label (.tooDeep .list), Json.Fault.label (.tooDeep .object)],
          (Failure.ofBody (.notJson (.tooDeep container) label)).speaksOf AlertKind.decisiveTerms = false := by
        cases container <;> decide +kernel
      refine silent _ ?_
      cases container <;> simp [Json.Stop.message, Json.Fault.isOfMeasure]

end Reply

/-- What is made of a reply with an error status: a failure, and the alert that it raises. -/
structure Reply.Refusal (reply : Reply) (failure : Failure) (alert : Alert) : Prop where
  told : reply.Legible →
    failure.cause = .refusal ∧ failure.status = .int reply.status ∧ alert.status = some reply.status
  kind : reply.Legible → failure.speaksOf AlertKind.decisiveTerms = false →
    alert.kind = AlertKind.ofStatus reply.status
  lost : ∀ fault, reply.Misread fault → failure = .ofBody fault ∧ alert.status = none ∧ alert.kind = .generic

theorem Alert.Tells.refusal {reply : Reply} {alert : Alert} (tells : alert.Tells reply.failure) :
    reply.Refusal reply.failure alert := by
  refine ⟨?_, ?_, ?_⟩
  · intro legible
    obtain ⟨cause, status⟩ := Reply.failure_told legible
    refine ⟨cause, status, ?_⟩
    have same := tells.status.trans status
    cases held : alert.status with
    | none =>
        rw [held] at same
        cases same
    | some code =>
        rw [held] at same
        exact congrArg some (Json.int.inj same)
  · intro legible silent
    rw [tells.kind]
    exact AlertKind.ofFailure_status (Reply.failure_told legible).2 silent
  · intro fault misread
    have failed := Reply.failure_misread misread
    have status := tells.status
    rw [failed] at status
    refine ⟨failed, ?_, ?_⟩
    · cases held : alert.status with
      | none => rfl
      | some code =>
          rw [held] at status
          cases status
    · rw [tells.kind, failed]
      exact AlertKind.ofFailure_untold rfl (Reply.misread_silent misread)

theorem Reply.failure_status_told (reply : Reply) : reply.failure.Told := by
  by_cases misread : ∃ fault, reply.Misread fault
  · obtain ⟨fault, misread⟩ := misread
    rw [failure_misread misread]
    exact Or.inl rfl
  · exact Or.inr ⟨_, (failure_told (not_exists.mp misread)).2⟩

/-- An error status fails the request. It is told, and decides on the alert where no words do, unless the body is
misread. -/
theorem Surroundings.serviceOf_refused (surroundings : Surroundings) (client : Client) {question : Question}
    {reply : Reply} (sent : surroundings.send (client.request question.prompt question.seconds) = .ok reply)
    (refused : 400 ≤ reply.status) :
    ∃ failure alert, client.complete surroundings.send question.prompt question.seconds = .error failure ∧
      reply.Refusal failure alert ∧
      ∀ (options : ServiceOptions) (sink : Sink) (summary : Summary) (text : String), options.enabled = true →
        options.timeoutMs.natAbs < Binary64.overflow → options.question summary text = question →
          ∃ outcome, augment options (surroundings.serviceOf client) sink summary text = .valid outcome ∧
            outcome.drawing = { text, alert := some alert } ∧ outcome.alerts = [alert] := by
  have completed : client.complete surroundings.send question.prompt question.seconds = .error reply.failure := by
    have text : reply.text = .error reply.failure := by rw [Reply.text, if_pos refused]
    rw [Client.complete, sent]
    exact text
  obtain ⟨alert, formed, tells⟩ := Alert.ofFailure_told reply.failure_status_told
  refine ⟨reply.failure, alert, completed, tells.refusal, ?_⟩
  intro options sink summary text enabled measured asked
  have fails : Fails options (options.question summary text) (surroundings.serviceOf client) reply.failure :=
    .refused measured (asked ▸ completed)
  exact ⟨_, (augment_fails sink enabled fails).trans (congrArg _ formed), rfl, rfl⟩

def unpaid (body : String) : Reply := ⟨402, some "Payment Required", body⟩

theorem unpaid_listed : (unpaid "[\"credits\"]").Misread (.noFields "list") := by
  have listed : (unpaid "[\"credits\"]").value.toOption.map Json.kindName = some "list" := by decide +kernel
  cases read : (unpaid "[\"credits\"]").value with
  | error fault => simp [read, Except.toOption] at listed
  | ok value =>
      rw [read] at listed
      have kind : value.kindName = "list" := Option.some.inj listed
      refine kind ▸ .unfielded read ?_
      rintro fields rfl
      exact absurd (show "dict" = "list" from kind) (by decide)

theorem unpaid_empty : (unpaid "").Legible := by
  have stopped : (unpaid "").value = .error (.notJson .expectingValue "Expecting value: line 1 column 1 (char 0)") :=
    rfl
  intro fault misread
  cases misread with
  | unfielded read => cases stopped.symm.trans read
  | tooDeep deep => cases stopped.symm.trans deep

def visitor : Client := { key := "k", model := "m" }

def answering (reply : Reply) : Surroundings where
  entries := .ok []
  moment := { year := 1970, month := 1, day := 1 }
  send := fun _ => .ok reply

/-- The status of an empty reply is told, that of a reply with a list is not. -/
theorem serviceOf_refused_unpaid :
    400 ≤ (unpaid "").status ∧ 400 ≤ (unpaid "[\"credits\"]").status ∧
    (∃ outcome alert, augment { enabled := true } ((answering (unpaid "")).serviceOf visitor) .keeping untitled
        "flowchart TD" = .valid outcome ∧ outcome.alerts = [alert] ∧ alert.status = some 402 ∧
        alert.kind = AlertKind.insufficientCredit) ∧
    ∃ outcome alert, augment { enabled := true } ((answering (unpaid "[\"credits\"]")).serviceOf visitor) .keeping
        untitled "flowchart TD" = .valid outcome ∧ outcome.alerts = [alert] ∧ alert.status = none ∧
        alert.kind = AlertKind.generic := by
  have measured : (30000 : Int).natAbs < Binary64.overflow := by decide +kernel
  have sent : ∀ reply (question : Question), (answering reply).send (visitor.request question.prompt question.seconds) =
      .ok reply := fun _ _ => rfl
  refine ⟨by decide, by decide, ?_, ?_⟩
  · obtain ⟨failure, alert, completed, refusal, shows⟩ :=
      (answering (unpaid "")).serviceOf_refused visitor (sent (unpaid "") _) (by decide)
    obtain ⟨outcome, shown, _, alerts⟩ := shows { enabled := true } .keeping untitled "flowchart TD" rfl measured rfl
    have failed : failure = (unpaid "").failure := (Except.error.inj completed).symm
    have silent : failure.speaksOf AlertKind.decisiveTerms = false := by
      rw [failed]
      decide +kernel
    exact ⟨outcome, alert, shown, alerts, (refusal.told unpaid_empty).2.2, refusal.kind unpaid_empty silent⟩
  · obtain ⟨failure, alert, _, refusal, shows⟩ :=
      (answering (unpaid "[\"credits\"]")).serviceOf_refused visitor (sent (unpaid "[\"credits\"]") _) (by decide)
    obtain ⟨outcome, shown, _, alerts⟩ := shows { enabled := true } .keeping untitled "flowchart TD" rfl measured rfl
    have lost := refusal.lost _ unpaid_listed
    exact ⟨outcome, alert, shown, alerts, lost.2⟩

end FlowAtlas
