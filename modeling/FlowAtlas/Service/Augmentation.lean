import FlowAtlas.Config
import FlowAtlas.Log
import FlowAtlas.Service.Alert
import FlowAtlas.Service.Prompt

/-! Letting a service redraw a diagram. Whatever goes wrong, there is a diagram to show: the one at hand. -/

namespace FlowAtlas

inductive DrawingSource where
  | deterministic
  | generated
  deriving DecidableEq, Repr

def DrawingSource.label : DrawingSource → String
  | deterministic => "deterministic"
  | generated => "generated"

structure Drawing where
  text : String
  source : DrawingSource := .deterministic
  alert : Option Alert := none
  deriving DecidableEq, Repr

def Drawing.toJson (drawing : Drawing) : Json :=
  .object [("text", .text drawing.text), ("source", .text drawing.source.label),
    ("error", .ofOption Alert.toJson drawing.alert)]

structure Question where
  prompt : String
  seconds : Binary64
  deriving DecidableEq, Repr

abbrev Service := Question → Except Failure String

/-- Where alerts go: they are kept, refused or written to the log. -/
inductive Sink where
  | keeping
  | refusing
  | logging
  deriving DecidableEq, Repr

def Sink.lines (alert : Alert) : Sink → List LogLine
  | keeping => []
  | refusing => [⟨.error, s!"Notification sink rejected {alert.kind.label} event"⟩]
  | logging => [.warning s!"{alert.kind.title}: {alert.kind.advice}"]

structure Augmentation where
  drawing : Drawing
  questions : List Question := []
  alerts : List Alert := []
  log : List LogLine := []
  deriving DecidableEq, Repr

namespace Augmentation

open Fields

def fallback (sink : Sink) (text : String) (questions : List Question) (failure : Failure) :
    Checked Augmentation :=
  (Alert.ofFailure failure).map fun alert =>
    { drawing := { text, alert := some alert }
      questions
      alerts := [alert]
      log := .warning s!"Diagram generation failed ({alert.kind.label}): {failure.text}" :: sink.lines alert }

def redraw (service : Service) (question : Question) : Except Failure String := do
  match Flowchart.ofReply? (← service question) with
  | some flowchart => .ok flowchart
  | none => .error .noFlowchart

end Augmentation

def ServiceOptions.seconds? (options : ServiceOptions) : Option Binary64 :=
  (Binary64.ofInt? options.timeoutMs).map fun milliseconds => milliseconds.divNat 1000

/-- The flowchart that the service draws in place of a text, or the text. The service is asked at most once. -/
def augment (options : ServiceOptions) (service : Option Service) (sink : Sink) (summary : Summary)
    (text : String) : Fields.Checked Augmentation :=
  if !options.enabled then .valid { drawing := { text } }
  else match service, options.seconds? with
    | none, _ => Augmentation.fallback sink text [] .noKey
    | some _, none => Augmentation.fallback sink text [] .endlessWait
    | some service, some seconds =>
      let question : Question := ⟨summary.prompt text, seconds⟩
      match Augmentation.redraw service question with
      | .ok flowchart => .valid { drawing := { text := flowchart, source := .generated }, questions := [question] }
      | .error failure => Augmentation.fallback sink text [question] failure

end FlowAtlas
