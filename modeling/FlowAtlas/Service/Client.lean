import FlowAtlas.Config
import FlowAtlas.Service.Failure

namespace FlowAtlas

structure Client where
  key : String
  model : String
  maxTokens : Int := 4000
  temperature : Json := .real (.ofDecimal false 3 (-1))
  endpoint : String := "https://api.anthropic.com/v1/messages"

structure Request where
  url : String
  headers : List (String × String)
  body : Json
  seconds : Binary64

structure Reply where
  status : Int := 200
  reason : Option String := none
  body : String := ""
  deriving DecidableEq, Repr

namespace Reply

def leniency : Json.Leniency := { depthLimit := some 990, digitLimit := some 4300 }

def value (reply : Reply) : Except BodyFault Json :=
  let body := reply.body.toList
  (Json.readChars leniency body).mapError fun stop => .notJson stop.fault (stop.message body)

def firstOf (texts : List (Option String)) : String :=
  ((texts.filterMap id).find? fun text => !text.isEmpty).getD "request failed"

/-- The failure that a reply with an error status stands for, told by its body if that says more. A body that
nests too deeply is a failure of its own. -/
def failure (reply : Reply) : Failure :=
  match reply.value with
  | .error (.notJson (.tooDeep container) reason) => .ofBody (.notJson (.tooDeep container) reason)
  | .error _ =>
    { cause := .refusal, text := firstOf [some reply.body, reply.reason], status := .int reply.status }
  | .ok (.object fields) =>
    match (Json.field? fields "error").getD (.object []) with
    | .object error =>
      let message := (Json.field? error "message").getD .null
      let text := if message.isVoid then firstOf [reply.reason] else message.described
      { cause := .refusal, text, status := .int reply.status, category := (Json.field? error "type").getD .null }
    | error => { cause := .refusal, text := error.described, status := .int reply.status }
  | .ok value => .ofBody (.noFields value.kindName)

/-- The items of a list; a text has its characters and an object its names. -/
def itemsOf : Json → Except BodyFault (List Json)
  | .list items => .ok items
  | .text chars => .ok (chars.toList.map fun c => .text c.toString)
  | .object fields => .ok (fields.map fun field => .text field.1)
  | value => .error (.noItems value.kindName)

def textOf? : Json → Except BodyFault (Option Json)
  | .object block =>
    match Json.field? block "type" with
    | some (.text "text") => .ok (some ((Json.field? block "text").getD (.text "")))
    | _ => .ok none
  | value => .error (.noFields value.kindName)

def join (place : Nat) : List Json → Except BodyFault String
  | [] => .ok ""
  | .text text :: rest => (join (place + 1) rest).map (text ++ ·)
  | value :: _ => .error (.notText place value.kindName)

/-- The blocks of text in the body, if there is a body of the right form. -/
def parts (reply : Reply) : Except BodyFault (List Json) := do
  match ← reply.value with
  | .object fields =>
    let items ← itemsOf ((Json.field? fields "content").getD (.list []))
    let parts ← items.mapM textOf?
    .ok (parts.filterMap id)
  | value => .error (.noFields value.kindName)

def text (reply : Reply) : Except Failure String :=
  if 400 ≤ reply.status then .error reply.failure
  else match reply.parts with
    | .error fault => .error (.ofBody fault)
    | .ok [] => .error (.noText reply.status)
    | .ok parts => (join 0 parts).mapError .ofBody

end Reply

namespace Client

def ofOptions? (options : ServiceOptions) (environment : List (String × String)) : Option Client :=
  match options.resolvedKey environment with
  | some key =>
    if options.enabled && !key.isEmpty then
      some ⟨key, options.model, options.maxTokens, .real options.temperature, options.endpoint⟩
    else none
  | none => none

def version : String := "2023-06-01"

def request (client : Client) (prompt : String) (seconds : Binary64) : Request :=
  { url := client.endpoint
    headers := [("Content-Type", "application/json"), ("x-api-key", client.key), ("anthropic-version", version)]
    body := .object [("model", .text client.model), ("max_tokens", .int client.maxTokens),
      ("temperature", client.temperature),
      ("messages", .list [.object [("role", .text "user"), ("content", .text prompt)]])]
    seconds }

def complete (client : Client) (send : Request → Except Failure Reply) (prompt : String) (seconds : Binary64) :
    Except Failure String := do
  let reply ← send (client.request prompt seconds)
  reply.text

end Client

end FlowAtlas
