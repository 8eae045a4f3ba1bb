import FlowAtlas.Fields.Record
import FlowAtlas.Json.Reader
import FlowAtlas.Text.Lines
import FlowAtlas.Text.Order
import FlowAtlas.Text.Utf8

namespace FlowAtlas

open Fields Checked

structure ServiceOptions where
  enabled : Bool := false
  timeoutMs : Int := 30000
  model : String := "claude-3-5-sonnet-20241022"
  maxTokens : Int := 4000
  temperature : Binary64 := .ofDecimal false 3 (-1)
  apiKey : Option String := none
  endpoint : String := "https://api.anthropic.com/v1/messages"
  deriving DecidableEq, Repr

/-- The ignored names are ordered and distinct. -/
structure Config where
  ignoredNames : List String :=
    [".git", ".next", ".nuxt", ".nyc_output", ".vscode", "__pycache__", "build", "coverage", "dist", "logs",
     "node_modules"]
  ignoreDotNames : Bool := true
  maxDepth : Int := 5
  selectionCap : Int := 12
  service : ServiceOptions := {}
  deriving DecidableEq, Repr

/-- Where a record comes from, which shows in how a wrong kind of value is called and in whether every integer
stands for a number. -/
inductive Origin where
  | document
  | value
  deriving DecidableEq, Repr

namespace Origin

def recordFault (name : String) : Origin → Fault
  | document => .notObject
  | value => .notRecord name

def setFault : Origin → Fault
  | document => .notArray
  | value => .notSet

def number? : Origin → Int → Option Binary64
  | document, i => some (Binary64.ofInt i)
  | value, i => Binary64.ofInt? i

def readRecord {α : Type} (origin : Origin) (name : String) (read : Entries → Checked α) : Json → Checked α
  | .object fields => read fields
  | _ => fail (origin.recordFault name)

def readSet (origin : Origin) : Json → Checked (List String)
  | .list items => (readEach readText 0 items).map fun texts => texts.foldr Text.insertDistinct []
  | _ => fail origin.setFault

end Origin

namespace ServiceOptions

def ofJson (origin : Origin) : Json → Checked ServiceOptions :=
  origin.readRecord "AugmentationConfig" fun fields =>
    let plain : ServiceOptions := {}
    ServiceOptions.mk <$> optional "enabled" plain.enabled readBoolean fields <*>
      optionalEither "timeoutMs" "timeout_ms" plain.timeoutMs (fun v => (readInteger v).andThen (above 0)) fields <*>
      optional "model" plain.model readText fields <*>
      optionalEither "maxTokens" "max_tokens" plain.maxTokens (fun v => (readInteger v).andThen (above 0)) fields <*>
      optional "temperature" plain.temperature (readNumber origin.number?) fields <*>
      optionalEither "apiKey" "api_key" plain.apiKey (readOptional readText) fields <*>
      optional "endpoint" plain.endpoint readText fields

def toJson (options : ServiceOptions) : Json :=
  .object [("enabled", .bool options.enabled), ("timeout_ms", .int options.timeoutMs),
    ("model", .text options.model), ("max_tokens", .int options.maxTokens),
    ("temperature", .real options.temperature), ("api_key", .ofOption .text options.apiKey),
    ("endpoint", .text options.endpoint)]

def resolvedKey (options : ServiceOptions) (environment : List (String × String)) : Option String :=
  let fallback := environment.lookup "ANTHROPIC_API_KEY"
  (([options.apiKey, environment.lookup "ARCHFLOW_API_KEY"].filterMap id).find? fun key => !key.isEmpty).or fallback

end ServiceOptions

namespace Config

def ofJson (origin : Origin) : Json → Checked Config :=
  origin.readRecord "AnalyzerConfig" fun fields =>
    let plain : Config := {}
    Config.mk <$>
      optionalEither "ignoredDirectoryNames" "ignored_directory_names" plain.ignoredNames origin.readSet fields <*>
      optionalEither "ignoredDotPrefixes" "ignored_dot_prefixes" plain.ignoreDotNames readBoolean fields <*>
      optionalEither "maxDepth" "max_depth" plain.maxDepth (fun v => (readInteger v).andThen (atLeast 0)) fields <*>
      optionalEither "selectionCap" "selection_cap" plain.selectionCap
        (fun v => (readInteger v).andThen (atLeast 1)) fields <*>
      optionalEither "generativeAugmentation" "generative_augmentation" plain.service
        (ServiceOptions.ofJson origin) fields

def toJson (config : Config) : Json :=
  .object [("ignored_directory_names", .texts config.ignoredNames),
    ("ignored_dot_prefixes", .bool config.ignoreDotNames), ("max_depth", .int config.maxDepth),
    ("selection_cap", .int config.selectionCap), ("generative_augmentation", config.service.toJson)]

/-- A document is refused as a whole if it nests too deeply, has a number with too many digits or holds half of a
character. -/
def leniency : Json.Leniency :=
  { loneSurrogates := false, depthLimit := some 200, digitLimit := some 4300, digitsOfAll := true }

def ofText (text : List Char) : Checked Config :=
  match Json.readChars leniency (Text.unifyNewlines text) with
  | .ok value => ofJson .document value
  | .error _ => fail .notJson

def ofBytes? (bytes : List UInt8) : Option (Checked Config) := (Text.Utf8.decode? bytes).map ofText

def ignores (config : Config) (name : String) : Bool :=
  config.ignoredNames.contains name || (config.ignoreDotNames && Text.startsWith name.toList ".")

end Config

end FlowAtlas
