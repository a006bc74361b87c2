import LedgerLens.AnalyticsService
import LedgerLens.CachedMarketData

namespace LedgerLens

/-- How pydantic reads a JSON text, what its `int` fields make of a value, and how it writes a model. -/
class PydanticJson (F : Type) where
  loads : String → Option (Json F)
  intField : Json F → Option Int
  dumps : Json F → String

/-- The value of a text field. -/
def textValue {F : Type} : Json F → Option String
  | .string (.text s) => some s
  | _ => none

/-- The value of a field `list[str]`, which is empty by default. -/
def textListValue {F : Type} : Option (Json F) → Option (List String)
  | none => some []
  | some (.array elements) => elements.mapM textValue
  | some _ => none

/-- The members of a model that forbids others than its own. -/
def ownMembers {F : Type} (names : List String) : Option (Json F) → Option (List (Json.Str × Json F))
  | some (.object members) =>
    if members.all fun member => member.1 ∈ names.map Json.Str.text then some members else none
  | _ => none

/-- `_DeepSeekOutput`, with what its validation makes sure of. -/
structure DeepSeekOutput [UnicodeDatabase] where
  summary : String
  additionalLimitations : List String
  summary_length : 20 ≤ summary.length ∧ summary.length ≤ 1200
  limitations_length : additionalLimitations.length ≤ 3
  clean : searchForbidden none (" ".intercalate (summary :: additionalLimitations)).toList = false
  visible : ∀ limitation ∈ additionalLimitations, Text.strip limitation ≠ ""

/-- `_CachedInsight`, whose schema version is 1, with what its validation makes sure of. -/
structure CachedInsight where
  summary : String
  additionalLimitations : List String
  summary_length : 1 ≤ summary.length ∧ summary.length ≤ 1200
  limitations_length : additionalLimitations.length ≤ 3

/-- What the OpenAI client is answered: it fails with a `TimeoutError` or an `APIError`, or it gets a response with
its choices, each with its `finish_reason` and the content of its message. -/
inductive Completion where
  | failed
  | response (choices : List (String × Option String))
  deriving DecidableEq

section Models
variable {F : Type} [PydanticJson F]

/-- `CachedInsight(...)` -/
def CachedInsight.build (summary : String) (additionalLimitations : List String) : Option CachedInsight :=
  if summary_length : 1 ≤ summary.length ∧ summary.length ≤ 1200 then
    if limitations_length : additionalLimitations.length ≤ 3 then
      some { summary, additionalLimitations, summary_length, limitations_length }
    else none
  else none

variable (F) in
/-- `_CachedInsight.model_validate_json` -/
def CachedInsight.modelValidateJson (text : String) : Option CachedInsight := do
  let members ← ownMembers ["schema_version", "summary", "additional_limitations"] (PydanticJson.loads (F := F) text)
  let schemaVersion ← (Json.get? "schema_version" members).bind PydanticJson.intField
  let summary ← (Json.get? "summary" members).bind textValue
  let additionalLimitations ← textListValue (Json.get? "additional_limitations" members)
  if schemaVersion = 1 then CachedInsight.build summary additionalLimitations else none

variable (F) in
/-- `model_dump_json`, of a `_CachedInsight` -/
def CachedInsight.modelDumpJson (insight : CachedInsight) : String :=
  PydanticJson.dumps (F := F) (.object [
    (.text "schema_version", .int 1),
    (.text "summary", .text insight.summary),
    (.text "additional_limitations", .array (insight.additionalLimitations.map Json.text))])

variable [UnicodeDatabase]

/-- `_DeepSeekOutput(...)` -/
def DeepSeekOutput.build (summary : String) (additionalLimitations : List String) : Option DeepSeekOutput :=
  if summary_length : 20 ≤ summary.length ∧ summary.length ≤ 1200 then
    if limitations_length : additionalLimitations.length ≤ 3 then
      if clean : searchForbidden none (" ".intercalate (summary :: additionalLimitations)).toList = false then
        if visible : ∀ limitation ∈ additionalLimitations, Text.strip limitation ≠ "" then
          some { summary, additionalLimitations, summary_length, limitations_length, clean, visible }
        else none
      else none
    else none
  else none

variable (F) in
/-- `_DeepSeekOutput.model_validate_json` -/
def DeepSeekOutput.modelValidateJson (text : String) : Option DeepSeekOutput := do
  let members ← ownMembers ["summary", "additional_limitations"] (PydanticJson.loads (F := F) text)
  let summary ← (Json.get? "summary" members).bind textValue
  let additionalLimitations ← textListValue (Json.get? "additional_limitations" members)
  DeepSeekOutput.build summary additionalLimitations

variable (F) in
/-- `DeepSeekInsightGenerator.generate`, by what the client is answered -/
def deepSeekGenerate : Completion → Except Error GeneratedInsight
  | .failed => .error (.insightGeneration "DeepSeek request failed")
  | .response [] => .error (.insightGeneration "DeepSeek response did not complete")
  | .response ((finishReason, content) :: _) =>
    if finishReason ≠ "stop" then .error (.insightGeneration "DeepSeek response did not complete")
    else
      let content := content.getD ""
      if content = "" then .error (.insightGeneration "DeepSeek response was empty")
      else match DeepSeekOutput.modelValidateJson F content with
        | none => .error (.insightGeneration "DeepSeek response failed structured validation")
        | some parsed => .ok {
            summary := Text.strip parsed.summary
            additionalLimitations := parsed.additionalLimitations.map Text.strip }

end Models

/-- The circumstances of one call: when its commands arrive at Redis and which of them fail. -/
structure InsightCircumstances where
  readAt : ℚ
  readFails : Bool
  storedAt : ℚ
  write : Write
  deriving DecidableEq

/-- A `CachedInsightGenerator`, whose `__init__` refuses other values; the namespace is the normalized one, and
`digest` the SHA-256 digest of the serialized input. -/
structure CachedInsightGenerator (F : Type) where
  generatorName : String
  modelName : String
  promptVersion : String
  digest : InsightInput F → String
  ttlSeconds : Int
  namespace_ : String
  ttl_pos : 0 < ttlSeconds
  namespace_ne : namespace_ ≠ ""

namespace CachedInsightGenerator
variable {F : Type} [PydanticJson F]

/-- `_key` -/
def key (cache : CachedInsightGenerator F) (insightInput : InsightInput F) : String :=
  let identity := ":".intercalate [cache.generatorName, cache.modelName, cache.promptVersion]
  cache.namespace_ ++ ":v1:" ++ identity ++ ":" ++ cache.digest insightInput

variable (F) in
/-- An entry of Redis: `none` when there is none or it is corrupt. -/
def readEntry (store : CacheStore) (key : String) : Except Error (Option CachedInsight) :=
  match Redis.get store key with
  | none => .ok none
  | some bytes =>
    match String.fromUTF8? bytes with
    | none => .error .unicodeDecodeError
    | some text => .ok (CachedInsight.modelValidateJson F text)

/-- `generate`; a `ValidationError` is a `ValueError`, of whose text the model's name is kept. -/
def generate (cache : CachedInsightGenerator F) (generator : InsightInput F → Except Error GeneratedInsight)
    (circumstances : InsightCircumstances) (insightInput : InsightInput F) (store : CacheStore) :
    Except Error GeneratedInsight × CacheStore :=
  let key := cache.key insightInput
  let store := Redis.advance circumstances.readAt store
  let cached := if circumstances.readFails then .ok none else readEntry F store key
  match cached with
  | .error e => (.error e, store)
  | .ok (some parsed) => (.ok ⟨parsed.summary, parsed.additionalLimitations⟩, store)
  | .ok none =>
    match generator insightInput with
    | .error e => (.error e, store)
    | .ok generated =>
      if circumstances.readFails then (.ok generated, store)
      else match CachedInsight.build generated.summary generated.additionalLimitations with
        | none => (.error (.valueError "_CachedInsight"), store)
        | some insight =>
          let payload := insight.modelDumpJson F
          (.ok generated,
            if circumstances.write.reaches then
              Redis.setEx circumstances.storedAt store key payload.toUTF8 cache.ttlSeconds
            else store)

end CachedInsightGenerator
end LedgerLens
