import LedgerLens.Library.Asgi
import LedgerLens.Library.Json
import LedgerLens.Library.Program

namespace LedgerLens
open Asgi

/-- What an application ends with if it does not return; `except Exception` leaves other exceptions alone. -/
inductive Raised where
  | exception (typeName : String)
  | baseException
  deriving DecidableEq

/-- A computation that can send messages on, which the server receives in their order. -/
abbrev Sending := Program (List Message) Raised PUnit

abbrev Send := Message → Sending

/-- An application, for a request that is fixed. -/
abbrev App := Send → Sending

/-- What the server is handed as `send`. -/
def deliver : Send := fun message => Program.modify (· ++ [message])

/-- The parts of a scope that are read. -/
structure Scope where
  type : String
  headers : List (Bytes × Bytes) := []

/-- What Starlette makes of the content of a response, and what `str(UUID(...))` makes of the bytes of a header
(none where it is not ASCII or no UUID). -/
class WebText where
  render : Json Empty → Bytes
  rawHeaders : Bytes → List (Bytes × Bytes)
  canonicalUuid : Bytes → Option String

/-- `encode`, of an ASCII text -/
def ascii (text : String) : Bytes := text.toByteArray.data.toList

/-- `lower`, of bytes -/
def lowerBytes (bytes : Bytes) : Bytes := bytes.map fun byte => if 65 ≤ byte ∧ byte ≤ 90 then byte + 32 else byte

/-- `REQUEST_ID_HEADER.lower()` -/
def requestIdHeader : String := "x-request-id"

/-- The header that carries the request id. -/
def requestIdEntry (requestId : String) : Bytes × Bytes := (ascii requestIdHeader, ascii requestId)

section Middleware
variable [WebText]

/-- The loop of `_request_id_from_scope`; `generated` is what `uuid4` gives. -/
def requestIdFromHeaders (generated : String) : List (Bytes × Bytes) → String
  | [] => generated
  | (rawName, rawValue) :: rest =>
    if lowerBytes rawName ≠ ascii requestIdHeader then requestIdFromHeaders generated rest
    else (WebText.canonicalUuid rawValue).getD generated

/-- `_request_id_from_scope` -/
def requestIdFromScope (generated : String) (scope : Scope) : String :=
  requestIdFromHeaders generated scope.headers

def sendWithRequestId (requestId : String) (send : Send) : Send
  | .start status headers => send (.start status (headers ++ [requestIdEntry requestId]))
  | .body content moreBody => send (.body content moreBody)

/-- The content of the response to an unhandled error. -/
def internalError : Json Empty :=
  .object [(.text "error", .object [
    (.text "code", Json.text "internal_error"),
    (.text "message", Json.text "an unexpected error occurred")])]

/-- `JSONResponse`, as an application -/
def jsonResponse (statusCode : Int) (content : Json Empty) : App := fun send => do
  send (.start statusCode (WebText.rawHeaders (WebText.render content)))
  send (.body (WebText.render content) false)

/-- `RequestObservabilityMiddleware.__call__` -/
def observe (generated : String) (scope : Scope) (app : App) : App := fun send =>
  if scope.type ≠ "http" then app send
  else do
    let requestId := requestIdFromScope generated scope
    match ← (app (sendWithRequestId requestId send)).attempt with
    | .ok _ => pure ⟨⟩
    | .error .baseException => .raise .baseException
    | .error (.exception _) => jsonResponse 500 internalError (sendWithRequestId requestId send)

end Middleware

/-- What an inner application can do: send a response or the first part of one, then return or raise. -/
structure Behaviour where
  messages : List Message
  outcome : Except Raised PUnit
  valid : ResponsePrefix messages

def Behaviour.app (behaviour : Behaviour) : App := fun send => do
  behaviour.messages.forM send
  .lift behaviour.outcome

/-- A message as it is forwarded. -/
def withRequestId (requestId : String) : Message → Message
  | .start status headers => .start status (headers ++ [requestIdEntry requestId])
  | .body content moreBody => .body content moreBody

theorem sendWithRequestId_run (requestId : String) (message : Message) (sent : List Message) :
    (sendWithRequestId requestId deliver message).run sent =
      (.ok ⟨⟩, sent ++ [withRequestId requestId message]) := by
  cases message <;> rfl

theorem forM_sendWithRequestId (requestId : String) (messages sent : List Message) :
    (messages.forM (sendWithRequestId requestId deliver)).run sent =
      (.ok ⟨⟩, sent ++ messages.map (withRequestId requestId)) := by
  induction messages generalizing sent with
  | nil => rw [List.map_nil, List.append_nil]; rfl
  | cons message rest ih =>
    change (Program.run (_ >>= fun _ => rest.forM _) sent) = _
    rw [Program.bind_ok (sendWithRequestId_run requestId message sent), ih, List.map_cons, List.append_assoc]
    rfl

theorem withRequestId_next (requestId : String) (phase : Phase) (message : Message) :
    phase.next (withRequestId requestId message) = phase.next message := by
  cases phase <;> cases message <;> rfl

theorem withRequestId_identified {requestId : String} {messages : List Message} {status : Int}
    {headers : List (Bytes × Bytes)} (sent : .start status headers ∈ messages.map (withRequestId requestId)) :
    ∃ original, headers = original ++ [requestIdEntry requestId] := by
  obtain ⟨message, _, same⟩ := List.mem_map.mp sent
  cases message with
  | start _ original =>
    cases same
    exact ⟨original, rfl⟩
  | body => cases same

theorem isStart_withRequestId (requestId : String) (message : Message) :
    (withRequestId requestId message).isStart = message.isStart := by
  cases message <;> rfl

theorem responsePrefix_withRequestId (requestId : String) {messages : List Message} (valid : ResponsePrefix messages) :
    ResponsePrefix (messages.map (withRequestId requestId)) := by
  rw [ResponsePrefix, Phase.after_map (withRequestId_next requestId)]
  exact valid

section Forwarding
variable [WebText]

/-- The generic response, as it is forwarded. -/
def genericResponse (requestId : String) : List Message :=
  [.start 500 (WebText.rawHeaders (WebText.render internalError) ++ [requestIdEntry requestId]),
    .body (WebText.render internalError) false]

/-- What the middleware sends itself when the application is done. -/
def finalMessages (requestId : String) : Except Raised PUnit → List Message
  | .error (.exception _) => genericResponse requestId
  | _ => []

theorem finalMessages_of_not_exception {requestId : String} {outcome : Except Raised PUnit}
    (spared : ¬ ∃ typeName, outcome = .error (.exception typeName)) : finalMessages requestId outcome = [] := by
  match outcome with
  | .ok _ | .error .baseException => rfl
  | .error (.exception typeName) => exact absurd ⟨typeName, rfl⟩ spared

/-- What the server receives: the messages of the application, and after an exception those of another response. -/
theorem observe_run {scope : Scope} (http : scope.type = "http") (generated : String) (behaviour : Behaviour) :
    ((observe generated scope behaviour.app deliver).run []).2 =
      behaviour.messages.map (withRequestId (requestIdFromScope generated scope)) ++
        finalMessages (requestIdFromScope generated scope) behaviour.outcome := by
  have inner : (behaviour.app (sendWithRequestId (requestIdFromScope generated scope) deliver)).attempt.run [] =
      (.ok behaviour.outcome, behaviour.messages.map (withRequestId (requestIdFromScope generated scope))) := by
    rw [Program.attempt_run, Behaviour.app, Program.bind_ok (forM_sendWithRequestId _ _ _)]
    rfl
  simp only [observe, http, ne_eq, not_true_eq_false, if_false]
  rw [Program.bind_ok inner]
  match behaviour.outcome with
  | .ok _ | .error .baseException => exact (List.append_nil _).symm
  | .error (.exception _) => exact List.append_assoc _ _ _

/-- What a response must be that comes from an application behaving so. -/
structure WellFormedResponse (requestId : String) (behaviour : Behaviour) (forwarded : List Message) : Prop where
  one_start : (forwarded.filter Message.isStart).length ≤ 1
  nothing_after : ∀ before final rest, forwarded = before ++ final :: rest → final.isFinal → rest = []
  identified : ∀ status headers, .start status headers ∈ forwarded →
    ∃ original, headers = original ++ [requestIdEntry requestId]
  generic : (∃ typeName, behaviour.outcome = .error (.exception typeName)) →
    (∀ message ∈ behaviour.messages, ¬ message.isStart) → forwarded = genericResponse requestId

theorem genericResponse_identified {requestId : String} {status : Int} {headers : List (Bytes × Bytes)}
    (sent : .start status headers ∈ genericResponse requestId) :
    ∃ original, headers = original ++ [requestIdEntry requestId] := by
  rcases List.mem_cons.mp sent with same | other
  · cases same
    exact ⟨_, rfl⟩
  · cases List.mem_singleton.mp other

/-- What is forwarded is a well-formed response, except after an exception in the midst of one. -/
theorem observe_well_formed_iff {scope : Scope} (http : scope.type = "http") (generated : String)
    (behaviour : Behaviour) :
    WellFormedResponse (requestIdFromScope generated scope) behaviour
        ((observe generated scope behaviour.app deliver).run []).2 ↔
      ¬ ((∃ typeName, behaviour.outcome = .error (.exception typeName)) ∧
        ∃ message ∈ behaviour.messages, message.isStart) := by
  rw [observe_run http]
  generalize requestIdFromScope generated scope = requestId
  have forwarded := responsePrefix_withRequestId requestId behaviour.valid
  by_cases failed : ∃ typeName, behaviour.outcome = .error (.exception typeName)
  · obtain ⟨typeName, outcome⟩ := failed
    rw [outcome, finalMessages]
    by_cases begun : ∃ message ∈ behaviour.messages, message.isStart
    · refine iff_of_false (fun response => ?_) (not_not.mpr ⟨⟨typeName, rfl⟩, begun⟩)
      -- The start of the generic response is a second one.
      obtain ⟨message, member, start⟩ := begun
      have first : withRequestId requestId message ∈
          (behaviour.messages.map (withRequestId requestId)).filter Message.isStart :=
        List.mem_filter.mpr ⟨List.mem_map_of_mem member, (isStart_withRequestId requestId message).trans start⟩
      have count := response.one_start
      rw [List.filter_append, List.length_append] at count
      have second : ((genericResponse requestId).filter Message.isStart).length = 1 := rfl
      have positive := List.length_pos_of_mem first
      simp only [second] at count
      omega
    · have silent : behaviour.messages = [] :=
        not_not.mp fun nonempty => begun (behaviour.valid.exists_isStart nonempty)
      refine iff_of_true ?_ fun both => begun both.2
      rw [silent, List.map_nil, List.nil_append]
      have valid : ResponsePrefix (genericResponse requestId) := rfl
      exact ⟨valid.starts_le_one, fun _ _ _ split => (split ▸ valid).nothing_after,
        fun _ _ => genericResponse_identified, fun _ _ => rfl⟩
  · refine iff_of_true ?_ fun both => failed both.1
    rw [finalMessages_of_not_exception failed, List.append_nil]
    exact ⟨forwarded.starts_le_one, fun _ _ _ split => (split ▸ forwarded).nothing_after,
      fun _ _ => withRequestId_identified, fun raised => absurd raised failed⟩

end Forwarding

section Samples

def sampleId : String := "30000000-0000-4000-8000-000000000003"

/-- The generic response as Starlette renders it, and requests without a usable id of their own. -/
local instance sampleText : WebText where
  render _ := ascii "\x7b\"error\":\x7b\"code\":\"internal_error\",\"message\":\"an unexpected error occurred\"\x7d\x7d"
  rawHeaders body :=
    [(ascii "content-length", ascii (toString body.length)), (ascii "content-type", ascii "application/json")]
  canonicalUuid _ := none

/-- An application that raises after some messages. -/
def failing (messages : List Message) (valid : ResponsePrefix messages) : Behaviour :=
  ⟨messages, .error (.exception "RuntimeError"), valid⟩

def sampleScope : Scope := ⟨"http", []⟩

theorem second_start_is_sent :
    (((observe sampleId sampleScope (failing [.start 200 []] rfl).app deliver).run []).2.filter
      Message.isStart).length = 2 := by
  decide +kernel

theorem sample_observe :
    WellFormedResponse sampleId (failing [] rfl)
      ((observe sampleId sampleScope (failing [] rfl).app deliver).run []).2 :=
  have http : sampleScope.type = "http" := rfl
  (observe_well_formed_iff http sampleId (failing [] rfl)).mpr fun ⟨_, _, sent, _⟩ => nomatch sent

end Samples
end LedgerLens
