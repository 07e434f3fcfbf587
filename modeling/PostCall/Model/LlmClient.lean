import PostCall.Model.LlmWorker

/-!
# The LLM client

`src/llm/client.py`: the request of `analyze_call`, what it makes of the answer, and the wait that a
`Retry-After` header asks for. What the transport and `json.loads` do is the environment's. The
answer has two parts that come from different hands: the envelope is the provider's, and the content
of the message is whatever the language model wrote.
-/

namespace PostCall.Python

namespace Json

/-- `x[key]`, for a text. -/
def item : Json → String → Except PyError Json
  | .dict items, key =>
    match Dict.get? items key with
    | some value => .ok value
    | none => .error (.keyError s!"'{key}'")
  | .list _, _ => .error (.typeError "list indices must be integers or slices, not str")
  | .str _, _ => .error (.typeError "string indices must be integers, not 'str'")
  | j, _ => .error (.typeError s!"'{j.typeName}' object is not subscriptable")

/-- `x[0]`. -/
def first : Json → Except PyError Json
  | .list (j :: _) => .ok j
  | .list [] => .error ⟨"IndexError", "list index out of range"⟩
  | .str s =>
    match s.toList with
    | c :: _ => .ok (.str (String.ofList [c]))
    | [] => .error ⟨"IndexError", "string index out of range"⟩
  | .dict _ => .error (.keyError "0")
  | j => .error (.typeError s!"'{j.typeName}' object is not subscriptable")

/-- `x[key] = value`, for a text: the object after it. -/
def setItem : Json → String → Json → Except PyError Dict
  | .dict items, key, value => .ok (Dict.set items key value)
  | .list _, _, _ => .error (.typeError "list indices must be integers or slices, not str")
  | j, _, _ => .error (.typeError s!"'{j.typeName}' object does not support item assignment")

end Json

/-- What `json.loads` makes of a text: a value, a `JSONDecodeError`, or another exception. -/
inductive Loaded where
  | value (j : Json)
  | invalid
  | raises (e : PyError)

end PostCall.Python

namespace PostCall.Model
open PostCall.Library PostCall.Python

/-- What `client.post` sends. -/
structure LLMRequest where
  url : String
  authorization : String
  body : Json

/-- What an `httpx.Response` has: the message of its `HTTPStatusError`, if its status is not one of
success, and what `json()` makes of its body. -/
structure LLMHttpResponse where
  statusCode : ℕ
  retryAfter : Option String
  statusError : String
  json : Except PyError Json

/-- What `client.post` ends with: a response, an `httpx.HTTPError` or another exception. -/
inductive HttpAnswer where
  | response (r : LLMHttpResponse)
  | httpError (message : String)
  | raises (e : PyError)

/-- `_parse_retry_after`. -/
def parseRetryAfter : Option String → ℤ
  | none => 60
  | some value =>
    if value = "" then 60
    else
      match parseInt? 10 value.toList with
      | some n => max n 1
      | none => 60

/-- The client, with the key of `settings` and `json.loads`. -/
structure LLMClient where
  apiKey : String := "sk-mock-key-for-assessment"
  loads : String → Loaded

namespace LLMClient

/-- The client answers itself, and asks nobody. -/
def isMock (client : LLMClient) : Bool := client.apiKey = "sk-mock-key-for-assessment"

def mockAnalysis : Dict := [
  ("call_stage", .str "unknown"),
  ("entities", .dict []),
  ("summary", .str "Mock analysis result"),
  ("usage", .dict [("total_tokens", .int 1500)])]

/-- The request of `analyze_call`. -/
def request (client : LLMClient) (cfg : Settings) (prompt : String) : LLMRequest where
  url := "https://api.openai.com/v1/chat/completions"
  authorization := s!"Bearer {client.apiKey}"
  body := .dict [
    ("model", .str cfg.llmModel),
    ("messages", .list [.dict [("role", .str "user"), ("content", .str prompt)]]),
    ("response_format", .dict [("type", .str "json_object")])]

/-- `json.loads(content)`, or what stands for a content that is no JSON. -/
def parseContent (client : LLMClient) : Json → Except PyError Json
  | .str content =>
    match client.loads content with
    | .value j => .ok j
    | .invalid => .ok (.dict [
        ("call_stage", .str "unknown"),
        ("entities", .dict [("raw_content", .str content)]),
        ("summary", .str (String.ofList (content.toList.take 500)))])
    | .raises e => .error e
  | j => .error (.typeError s!"the JSON object must be str, bytes or bytearray, not {j.typeName}")

/-- The analysis that the body of a response gives. -/
def analysis (client : LLMClient) (data : Json) : Except PyError Dict := do
  let choice ← (← data.item "choices").first
  let content ← (← choice.item "message").item "content"
  let usage := (← data.asDict).getD "usage" (.dict [])
  let parsed ← client.parseContent content
  let total := (← usage.asDict).getD "total_tokens" (.int 0)
  parsed.setItem "usage" (.dict [("total_tokens", total)])

/-- What `analyze_call` makes of a response. -/
def read (client : LLMClient) (r : LLMHttpResponse) : ProviderOutcome :=
  if r.statusCode = 429 then
    .rateLimited "LLM provider rate limit exceeded" (parseRetryAfter r.retryAfter)
  else if r.statusCode < 200 ∨ 300 ≤ r.statusCode then .raises ⟨"HTTPStatusError", r.statusError⟩
  else
    match r.json with
    | .error e => .raises e
    | .ok data =>
      match client.analysis data with
      | .ok response => .returns response
      | .error e => .raises e

def analyzeCall (client : LLMClient) (cfg : Settings) (post : LLMRequest → HttpAnswer)
    (prompt : String) : ProviderOutcome :=
  if client.isMock then .returns mockAnalysis
  else
    match post (client.request cfg prompt) with
    | .httpError message => .raises ⟨"RuntimeError", s!"LLM provider request failed: {message}"⟩
    | .raises e => .raises e
    | .response r => client.read r

end LLMClient

end PostCall.Model
