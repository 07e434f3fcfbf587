import PostCall.Machine.Accounts
import PostCall.Model.LlmClient

/-!
# What an answer took

An answer of the provider is paid for by the `usage` of its envelope, whatever becomes of it. The
client overwrites the `usage` of an analysis with that of the envelope, so that the analysis of an
answer has used what the answer took, and the language model, which writes the content, has no say in
it.
-/

namespace PostCall.Machine
open PostCall.Library PostCall.Python PostCall.Model LLMWorkerService

variable {cfg : Settings} {client : LLMClient} {post : LLMRequest → HttpAnswer} {prompt : String}
  {response : Dict}

/-- The `usage.total_tokens` of the body of a response. -/
def envelopeTokens : Json → Number
  | .dict data =>
    match Dict.getD data "usage" (.dict []) with
    | .dict usage => asCount (Dict.getD usage "total_tokens" (.int 0))
    | _ => .int 0
  | _ => .int 0

/-- The tokens that a call takes, by its envelope: the content of the answer is not read. -/
def metered (client : LLMClient) (cfg : Settings) (post : LLMRequest → HttpAnswer)
    (prompt : String) : Number :=
  if client.isMock then .int 1500
  else
    match post (client.request cfg prompt) with
    | .response r =>
      match r.json with
      | .ok data => envelopeTokens data
      | .error _ => .int 0
    | _ => .int 0

/-- The provider answered a call, with whatever status and body. -/
def providerAnswered (client : LLMClient) (cfg : Settings) (post : LLMRequest → HttpAnswer)
    (prompt : String) : Bool :=
  client.isMock ||
    match post (client.request cfg prompt) with
    | .response _ => true
    | _ => false

/-- The call gave an analysis. -/
def gaveAnalysis : ProviderOutcome → Bool
  | .returns _ => true
  | _ => false

/-- The analysis can be read, and has used these tokens. -/
structure Costs (cfg : Settings) (response : Dict) (tokens : Number) : Prop where
  isOk : (parseResponse cfg response).isOk
  tokens : totalTokens cfg response = tokens

/-- An analysis has used what its `usage` says. -/
lemma costs_of_usage {total : Json}
    (usage : Dict.get? response "usage" = some (.dict [("total_tokens", total)])) :
    Costs cfg response (asCount total) := by
  have read : parseResponse cfg response = .ok {
      callStage := response.getD "call_stage" (.str "unknown")
      entities := response.getD "entities" (.dict [])
      summary := response.getD "summary" (.str "")
      rawResponse := response
      tokensUsed := total
      provider := cfg.llmProvider
      model := cfg.llmModel } := by
    simp only [parseResponse, Dict.getD, usage]
    rfl
  refine ⟨by rw [read]; rfl, ?_⟩
  rw [totalTokens, read]

lemma costs_mock : Costs cfg LLMClient.mockAnalysis (.int 1500) :=
  @costs_of_usage cfg LLMClient.mockAnalysis (.int 1500) rfl

/-- Whatever the content is, the analysis has the usage of the envelope. -/
lemma costs_of_analysis {data : Json} (h : client.analysis data = .ok response) :
    Costs cfg response (envelopeTokens data) := by
  unfold LLMClient.analysis at h
  obtain ⟨choices, item, h⟩ := Program.except_ok.1 h
  obtain ⟨choice, _, h⟩ := Program.except_ok.1 h
  obtain ⟨message, _, h⟩ := Program.except_ok.1 h
  obtain ⟨content, _, h⟩ := Program.except_ok.1 h
  obtain ⟨body, isBody, h⟩ := Program.except_ok.1 h
  obtain ⟨parsed, _, h⟩ := Program.except_ok.1 h
  obtain ⟨usage, isUsage, h⟩ := Program.except_ok.1 h
  -- what was subscripted is an object, and so is the usage whose `get` is called
  cases data with
  | dict items =>
    cases isBody
    have tokens : envelopeTokens (.dict body) = asCount (usage.getD "total_tokens" (.int 0)) := by
      rw [envelopeTokens]
      cases e : Dict.getD body "usage" (.dict []) with
      | dict entries =>
        rw [e] at isUsage
        cases isUsage
        rfl
      | _ => rw [e] at isUsage; cases isUsage
    cases parsed with
    | dict entries =>
      cases h
      rw [tokens]
      exact costs_of_usage (by rw [Dict.get?_set, if_pos rfl])
    | _ => cases h
  | _ => cases isBody

/-- A response is read as an analysis if its status is one of success and its body has one. -/
lemma of_read {r : LLMHttpResponse} (h : client.read r = .returns response) :
    ∃ data, r.json = .ok data ∧ client.analysis data = .ok response := by
  unfold LLMClient.read at h
  split at h
  case isTrue => cases h
  case isFalse =>
    split at h
    case isTrue => cases h
    case isFalse =>
      split at h
      case h_1 => cases h
      case h_2 data body =>
        split at h
        case h_2 => cases h
        case h_1 analysed =>
          cases h
          exact ⟨data, body, analysed⟩

/-- The analysis of an answer has used what the answer took. -/
lemma costs_of_returns (h : client.analyzeCall cfg post prompt = .returns response) :
    Costs cfg response (metered client cfg post prompt) := by
  unfold LLMClient.analyzeCall at h
  unfold metered
  split at h
  case isTrue mock =>
    cases h
    rw [if_pos mock]
    exact costs_mock
  case isFalse real =>
    rw [if_neg real]
    split at h
    case h_1 => cases h
    case h_2 => cases h
    case h_3 r answer =>
      obtain ⟨data, body, analysed⟩ := of_read h
      simp only [answer, body]
      exact costs_of_analysis analysed

/-- An analysis is made of an answer. -/
lemma providerAnswered_of_returns (h : client.analyzeCall cfg post prompt = .returns response) :
    providerAnswered client cfg post prompt := by
  unfold LLMClient.analyzeCall at h
  unfold providerAnswered
  split at h
  case isTrue mock => rw [mock, Bool.true_or]
  case isFalse =>
    split at h
    case h_1 => cases h
    case h_2 => cases h
    case h_3 r answer => rw [answer, Bool.or_true]

end PostCall.Machine
