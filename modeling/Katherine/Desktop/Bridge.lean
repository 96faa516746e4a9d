import Katherine.Desktop.UseChat
import Katherine.Runtime.Lifecycle
import Katherine.Runtime.Send

/-!
# A message through the bridge

Both ends of a call of `send_message`. `DesktopApi` of `backend/desktop/api.py` checks the arguments
before the runtime is asked, and turns what the runtime returns into a payload;
`sendMessageViaBridge` of `frontend/src/lib/desktopBridge.js` turns the payload into what the chat
hook awaits. `load_history` is here for the rows that the hook starts with.

The bridge is stricter than the runtime and the store are: what it lets through neither of them
refuses for its shape (`sendArguments_accepted`).
-/

namespace Katherine.Desktop

open Py

/-! ## Arguments -/

/-- `_valid_history_limit`. -/
def validHistoryLimit : PyVal → Bool
  | .int limit => decide (1 ≤ limit) && decide (limit ≤ 500)
  | _ => false

/-- `_valid_request_id`. -/
def validRequestId : PyVal → Bool
  | .str requestId => !requestId.isEmpty && decide (requestId.length ≤ 128) && requestId.all Local.isIdentChar
  | _ => false

/-- `_MESSAGE_FORBIDDEN_CONTROL`. -/
def isForbiddenControl (c : CodePoint) : Bool := decide (c.val < 0x20) && !decide (c.val ∈ [9, 10, 13])

/-- `_valid_message`. -/
def validMessage : PyVal → Bool
  | .str message => !(strip message).isEmpty && decide (message.length ≤ 10000) && !message.any isForbiddenControl
  | _ => false

/-- `DesktopApiError`. -/
structure ApiError where
  code : PyStr
  message : PyStr

def ApiError.payload (e : ApiError) : List (PyKey × PyVal) :=
  [(.str (py "ok"), .bool false), (.str (py "code"), .str e.code), (.str (py "message"), .str e.message)]

def invalidInput (message : String) : ApiError := ⟨py "invalid_input", py message⟩

/-- `_ERROR_INTERNAL`, for whatever the bridge does not expect. -/
def internalError : ApiError :=
  ⟨py "internal_error", py "The desktop bridge failed to complete the request."⟩

/-- The checks of `send_message`. -/
def sendArguments : List PyVal → Except ApiError (PyVal × PyVal)
  | [requestId, message] =>
      if !validRequestId requestId then
        .error (invalidInput "send_message() received an invalid request id.")
      else if !validMessage message then
        .error (invalidInput "send_message() received an invalid message.")
      else .ok (requestId, message)
  | _ => .error (invalidInput "send_message() takes exactly two arguments.")

/-- The checks of `load_history`, and its default. -/
def historyLimit : List PyVal → Except ApiError PyVal
  | [] => .ok (.int 50)
  | [limit] =>
      if validHistoryLimit limit then .ok limit
      else .error (invalidInput "load_history() received an invalid limit.")
  | _ => .error (invalidInput "load_history() takes at most one argument.")

/-- **What the bridge lets through** is a text for a text, and passes the early checks of the runtime
and the checks of the store. -/
theorem sendArguments_accepted {args : List PyVal} {requestId message : PyVal}
    (h : sendArguments args = .ok (requestId, message)) : args = [requestId, message] ∧
      ∃ id text, requestId = .str id ∧ message = .str text ∧
        Runtime.validateTurn requestId message = .ok (id, text) ∧
        Local.validateRequestId requestId = .ok id ∧
        Local.validateMessage message "user_message" = .ok text := by
  unfold sendArguments at h
  split at h
  · rename_i requestId' message'
    split at h
    · cases h
    · rename_i hid
      split at h
      · cases h
      · rename_i hmessage
        cases h
        rw [Bool.not_eq_true', Bool.not_eq_false] at hid hmessage
        refine ⟨rfl, ?_⟩
        cases requestId with
        | str id =>
            cases message with
            | str text =>
                simp only [validRequestId, validMessage, Bool.and_eq_true, Bool.not_eq_true', decide_eq_true_eq] at hid hmessage
                obtain ⟨⟨hne, hlength⟩, hchars⟩ := hid
                obtain ⟨⟨hblank, hsize⟩, -⟩ := hmessage
                have htext : text.isEmpty = false := by
                  cases text with
                  | nil => cases hblank
                  | cons c text => rfl
                refine ⟨id, text, rfl, rfl, ?_, ?_, ?_⟩
                · simp [Runtime.validateTurn, PyVal.str?, Option.filter, hne, htext, Local.maxRequestIdLength, hlength,
                    Local.maxMessageLength, hsize, hchars, pure, Except.pure]
                · simpa [Local.validateRequestId, PyVal.str?, Option.filter, hne, Local.maxRequestIdLength, hlength,
                    pure, Except.pure] using hchars
                · simp [Local.validateMessage, PyVal.str?, Option.filter, htext, Local.maxMessageLength, hsize, pure,
                    Except.pure]
            | _ => cases hmessage
        | _ => cases hid
  · cases h

/-! ## Payloads -/

open Lifecycle (LocalErrorCode)

/-- `LocalErrorCode.value`. -/
def errorValue : LocalErrorCode → PyStr
  | .timeout => py "timeout"
  | .rateLimited => py "rate_limited"
  | .serviceUnavailable => py "service_unavailable"
  | .validation => py "validation"
  | .requestReplay => py "request_replay"
  | .requestConflict => py "request_conflict"
  | .configuration => py "configuration"
  | .storage => py "storage"
  | .unknown => py "unknown"

/-- `_message_for`. -/
def messageFor : LocalErrorCode → PyStr
  | .timeout => py "A requisição excedeu o tempo limite."
  | .rateLimited => py "Muitas requisições. Aguarde um momento e tente novamente."
  | .serviceUnavailable => py "Serviço temporariamente indisponível. Tente novamente mais tarde."
  | .validation => py "Dados inválidos enviados."
  | .requestReplay => py "Este envio já foi recebido, mas a resposta não pode ser recuperada."
  | .requestConflict => py "Este envio não pôde ser reconciliado. Envie a mensagem novamente."
  | .configuration => py "O provedor remoto não está configurado neste ambiente."
  | .storage => py "O armazenamento local não está disponível."
  | .unknown => py "Erro ao falar com a Katherine. Tente novamente."

/-- `runtime_error_code`, of what the store raises. -/
def storeErrorCode : Local.Err → LocalErrorCode
  | .validation _ _ => .validation
  | .conflict _ _ _ _ _ => .requestConflict
  | .persistence _ _ => .storage
  | _ => .unknown

/-- `TurnResult.to_payload`, of a success. -/
def successPayload (r : Runtime.TurnResult) : List (PyKey × PyVal) :=
  [(.str (py "success"), .bool r.success), (.str (py "response"), r.response),
    (.str (py "emotion_state"), .dict r.emotionState), (.str (py "message_id"), .str r.messageId),
    (.str (py "revision"), .int r.revision),
    (.str (py "duration_ms"), r.durationMs.elim .none fun n => .int n), (.str (py "replayed"), .bool r.replayed)]

/-- `TurnResult.to_payload`, of a failure. -/
def failurePayload (code : LocalErrorCode) : List (PyKey × PyVal) :=
  [(.str (py "success"), .bool false), (.str (py "error_code"), .str (errorValue code)),
    (.str (py "error_message"), .str (messageFor code))]

/-- `payload.get(key) is b`, as `payload.key === b`. -/
def isBool (b : Bool) : Option PyVal → Bool
  | some (.bool b') => decide (b = b')
  | _ => false

/-- What `send_message` returns of the runtime's payload: `success` again, as `ok`. -/
def sendPayload (payload : List (PyKey × PyVal)) : List (PyKey × PyVal) :=
  payload ++ [(.str (py "ok"), .bool (isBool true (dictGet payload (py "success"))))]

/-! ## The page -/

/-- A value as the page gets it. Of numbers with a fraction, lists and objects nothing is read. -/
def toJs : PyVal → JsVal
  | .none => .null
  | .bool b => .bool b
  | .int i => .integer i
  | .str s => .string s
  | _ => .other 0

/-- A value as the bridge gets it. -/
def ofJs : JsVal → PyVal
  | .undefined => .none
  | .null => .none
  | .bool b => .bool b
  | .integer i => .int i
  | .string s => .str s
  | .other _ => .dict []

def isString : Option PyVal → Bool
  | some (.str _) => true
  | _ => false

/-- `isPlainObject`. -/
def isPlainObject : Option PyVal → Bool
  | some (.dict _) => true
  | _ => false

/-- `BRIDGE_CODE_TO_CHAT_ERROR`. -/
def bridgeCodes : List (PyStr × ChatErrorType) :=
  [(py "timeout", .timeout), (py "rate_limited", .rateLimited), (py "service_unavailable", .serviceUnavailable),
    (py "storage", .serviceUnavailable), (py "validation", .validation), (py "request_replay", .requestReplay),
    (py "request_conflict", .requestConflict), (py "configuration", .configuration)]

/-- `CHAT_ERROR_MESSAGES`. -/
def chatErrorMessage : ChatErrorType → JsVal
  | .timeout => js "A requisição excedeu o tempo limite."
  | .rateLimited => js "Muitas requisições. Aguarde um momento e tente novamente."
  | .serviceUnavailable => js "Serviço temporariamente indisponível. Tente novamente mais tarde."
  | .validation => js "Dados inválidos enviados."
  | .requestReplay => js "Este envio já foi recebido, mas a resposta não pode ser recuperada."
  | .requestConflict => js "Este envio não pôde ser reconciliado. Tentar novamente reutilizará o mesmo envio."
  | .configuration => js "O provedor remoto não está configurado neste ambiente."
  | .unknown => js "Erro ao falar com a Katherine. Tente novamente."

/-- `new ChatError(type, CHAT_ERROR_MESSAGES[type])`. -/
def chatError (type : ChatErrorType) : Settlement := .chatError type (chatErrorMessage type)

/-- The code of `bridgeCodeToChatError`: that of the runtime, or else that of the bridge. -/
def payloadCode (payload : List (PyKey × PyVal)) : PyStr :=
  match dictGet payload (py "error_code"), dictGet payload (py "code") with
  | some (.str code), _ => code
  | _, some (.str code) => code
  | _, _ => py "unknown"

/-- `bridgeCodeToChatError`. -/
def bridgeCodeToChatError (payload : List (PyKey × PyVal)) : Settlement :=
  chatError ((bridgeCodes.lookup (payloadCode payload)).getD .unknown)

/-- A payload says that the call succeeded. -/
def succeeded (payload : List (PyKey × PyVal)) : Bool :=
  isBool true (dictGet payload (py "ok")) && isBool true (dictGet payload (py "success"))
    && isString (dictGet payload (py "response")) && isPlainObject (dictGet payload (py "emotion_state"))

/-- `payload.message_id`, if it is a text. -/
def messageIdOf (payload : List (PyKey × PyVal)) : JsVal :=
  match dictGet payload (py "message_id") with
  | some (.str id) => .string id
  | _ => .undefined

/-- `role` of a row, as `load_recent_history` returns it. -/
def roleText : Local.Role → PyStr
  | .user => py "user"
  | .assistant => py "assistant"

/-- A row of `load_history`, as the hook gets it. -/
def historyRow (r : Local.HistoryRow) : Row where
  id := some (.integer r.id)
  role := some (.string (roleText r.role))
  content := some (.string r.content)

section

/- What `validateEmotionState` makes of the `emotion_state` of an answer. -/
variable (emotion : PyVal → JsVal)

/-- `sendMessageViaBridge`, from the payload on. -/
def settlementOf (payload : List (PyKey × PyVal)) : Settlement :=
  if succeeded payload then
    .resolved
      { messageId := messageIdOf payload
        response := ((dictGet payload (py "response")).map toJs).getD .undefined
        emotion := emotion ((dictGet payload (py "emotion_state")).getD .none) }
  else if isBool false (dictGet payload (py "ok")) || isBool false (dictGet payload (py "success")) then
    bridgeCodeToChatError payload
  else chatError .unknown

/-- Only a text is shown as an answer, and it is that of the payload. -/
theorem response_of_resolved {payload : List (PyKey × PyVal)} {data : Data}
    (h : settlementOf emotion payload = .resolved data) :
    ∃ response, dictGet payload (py "response") = some (.str response) ∧ data.response = .string response := by
  unfold settlementOf at h
  split at h
  · rename_i hsucceeded
    cases h
    simp only [succeeded, Bool.and_eq_true] at hsucceeded
    cases hresponse : dictGet payload (py "response") with
    | none =>
        rw [hresponse] at hsucceeded
        exact absurd hsucceeded.1.2 Bool.false_ne_true
    | some v =>
        rw [hresponse] at hsucceeded
        cases v with
        | str response => exact ⟨response, rfl, rfl⟩
        | _ => exact absurd hsucceeded.1.2 Bool.false_ne_true
  · split at h
    all_goals cases h

/-- A turn that succeeded with a text is resolved with it. -/
theorem settlementOf_success {r : Runtime.TurnResult} {response : PyStr} (hsuccess : r.success = true)
    (hresponse : r.response = .str response) :
    settlementOf emotion (sendPayload (successPayload r)) =
      .resolved ⟨.string r.messageId, .string response, emotion (.dict r.emotionState)⟩ := by
  obtain ⟨success, response', emotionState, messageId, revision, durationMs, replayed⟩ := r
  cases hsuccess
  cases hresponse
  rfl

/-- A failure is never shown as an answer. -/
theorem settlementOf_failure (code : LocalErrorCode) :
    settlementOf emotion (sendPayload (failurePayload code)) =
      chatError ((bridgeCodes.lookup (errorValue code)).getD .unknown) := by
  rfl

theorem settlementOf_apiError (e : ApiError) (data : Data) : settlementOf emotion e.payload ≠ .resolved data := by
  intro h
  obtain ⟨response, hresponse, -⟩ := response_of_resolved emotion h
  cases hresponse

end

end Katherine.Desktop
