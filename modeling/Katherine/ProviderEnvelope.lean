import Katherine.Domain
import Mathlib.Data.Finset.Basic
import Mathlib.Data.Finset.Card

/-!
# The gate before the provider

`backend/provider_envelope.py`. `estimate_provider_input_units` and
`validate_provider_input` say what a list of messages has to look like, and how large it
may be, before it is sent. The list comes from several builders, so it is any Python
value here.

`fit_optional_context` puts optional sections into the system message, as many as the
budget has room for. Which are tried first and where they stand are different orders, so
every try renders the system message anew.
-/

namespace Katherine.Context

open Py

/-- The codes of a `ProviderEnvelopeError`. -/
inductive EnvelopeCode
  | invalidEnvelopeType
  | serializationFailed
  | emptyMessages
  | invalidMessageStructure
  | invalidMessageKeys
  | invalidRole
  | invalidContent
  | budgetExceeded
  | noSystemMessage
deriving DecidableEq

inductive EnvelopeErr
  | envelope (code : EnvelopeCode) (actualUnits maxUnits : Nat)
  | unicodeEncode
  /-- A role that has no hash. -/
  | typeError
  /-- `ValueError`: a selection priority that is no permutation of the indices. -/
  | valueError
deriving DecidableEq

def EnvelopeErr.of (code : EnvelopeCode) : EnvelopeErr := .envelope code 0 0

/-- `VALID_ROLES`. -/
def validRoles : List PyStr := [py "system", py "user", py "assistant"]

/-- `VALID_MESSAGE_KEYS`. -/
def validMessageKeys : List PyStr := [py "role", py "content"]

mutual
/-- `hash(v)` returns; an object that is not JSON counts as one that has a hash. -/
def hashable : PyVal → Bool
  | .list _ => false
  | .dict _ => false
  | .tuple xs => hashableElems xs
  | _ => true
def hashableElems : List PyVal → Bool
  | [] => true
  | x :: xs => hashable x && hashableElems xs
end

/-- `estimate_text_units`. -/
def estimateTextUnits (text : PyStr) : Except EnvelopeErr Nat :=
  if encodable text then .ok (max 1 (utf8Len text)) else .error .unicodeEncode

/-- `estimate_provider_input_units`. -/
def estimateProviderInputUnits : PyVal → Except EnvelopeErr Nat
  | .list messages =>
      match dumpsCompact true (.list messages) with
      | some serialized => estimateTextUnits serialized
      | none => .error (.of .serializationFailed)
  | _ => .error (.of .invalidEnvelopeType)

/-- `role not in VALID_ROLES`, which takes the hash of the role. -/
def checkRole (role : PyVal) : Except EnvelopeErr Unit :=
  if hashable role then
    match role with
    | .str s => if s ∈ validRoles then .ok () else .error (.of .invalidRole)
    | _ => .error (.of .invalidRole)
  else .error .typeError

/-- The checks of one message. -/
def checkMessage : PyVal → Except EnvelopeErr Unit
  | .dict kvs => do
      if !kvs.all (PyKey.isOneOf validMessageKeys ·.1) then
        .error (.of .invalidMessageKeys)
      checkRole ((dictGet kvs (py "role")).getD .none)
      match dictGet kvs (py "content") with
      | some (.str _) => return ()
      | _ => .error (.of .invalidContent)
  | _ => .error (.of .invalidMessageStructure)

/-- `validate_provider_input`. -/
def validateProviderInput (messages : PyVal) (maxUnits : Nat) : Except EnvelopeErr Unit := do
  match messages with
  | .list [] => .error (.of .emptyMessages)
  | .list ms => ms.forM checkMessage
  | _ => .error (.of .invalidEnvelopeType)
  let units ← estimateProviderInputUnits messages
  if maxUnits < units then .error (.envelope .budgetExceeded units maxUnits) else return ()

/-! ## Optional context -/

/-- `OMISSION_MARKER`. -/
def omissionMarker : PyStr := py "[...]"

/-- `ContextFitResult`. -/
structure ContextFitResult where
  messages : List PyVal
  selectedIndices : Finset Nat
  pruned : Bool

/-- `encoded[:n].decode("utf-8", errors="ignore")`: the characters that are whole. -/
def takeBytes : Nat → PyStr → PyStr
  | _, [] => []
  | n, c :: s => if utf8Size c ≤ n then c :: takeBytes (n - utf8Size c) s else []

/-- `_truncate_utf8_safe`. -/
def truncateUtf8Safe (text : PyStr) (maxBytes : Nat) : Except EnvelopeErr (PyStr × Bool) :=
  if encodable text then
    if utf8Len text ≤ maxBytes then .ok (text, false)
    else
      let available := max (maxBytes - utf8Len omissionMarker) 1
      .ok (takeBytes available text ++ omissionMarker, true)
  else .error .unicodeEncode

/-- `msg.get("role") == "system"`. -/
def isSystem : PyVal → Bool
  | .dict kvs =>
      match dictGet kvs (py "role") with
      | some (.str role) => decide (role = py "system")
      | _ => false
  | _ => false

/-- `messages[i]["content"]`, of messages that were checked. -/
def contentAt (messages : List PyVal) (i : Nat) : PyStr :=
  match messages[i]? with
  | some (.dict kvs) =>
      match dictGet kvs (py "content") with
      | some (.str content) => content
      | _ => []
  | _ => []

/-- `{"role": "system", "content": content}`. -/
def systemVal (content : PyStr) : PyVal :=
  .dict [(.str (py "role"), .str (py "system")), (.str (py "content"), .str content)]

/-- `_append_to_system`. -/
def appendToSystem (messages : List PyVal) (payload : PyStr) : Except EnvelopeErr (List PyVal) :=
  match messages.findIdx? isSystem with
  | some i => .ok (messages.set i (systemVal (contentAt messages i ++ payload)))
  | none => .error (.of .noSystemMessage)

/-- `_estimate_remaining_budget`. -/
def estimateRemainingBudget (messages : List PyVal) (maxUnits : Nat) (payload : PyStr) :
    Except EnvelopeErr Nat := do
  let units ← estimateProviderInputUnits (.list messages)
  let suffixUnits ← if payload.isEmpty then .ok 0 else estimateTextUnits payload
  return maxUnits - units - suffixUnits

/-- What the loop over the components does not change. -/
structure Fitting where
  components : List (PyStr × PyStr)
  maxUnits : Nat
  truncateLongMessages : Bool
  suffix : PyStr
  systemContentIndex : Nat
  mandatoryHeader : PyStr

def suffixPayload (suffix : PyStr) : PyStr := if suffix.isEmpty then [] else py "\n\n" ++ suffix

/-- `optional_context_components[i]`. -/
def componentAt (components : List (PyStr × PyStr)) (i : Nat) : PyStr × PyStr :=
  components.getD i ([], [])

/-- The components of these indices, in visual order. -/
def candidateComponents (components : List (PyStr × PyStr)) (selected : Finset Nat) :
    List (PyStr × PyStr) :=
  ((List.range components.length).filter (· ∈ selected)).map (componentAt components)

/-- `built_content`. -/
def Fitting.builtContent (f : Fitting) (candidates : List (PyStr × PyStr)) : PyStr :=
  candidates.foldl (fun built c => built ++ (py "\n" ++ c.2)) f.mandatoryHeader
    ++ suffixPayload f.suffix

/-- The system message with these components is tried. Where it fits, the messages are kept, without
the suffix; where the gate refuses it, there are none. -/
def Fitting.attempt (f : Fitting) (messages : List PyVal) (candidates : List (PyStr × PyStr)) :
    Except EnvelopeErr (Option (List PyVal)) :=
  let built := f.builtContent candidates
  let payload := suffixPayload f.suffix
  let test := messages.set f.systemContentIndex (systemVal built)
  match validateProviderInput (.list test) f.maxUnits with
  | .ok () =>
      if f.suffix.isEmpty then .ok (some test)
      else
        let content := if payload.isEmpty then built else built.take (built.length - payload.length)
        .ok (some (test.set f.systemContentIndex (systemVal content)))
  | .error (.envelope _ _ _) => .ok none
  | .error e => .error e

/-- The messages so far, and the components in them. -/
structure FitState where
  messages : List PyVal
  selected : Finset Nat

/-- A component that does not fit whole: a shorter text of it is tried. -/
def Fitting.tryTruncated (f : Fitting) (s : FitState) (idx : Nat) : Except EnvelopeErr FitState := do
  let (label, content) := componentAt f.components idx
  let remaining ← estimateRemainingBudget s.messages f.maxUnits (suffixPayload f.suffix)
  if remaining = 0 then return s
  else
    let (truncated, _) ← truncateUtf8Safe content remaining
    if truncated = content then return s
    else
      let selected := insert idx s.selected
      let candidates := candidateComponents (f.components.set idx (label, truncated)) selected
      match ← f.attempt s.messages candidates with
      | some messages => return ⟨messages, selected⟩
      | none => return ⟨s.messages, selected.erase idx⟩

/-- The loop body for one index. -/
def Fitting.step (f : Fitting) (s : FitState) (idx : Nat) : Except EnvelopeErr FitState := do
  if (componentAt f.components idx).2.isEmpty then return s
  else
    let selected := insert idx s.selected
    match ← f.attempt s.messages (candidateComponents f.components selected) with
    | some messages => return ⟨messages, selected⟩
    | none =>
        let s := ⟨s.messages, selected.erase idx⟩
        if f.truncateLongMessages then f.tryTruncated s idx else return s

/-- The order the components are tried in. `_validate_selection_priority` is the check. -/
def selectionOrder (components : List (PyStr × PyStr)) : Option (List Int) → Except EnvelopeErr (List Nat)
  | some priority =>
      if priority.insertionSort (· ≤ ·) = (List.range components.length).map Int.ofNat then
        .ok (priority.map Int.toNat)
      else .error .valueError
  | none => .ok (List.range components.length)

/-- The suffix, at last. -/
def appendSuffix (messages : List PyVal) (maxUnits : Nat) (suffix : PyStr) :
    Except EnvelopeErr (List PyVal) :=
  if suffix.isEmpty then .ok messages
  else do
    let messages ← appendToSystem messages (py "\n\n" ++ suffix)
    validateProviderInput (.list messages) maxUnits
    return messages

/-- `_fit_optional_context_impl`. -/
def fitOptionalContextImpl (mandatoryMessages : List PyVal) (components : List (PyStr × PyStr))
    (maxUnits : Nat) (truncateLongMessages : Bool) (suffix : PyStr) (selectionPriority : Option (List Int)) :
    Except EnvelopeErr ContextFitResult :=
  if components.isEmpty then do
    let messages ← appendSuffix mandatoryMessages maxUnits suffix
    return ⟨messages, ∅, false⟩
  else
    match mandatoryMessages.findIdx? isSystem with
    | none => .error (.of .noSystemMessage)
    | some i => do
        let order ← selectionOrder components selectionPriority
        let f : Fitting := ⟨components, maxUnits, truncateLongMessages, suffix, i,
          contentAt mandatoryMessages i⟩
        let s ← order.foldlM f.step ⟨mandatoryMessages, ∅⟩
        let messages ← appendSuffix s.messages maxUnits suffix
        return ⟨messages, s.selected, decide (s.selected.card < components.length)⟩

/-- `fit_optional_context`. -/
def fitOptionalContext (mandatoryMessages : List PyVal) (components : List (PyStr × PyStr))
    (maxUnits : Nat) (truncateLongMessages : Bool) (suffix : PyStr) (selectionPriority : Option (List Int)) :
    Except EnvelopeErr ContextFitResult := do
  validateProviderInput (.list mandatoryMessages) maxUnits
  fitOptionalContextImpl mandatoryMessages components maxUnits truncateLongMessages suffix
    selectionPriority

end Katherine.Context
