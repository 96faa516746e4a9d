import Katherine.Cloud.Privacy
import Katherine.Local.Contracts

/-!
# The Python frontier of the hosted procedures

`_validate_snapshot_payload` of `backend/atomic_turn_commit.py` and the contract of
`backend/privacy_operations.py`: what is checked before a privacy operation is sent to
the database, and how the answer is read.

The operation is one of the four names by its type, the payload a dictionary, and the
envelope of an answer has the fields the procedure writes, so the checks on these have
nothing to reject here. Raising is `Except`; a failure of the call itself and an
exception inside the procedure are the same `PersistenceError`.
-/

namespace Katherine.Cloud

open Py Sql Pg
open Katherine.Context (canonicalUuid)

/-! ## Errors -/

/-- The codes of a `ValidationError`. -/
inductive FrontierCode
  | invalidUserId
  | invalidOperationId
  | invalidOperationPayload
  | invalidEmotionalState
  | invalidRelationshipState
  | invalidRpcResult
  | validationFailed
deriving DecidableEq

inductive FrontierErr
  | validation (code : FrontierCode) (message : String)
  /-- `ConflictError("operation_conflict", …)`. -/
  | conflict (message : String)
  /-- `PersistenceError("database_error", "persistence error")`. -/
  | persistence
  /-- `EmotionalDomainError` or `RelationshipDomainError`, from a clock the domain rejects. -/
  | domain
  /-- `UnicodeEncodeError`: a snapshot with a lone surrogate in it. -/
  | unicodeEncode
deriving DecidableEq

/-- `if not c: raise ValidationError(code, message)`. -/
def demand (c : Bool) (code : FrontierCode) (message : String) : Except FrontierErr Unit :=
  if c then .ok () else .error (.validation code message)

@[simp] theorem demand_true (code : FrontierCode) (message : String) :
    demand true code message = .ok () := rfl

@[simp] theorem frontier_ok_bind {α β : Type} (a : α) (f : α → Except FrontierErr β) :
    ((Except.ok a : Except FrontierErr α) >>= f) = f a := rfl

/-! ## Snapshots -/

/-- `invalid_{field_name}`. -/
def SnapshotKind.code : SnapshotKind → FrontierCode
  | .emotional => .invalidEmotionalState
  | .relationship => .invalidRelationshipState

/-- `EMOTIONAL_SNAPSHOT_FIELDS` and `RELATIONSHIP_SNAPSHOT_FIELDS`. -/
def SnapshotKind.fields : SnapshotKind → List PyStr
  | .emotional => emotionalKeys
  | .relationship => relationshipKeys

/-- `; missing fundamental fields: …`, in the order of the names. -/
def missingDetail (fields : List PyStr) (kvs : List (PyKey × PyVal)) : String :=
  match (fields.filter fun f => (dictGet kvs f).isNone).insertionSort (· ≤ ·) with
  | [] => ""
  | missing => "; missing fundamental fields: " ++ ", ".intercalate (missing.map Local.toText)

/-- `bounded`: an `int` or `float`, and no `bool`, in `[low, high]`. -/
def bounded (kind : SnapshotKind) (kvs : List (PyKey × PyVal)) (low high : Int) (name : PyStr) :
    Except FrontierErr Unit :=
  match dictGet kvs name with
  | some (.int i) =>
      demand (decide (low ≤ i ∧ i ≤ high)) kind.code (Local.toText name ++ " is out of range")
  | some (.float (.fin f)) =>
      demand (!f.ltRatio low 1 && !f.gtRatio high 1) kind.code
        (Local.toText name ++ " is out of range")
  | some (.float _) => .error (.validation kind.code (Local.toText name ++ " is out of range"))
  | _ => .error (.validation kind.code (Local.toText name ++ " must be numeric"))

/-- One trigger: a trimmed text of 1 to 128 characters. -/
def isTrigger : PyVal → Bool
  | .str s => decide (s = strip s) && decide (s ≠ []) && decide (s.length ≤ 128)
  | _ => false

/-- The checks that depend on the kind of snapshot. -/
def validateShape (kind : SnapshotKind) (kvs : List (PyKey × PyVal)) : Except FrontierErr Unit :=
  match kind with
  | .emotional => do
      [py "pleasure", py "arousal", py "dominance"].forM (bounded kind kvs (-1) 1)
      [py "libido", py "aggression", py "connection", py "energy", py "tension"].forM
        (bounded kind kvs 0 1)
      demand (((dictGet kvs (py "coping_mode")).bind CopingMode.ofVal).isSome) kind.code
        "coping_mode is invalid"
  | .relationship => do
      [py "trust", py "affection", py "tension"].forM (bounded kind kvs 0 1)
      let triggers := (dictGet kvs (py "triggers")).bind PyVal.elems?
      demand (triggers.any (·.length ≤ 32)) kind.code "triggers must contain at most 32 strings"
      demand (triggers.any (·.all isTrigger)) kind.code "triggers contain an invalid value"
      demand (triggers.any fun ts => decide (ts.filterMap PyVal.str?).Nodup) kind.code
        "triggers must be deduplicated"

/-- `schema_version` is the `int` 1. -/
def validateVersion (kind : SnapshotKind) (kvs : List (PyKey × PyVal)) : Except FrontierErr Unit :=
  match dictGet kvs (py "schema_version") with
  | none => .error (.validation kind.code "must contain schema_version field")
  | some (.int i) => demand (decide (i = 1)) kind.code "schema_version must be 1"
  | some _ => .error (.validation kind.code
      "schema_version must be an integer (not bool, string or float)")

/-- `json.dumps(payload, ensure_ascii=False, allow_nan=False)`; `none` is the raise. -/
def dumpsFinite (v : PyVal) : Option PyStr :=
  if serialisable ⟨false, false⟩ v then some (render [cp ' '] v) else none

/-- `_validate_snapshot_payload`, for a dictionary. -/
def validateSnapshotPayload (kind : SnapshotKind) (kvs : List (PyKey × PyVal)) :
    Except FrontierErr Unit := do
  validateVersion kind kvs
  demand (!Local.hasForbidden Local.snapshotForbiddenKeys (.dict kvs)) kind.code
    "contains forbidden keys (identity or internal fields)"
  demand (hasExactly kind.fields kvs) kind.code
    ("must contain exactly the v1 snapshot fields" ++ missingDetail kind.fields kvs)
  validateShape kind kvs
  demand ((dictGet kvs (py "timestamp")).bind requirePositiveFloat).isSome kind.code
    "timestamp must be positive"
  match dumpsFinite (.dict kvs) with
  | none => .error (.validation kind.code "not JSON-serializable")
  | some serialized =>
      if !encodable serialized then .error .unicodeEncode
      else demand (decide (utf8Len serialized ≤ 8192)) kind.code "exceeds 8192 bytes"

/-! ## Privacy operations -/

/-- `_RESET_SNAPSHOT_FIELD`. -/
def Operation.snapshotKind : Operation → Option SnapshotKind
  | .resetEmotionalState => some .emotional
  | .resetRelationshipState => some .relationship
  | _ => none

/-- `neutral_emotional_snapshot` and `neutral_relationship_snapshot`. -/
def neutralSnapshot (kind : SnapshotKind) (timestamp : PosFloat) : List (PyKey × PyVal) :=
  match kind with
  | .emotional => (EmotionalStateV1.neutral timestamp).toDict
  | .relationship => (RelationshipStateV1.neutral timestamp).toDict

/-- `_validate_user_id`. -/
def validateUserId (user : PyStr) : Except FrontierErr Unit :=
  demand (!blank user && decide (user.length ≤ 128)) .invalidUserId
    "authenticated_user_id must be 1-128 characters and not whitespace-only"

/-- `_validate_operation_id`. `$` also matches before a line break at the end. -/
def validateOperationId (operationId : PyStr) : Except FrontierErr Unit :=
  demand (canonicalUuid operationId ||
      (decide (operationId.getLast? = some (cp '\n')) && canonicalUuid operationId.dropLast))
    .invalidOperationId "operation_id must be a valid lowercase UUID"

/-- `_validate_reset_neutral`: the payload is the neutral snapshot of its own timestamp. -/
def validateResetNeutral (kind : SnapshotKind) (kvs : List (PyKey × PyVal)) :
    Except FrontierErr Unit :=
  match (dictGet kvs (py "timestamp")).bind requirePositiveFloat with
  | none => .error (.validation .invalidOperationPayload
      "reset snapshot must be the canonical neutral state")
  | some timestamp => demand (pyEq (.dict kvs) (.dict (neutralSnapshot kind timestamp)))
      .invalidOperationPayload "reset snapshot must be the canonical neutral state"

/-- `validate_privacy_operation_input`. -/
def validatePrivacyOperationInput (operation : Operation) (user operationId : PyStr)
    (payload : List (PyKey × PyVal)) : Except FrontierErr Unit := do
  validateUserId user
  validateOperationId operationId
  match operation.snapshotKind with
  | none => pure ()
  | some kind =>
      validateSnapshotPayload kind payload
      validateResetNeutral kind payload

/-- A text PostgreSQL can hold: UTF-8, and no NUL. -/
def isPgText (s : PyStr) : Bool := encodable s && decide ((0 : CodePoint) ∉ s)

/-- `uuid` input; what the frontier lets through is canonical but for the line break. -/
def Uuid.ofText? (s : PyStr) : Option Uuid :=
  if h : canonicalUuid s = true then some ⟨s, h⟩ else none

/-- `rpc_client(_RPC_NAME[operation], …)`: the parameters are cast on the way in, and the four
procedures are `privacy_apply_operation` under their own names. -/
def callPrivacyRpc (sha256 : PyStr → PyStr) (now : Timestamp) (operation : Operation)
    (user operationId : PyStr) (payload : List (PyKey × PyVal)) (db : Db) : PrivacyReply × Db :=
  match Uuid.ofText? operationId, Jsonb.ofPy (.dict payload) with
  | some id, some doc =>
      if isPgText user then
        privacyApplyOperation sha256 now ⟨some user, operation.text, some id, some doc⟩ db
      else (.raised, db)
  | _, _ => (.raised, db)

/-- `_parse_error_envelope`. -/
def parseErrorEnvelope (e : Envelope) : FrontierErr :=
  match e.code with
  | .operationConflict => .conflict e.message
  | .validationFailed => .validation .validationFailed e.message
  | _ => .persistence

/-- `parse_privacy_operation_result`. -/
def parsePrivacyOperationResult (operation : Operation) (user operationId : PyStr) :
    PrivacyReply → Except FrontierErr PrivacyResult
  | .raised => .error .persistence
  | .error e => .error (parseErrorEnvelope e)
  | .result r => do
      demand (decide (r.operation = operation)) .invalidRpcResult
        "operation does not match the request"
      demand (decide (r.operationId.text = operationId)) .invalidRpcResult
        "operation_id does not match the request"
      demand (decide (r.userId ≠ [])) .invalidRpcResult "user_id must be a non-empty string"
      demand (decide (r.userId = user)) .invalidRpcResult
        "result user_id does not match the authenticated user"
      pure r

/-- `run_privacy_operation`. -/
def runPrivacyOperation (sha256 : PyStr → PyStr) (now : Timestamp) (operation : Operation)
    (user operationId : PyStr) (payload : List (PyKey × PyVal)) (db : Db) :
    Except FrontierErr PrivacyResult × Db :=
  match validatePrivacyOperationInput operation user operationId payload with
  | .error e => (.error e, db)
  | .ok () =>
      (callPrivacyRpc sha256 now operation user operationId payload db).map
        (parsePrivacyOperationResult operation user operationId) id

/-! ## The frontier accepts every neutral snapshot -/

theorem jsonBytes_neutral (kind : SnapshotKind) (t : PosFloat) :
    jsonBytes (.dict (neutralSnapshot kind t)) ≤ 1400 := by
  cases kind with
  | emotional => exact EmotionalStateV1.jsonBytes_toDict _
  | relationship => exact RelationshipStateV1.jsonBytes_toDict rfl

theorem surrogates_neutral (kind : SnapshotKind) (t : PosFloat) :
    weighJson surrogateWeight (.dict (neutralSnapshot kind t)) = 0 := by
  cases kind with
  | emotional => exact EmotionalStateV1.surrogates_toDict _
  | relationship => exact (RelationshipStateV1.surrogates_toDict _).mpr (List.forall_mem_nil _)

theorem dumpsFinite_neutral (kind : SnapshotKind) (t : PosFloat) :
    dumpsFinite (.dict (neutralSnapshot kind t)) =
      some (render [cp ' '] (.dict (neutralSnapshot kind t))) := by
  refine if_pos ?_
  cases kind with
  | emotional =>
      simp [neutralSnapshot, EmotionalStateV1.toDict, RangedFloat.toVal, PosFloat.toVal,
        serialisable, serialisableItems, PyFloat.isFinite, one_lt_intTextLimit]
  | relationship =>
      simp [neutralSnapshot, RelationshipStateV1.neutral, RelationshipStateV1.toDict,
        RangedFloat.toVal, PosFloat.toVal, serialisable, serialisableItems, serialisableElems,
        PyFloat.isFinite, Triggers.empty, one_lt_intTextLimit]

theorem dictGet_neutral_timestamp (kind : SnapshotKind) (t : PosFloat) :
    dictGet (neutralSnapshot kind t) (py "timestamp") = some t.toVal := by
  cases kind <;> rfl

theorem validateSnapshotPayload_neutral (kind : SnapshotKind) (t : PosFloat) :
    validateSnapshotPayload kind (neutralSnapshot kind t) = .ok () := by
  have hversion : validateVersion kind (neutralSnapshot kind t) = .ok () := by cases kind <;> rfl
  have hkeys : Local.hasForbidden Local.snapshotForbiddenKeys (.dict (neutralSnapshot kind t)) =
      false := by cases kind <;> rfl
  have hfields : hasExactly kind.fields (neutralSnapshot kind t) = true := by cases kind <;> rfl
  have hshape : validateShape kind (neutralSnapshot kind t) = .ok () := by cases kind <;> rfl
  have hencodable := encodable_render_space (surrogates_neutral kind t)
  have hsize : utf8Len (render [cp ' '] (.dict (neutralSnapshot kind t))) ≤ 8192 := by
    have hspace := utf8Len_render_space (.dict (neutralSnapshot kind t))
    have hbytes := jsonBytes_neutral kind t
    omega
  simp only [validateSnapshotPayload, hversion, hkeys, hfields, hshape, dictGet_neutral_timestamp,
    dumpsFinite_neutral, hencodable, hsize, Option.bind_some, requirePositiveFloat_toVal]
  rfl

theorem pyEq_float (f : FiniteFloat) : pyEq (.float (.fin f)) (.float (.fin f)) = true := by
  simp [pyEq, floatEq, FiniteFloat.numEq]

theorem pyEq_neutral (kind : SnapshotKind) (t : PosFloat) :
    pyEq (.dict (neutralSnapshot kind t)) (.dict (neutralSnapshot kind t)) = true := by
  rw [pyEq, Bool.and_eq_true]
  refine ⟨decide_eq_true rfl, pyEqItems_of_find ?_⟩
  cases kind with
  | emotional =>
      simp only [neutralSnapshot, EmotionalStateV1.toDict, List.forall_mem_cons]
      exact ⟨⟨_, rfl, rfl⟩, ⟨_, rfl, pyEq_float _⟩, ⟨_, rfl, pyEq_float _⟩, ⟨_, rfl, pyEq_float _⟩,
        ⟨_, rfl, pyEq_float _⟩, ⟨_, rfl, pyEq_float _⟩, ⟨_, rfl, pyEq_float _⟩,
        ⟨_, rfl, pyEq_float _⟩, ⟨_, rfl, pyEq_float _⟩, ⟨_, rfl, pyEq_str _⟩,
        ⟨_, rfl, pyEq_float _⟩, by simp⟩
  | relationship =>
      simp only [neutralSnapshot, RelationshipStateV1.toDict, List.forall_mem_cons]
      exact ⟨⟨_, rfl, rfl⟩, ⟨_, rfl, pyEq_float _⟩, ⟨_, rfl, pyEq_float _⟩, ⟨_, rfl, pyEq_float _⟩,
        ⟨_, rfl, rfl⟩, ⟨_, rfl, pyEq_float _⟩, by simp⟩

theorem validateResetNeutral_neutral (kind : SnapshotKind) (t : PosFloat) :
    validateResetNeutral kind (neutralSnapshot kind t) = .ok () := by
  simp only [validateResetNeutral, dictGet_neutral_timestamp, Option.bind_some,
    requirePositiveFloat_toVal, pyEq_neutral, demand_true]

end Katherine.Cloud
