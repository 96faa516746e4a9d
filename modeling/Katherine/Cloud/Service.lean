import Katherine.Cloud.Frontier
import Katherine.Cloud.Fence

/-!
# `PrivacyService`: is an action idempotent for its client?

A client names an action and an operation id. The service builds the rest of the call
again each time: a deletion sends `{}`, a reset the neutral snapshot of the clock. The
ledger compares digests of what was sent. So a repeat of a deletion is answered from
the ledger, and a repeat of a reset only if both calls read the same time.

The budget and the transport's timeouts are not here: a call reaches the database and
its answer comes back.
-/

namespace Katherine.Cloud

open Py Sql Pg Runs

/-! ## The service -/

/-- `PrivacyOperationResponse`. -/
structure PrivacyOperationResponse where
  operation : PyStr
  status : PyStr
  counts : PrivacyCounts
deriving DecidableEq

/-- `from_result`. -/
def PrivacyOperationResponse.fromResult (r : PrivacyResult) : PrivacyOperationResponse :=
  { operation := r.operation.text, status := py "applied", counts := r.counts }

/-- What an action sends along: nothing for a deletion, and for a reset the neutral snapshot of
the time the clock shows. -/
def Operation.payload (operation : Operation) (clock : PyFloat) :
    Except FrontierErr (List (PyKey × PyVal)) :=
  match operation.snapshotKind with
  | none => .ok []
  | some kind =>
      match requirePositiveFloat (.float clock) with
      | some timestamp => .ok (neutralSnapshot kind timestamp)
      | none => .error .domain

/-- `delete_history`, `delete_memories`, `reset_emotional_state` and `reset_relationship_state`. -/
def privacyAction (sha256 : PyStr → PyStr) (now : Timestamp) (operation : Operation)
    (user operationId : PyStr) (clock : PyFloat) (db : Db) :
    Except FrontierErr PrivacyOperationResponse × Db :=
  match operation.payload clock with
  | .error e => (.error e, db)
  | .ok payload =>
      (runPrivacyOperation sha256 now operation user operationId payload db).map
        (·.map .fromResult) id

/-- The document the ledger takes the digest of. -/
def Operation.document (operation : Operation) (clock : PyFloat) : Option Jsonb :=
  match operation.payload clock with
  | .ok payload => Jsonb.ofPy (.dict payload)
  | .error _ => none

/-- The ledger has a row for the operation. -/
def Db.knows (db : Db) (user operationId : PyStr) : Prop :=
  ∃ row ∈ db.privacyOperations.rows, row.userId = user ∧ row.operationId.text = operationId

/-- Both readings are written as the same decimal. -/
def SameTimestamp (clock₁ clock₂ : PyFloat) : Prop :=
  ∃ f g, clock₁ = .fin f ∧ clock₂ = .fin g ∧ Numeric.ofFloat f = Numeric.ofFloat g

variable {sha256 : PyStr → PyStr}

/-! ## The documents of two calls -/

theorem ofPy_neutral_congr (kind : SnapshotKind) {t t' : PosFloat}
    (h : Numeric.ofFloat t.val = Numeric.ofFloat t'.val) :
    Jsonb.ofPy (.dict (neutralSnapshot kind t)) = Jsonb.ofPy (.dict (neutralSnapshot kind t')) := by
  cases kind with
  | emotional =>
      simp only [neutralSnapshot, EmotionalStateV1.toDict, EmotionalStateV1.neutral, PosFloat.toVal,
        Jsonb.ofPy, Jsonb.ofPyItems, h]
  | relationship =>
      simp only [neutralSnapshot, RelationshipStateV1.toDict, RelationshipStateV1.neutral,
        PosFloat.toVal, Jsonb.ofPy, Jsonb.ofPyItems, h]

theorem isJson_neutral (kind : SnapshotKind) (t : PosFloat) :
    isJsonItems (neutralSnapshot kind t) = true := by
  cases kind with
  | emotional => exact EmotionalStateV1.isJson_toDict _
  | relationship => exact RelationshipStateV1.isJson_toDict _

/-- The timestamp can be read off the document. -/
theorem timestamp_of_ofPy {kind : SnapshotKind} {t : PosFloat} {doc : Jsonb}
    (h : Jsonb.ofPy (.dict (neutralSnapshot kind t)) = some doc) :
    doc.get? (py "timestamp") = some (.num (.ofFloat t.val)) :=
  Jsonb.get?_of_ofPy (isJson_neutral kind t) h (dictGet_neutral_timestamp kind t) rfl

/-- A clock the domain accepts shows a positive finite time. -/
theorem requirePositiveFloat_float {clock : PyFloat} {t : PosFloat}
    (h : requirePositiveFloat (.float clock) = some t) : clock = .fin t.val := by
  cases clock with
  | fin f =>
      simp only [requirePositiveFloat, requireFiniteFloat, Option.bind_eq_bind,
        Option.bind_some] at h
      split at h
      · obtain rfl := Option.some.inj h
        rfl
      · cases h
  | nan => cases h
  | inf neg => cases h

theorem payload_deletion {operation : Operation} (h : operation.snapshotKind = none)
    (clock : PyFloat) : operation.payload clock = .ok [] := by
  rw [Operation.payload, h]

theorem payload_reset {operation : Operation} {kind : SnapshotKind}
    (h : operation.snapshotKind = some kind) {clock : PyFloat} {payload : List (PyKey × PyVal)}
    (hp : operation.payload clock = .ok payload) :
    ∃ t : PosFloat, clock = .fin t.val ∧ payload = neutralSnapshot kind t := by
  rw [Operation.payload, h] at hp
  simp only at hp
  split at hp
  · rename_i t ht
    cases hp
    exact ⟨t, requirePositiveFloat_float ht, rfl⟩
  · cases hp

/-- **Two calls send the same document iff they delete, or read the same time.** -/
theorem document_eq_iff {operation : Operation} {clock₁ clock₂ : PyFloat} {doc : Jsonb}
    (h : operation.document clock₁ = some doc) :
    operation.document clock₂ = some doc ↔
      operation.snapshotKind = none ∨ SameTimestamp clock₁ clock₂ := by
  cases hkind : operation.snapshotKind with
  | none =>
      rw [Operation.document, payload_deletion hkind] at h ⊢
      simp [h]
  | some kind =>
      simp only [Operation.document] at h
      split at h
      · rename_i payload₁ hp₁
        obtain ⟨t₁, rfl, rfl⟩ := payload_reset hkind hp₁
        simp only [reduceCtorEq, false_or]
        constructor
        · intro h₂
          simp only [Operation.document] at h₂
          split at h₂
          · rename_i payload₂ hp₂
            obtain ⟨t₂, rfl, rfl⟩ := payload_reset hkind hp₂
            refine ⟨t₁.val, t₂.val, rfl, rfl, ?_⟩
            have hsame := (timestamp_of_ofPy h).symm.trans (timestamp_of_ofPy h₂)
            injection hsame with hsame
            injection hsame
          · cases h₂
        · rintro ⟨f, g, hf, rfl, hfg⟩
          obtain rfl := PyFloat.fin.inj hf
          have hpos : g.gtRatio 0 1 = true := by
            have hcoeff : t₁.val.ratio.1 = g.ratio.1 := congrArg Numeric.coeff hfg
            have ht₁ := t₁.pos
            simp only [FiniteFloat.gtRatio, decide_eq_true_eq] at ht₁ ⊢
            rw [← hcoeff]
            simpa using ht₁
          have hp₂ : operation.payload (.fin g) = .ok (neutralSnapshot kind ⟨g, hpos⟩) := by
            have ht₂ : requirePositiveFloat (.float (.fin g)) = some ⟨g, hpos⟩ :=
              requirePositiveFloat_toVal ⟨g, hpos⟩
            rw [Operation.payload, hkind]
            simp only [ht₂]
          simp only [Operation.document, hp₂]
          rw [← h]
          exact (ofPy_neutral_congr kind hfg).symm
      · cases h

/-! ## One call -/

theorem Uuid.eq_of_text {a b : Uuid} (h : a.text = b.text) : a = b := by
  cases a
  cases b
  simp only at h
  subst h
  rfl

theorem ofText?_text (id : Uuid) : Uuid.ofText? id.text = some id := dif_pos id.ok

theorem ofText?_eq_some {s : PyStr} {id : Uuid} (h : Uuid.ofText? s = some id) : s = id.text := by
  unfold Uuid.ofText? at h
  split at h
  · obtain rfl := Option.some.inj h
    rfl
  · cases h

/-- The validators of the frontier do not look at the clock. -/
theorem validate_clock {operation : Operation} {user operationId : PyStr} {clock₁ clock₂ : PyFloat}
    {payload₁ payload₂ : List (PyKey × PyVal)} (hp₁ : operation.payload clock₁ = .ok payload₁)
    (hp₂ : operation.payload clock₂ = .ok payload₂)
    (h : validatePrivacyOperationInput operation user operationId payload₁ = .ok ()) :
    validatePrivacyOperationInput operation user operationId payload₂ = .ok () := by
  cases hkind : operation.snapshotKind with
  | none =>
      rw [payload_deletion hkind] at hp₁ hp₂
      cases hp₁
      cases hp₂
      exact h
  | some kind =>
      obtain ⟨t₁, -, rfl⟩ := payload_reset hkind hp₁
      obtain ⟨t₂, -, rfl⟩ := payload_reset hkind hp₂
      simp only [validatePrivacyOperationInput, hkind, validateSnapshotPayload_neutral,
        validateResetNeutral_neutral] at h ⊢
      exact h

/-- An action whose arguments pass is the procedure, and the reading of its answer. -/
theorem privacyAction_eq {now : Timestamp} {operation : Operation} {user : PyStr} {id : Uuid}
    {clock : PyFloat} {payload : List (PyKey × PyVal)} {doc : Jsonb}
    (hpayload : operation.payload clock = .ok payload)
    (hvalid : validatePrivacyOperationInput operation user id.text payload = .ok ())
    (hdoc : Jsonb.ofPy (.dict payload) = some doc) (huser : isPgText user = true) (db : Db) :
    privacyAction sha256 now operation user id.text clock db =
      (privacyApplyOperation sha256 now ⟨some user, operation.text, some id, some doc⟩ db).map
        (fun r => (parsePrivacyOperationResult operation user id.text r).map .fromResult) (fun db => db) := by
  simp only [privacyAction, hpayload, runPrivacyOperation, hvalid, callPrivacyRpc, ofText?_text, hdoc,
    huser, if_true]
  rfl

/-- What an action that succeeded had passed. -/
theorem privacyAction_ok {now : Timestamp} {operation : Operation} {user operationId : PyStr}
    {clock : PyFloat} {db db' : Db} {response : PrivacyOperationResponse}
    (h : privacyAction sha256 now operation user operationId clock db = (.ok response, db')) :
    ∃ id payload doc result, operationId = id.text ∧ operation.payload clock = .ok payload ∧
      validatePrivacyOperationInput operation user id.text payload = .ok () ∧
      Jsonb.ofPy (.dict payload) = some doc ∧ isPgText user = true ∧
      privacyApplyOperation sha256 now ⟨some user, operation.text, some id, some doc⟩ db =
        (.result result, db') ∧
      (parsePrivacyOperationResult operation user id.text (.result result)).map .fromResult =
        .ok response := by
  unfold privacyAction at h
  split at h
  · cases h
  · rename_i payload hpayload
    unfold runPrivacyOperation at h
    split at h
    · cases h
    · rename_i hvalid
      unfold callPrivacyRpc at h
      split at h
      · rename_i id doc hid hdoc
        obtain rfl := ofText?_eq_some hid
        split at h
        · rename_i huser
          generalize happly : privacyApplyOperation sha256 now _ db = out at h
          obtain ⟨reply, db₁⟩ := out
          obtain ⟨hparse, rfl⟩ := Prod.mk.inj h
          cases reply with
          | result result =>
              exact ⟨id, payload, doc, result, rfl, hpayload, hvalid, hdoc, huser, happly, hparse⟩
          | error e => cases hparse
          | raised => cases hparse
        · cases h
      · cases h

/-! ## The ledger row of an action -/

/-- The row that answers a repeat of `i` with `result`. -/
structure Recorded (sha256 : PyStr → PyStr) (db : Db) (i : PrivacyInput) (result : PrivacyResult)
    (row : PrivacyOperation) : Prop where
  found : db.privacyOperations.get? i.key = some row
  operation : row.operation = i.operation
  digest : row.payloadSha256 = sha256 i.payload.text
  stored : row.result = result

/-- A call that returned a result has its row in the ledger, whether it wrote or found it. -/
theorem recorded_of_result {now : Timestamp} {a : PrivacyArgs} {db db' : Db} {result : PrivacyResult}
    (h : privacyApplyOperation sha256 now a db = (.result result, db')) :
    ∃ i row, validatePrivacy a = .ok i ∧ Recorded sha256 db' i result row := by
  have hstep := privacyApplyOperation_step sha256 now a db
  rw [h] at hstep
  simp only at hstep
  cases hstep with
  | replayed i row hv hr hop hdigest => exact ⟨i, row, hv, ⟨hr, hop, hdigest, rfl⟩⟩
  | applied i _ _ hv ha => exact ⟨i, _, hv, ⟨ledger_of_applied ha, rfl, rfl, rfl⟩⟩

/-- A call leaves a row of the ledger as it is, or removes it. -/
theorem ledger_kept_or_gone (e : Event (exec sha256)) {key : PyStr × Uuid} {row : PrivacyOperation}
    (h : e.before.privacyOperations.get? key = some row) :
    e.after.privacyOperations.get? key = some row ∨ e.after.privacyOperations.get? key = none := by
  have hdelete : ∀ p : PrivacyOperation → Bool,
      (e.before.privacyOperations.deleteWhere p).get? key = some row ∨
        (e.before.privacyOperations.deleteWhere p).get? key = none := by
    intro p
    rw [Table.get?_deleteWhere, h]
    cases hp : p row with
    | true => exact .inr (by simp [hp])
    | false => exact .inl (by simp [hp])
  have heffect := effect_of_event e
  generalize e.input = x at heffect
  generalize e.reply = reply at heffect
  generalize e.after = db' at heffect ⊢
  generalize e.before = db at heffect h hdelete
  cases heffect with
  | none => exact .inl h
  | committed hv hc => rw [hc.privacyOperations]; exact .inl h
  | applied hv ha =>
      rw [ha.ledger]
      exact .inl (Table.get?_insertNew_of_some h)
  | reserved => exact .inl h
  | admissionPurged => exact .inl h
  | privacyPurged => exact hdelete _
  | outboxPurged => exact .inl h
  | jobs => exact .inl h
  | purged hp => rw [hp.rows]; exact hdelete _
  | pruned => exact .inl h
  | delivered => exact .inl h

theorem get?_of_knows {db : Db} {user : PyStr} {id : Uuid} (h : db.knows user id.text) :
    db.privacyOperations.get? (user, id) ≠ none := by
  obtain ⟨row, hrow, rfl, hid⟩ := h
  obtain rfl : row.operationId = id := Uuid.eq_of_text hid
  rw [Table.get?_of_mem hrow]
  exact Option.some_ne_none _

/-- As long as it is there, the row does not change. -/
theorem recorded_kept {db db' : Db} {es : List (Event (exec sha256))} (hrun : Run db es db')
    {user : PyStr} {id : Uuid} {row : PrivacyOperation}
    (h : db.privacyOperations.get? (user, id) = some row)
    (hknown : ∀ e ∈ es, e.after.knows user id.text) :
    db'.privacyOperations.get? (user, id) = some row := by
  refine (hrun.invariant (P := fun s => s.privacyOperations.get? (user, id) = some row) h ?_).1
  intro e he hbefore
  rcases ledger_kept_or_gone e hbefore with hafter | hgone
  · exact hafter
  · exact absurd hgone (get?_of_knows (hknown e he))

/-! ## Two calls -/

/-- **An action is idempotent for its client iff it deletes, or both calls read the same time.**
After a call that succeeded, in any run of the database that keeps the operation's ledger row, the
same call gets the same response and writes nothing exactly if the action is a deletion or the two
clock readings are the same decimal. The digests of the two documents are taken not to collide. -/
theorem privacy_action_repeat_iff {operation : Operation} {user operationId : PyStr}
    {clock₁ clock₂ : PyFloat} {response : PrivacyOperationResponse} {db₀ db₁ db₂ : Db}
    {es : List (Event (exec sha256))} {now₁ now₂ : Timestamp}
    (hdigest : ∀ doc₁ doc₂, operation.document clock₁ = some doc₁ →
      operation.document clock₂ = some doc₂ → sha256 doc₁.text = sha256 doc₂.text →
      doc₁.text = doc₂.text)
    (hfirst : privacyAction sha256 now₁ operation user operationId clock₁ db₀ = (.ok response, db₁))
    (hrun : Run db₁ es db₂) (hknown : ∀ e ∈ es, e.after.knows user operationId) :
    privacyAction sha256 now₂ operation user operationId clock₂ db₂ = (.ok response, db₂) ↔
      operation.snapshotKind = none ∨ SameTimestamp clock₁ clock₂ := by
  obtain ⟨id, payload₁, doc₁, result, rfl, hp₁, hvalid₁, hdoc₁, huser, happly₁, hparse⟩ :=
    privacyAction_ok hfirst
  obtain ⟨i, row, hv, hrow⟩ := recorded_of_result happly₁
  obtain ⟨hu, ho, hpay, hop⟩ := validatePrivacy_ok hv
  have hkey : i.key = (user, id) := privacyInput_key hv rfl rfl
  have hpayload : doc₁ = i.payload := Option.some.inj hpay
  have hsent₁ : operation.document clock₁ = some doc₁ := by rw [Operation.document, hp₁]; exact hdoc₁
  have hfound₂ : db₂.privacyOperations.get? i.key = some row := by
    rw [hkey]
    exact recorded_kept hrun (hkey ▸ hrow.found) hknown
  rw [← document_eq_iff hsent₁]
  constructor
  · intro hsecond
    obtain ⟨id', payload₂, doc₂, result₂, hid, hp₂, hvalid₂, hdoc₂, -, happly₂, -⟩ :=
      privacyAction_ok hsecond
    obtain ⟨i₂, row₂, hv₂, hrow₂⟩ := recorded_of_result happly₂
    have hsent₂ : operation.document clock₂ = some doc₂ := by
      rw [Operation.document, hp₂]
      exact hdoc₂
    -- both calls were answered from one row, so their digests agree
    have hkey₂ : i₂.key = (user, id') := privacyInput_key hv₂ rfl rfl
    have hids : id = id' := Uuid.eq_of_text hid
    have hrows : row = row₂ := by
      have hfound := hrow₂.found
      rw [hkey₂, ← hids, ← hkey, hfound₂] at hfound
      exact Option.some.inj hfound
    have hpayload₂ : doc₂ = i₂.payload := Option.some.inj (validatePrivacy_ok hv₂).2.2.1
    have hsame : sha256 doc₁.text = sha256 doc₂.text := by
      rw [hpayload, hpayload₂, ← hrow.digest, ← hrow₂.digest, hrows]
    rw [hsent₂, Jsonb.text_injective (hdigest doc₁ doc₂ hsent₁ hsent₂ hsame)]
  · intro hsent₂
    obtain ⟨payload₂, hp₂, hdoc₂⟩ : ∃ payload₂, operation.payload clock₂ = .ok payload₂ ∧
        Jsonb.ofPy (.dict payload₂) = some doc₁ := by
      unfold Operation.document at hsent₂
      split at hsent₂
      · rename_i payload₂ hp₂
        exact ⟨payload₂, hp₂, hsent₂⟩
      · cases hsent₂
    have hvalid₂ := validate_clock hp₁ hp₂ hvalid₁
    rw [privacyAction_eq hp₂ hvalid₂ hdoc₂ huser, privacy_repeat hv hfound₂,
      if_pos ⟨hrow.operation, hrow.digest⟩, hrow.stored]
    exact Prod.ext hparse rfl

/-! ## A reset that is repeated five seconds later -/

def resetTime : PyFloat := .fin ⟨py "1700000000.0", isFloatRepr_early⟩

def repeatTime : PyFloat := .fin ⟨py "1700000005.0", isFloatRepr_late⟩

/-- A digest that is right about the snapshots of these two times. -/
def resetSha256 (text : PyStr) : PyStr :=
  let neutral (timestamp : PyStr) := py "\x7b\"trust\": 0.5, \"tension\": 0.0, \"triggers\": [], " ++
    py "\"affection\": 0.3, \"timestamp\": " ++ timestamp ++ py ", \"schema_version\": 1\x7d"
  if text = neutral (py "1700000000.0") then
    py "21a8eea294fabb34fe8ab0552e9855e98ccb5e3e70c8572fadd71ad02f835aa1"
  else if text = neutral (py "1700000005.0") then
    py "cfabf4f0db801b52fe3e27ec462154318bc151a55f24796a5717c04ddc696139"
  else cp 'x' :: text

def firstReset : Except FrontierErr PrivacyOperationResponse × Db :=
  privacyAction resetSha256 0 .resetRelationshipState sampleUser sampleOperation.text resetTime
    sampleDb

/-- **A client that repeats a reset is told of a conflict.** -/
theorem reset_repeat_conflicts :
    firstReset.1 = .ok ⟨py "reset_relationship_state", py "applied", ⟨0, 0, 0, 0, 0, 1⟩⟩ ∧
      (privacyAction resetSha256 0 .resetRelationshipState sampleUser sampleOperation.text repeatTime
        firstReset.2).1 =
        .error (.conflict "operation_id already used with a different operation or payload") := by
  decide +kernel

/-- A deletion, and a turn after it. -/
def firstDeletion : Except FrontierErr PrivacyOperationResponse × Db :=
  privacyAction sampleSha256 0 .deleteHistory sampleUser sampleOperation.text resetTime sampleDb

def laterCommit : Event (exec sampleSha256) :=
  .of _ (sampleTimes, .commitTurn (sampleIds 1) (sampleArgs 1)) firstDeletion.2

theorem privacy_action_repeat_deletion :
    privacyAction sampleSha256 0 .deleteHistory sampleUser sampleOperation.text repeatTime
      laterCommit.after = (firstDeletion.1, laterCommit.after) := by
  have hfirst : firstDeletion =
      (.ok ⟨py "delete_history", py "applied", ⟨0, 0, 0, 0, 0, 0⟩⟩, firstDeletion.2) :=
    Prod.ext (by decide +kernel) rfl
  have hknown : ∀ e ∈ [laterCommit], e.after.knows sampleUser sampleOperation.text := by
    intro e he
    obtain rfl := List.mem_singleton.mp he
    unfold Db.knows
    decide +kernel
  rw [show firstDeletion.1 = _ from congrArg Prod.fst hfirst]
  refine (privacy_action_repeat_iff ?_ hfirst (.cons laterCommit (.nil _)) hknown).mpr (.inl rfl)
  intro doc₁ doc₂ _ _ h
  exact sampleSha256_injective h

end Katherine.Cloud
