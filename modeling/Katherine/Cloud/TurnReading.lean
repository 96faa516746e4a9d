import Katherine.Cloud.Erasure
import Katherine.Cloud.ReplyReading
import Katherine.Cloud.TurnRecords
import Katherine.Cloud.TurnReplies

/-!
# Every answer of a turn is read

The parser of `commit_turn` turns down whatever it does not know, and it holds the replay payload
against the contract a second time. Still it never turns down what the database says
(`turn_answers_are_read`): everything it asks for is an invariant of the ledger.

A replay and the commit it repeats are then read as the same turn, field by field, however the two
answers came back (`replay_is_read_as_commit`).
-/

namespace Katherine.Cloud.TurnReplies

open Py Sql Pg Runs
open Katherine.Local (hasForbidden hasForbiddenElems hasForbiddenItems)
open Replies (Response errorCodeText errorCodeText_injective)

/-! ## Reading what was delivered -/

theorem ok_bind {α β : Type} (a : α) (f : α → Parsed β) : ((Except.ok a : Parsed α) >>= f) = f a := (rfl)

theorem isValidUuid_of_canonical {s : PyStr} (h : Context.canonicalUuid s = true) : isValidUuid s = true :=
  matchUuidRe_iff.mpr (.inl h)

theorem isValidUuid_text (id : Uuid) : isValidUuid id.text = true := isValidUuid_of_canonical id.ok

section

variable {sent : Fields} {items : List (PyKey × PyVal)} (d : Delivered sent items)
include d

theorem requireFields_sent {fields : List PyStr} {code missing unexpected : String}
    (hrequired : ∀ k ∈ fields, ∃ f ∈ sent, f.1 = k ∧ f.2.isNull = false) (hknown : ∀ f ∈ sent, f.1 ∈ fields) :
    requireFields fields items code missing unexpected = .ok () := by
  have hmissing : (fields.filter fun k => (dictGet items k).isNone) = [] := by
    refine List.filter_eq_nil_iff.mpr fun k hk => ?_
    obtain ⟨f, hf, rfl, hnull⟩ := hrequired k hk
    obtain ⟨x, hx, -⟩ := d.all f hf hnull
    rw [(dictGet_eq_some d.nodup).mpr hx]
    exact Bool.false_ne_true
  have hunexpected : (items.filter fun p => !PyKey.isOneOf fields p.1) = [] := by
    refine List.filter_eq_nil_iff.mpr fun p hp => ?_
    obtain ⟨f, hf, hkey, -⟩ := d.only p hp
    rw [hkey, PyKey.isOneOf, decide_eq_true (hknown f hf)]
    exact Bool.false_ne_true
  simp only [requireFields, hmissing, hunexpected]
  rfl

/-- A member that is there or not. -/
theorem optional_sent {α : Type} {k : PyStr} {o : Option α} {g : α → PyVal} (hg : ∀ a, g a ≠ .none)
    (hsome : ∀ a, o = some a → (k, .val (g a)) ∈ sent) (hnone : o = none → ∀ f ∈ sent, f.1 ≠ k) :
    dictGet items k = o.map g := by
  cases o with
  | some a => exact d.get (hsome a rfl) (hg a)
  | none => exact d.get_absent (hnone rfl)

end

/-! ## Error envelopes -/

theorem intOf_map (o : Option Nat) : intOf (o.map fun (n : Nat) => PyVal.int n) = o.map fun (n : Nat) => (n : Int) := by
  cases o <;> rfl

theorem textOf_map (o : Option Uuid) : textOf (o.map fun id => .str id.text) = o.map (·.text) := by
  cases o <;> rfl

section

variable {items : List (PyKey × PyVal)} {e : Envelope}

/-- An error envelope is raised as what it says. -/
theorem error_read (d : Delivered (errorFields e) items) :
    ∃ info, dictGet items (py "error") = some info ∧ parseErrorEnvelope info = raisedError e := by
  obtain ⟨inner, hget, dinner⟩ := d.get_obj (List.mem_singleton_self _)
  refine ⟨_, hget, ?_⟩
  have hcode : dictGet inner (py "code") = some (.str (errorCodeText e.code)) :=
    dinner.get (by simp [errorMembers]) nofun
  have hmessage : dictGet inner (py "message") = some (.str (py e.message)) :=
    dinner.get (by simp [errorMembers]) nofun
  have hexpected : dictGet inner (py "expected_revision") = e.expectedRevision.map fun n => .int n := by
    refine optional_sent dinner nofun (fun n hn => by simp [errorMembers, hn]) fun hnone => ?_
    cases hid : e.requestId <;> cases hactual : e.actualRevision <;>
      simp [errorMembers, hnone, hid, hactual, py_inj]
  have hactual : dictGet inner (py "actual_revision") = e.actualRevision.map fun n => .int n := by
    refine optional_sent dinner nofun (fun n hn => by simp [errorMembers, hn]) fun hnone => ?_
    cases hid : e.requestId <;> cases hexpected : e.expectedRevision <;>
      simp [errorMembers, hnone, hid, hexpected, py_inj]
  have hrequest : dictGet inner (py "request_id") = e.requestId.map fun id => .str id.text := by
    refine optional_sent dinner nofun (fun id hid => by simp [errorMembers, hid]) fun hnone => ?_
    cases hactual : e.actualRevision <;> cases hexpected : e.expectedRevision <;>
      simp [errorMembers, hnone, hactual, hexpected, py_inj]
  have hne : (textOf (some (.str (errorCodeText e.code)))).filter (· ≠ []) = some (errorCodeText e.code) := by
    refine Option.filter_eq_some_iff.mpr ⟨rfl, ?_⟩
    cases e.code <;> rfl
  have hvalidation : errorCodeText e.code = py "validation_failed" ↔ e.code = .validationFailed :=
    errorCodeText_injective.eq_iff (b := .validationFailed)
  simp only [parseErrorEnvelope, hcode, hne, hmessage, hexpected, hactual, hrequest, intOf_map, textOf_map,
    raisedError, hvalidation]
  split_ifs with hconflict hcase
  · rfl
  · rw [hcase]
    rfl
  · rfl

end

/-! ## The replay payload -/

section

variable {readNumber : Numeric → PyVal}

mutual
/-- Both sides look for the same keys. -/
theorem hasForbidden_load (forbidden : List PyStr) : ∀ {v : Jsonb}, v.Legible readNumber →
    hasForbidden forbidden (v.load readNumber) = hasForbiddenKey forbidden v
  | .null, _ => rfl
  | .bool _, _ => rfl
  | .str _, _ => rfl
  | .num x, h => by
      rw [Jsonb.load]
      rcases Jsonb.NumberLegible.number h with ⟨i, hi, -⟩ | ⟨f, hf⟩
      · rw [hi]
        rfl
      · rw [hf]
        rfl
  | .arr _, h => hasForbiddenElems_load forbidden h
  | .obj _, h => hasForbiddenItems_load forbidden h
theorem hasForbiddenElems_load (forbidden : List PyStr) : ∀ {xs : List Jsonb}, Jsonb.LegibleElems readNumber xs →
    hasForbiddenElems forbidden (Jsonb.loadElems readNumber xs) = elemsHaveForbiddenKey forbidden xs
  | [], _ => rfl
  | x :: xs, h => by
      rw [Jsonb.loadElems, hasForbiddenElems, elemsHaveForbiddenKey, hasForbidden_load forbidden h.1,
        hasForbiddenElems_load forbidden h.2]
theorem hasForbiddenItems_load (forbidden : List PyStr) : ∀ {kvs : List (PyStr × Jsonb)},
    Jsonb.LegibleItems readNumber kvs →
    hasForbiddenItems forbidden (Jsonb.loadItems readNumber kvs) = membersHaveForbiddenKey forbidden kvs
  | [], _ => rfl
  | (k, v) :: kvs, h => by
      rw [Jsonb.loadItems, hasForbiddenItems, membersHaveForbiddenKey, PyKey.isOneOf,
        hasForbidden_load forbidden h.1, hasForbiddenItems_load forbidden h.2]
end

theorem requestIdOk_load {payload : Jsonb} {requestId : Uuid} (h : replayRequestIdOk payload requestId = true) :
    requestIdOk requestId.text ((payload.get? (py "request_id")).map (·.load readNumber)) = true := by
  unfold replayRequestIdOk at h
  split at h
  · rename_i hnone
    rw [hnone]
    rfl
  · rename_i s hs
    rw [hs, of_decide_eq_true h]
    simp [Jsonb.load, requestIdOk, isValidUuid_text]
  · cases h

/-- The payload of a row satisfies the contract on the other side as well. -/
theorem validateReplayPayload_load {kvs : List (PyStr × Jsonb)} {requestId : Uuid}
    (h : PayloadSound readNumber requestId (.obj kvs)) :
    validateReplayPayload (Jsonb.loadItems readNumber kvs) requestId.text = .ok () := by
  have hforbidden : hasForbidden forbiddenPayloadKeys (.dict (Jsonb.loadItems readNumber kvs)) = false :=
    (hasForbidden_load forbiddenPayloadKeys h.numbers).trans h.allowed
  have hknown : (Jsonb.loadItems readNumber kvs).find? (fun p => !PyKey.isOneOf replayPayloadAllowedKeys p.1) =
      none := by
    refine List.find?_eq_none.mpr fun p hp => ?_
    obtain ⟨q, hq, hkey⟩ := Jsonb.mem_loadItems hp
    have hkeys : decide (q.1 ∈ replayPayloadAllowedKeys) = true := List.all_eq_true.mp h.keys q hq
    rw [hkey, PyKey.isOneOf, hkeys]
    exact Bool.false_ne_true
  obtain ⟨response, hresponse⟩ := h.response
  obtain ⟨id, hid, hcanonical⟩ := h.messageId
  have hresponse' : dictGet (Jsonb.loadItems readNumber kvs) (py "response") = some (.str response) := by
    rw [Jsonb.dictGet_loadItems, hresponse]
    rfl
  have hid' : dictGet (Jsonb.loadItems readNumber kvs) (py "message_id") = some (.str id) := by
    rw [Jsonb.dictGet_loadItems, hid]
    rfl
  have huuid := isValidUuid_of_canonical hcanonical
  have hrequest : requestIdOk requestId.text (dictGet (Jsonb.loadItems readNumber kvs) (py "request_id")) = true := by
    rw [Jsonb.dictGet_loadItems]
    exact requestIdOk_load h.requestId
  have hserialisable : serialisable ⟨false, false⟩ (.dict (Jsonb.loadItems readNumber kvs)) = true :=
    Jsonb.serialisable_load h.numbers
  have hencodable : encodable (render [cp ' '] (.dict (Jsonb.loadItems readNumber kvs))) = true :=
    Jsonb.encodable_render_load h.numbers h.encodable
  have hlength : utf8Len (render [cp ' '] (.dict (Jsonb.loadItems readNumber kvs))) ≤ 8192 :=
    (Jsonb.utf8Len_render_load h.numbers).trans h.octetLength
  simp only [validateReplayPayload, hforbidden, hknown, hresponse', hid', hrequest, hserialisable, hencodable,
    hlength, textOf, check, huuid, Option.any_some, Option.isSome_some, Bool.not_false, if_true, ok_bind,
    decide_true]

end

/-! ## Results -/

theorem ref_read {r : OutboxRef} (h : RefSound r) {items : List (PyKey × PyVal)}
    (d : Delivered (refFields r) items) : ∃ q, parseOutboxRef (.dict items) = .ok q ∧ PublishesRef r q := by
  obtain ⟨request, hrequest⟩ := Option.isSome_iff_exists.mp h.turnRequestId
  simp only [refFields, hrequest, Option.map_some, nullable] at d
  have hfields : ∀ {code missing unexpected : String},
      requireFields outboxRefFields items code missing unexpected = .ok () :=
    requireFields_sent d (by simp [outboxRefFields, Field.isNull]) (by simp [outboxRefFields])
  have hid : dictGet items (py "id") = some (.str r.id.text) := d.get (by simp) (by simp)
  have htype : dictGet items (py "event_type") = some (.str r.eventType) := d.get (by simp) (by simp)
  have hkey : dictGet items (py "idempotency_key") = some (.str r.idempotencyKey) := d.get (by simp) (by simp)
  have hturn : dictGet items (py "turn_request_id") = some (.str request.text) := d.get (by simp) (by simp)
  have hversion : dictGet items (py "contract_version") = some (.int r.contractVersion) := d.get (by simp) (by simp)
  have hpos : (0 : Int) < r.contractVersion := Int.natCast_pos.mpr h.contractVersion
  refine ⟨⟨r.id.text, r.eventType, r.idempotencyKey, request.text, r.contractVersion⟩, ?_,
    rfl, rfl, rfl, by rw [hrequest]; rfl, rfl⟩
  simp only [parseOutboxRef, hfields, hid, htype, hkey, hturn, hversion, textMatching, positiveInt, h.eventType,
    h.idempotencyKey, isValidUuid_text, hpos, if_true, ok_bind]
  rfl

theorem refs_read {rs : List OutboxRef} {refs : List PyVal} (hrs : ∀ r ∈ rs, RefSound r)
    (h : List.Forall₂ (fun r v => ∃ items, v = .dict items ∧ Delivered (refFields r) items) rs refs) :
    ∃ qs, refs.mapM parseOutboxRef = .ok qs ∧ List.Forall₂ PublishesRef rs qs := by
  induction h with
  | nil => exact ⟨[], rfl, .nil⟩
  | @cons r v rs refs hv _ ih =>
      obtain ⟨items, rfl, d⟩ := hv
      obtain ⟨q, hq, hpublishes⟩ := ref_read (hrs r List.mem_cons_self) d
      obtain ⟨qs, hqs, hall⟩ := ih fun r' hr' => hrs r' (List.mem_cons_of_mem r hr')
      refine ⟨q :: qs, ?_, .cons hpublishes hall⟩
      rw [List.mapM_cons, hq, hqs]
      rfl

section

variable {text : Timestamp → PyStr} {readNumber : Numeric → PyVal}

/-- **The result of a completed row is read as what it is.** -/
theorem result_read (htext : ∀ t, text t ≠ []) {r : TurnRequest} {n : Nat} {payload : Jsonb} {at_ : Timestamp}
    (hs : r.state = .completed n payload at_) (hrefs : ∀ ref ∈ r.replayOutboxRefs, RefSound ref)
    (huser : r.userId ≠ []) (hpayload : PayloadSound readNumber r.requestId payload)
    {items : List (PyKey × PyVal)} (h : ResultArrives text readNumber r.buildResult items) :
    dictGet items (py "error") = none ∧ dictGet items (py "status") = none ∧
      ∃ p, parseCommitTurnResult (.dict items) = .ok p ∧ Publishes text readNumber r.buildResult p := by
  obtain ⟨refs, hdelivered, d⟩ := h
  cases payload with
  | obj kvs =>
      obtain ⟨id, hid, hcanonical⟩ := hpayload.messageId
      have hmessage : (Jsonb.obj kvs).getText? (py "message_id") = some id := by
        rw [Jsonb.getText?, hid]
        rfl
      simp only [TurnRequest.buildResult, hs] at hdelivered d ⊢
      simp only [resultFields, hmessage, nullable, nullableInt, Jsonb.load] at d
      have herror : dictGet items (py "error") = none := d.get_absent (by simp [py_inj])
      have hstatus : dictGet items (py "status") = none := d.get_absent (by simp [py_inj])
      refine ⟨herror, hstatus, ?_⟩
      have hfields : ∀ {code missing unexpected : String},
          requireFields successFields items code missing unexpected = .ok () :=
        requireFields_sent d (by simp [successFields, Field.isNull]) (by simp [successFields])
      have huserId : dictGet items (py "user_id") = some (.str r.userId) := d.get (by simp) (by simp)
      have hrequestId : dictGet items (py "request_id") = some (.str r.requestId.text) := d.get (by simp) (by simp)
      have hrevision : dictGet items (py "committed_revision") = some (.int n) := d.get (by simp) (by simp)
      have huserMessage : dictGet items (py "user_message_id") = some (.str r.requestId.text) :=
        d.get (by simp) (by simp)
      have hassistant : dictGet items (py "assistant_message_id") = some (.str id) := d.get (by simp) (by simp)
      have hreplay : dictGet items (py "replay_payload") = some (.dict (Jsonb.loadItems readNumber kvs)) :=
        d.get (by simp) (by simp)
      have houtbox : dictGet items (py "outbox_events") = some (.list refs) := d.get (by simp) (by simp)
      have hcreated : dictGet items (py "created_at") = some (.str (text r.createdAt)) := d.get (by simp) (by simp)
      have hcompleted : dictGet items (py "completed_at") = some (.str (text at_)) := d.get (by simp) (by simp)
      have hcontract := validateReplayPayload_load hpayload
      have hsame : textOf (dictGet (Jsonb.loadItems readNumber kvs) (py "message_id")) = some id := by
        rw [Jsonb.dictGet_loadItems, hid]
        rfl
      obtain ⟨qs, hqs, hpublishes⟩ := refs_read hrefs hdelivered
      have hnonempty : ∀ {s : PyStr}, s ≠ [] → (!s.isEmpty) = true := by
        intro s hs
        simpa using hs
      refine ⟨⟨r.userId, r.requestId.text, n, r.requestId.text, id, Jsonb.loadItems readNumber kvs, qs,
        text r.createdAt, text at_⟩, ?_, rfl, rfl, ⟨n, rfl, rfl⟩, rfl, hmessage, rfl, hpublishes, rfl, rfl⟩
      simp only [parseCommitTurnResult, herror, hfields, huserId, hrequestId, hrevision, huserMessage, hassistant,
        hreplay, houtbox, hcreated, hcompleted, textMatching, parseRevision, parseReplayPayload, parseOutboxEvents,
        hcontract, hsame, hqs, check, hnonempty huser, hnonempty (htext _), isValidUuid_text,
        isValidUuid_of_canonical hcanonical, decide_true, if_true, ok_bind, Int.not_lt.mpr (Int.natCast_nonneg n),
        if_false]
      rfl
  | _ => cases hpayload.isObject

/-! ## What the repositories return -/

theorem unwrapRpcData_of_wraps {items : List (PyKey × PyVal)} {response : Response} (h : Wraps items response) :
    ∃ data, response = .data data ∧ unwrapRpcData data = .ok (.dict items) := by
  cases h with
  | bare => exact ⟨_, rfl, rfl⟩
  | listed => exact ⟨_, rfl, rfl⟩

theorem readCommit_error {e : Envelope} {items : List (PyKey × PyVal)} {response : Response}
    (d : Delivered (errorFields e) items) (hw : Wraps items response) :
    readCommit response = .error (raisedError e) := by
  obtain ⟨data, rfl, hdata⟩ := unwrapRpcData_of_wraps hw
  obtain ⟨info, hinfo, hraised⟩ := error_read d
  simp only [readCommit, hdata, parseCommitTurnResult, hinfo, hraised]
  unfold raisedError
  split_ifs <;> rfl

theorem readReplay_error {e : Envelope} {items : List (PyKey × PyVal)} {response : Response}
    (d : Delivered (errorFields e) items) (hw : Wraps items response) :
    readReplay response = .error (raisedError e) := by
  obtain ⟨data, rfl, hdata⟩ := unwrapRpcData_of_wraps hw
  obtain ⟨info, hinfo, hraised⟩ := error_read d
  simp only [readReplay, hdata, ok_bind, parseReplayCommittedTurnResult, hinfo, hraised]

theorem readReplay_status {status : String} (hstatus : py status ∈ replayStatuses) {items : List (PyKey × PyVal)}
    {response : Response} (d : Delivered (statusFields status) items) (hw : Wraps items response) :
    readReplay response = .ok ⟨py status, none⟩ := by
  obtain ⟨data, rfl, hdata⟩ := unwrapRpcData_of_wraps hw
  have herror : dictGet items (py "error") = none := d.get_absent (by simp [statusFields, py_inj])
  have hget : dictGet items (py "status") = some (.str (py status)) := d.get (by simp [statusFields]) nofun
  simp only [readReplay, hdata, ok_bind, parseReplayCommittedTurnResult, herror, hget, hstatus, if_true]

theorem PublishesRef.unique {r : OutboxRef} {q q' : CommittedOutboxRef} (h : PublishesRef r q)
    (h' : PublishesRef r q') : q = q' :=
  CommittedOutboxRef.ext (h.id.trans h'.id.symm) (h.eventType.trans h'.eventType.symm)
    (h.idempotencyKey.trans h'.idempotencyKey.symm)
    (Option.some.inj (h.turnRequestId.trans h'.turnRequestId.symm))
    (h.contractVersion.trans h'.contractVersion.symm)

/-- There is one way to read a turn. -/
theorem Publishes.unique {turn : Cloud.CommittedTurn} {p p' : CommittedTurn}
    (h : Publishes text readNumber turn p) (h' : Publishes text readNumber turn p') : p = p' := by
  obtain ⟨n, hn, hrevision⟩ := h.committedRevision
  obtain ⟨n', hn', hrevision'⟩ := h'.committedRevision
  rw [hn] at hn'
  cases hn'
  have hpayload : PyVal.dict p.replayPayload = .dict p'.replayPayload :=
    h.replayPayload.symm.trans h'.replayPayload
  have hevents : p.outboxEvents = p'.outboxEvents :=
    Relator.RightUnique.forall₂ (fun _ _ _ hq hq' => hq.unique hq') h.outboxEvents h'.outboxEvents
  exact CommittedTurn.ext (h.userId.trans h'.userId.symm) (h.requestId.trans h'.requestId.symm)
    (hrevision.trans hrevision'.symm) (h.userMessageId.trans h'.userMessageId.symm)
    (Option.some.inj (h.assistantMessageId.symm.trans h'.assistantMessageId)) (PyVal.dict.inj hpayload) hevents
    (h.createdAt.trans h'.createdAt.symm) (h.completedAt.trans h'.completedAt.symm)

/-- The ledger can answer for a row. -/
def Answerable (readNumber : Numeric → PyVal) (r : TurnRequest) : Prop :=
  (∀ ref ∈ r.replayOutboxRefs, RefSound ref) ∧ ∃ n payload at_, r.state = .completed n payload at_ ∧
    r.userId ≠ [] ∧ PayloadSound readNumber r.requestId payload

theorem answerable_of_sound {db : Db} (houtbox : OutboxSound db) (hpayloads : PayloadsSound readNumber db)
    {r : TurnRequest} (hr : r ∈ db.turnRequests.rows) (hs : ∃ n payload at_, r.state = .completed n payload at_) :
    Answerable readNumber r := by
  obtain ⟨n, payload, at_, hs⟩ := hs
  exact ⟨houtbox.refs r hr, n, payload, at_, hs, hpayloads r hr n payload at_ hs⟩

section

variable (htext : ∀ t, text t ≠ [])
include htext

theorem readCommit_result {r : TurnRequest} (hr : Answerable readNumber r) {items : List (PyKey × PyVal)}
    {response : Response} (h : ResultArrives text readNumber r.buildResult items) (hw : Wraps items response) :
    ∃ p, readCommit response = .ok p ∧ Publishes text readNumber r.buildResult p := by
  obtain ⟨hrefs, n, payload, at_, hs, huser, hpayload⟩ := hr
  obtain ⟨data, rfl, hdata⟩ := unwrapRpcData_of_wraps hw
  obtain ⟨-, -, p, hp, hpublishes⟩ := result_read htext hs hrefs huser hpayload h
  exact ⟨p, by simp only [readCommit, hdata, hp], hpublishes⟩

theorem readReplay_result {r : TurnRequest} (hr : Answerable readNumber r) {items : List (PyKey × PyVal)}
    {response : Response} (h : ResultArrives text readNumber r.buildResult items) (hw : Wraps items response) :
    ∃ p, readReplay response = .ok ⟨py "completed", some p⟩ ∧ Publishes text readNumber r.buildResult p := by
  obtain ⟨hrefs, n, payload, at_, hs, huser, hpayload⟩ := hr
  obtain ⟨data, rfl, hdata⟩ := unwrapRpcData_of_wraps hw
  obtain ⟨herror, hstatus, p, hp, hpublishes⟩ := result_read htext hs hrefs huser hpayload h
  refine ⟨p, ?_, hpublishes⟩
  simp only [readReplay, hdata, ok_bind, parseReplayCommittedTurnResult, herror, hstatus, hp]
  rfl

/-- Whatever `commit_turn` does, its answer is read as what it says. -/
theorem says_of_commitStep {now : Timestamp} {ids : FreshIds} {a : CommitArgs} {db db' : Db} {reply : CommitReply}
    (hstep : CommitStep now ids a db reply db') (houtbox : OutboxSound db ∧ OutboxSound db')
    (hpayloads : PayloadsSound readNumber db ∧ PayloadsSound readNumber db') {response : Response}
    (ha : Arrives text readNumber reply response) : Says text readNumber reply (readCommit response) := by
  have hresult : ∀ {r : TurnRequest}, Answerable readNumber r →
      Arrives text readNumber (.result r.buildResult) response →
      Says text readNumber (.result r.buildResult) (readCommit response) := by
    intro r hr ha
    cases ha with
    | result h hw =>
        obtain ⟨p, hp, hpublishes⟩ := readCommit_result htext hr h hw
        rw [hp]
        exact .result hpublishes
  cases hstep with
  | refused e =>
      cases ha with
      | error d hw =>
          rw [readCommit_error d hw]
          exact .error e
  | raised =>
      cases ha with
      | raised => exact .raised
  | replayed i r hv hr hs =>
      exact hresult (answerable_of_sound houtbox.1 hpayloads.1 (Table.get?_mem hr) hs) ha
  | fresh i row _ hv hc =>
      have hrow : row ∈ db'.turnRequests.rows := by
        rw [hc.turnRequests]
        exact Table.mem_put.mpr (.inl rfl)
      exact hresult (answerable_of_sound houtbox.2 hpayloads.2 hrow ⟨_, _, _, hc.state⟩) ha

/-- So is every answer of `replay_committed_turn`. -/
theorem says_of_replay {db : Db} (houtbox : OutboxSound db) (hpayloads : PayloadsSound readNumber db)
    (now : Timestamp) (userId : Option PyStr) (requestId : Option Uuid) {response : Response}
    (ha : ReplayArrives text readNumber (replayCommittedTurn now userId requestId db) response) :
    ReplaySays text readNumber (replayCommittedTurn now userId requestId db) (readReplay response) := by
  have hrow : ∀ {turn : Cloud.CommittedTurn}, replayCommittedTurn now userId requestId db = .result turn →
      ∃ r, Answerable readNumber r ∧ turn = r.buildResult := by
    intro turn hturn
    unfold replayCommittedTurn at hturn
    split at hturn
    · cases hturn
    · cases hturn
    · split at hturn
      · cases hturn
      · rename_i r hr
        split at hturn
        · rename_i hs
          split at hturn
          · cases hturn
          · cases hturn
            exact ⟨r, answerable_of_sound houtbox hpayloads (Table.get?_mem hr) ⟨_, _, _, hs⟩, rfl⟩
        · split at hturn <;> cases hturn
        · cases hturn
  generalize replayCommittedTurn now userId requestId db = reply at ha hrow ⊢
  cases ha with
  | raised => exact .raised
  | error d hw =>
      rw [readReplay_error d hw]
      exact .error _
  | inProgress d hw =>
      rw [readReplay_status (by simp [replayStatuses]) d hw]
      exact .inProgress
  | unavailable d hw =>
      rw [readReplay_status (by simp [replayStatuses]) d hw]
      exact .unavailable
  | result h hw =>
      obtain ⟨r, hr, rfl⟩ := hrow rfl
      obtain ⟨p, hp, hpublishes⟩ := readReplay_result htext hr h hw
      rw [hp]
      exact .result hpublishes

/-- **No answer of a turn is turned down.** In every run whose payloads are legible, what `commit_turn`
answered is read as what it says, and so is what `replay_committed_turn` answers at the end, for any
user and request. -/
theorem turn_answers_are_read {sha256 : PyStr → PyStr} {es : List (Event (exec sha256))} {db : Db}
    (hrun : Run Db.empty es db) (hlegible : ∀ e ∈ es, e.input.2.SendsLegible readNumber) :
    (∀ e ∈ es, IsCommit e → ∃ reply, e.reply = .commit reply ∧
      ∀ response, Arrives text readNumber reply response → Says text readNumber reply (readCommit response)) ∧
    ∀ now userId requestId response,
      ReplayArrives text readNumber (replayCommittedTurn now userId requestId db) response →
        ReplaySays text readNumber (replayCommittedTurn now userId requestId db) (readReplay response) := by
  obtain ⟨houtbox, houtboxes⟩ := outboxSound_of_run hrun
  obtain ⟨hpayloads, hall⟩ := payloadsSound_of_run hrun hlegible
  refine ⟨?_, fun now userId requestId response => says_of_replay htext houtbox hpayloads now userId requestId⟩
  rintro e he ⟨t, ids, a, hin⟩
  obtain ⟨reply, hreply, hstep⟩ := commitStep_of_event hin
  exact ⟨reply, hreply, fun response => says_of_commitStep htext hstep (houtboxes e he) (hall e he)⟩

/-- **A replay is read as the commit was.** Once a commit was answered, every later answer for the same
request is read as the same turn: of `replay_committed_turn`, and of a `commit_turn` with the same hash.
The two may have come back in different ways, and messages and events may be gone by then. -/
theorem replay_is_read_as_commit {sha256 : PyStr → PyStr} {es₀ es : List (Event (exec sha256))}
    {e₀ : Event (exec sha256)} {db : Db} (hrun : Run Db.empty (es₀ ++ e₀ :: es) db)
    (hlegible : ∀ e ∈ es₀ ++ e₀ :: es, e.input.2.SendsLegible readNumber) {key : PyStr × Uuid} {t₀ : Times}
    {ids₀ : FreshIds} {a₀ : CommitArgs} {turn : Cloud.CommittedTurn} (hfresh : FreshCommit key e₀)
    (hinput : e₀.input = (t₀, .commitTurn ids₀ a₀)) (hturn : e₀.reply = .commit (.result turn))
    (hthere : ∀ e ∈ es, (e.after.turnRequests.get? key).isSome) {response : Response}
    (harrives : Arrives text readNumber (.result turn) response) :
    ∃ p, readCommit response = .ok p ∧
      (∀ now response', ReplayArrives text readNumber (replayCommittedTurn now (some key.1) (some key.2) db) response' →
        readReplay response' = .ok ⟨py "completed", some p⟩) ∧
      ∀ now ids a i response', validateCommit a = .ok i → i.key = key → a.payloadHash = a₀.payloadHash →
        Arrives text readNumber (commitTurn now ids a db).1 response' → readCommit response' = .ok p := by
  obtain ⟨houtbox, -⟩ := outboxSound_of_run hrun
  obtain ⟨hpayloads, -⟩ := payloadsSound_of_run hrun hlegible
  obtain ⟨m, -, hrest⟩ := hrun.split
  obtain ⟨-, hpost⟩ := hrest.cons_inv
  obtain ⟨t, ids, a', i₀, row, hin, hv₀, hkey₀, hreply, hc⟩ := committed_of_fresh hfresh
  rw [hinput] at hin
  obtain ⟨rfl, hcall⟩ := Prod.mk.inj hin
  obtain ⟨rfl, rfl⟩ := Call.commitTurn.inj hcall
  rw [hturn] at hreply
  obtain rfl := CommitReply.result.inj (Reply.commit.inj hreply)
  have hargs₀ := validateCommit_ok hv₀
  have hs : ∃ n payload at_, row.state = .completed n payload at_ := ⟨_, _, _, hc.state⟩
  have hstart : Remembers key row e₀.after := by
    refine ⟨row, ?_, .refl row⟩
    rw [hc.turnRequests, Table.get?_put, if_pos (by rw [hc.key, hkey₀])]
  -- the row of the request still says what the commit left in it
  obtain ⟨r, hr, hsame⟩ := remembers_of_run hpost hstart hs hthere
  have hstate := hsame.state.trans hc.state
  have hresult := hsame.buildResult
  have hanswers : Answerable readNumber r := answerable_of_sound houtbox hpayloads (Table.get?_mem hr) ⟨_, _, _, hstate⟩
  rw [← hresult] at harrives
  cases harrives with
  | result h hw =>
      obtain ⟨p, hp, hpublishes⟩ := readCommit_result htext hanswers h hw
      refine ⟨p, hp, ?_, ?_⟩
      · intro now response' ha
        have huser : key.1 ≠ [] := by
          rw [← hkey₀]
          exact hargs₀.userId_ne
        rw [replayCommittedTurn_replays now huser hr hstate hargs₀.replayPayload] at ha
        cases ha with
        | result h' hw' =>
            obtain ⟨p', hp', hpublishes'⟩ := readReplay_result htext hanswers h' hw'
            rw [hp', hpublishes'.unique hpublishes]
      · intro now ids a i response' hv hkey heq ha
        have hhash : some r.payloadHash = some i.payloadHash := by
          rw [hsame.payloadHash, hc.payloadHash, ← hargs₀.payloadHash, ← heq, (validateCommit_ok hv).payloadHash]
        rw [commitTurn_replays now ids hv (by rw [hkey]; exact hr) ⟨_, _, _, hstate⟩ (Option.some.inj hhash)] at ha
        cases ha with
        | result h' hw' =>
            obtain ⟨p', hp', hpublishes'⟩ := readCommit_result htext hanswers h' hw'
            rw [hp', hpublishes'.unique hpublishes]

end

end

/-! ## One turn, committed and replayed -/

/-- A commit with a number in its payload, and an event. -/
def numberedArgs : CommitArgs :=
  { firstTurnArgs with
    replayPayload := some (.obj [(py "response", .str (py "hello")),
      (py "message_id", .str (py "33333333-3333-4333-8333-333333333333")), (py "duration_ms", .num ⟨12, 0⟩)])
    outboxEvents := some (.arr [.obj [(py "payload", .obj [(py "kind", .str (py "turn"))]),
      (py "event_type", .str (py "turn_committed")), (py "idempotency_key", .str (py "k1"))]]) }

def numberedCommit : Event (exec sampleSha256) :=
  .of _ (sampleTimes, .commitTurn (sampleIds 1) numberedArgs) Db.empty

/-- `json.loads` of a number. -/
def readNumber (x : Numeric) : PyVal :=
  if x.scale = 0 then .int x.coeff
  else if h : isFloatRepr x.text = true then .float (.fin ⟨x.text, h⟩) else .float .nan

/-- The first moment there is. -/
def epochText (_ : Timestamp) : PyStr := py "1970-01-01T00:00:00+00:00"

theorem epochText_ne (t : Timestamp) : epochText t ≠ [] := by simp [epochText, py]

theorem numberedCommit_fresh : FreshCommit (sampleUser, sampleRequest) numberedCommit := by
  unfold FreshCommit
  decide +kernel

/-- The messages of the turn, pruned. -/
def prunedAfter : Event (exec sampleSha256) :=
  .of _ (sampleTimes, .pruneChatLogs fun _ => true) numberedCommit.after

theorem numbered_run : Run Db.empty [numberedCommit, prunedAfter] prunedAfter.after := by
  have hempty : numberedCommit.before = Db.empty := Event.of_before _ _ _
  have hpruned : prunedAfter.before = numberedCommit.after := Event.of_before _ _ _
  have hlater : Run prunedAfter.before [prunedAfter] prunedAfter.after := .cons prunedAfter (.nil _)
  rw [hpruned] at hlater
  rw [← hempty]
  exact .cons numberedCommit hlater

theorem numbered_legible : ∀ e ∈ [numberedCommit, prunedAfter], e.input.2.SendsLegible readNumber := by
  intro e he
  rcases List.mem_cons.mp he with rfl | he
  · rintro payload ⟨rfl⟩
    have hnumber : Jsonb.NumberLegible readNumber ⟨12, 0⟩ := ⟨.inl ⟨12, rfl, Nat.lt_trans (by decide) lt_intTextLimit⟩, by decide⟩
    exact ⟨⟨trivial, trivial, hnumber, trivial⟩, by decide +kernel⟩
  · obtain rfl := List.mem_singleton.mp he
    trivial

section

variable (text : Timestamp → PyStr) (readNumber : Numeric → PyVal)

theorem distinct_refFields (r : OutboxRef) : Distinct (refFields r) :=
  ⟨by simp [refFields, py_inj], by simp [refFields]⟩

theorem distinct_resultFields (turn : Cloud.CommittedTurn) (refs : List PyVal) :
    Distinct (resultFields text readNumber turn refs) :=
  ⟨by simp [resultFields, py_inj], by simp [resultFields]⟩

/-- Every result can arrive. -/
theorem exists_resultArrives (turn : Cloud.CommittedTurn) : ∃ items, ResultArrives text readNumber turn items := by
  have hrefs : ∀ rs : List OutboxRef, ∃ refs, List.Forall₂
      (fun r v => ∃ items, v = PyVal.dict items ∧ Delivered (refFields r) items) rs refs := by
    intro rs
    induction rs with
    | nil => exact ⟨[], .nil⟩
    | cons r rs ih =>
        obtain ⟨refs, hall⟩ := ih
        exact ⟨_ :: refs, .cons ⟨_, rfl, delivered_of_kept (distinct_refFields r) (fun _ => true) fun _ _ _ => rfl⟩ hall⟩
  obtain ⟨refs, hall⟩ := hrefs turn.outboxEvents
  exact ⟨_, refs, hall,
    delivered_of_kept (distinct_resultFields text readNumber turn refs) (fun _ => true) fun _ _ _ => rfl⟩

end

theorem turn_answers_are_read_sample : ∃ turn response, numberedCommit.reply = .commit (.result turn) ∧
    Arrives epochText readNumber (.result turn) response ∧
    Says epochText readNumber (.result turn) (readCommit response) := by
  obtain ⟨ids, a, turn, -, hturn, -⟩ := freshCommit_iff.mp numberedCommit_fresh
  obtain ⟨items, hitems⟩ := exists_resultArrives epochText readNumber turn
  obtain ⟨hread, -⟩ := turn_answers_are_read epochText_ne numbered_run numbered_legible
  obtain ⟨reply, hreply, hsays⟩ := hread numberedCommit List.mem_cons_self ⟨_, _, _, rfl⟩
  rw [hturn] at hreply
  obtain rfl := Reply.commit.inj hreply
  exact ⟨turn, _, hturn, .result hitems .listed, hsays _ (.result hitems .listed)⟩

theorem prunedAfter_there : (prunedAfter.after.turnRequests.get? (sampleUser, sampleRequest)).isSome = true := by
  decide +kernel

def isReplayResult : ReplayReply → Bool
  | .result _ => true
  | _ => false

theorem prunedAfter_replays : isReplayResult
    (replayCommittedTurn 0 (some sampleUser) (some sampleRequest) prunedAfter.after) = true := by
  decide +kernel

theorem exists_replayArrives {reply : ReplayReply} (h : isReplayResult reply = true) :
    ∃ response, ReplayArrives epochText readNumber reply response := by
  cases reply with
  | result turn =>
      obtain ⟨items, hitems⟩ := exists_resultArrives epochText readNumber turn
      exact ⟨_, .result hitems .bare⟩
  | _ => cases h

theorem replay_is_read_as_commit_sample : ∃ p response,
    ReplayArrives epochText readNumber
      (replayCommittedTurn 0 (some sampleUser) (some sampleRequest) prunedAfter.after) response ∧
    readReplay response = .ok ⟨py "completed", some p⟩ := by
  obtain ⟨ids, a, turn, -, hturn, -⟩ := freshCommit_iff.mp numberedCommit_fresh
  obtain ⟨items, hitems⟩ := exists_resultArrives epochText readNumber turn
  have hrun : Run Db.empty ([] ++ numberedCommit :: [prunedAfter]) prunedAfter.after := numbered_run
  obtain ⟨p, -, hreplay, -⟩ := replay_is_read_as_commit epochText_ne hrun numbered_legible
    numberedCommit_fresh rfl hturn
    (fun e he => by obtain rfl := List.mem_singleton.mp he; exact prunedAfter_there) (.result hitems .listed)
  obtain ⟨response, harrives⟩ := exists_replayArrives prunedAfter_replays
  exact ⟨p, response, harrives, hreplay 0 response harrives⟩

end Katherine.Cloud.TurnReplies
