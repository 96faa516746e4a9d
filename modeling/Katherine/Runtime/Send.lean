import Katherine.Local.Preflight
import Katherine.Local.Reimport

/-!
# Asking for an imported turn

The head of `_commit_turn_inner` in `backend/companion_runtime.py`: the early checks, the
reservation, and the result of a replay. What comes after a new reservation, the provider
calls and the commit, is not part of it.

A turn that was imported is in the ledger as completed, so asking for it again should be
a replay (`imported_turn_replays_iff`). The importer knows neither the grammar of request
ids nor the length of a message that the early checks know, and nobody looks at the
imported `emotion_state` before `dict` does.
-/

namespace Katherine.Runtime

open Py Sql Local

/-! ## `dict(v)` -/

/-- What `dict` takes for a pair: an iterable of two. Of a dictionary these are its keys, which
are strings in what `json.loads` returns. -/
def pairOf : PyVal → Option (PyVal × PyVal)
  | .list [k, v] => some (k, v)
  | .tuple [k, v] => some (k, v)
  | .str [a, b] => some (.str [a], .str [b])
  | .dict [(.str k, _), (.str k', _)] => some (.str k, .str k')
  | _ => none

/-- A decoded value as a key; `none` where it has no hash. -/
def keyOf : PyVal → Option PyKey
  | .none => some .none
  | .bool b => some (.num (if b then py "true" else py "false"))
  | .int i => some (.num (intText i))
  | .float (.fin f) => some (.num f.text)
  | .float _ => some .other
  | .str s => some (.str s)
  | _ => none

/-- `d[k] = v`. A key that is there stays, with the new value. -/
def setItem (d : List (PyVal × PyVal)) (p : PyVal × PyVal) : List (PyVal × PyVal) :=
  if d.any fun q => pyEq q.1 p.1 then d.map fun q => if pyEq q.1 p.1 then (q.1, p.2) else q
  else d ++ [p]

def dictOfPairs (xs : List PyVal) : Option (List (PyKey × PyVal)) := do
  let pairs ← xs.mapM pairOf
  (pairs.foldl setItem []).mapM fun p => (keyOf p.1).map fun k => (k, p.2)

/-- `dict(v)`; `none` is a `TypeError` or a `ValueError`. -/
def dictOf : PyVal → Option (List (PyKey × PyVal))
  | .dict kvs => some kvs
  | .list xs => dictOfPairs xs
  | .tuple xs => dictOfPairs xs
  -- one character is no pair
  | .str [] => some []
  | _ => none

/-! ## The head of a turn -/

/-- `TurnResult`, of a success. -/
structure TurnResult where
  success : Bool := true
  response : PyVal
  emotionState : List (PyKey × PyVal)
  messageId : PyStr
  revision : Nat
  durationMs : Option Nat := none
  replayed : Bool := false

/-- How far `_commit_turn_inner` got without a provider. -/
inductive Sent
  | returned (r : TurnResult)
  /-- `commit_turn_async` makes a failure of it. -/
  | raised (e : Err)
  /-- The id is reserved, and `_execute_reserved_turn` begins. -/
  | admitted (historyGeneration : Nat)

/-- The early checks. -/
def validateTurn (requestId message : PyVal) : Except Err (PyStr × PyStr) := do
  let id ← orRaise (requestId.str?.filter fun s =>
      !s.isEmpty && decide (s.length ≤ maxRequestIdLength) && s.all isIdentChar)
    (.validation .invalidRequestId "request id invalid")
  let m ← orRaise (message.str?.filter fun s => !s.isEmpty && decide (s.length ≤ maxMessageLength))
    (.validation .emptyMessage "message invalid")
  return (id, m)

/-- What becomes of the answer of `reserve_request`. -/
def afterReservation (requestId : PyStr) (pre : ReplayOutcome) : Sent :=
  match pre.status, pre.committed with
  | .replay, some c =>
      match dictOf c.emotionState with
      | none => .raised .type
      | some emotionState => .returned
          { response := c.response, emotionState, messageId := c.messageId, revision := c.revision,
            replayed := true }
  | .conflict, _ => .raised (.conflict .requestPayloadConflict
      "Request id conflicts with a different message." 0 none requestId)
  | .reserved, _ =>
      match pre.historyGeneration with
      | none => .raised (.validation .invalidHistoryGeneration "admission generation invalid")
      | some g => .admitted g
  | _, _ => .raised (.validation .invalidRequestId "admission invalid")

/-- `_commit_turn_inner`, up to its first provider call. -/
def commitTurnInner (env : Env) (requestId message : PyVal) (s : LocalStore) : Sent × LocalStore :=
  match validateTurn requestId message with
  | .error e => (.raised e, s)
  | .ok p =>
      match reserveRequest env requestId message s with
      | (.error e, s') => (.raised e, s')
      | (.ok pre, s') => (afterReservation p.1 pre, s')

/-! ## What the importer stored -/

/-- The payload of an imported turn, as it is read back. -/
def storedPayload (x : LegacyTurn × Nat) : List (PyKey × PyVal) :=
  ((importReplayPayload x.1 x.2).decoded.items?).getD []

def storedResponse (x : LegacyTurn × Nat) : PyVal :=
  (dictGet (storedPayload x) (py "response")).getD (.str [])

def storedEmotion (x : LegacyTurn × Nat) : PyVal :=
  (dictGet (storedPayload x) (py "emotion_state")).getD (.dict [])

variable {sha256 : PyStr → PyStr}

/-- The result of an imported row. -/
theorem imported_committed {now : PyStr} {d : Db} {x : LegacyTurn × Nat} {hash text : PyStr}
    (h : Imported now d x hash text) :
    committedFromRow (importedRow x.1 hash text (x.1.created now) (x.2 - 1) x.2) =
      .ok (committedOf x.1.requestId 0 (x.2 - 1) x.2 (storedPayload x)) := by
  obtain ⟨hser, htext⟩ := dumpReplay_eq_ok h.replay
  have hread : loads text = some (importReplayPayload x.1 x.2).decoded := by
    rw [htext]
    exact loads_render (by decide) (writable_of_serialisable hser)
  have hne : text ≠ [] := by
    rintro rfl
    cases hread
  have hdecode : decodeObject text = .ok (storedPayload x) := by
    rw [decodeObject, if_neg hne, hread]
    rfl
  show (decodeObject text >>= fun payload => _) = _
  rw [hdecode]
  rfl

/-- The ledger answers the turn's own message with that result. -/
theorem imported_ledgerAnswer {now : PyStr} {d : Db} {x : LegacyTurn × Nat} {hash text : PyStr}
    (h : Imported now d x hash text) :
    ledgerAnswer d x.1.requestId x.1.userMessage = .ok (some
      { status := .replay,
        committed := some (committedOf x.1.requestId 0 (x.2 - 1) x.2 (storedPayload x)) }) := by
  have hstored : storedMessageIs d (importedRow x.1 hash text (x.1.created now) (x.2 - 1) x.2)
      x.1.userMessage = true := by
    have hrow : (importedRow x.1 hash text (x.1.created now) (x.2 - 1) x.2).userMessageId.bind
        d.chatLogs.get? = d.chatLogs.get? (x.2 - 1) := rfl
    rw [storedMessageIs, hrow, h.userMessage]
    exact decide_eq_true rfl
  simp only [Local.ledgerAnswer, h.ledger]
  show (answerCompleted d _ x.1.userMessage).map some = _
  rw [answerCompleted, hstored, imported_committed h]
  rfl

/-! ## When an imported turn replays -/

/-- The turn comes back as a replay, with the stored response; the store stays. -/
def Replayed (x : LegacyTurn × Nat) (r : Sent × LocalStore) (s : LocalStore) : Prop :=
  ∃ result, r = (.returned result, s) ∧ result.success = true ∧ result.replayed = true ∧
    result.response = storedResponse x

/-- The early checks take the turn, and `dict` its emotion. -/
structure Askable (x : LegacyTurn × Nat) : Prop where
  requestIdLength : x.1.requestId.length ≤ maxRequestIdLength
  requestIdChars : x.1.requestId.all isIdentChar = true
  message : x.1.userMessage.length ≤ maxMessageLength
  emotion : (dictOf (storedEmotion x)).isSome = true

/-- The texts of an accepted turn are not empty. -/
theorem validateLegacyTurn_nonempty {turn : PyVal} {t : LegacyTurn} (h : validateLegacyTurn turn = .ok t) :
    t.requestId.isEmpty = false ∧ t.userMessage.isEmpty = false := by
  simp only [validateLegacyTurn, validateLegacyMessage, bind_eq_ok, orRaise_eq_ok,
    Option.filter_eq_some_iff, Bool.not_eq_true'] at h
  obtain ⟨_, _, _, ⟨_, hid⟩, _, ⟨_, ⟨_, huser⟩, _, _, hm⟩, _, _, _, _, _, _, h⟩ := h
  cases hm
  cases h
  exact ⟨hid, huser⟩

theorem validateLegacyFixture_nonempty {fixture : PyVal} {turns : List LegacyTurn}
    (h : validateLegacyFixture fixture = .ok turns) :
    ∀ t ∈ turns, t.requestId.isEmpty = false ∧ t.userMessage.isEmpty = false := by
  simp only [validateLegacyFixture, bind_eq_ok] at h
  obtain ⟨_, _, _, _, _, _, _, _, _, _, _, _, h⟩ := h
  intro t ht
  obtain ⟨_, _, hok⟩ := of_mem_mapM_ok h t ht
  exact validateLegacyTurn_nonempty hok

theorem mem_of_newTurns {x : LegacyTurn × Nat} : ∀ {ts : List LegacyTurn} {known : List PyStr} {seq : Nat},
    x ∈ newTurns known seq ts → x.1 ∈ ts
  | [], _, _, h => by cases h
  | t :: ts, known, seq, h => by
      rw [newTurns] at h
      split at h
      · exact List.mem_cons_of_mem _ (mem_of_newTurns h)
      · rcases List.mem_cons.mp h with rfl | h
        · exact List.mem_cons_self
        · exact List.mem_cons_of_mem _ (mem_of_newTurns h)

/-- The early checks on two texts. -/
theorem validateTurn_eq_ok {id message : PyStr} {p : PyStr × PyStr} (hid : id.isEmpty = false)
    (hmessage : message.isEmpty = false) :
    validateTurn (.str id) (.str message) = .ok p ↔
      (id.length ≤ maxRequestIdLength ∧ id.all isIdentChar = true ∧ message.length ≤ maxMessageLength) ∧
        p = (id, message) := by
  simp only [validateTurn, bind_eq_ok, orRaise_eq_ok, PyVal.str?, Option.filter_eq_some_iff,
    Bool.and_eq_true, decide_eq_true_eq, Bool.not_eq_true']
  constructor
  · rintro ⟨_, ⟨hs, ⟨_, hlen⟩, hchars⟩, _, ⟨hm, _, hlen'⟩, hp⟩
    cases hs
    cases hm
    cases hp
    exact ⟨⟨hlen, hchars, hlen'⟩, rfl⟩
  · rintro ⟨⟨hlen, hchars, hlen'⟩, rfl⟩
    exact ⟨id, ⟨rfl, ⟨hid, hlen⟩, hchars⟩, message, ⟨rfl, hmessage, hlen'⟩, rfl⟩

/-- `reserve_request` checks no more than that. -/
theorem both_of_lengths {id message : PyStr} (hid : id.isEmpty = false) (hmessage : message.isEmpty = false)
    (hlen : id.length ≤ maxRequestIdLength) (hchars : id.all isIdentChar = true)
    (hlen' : message.length ≤ maxMessageLength) :
    both (validateRequestId (.str id)) (validateMessage (.str message) "user_message") = .ok (id, message) := by
  simp only [both, bind_eq_ok, validateRequestId, validateMessage, orRaise_eq_ok, PyVal.str?,
    Option.filter_eq_some_iff, require_eq_ok, decide_eq_true_eq, Bool.not_eq_true']
  exact ⟨id, ⟨id, ⟨rfl, hid⟩, (), hlen, (), hchars, rfl⟩, message, ⟨message, ⟨rfl, hmessage⟩, (), hlen', rfl⟩, rfl⟩

/-- **An imported turn replays exactly if the early checks and `dict` take it.** -/
theorem imported_turn_replays_iff {env : Env} {fixture : PyVal} {turns : List LegacyTurn}
    {s s' : LocalStore} {rep : ImportReport} (hvalid : validateLegacyFixture fixture = .ok turns)
    (himport : exec sha256 env (.importLegacyFixture fixture) s = (.ok (.imported rep), s'))
    {x : LegacyTurn × Nat} (hx : x ∈ s.db.newTurns turns) {env' : Env} (hfault : env'.fault = .none) :
    Replayed x (commitTurnInner env' (.str x.1.requestId) (.str x.1.userMessage) s') s' ↔ Askable x := by
  obtain ⟨turns', i, k, hvalid', hidle, hpasses, _⟩ := import_passes himport
  rw [hvalid] at hvalid'
  cases hvalid'
  obtain ⟨hash, text, himported⟩ := hpasses.imported x hx
  obtain ⟨hid, hmessage⟩ := validateLegacyFixture_nonempty hvalid x.1 (mem_of_newTurns hx)
  cases hearly : validateTurn (.str x.1.requestId) (.str x.1.userMessage) with
  | error e =>
      refine iff_of_false ?_ fun h => ?_
      · rintro ⟨_, h, _⟩
        simp only [commitTurnInner, hearly] at h
        cases (Prod.mk.inj h).1
      · have hok := (validateTurn_eq_ok hid hmessage).mpr
          ⟨⟨h.requestIdLength, h.requestIdChars, h.message⟩, rfl⟩
        rw [hearly] at hok
        cases hok
  | ok p =>
      obtain ⟨⟨hlen, hchars, hlen'⟩, rfl⟩ := (validateTurn_eq_ok hid hmessage).mp hearly
      have hreserve : reserveRequest env' (.str x.1.requestId) (.str x.1.userMessage) s' = _ :=
        reserveRequest_idle (both_of_lengths hid hmessage hlen hchars hlen') hidle hfault
      rw [imported_ledgerAnswer himported] at hreserve
      simp only [commitTurnInner, hearly, hreserve, afterReservation]
      constructor
      · rintro ⟨result, h, -, -, -⟩
        refine ⟨hlen, hchars, hlen', ?_⟩
        cases hdict : dictOf (storedEmotion x) with
        | some kvs => rfl
        | none =>
            exfalso
            have hraised : dictOf (committedOf x.1.requestId 0 (x.2 - 1) x.2 (storedPayload x)).emotionState =
                none := hdict
            rw [hraised] at h
            cases (Prod.mk.inj h).1
      · intro h
        obtain ⟨kvs, hdict⟩ := Option.isSome_iff_exists.mp h.emotion
        have hreturned : dictOf (committedOf x.1.requestId 0 (x.2 - 1) x.2 (storedPayload x)).emotionState =
            some kvs := hdict
        rw [hreturned]
        exact ⟨_, rfl, rfl, rfl, rfl⟩

/-! ## Two ids -/

theorem imported_turn_replays_iff_dated :
    Replayed (datedTurn (py "ok") (py "2020-01-01T00:00:00Z"), 2)
      (commitTurnInner sampleEnv (.str (py "l1")) (.str (py "oi")) datedStore) datedStore := by
  have hx : (datedTurn (py "ok") (py "2020-01-01T00:00:00Z"), 2) ∈
      LocalStore.init.db.newTurns [datedTurn (py "ok") (py "2020-01-01T00:00:00Z")] := List.mem_cons_self
  have hfault : sampleEnv.fault = .none := rfl
  refine (imported_turn_replays_iff (validate_datedOk _) datedStore_import hx hfault).mpr ⟨?_, ?_, ?_, ?_⟩
  · exact (by decide : (2 : Nat) ≤ maxRequestIdLength)
  · exact (by decide : (py "l1").all isIdentChar = true)
  · exact (by decide : (2 : Nat) ≤ maxMessageLength)
  · decide +kernel

/-- A fixture whose turn has an id with a space. -/
def spacedFixture : PyVal :=
  .dict [(.str (py "schema_version"), .int 1), (.str (py "source"), .str (py "supabase")),
    (.str (py "turns"), .list [.dict [(.str (py "request_id"), .str (py "l 1")),
      (.str (py "user_message"), .str (py "oi")), (.str (py "assistant_message"), .str (py "ok"))]])]

def spacedTurn : LegacyTurn := ⟨py "l 1", py "oi", py "ok", none, none⟩

/-- **It is imported, and cannot be asked for.** -/
theorem spaced_turn_refused :
    validateLegacyFixture spacedFixture = .ok [spacedTurn] ∧
      importReport (exec sampleSha256 sampleEnv (.importLegacyFixture spacedFixture) .init).1 = some ⟨1, 0, 1⟩ ∧
      (spacedTurn, 2) ∈ LocalStore.init.db.newTurns [spacedTurn] ∧
      ∀ env s, (commitTurnInner env (.str (py "l 1")) (.str (py "oi")) s).1 =
          .raised (.validation .invalidRequestId "request id invalid") ∧
        ¬ Replayed (spacedTurn, 2) (commitTurnInner env (.str (py "l 1")) (.str (py "oi")) s) s := by
  refine ⟨rfl, by decide +kernel, List.mem_cons_self, fun env s => ⟨rfl, ?_⟩⟩
  rintro ⟨result, h, _⟩
  cases (Prod.mk.inj h).1

end Katherine.Runtime
