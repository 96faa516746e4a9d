import Katherine.Lib.JsonShape
import Katherine.Local.Invariant

/-!
# Stored replay payloads and the replay contract

`commit_turn` stores a payload that `validate_replay_payload` has accepted. What is read
back is not quite what was accepted: the keys are sorted, tuples are lists and number keys
are strings. None of this makes an accepted payload unacceptable.

The importer does not ask `validate_replay_payload`. It stores the fixture's payload with
two defaults filled in, after a scan for four of the eight forbidden keys, and so it can
store anything else that the contract excludes.
-/

namespace Katherine.Local

open Py Sql

/-! ## The contract -/

/-- What `validate_replay_payload` asks of a mapping; with `sortKeys`, also that the keys of every
dictionary can be sorted. -/
structure ReplayContract (sortKeys : Bool) (kvs : List (PyKey × PyVal)) : Prop where
  noForbidden : hasForbidden forbiddenPayloadKeys (.dict kvs) = false
  allowed : ∀ p ∈ kvs, PyKey.isOneOf replayPayloadAllowedKeys p.1 = true
  response : ∃ s, dictGet kvs (py "response") = some (.str s)
  messageId : isMessageId (dictGet kvs (py "message_id")) = true
  requestId : isOptionalIdent (dictGet kvs (py "request_id")) = true
  serialisable : serialisable ⟨sortKeys, false⟩ (.dict kvs) = true
  encodable : weighJson surrogateWeight (.dict kvs) = 0
  size : jsonBytes (.dict kvs) ≤ maxReplayPayloadBytes

theorem requireCanonicalBytes_eq_ok {v : PyVal} {code : ErrorCode} {maxBytes : Nat} {u : Unit} :
    requireCanonicalBytes v code maxBytes = .ok u ↔ Py.serialisable ⟨true, false⟩ v = true ∧
      weighJson surrogateWeight v = 0 ∧ jsonBytes v ≤ maxBytes := by
  simp only [requireCanonicalBytes, bind_eq_ok, orRaise_eq_ok, encodeUtf8, require_eq_ok,
    dumpsCompact, decide_eq_true_eq]
  constructor
  · rintro ⟨text, htext, _, hencodable, hsize⟩
    split at htext
    · next hser =>
        cases htext
        rw [encodable_render_canon] at hencodable
        rw [utf8Len_render_canon] at hsize
        exact ⟨hser, hencodable, hsize⟩
    · cases htext
  · rintro ⟨hser, hencodable, hsize⟩
    refine ⟨render [] v.canon, by rw [if_pos hser], (), ?_, ?_⟩
    · rw [encodable_render_canon]
      exact hencodable
    · rw [utf8Len_render_canon]
      exact hsize

theorem str?_isSome {v : Option PyVal} : (v.bind PyVal.str?).isSome = true ↔ ∃ s, v = some (.str s) := by
  cases v with
  | none => simp
  | some v => cases v <;> simp [PyVal.str?]

theorem validateReplayPayload_eq_ok {v : PyVal} {kvs : List (PyKey × PyVal)} :
    validateReplayPayload v = .ok kvs ↔ v = .dict kvs ∧ ReplayContract true kvs := by
  simp only [validateReplayPayload, bind_eq_ok, orRaise_eq_ok, require_eq_ok,
    requireCanonicalBytes_eq_ok, str?_isSome, Bool.not_eq_true', List.all_eq_true]
  constructor
  · rintro ⟨items, hitems, _, hforbidden, _, hallowed, _, hresponse, _, hmessage, _, hrequest, _,
      ⟨hser, hencodable, hsize⟩, hout⟩
    cases hout
    obtain rfl := items?_eq_some hitems
    exact ⟨rfl, hforbidden, hallowed, hresponse, hmessage, hrequest, hser, hencodable, hsize⟩
  · rintro ⟨rfl, h⟩
    exact ⟨kvs, rfl, (), h.noForbidden, (), h.allowed, (), h.response, (), h.messageId, (),
      h.requestId, (), ⟨h.serialisable, h.encodable, h.size⟩, rfl⟩

/-! ## Forbidden keys -/

/-- None of these is `forbidden`. -/
def cleanKeys (forbidden : List PyStr) (ks : List PyKey) : Bool :=
  ks.all fun k => !PyKey.isOneOf forbidden k

mutual
theorem hasForbidden_iff {forbidden : List PyStr} : ∀ {v : PyVal}, hasForbidden forbidden v = false ↔
    everywhere (fun _ => true) (cleanKeys forbidden) v = true
  | .none => by simp [hasForbidden, everywhere]
  | .bool _ => by simp [hasForbidden, everywhere]
  | .int _ => by simp [hasForbidden, everywhere]
  | .float _ => by simp [hasForbidden, everywhere]
  | .str _ => by simp [hasForbidden, everywhere]
  | .obj => by simp [hasForbidden, everywhere]
  | .list xs => hasForbiddenElems_iff
  | .tuple xs => hasForbiddenElems_iff
  | .dict kvs => by
      simp only [hasForbidden, everywhere, Bool.and_eq_true]
      exact hasForbiddenItems_iff
theorem hasForbiddenElems_iff {forbidden : List PyStr} : ∀ {xs : List PyVal},
    hasForbiddenElems forbidden xs = false ↔
      everywhereElems (fun _ => true) (cleanKeys forbidden) xs = true
  | [] => by simp [hasForbiddenElems, everywhereElems]
  | x :: xs => by
      simp only [hasForbiddenElems, everywhereElems, Bool.or_eq_false_iff, Bool.and_eq_true,
        hasForbidden_iff, hasForbiddenElems_iff]
theorem hasForbiddenItems_iff {forbidden : List PyStr} : ∀ {kvs : List (PyKey × PyVal)},
    hasForbiddenItems forbidden kvs = false ↔ cleanKeys forbidden (kvs.map Prod.fst) = true ∧
      everywhereItems (fun _ => true) (cleanKeys forbidden) kvs = true
  | [] => by simp [hasForbiddenItems, everywhereItems, cleanKeys]
  | (k, v) :: kvs => by
      simp only [hasForbiddenItems, everywhereItems, Bool.or_eq_false_iff, Bool.and_eq_true,
        hasForbidden_iff, hasForbiddenItems_iff, List.map_cons, cleanKeys, List.all_cons,
        Bool.not_eq_true']
      tauto
end

theorem hasForbidden_canon {forbidden : List PyStr} {v : PyVal} (h : hasForbidden forbidden v = false) :
    hasForbidden forbidden v.canon = false := by
  refine hasForbidden_iff.mpr (everywhere_canon ?_ (hasForbidden_iff.mp h))
  intro ks ks' hperm hks
  rwa [cleanKeys, ← hperm.all_eq]

/-- No number is written as a forbidden key. -/
theorem isNumberText_of_forbidden : ∀ k ∈ forbiddenPayloadKeys, isNumberText k = false := by
  decide

theorem hasForbidden_decoded {v : PyVal} (hpy : v.isPython = true)
    (h : hasForbidden forbiddenPayloadKeys v = false) :
    hasForbidden forbiddenPayloadKeys v.decoded = false := by
  have hboth := everywhere_and (hasForbidden_iff.mp h) hpy
  refine hasForbidden_iff.mpr (everywhere_decoded ?_ hboth)
  intro ks ks' hks hks'
  simp only [Bool.and_eq_true, cleanKeys, List.all_eq_true, Bool.not_eq_true'] at hks ⊢
  intro k hk
  obtain ⟨k', hk', rfl⟩ := hks' k hk
  have hclean := hks.1 k' hk'
  have hpython := hks.2.2 k' hk'
  cases k' with
  | str s => exact hclean
  | num t =>
      -- a number key becomes a string, but not one of these
      rw [keyText, PyKey.isOneOf, decide_eq_false_iff_not]
      intro hmem
      have hfalse := isNumberText_of_forbidden t hmem
      rw [PyKey.isPython, hfalse] at hpython
      cases hpython
  | none => decide
  | other => decide

/-! ## The contract survives storage -/

theorem ReplayContract.isStr {b : Bool} {kvs : List (PyKey × PyVal)} (h : ReplayContract b kvs) :
    ∀ p ∈ kvs, p.1.isStr = true := by
  intro p hp
  have hone := h.allowed p hp
  cases hk : p.1 with
  | str s => rfl
  | _ => rw [hk] at hone; cases hone

/-- Scalars are stored as they are. -/
theorem isMessageId_map {f : PyVal → PyVal} (hint : ∀ i, f (.int i) = .int i)
    (hstr : ∀ s, f (.str s) = .str s) {v : Option PyVal} (h : isMessageId v = true) :
    isMessageId (v.map f) = true := by
  cases v with
  | none => cases h
  | some v =>
      cases v with
      | int i => rw [Option.map_some, hint]; rfl
      | str s => rw [Option.map_some, hstr]; exact h
      | _ => cases h

theorem isOptionalIdent_map {f : PyVal → PyVal} (hstr : ∀ s, f (.str s) = .str s) {v : Option PyVal}
    (h : isOptionalIdent v = true) : isOptionalIdent (v.map f) = true := by
  cases v with
  | none => rfl
  | some v =>
      cases v with
      | str s => rw [Option.map_some, hstr]; exact h
      | _ => cases h

/-- Sorting the keys keeps the contract. -/
theorem ReplayContract.canon {b : Bool} {kvs : List (PyKey × PyVal)}
    (hpy : (PyVal.dict kvs).isPython = true) (h : ReplayContract b kvs) :
    ReplayContract b (sortItems (canonItems kvs)) := by
  have hnd := nodup_of_isPython hpy h.isStr
  have hget := fun k => dictGet_canon_of_nodup hnd k
  have hsame : PyVal.dict (sortItems (canonItems kvs)) = (PyVal.dict kvs).canon := rfl
  refine ⟨hasForbidden_canon h.noForbidden, ?_, ?_, ?_, ?_, serialisable_canon h.serialisable, ?_, ?_⟩
  · intro p hp
    have hmem := (sortItems_perm _).mem_iff.mp hp
    rw [canonItems_eq_map] at hmem
    obtain ⟨p', hp', rfl⟩ := List.mem_map.mp hmem
    exact h.allowed p' hp'
  · obtain ⟨s, hs⟩ := h.response
    exact ⟨s, by rw [hget, hs]; rfl⟩
  · rw [hget]
    exact isMessageId_map (fun _ => rfl) (fun _ => rfl) h.messageId
  · rw [hget]
    exact isOptionalIdent_map (fun _ => rfl) h.requestId
  · rw [hsame, weighJson_canon]
    exact h.encodable
  · rw [hsame, jsonBytes, weighJson_canon]
    exact h.size

/-- **What is read back of a payload obeys the contract if the payload does.** -/
theorem ReplayContract.decoded {b : Bool} {kvs : List (PyKey × PyVal)}
    (hpy : (PyVal.dict kvs).isPython = true) (h : ReplayContract b kvs) :
    ReplayContract true (dictOfItems (decodedItems kvs)) := by
  have hnd := nodup_of_isPython hpy h.isStr
  have hitems := decoded_items h.isStr hnd
  have hget : ∀ k, dictGet (dictOfItems (decodedItems kvs)) k = (dictGet kvs k).map PyVal.decoded := by
    intro k
    rw [hitems, dictGet_map_decoded]
  have hsame : PyVal.dict (dictOfItems (decodedItems kvs)) = (PyVal.dict kvs).decoded := rfl
  refine ⟨hasForbidden_decoded hpy h.noForbidden, ?_, ?_, ?_, ?_,
    serialisable_decoded h.serialisable, ?_, ?_⟩
  · intro p hp
    rw [hitems] at hp
    obtain ⟨p', hp', rfl⟩ := List.mem_map.mp hp
    exact h.allowed p' hp'
  · obtain ⟨s, hs⟩ := h.response
    exact ⟨s, by rw [hget, hs]; rfl⟩
  · rw [hget]
    exact isMessageId_map (fun _ => rfl) (fun _ => rfl) h.messageId
  · rw [hget]
    exact isOptionalIdent_map (fun _ => rfl) h.requestId
  · rw [hsame]
    exact Nat.le_zero.mp (le_trans (weighJson_decoded _) (Nat.le_of_eq h.encodable))
  · rw [hsame]
    exact le_trans (weighJson_decoded _) h.size

/-- The stored text decodes to an object that `validate_replay_payload` accepts. -/
def PayloadOk (row : TurnRequest) : Prop :=
  ∃ text doc kvs, row.replayPayload = some text ∧ loads text = some doc ∧
    validateReplayPayload doc = .ok kvs

/-- Every completed row obeys the contract. -/
def PayloadsOk (db : Db) : Prop :=
  ∀ row ∈ db.turnRequests.rows, row.status = .completed → PayloadOk row

/-- What `commit_turn` stores. -/
theorem payloadOk_committed {kvs : List (PyKey × PyVal)} {row : TurnRequest} {text : PyStr}
    (hpy : (PyVal.dict kvs).isPython = true) (h : ReplayContract true kvs)
    (htext : jsonDumps (.dict kvs) = .ok text) (hrow : row.replayPayload = some text) :
    PayloadOk row := by
  have hdumps := orRaise_eq_ok.mp htext
  exact ⟨text, _, _, hrow, loads_dumpsCompact hdumps,
    validateReplayPayload_eq_ok.mpr ⟨rfl, (h.canon hpy).decoded (isPython_canon hpy)⟩⟩

/-! ## What the importer stores -/

/-- The fixture's payload of a turn. -/
def LegacyTurn.payload (t : LegacyTurn) : List (PyKey × PyVal) :=
  (t.replayPayload.bind PyVal.items?).getD []

/-- The turn's payload obeys the contract as far as it goes, and is small enough with the defaults
filled in, where `id` is the row of the imported answer. -/
structure LegacyTurn.Replayable (t : LegacyTurn) (id : Nat) : Prop where
  noForbidden : hasForbidden forbiddenPayloadKeys (.dict t.payload) = false
  allowed : ∀ p ∈ t.payload, PyKey.isOneOf replayPayloadAllowedKeys p.1 = true
  response : ∀ v, dictGet t.payload (py "response") = some v → ∃ s, v = .str s
  messageId : ∀ v, dictGet t.payload (py "message_id") = some v → isMessageId (some v) = true
  requestId : isOptionalIdent (dictGet t.payload (py "request_id")) = true
  finite : (PyVal.dict t.payload).finite = true
  size : jsonBytes (importReplayPayload t id) ≤ maxReplayPayloadBytes

theorem dictGet_setDefault_self (kvs : List (PyKey × PyVal)) (k : PyStr) (v : PyVal) :
    dictGet (setDefault kvs k v) k = some ((dictGet kvs k).getD v) := by
  unfold setDefault
  split
  · next h =>
      obtain ⟨x, hx⟩ := Option.isSome_iff_exists.mp h
      rw [hx]
      rfl
  · next h =>
      rw [dictGet_append, Option.not_isSome_iff_eq_none.mp h]
      simp [dictGet]

theorem dictGet_setDefault_ne {kvs : List (PyKey × PyVal)} {k k' : PyStr} (v : PyVal) (h : k' ≠ k) :
    dictGet (setDefault kvs k v) k' = dictGet kvs k' := by
  unfold setDefault
  split
  · rfl
  · rw [dictGet_append]
    have hnone : dictGet [(PyKey.str k, v)] k' = none := by
      simp [dictGet, Ne.symm h]
    rw [hnone]
    cases dictGet kvs k' <;> rfl

/-- A default adds one item with a new key. -/
theorem setDefault_cases (kvs : List (PyKey × PyVal)) (k : PyStr) (v : PyVal) :
    setDefault kvs k v = kvs ∨
      (PyKey.str k ∉ kvs.map Prod.fst ∧ setDefault kvs k v = kvs ++ [(.str k, v)]) := by
  unfold setDefault
  split
  · exact .inl rfl
  · next h => exact .inr ⟨dictGet_eq_none.mp (Option.not_isSome_iff_eq_none.mp h), rfl⟩

theorem everywhereItems_append {leaf : PyVal → Bool} {keys : List PyKey → Bool}
    {kvs kvs' : List (PyKey × PyVal)} (h : everywhereItems leaf keys kvs = true)
    (h' : everywhereItems leaf keys kvs' = true) :
    everywhereItems leaf keys (kvs ++ kvs') = true := by
  rw [everywhereItems_iff] at h h' ⊢
  intro p hp
  rcases List.mem_append.mp hp with hp | hp
  · exact h p hp
  · exact h' p hp

theorem isPython_setDefault {kvs : List (PyKey × PyVal)} {k : PyStr} {v : PyVal}
    (h : (PyVal.dict kvs).isPython = true) (hv : v.isPython = true) :
    (PyVal.dict (setDefault kvs k v)).isPython = true := by
  rcases setDefault_cases kvs k v with hsame | ⟨hnew, hset⟩
  · rw [hsame]
    exact h
  · rw [hset]
    simp only [PyVal.isPython, everywhere, Bool.and_eq_true, decide_eq_true_eq] at h ⊢
    obtain ⟨⟨hnd, hall⟩, hitems⟩ := h
    refine ⟨⟨?_, ?_⟩, everywhereItems_append hitems ?_⟩
    · rw [List.map_append, List.filter_append]
      refine List.Nodup.append hnd (List.nodup_singleton (PyKey.str k)) ?_
      intro k' hk' hmem
      have hk : k' = .str k := by simpa using List.mem_of_mem_filter hmem
      rw [hk] at hk'
      exact hnew (List.mem_of_mem_filter hk')
    · rw [List.map_append, List.all_append, hall]
      rfl
    · simp only [everywhereItems, Bool.and_true]
      exact hv

theorem hasForbidden_setDefault {forbidden : List PyStr} {kvs : List (PyKey × PyVal)} {k : PyStr}
    {v : PyVal} (h : hasForbidden forbidden (.dict kvs) = false) (hk : k ∉ forbidden)
    (hv : hasForbidden forbidden v = false) :
    hasForbidden forbidden (.dict (setDefault kvs k v)) = false := by
  rcases setDefault_cases kvs k v with hsame | ⟨-, hset⟩
  · rw [hsame]
    exact h
  · rw [hset]
    simp only [hasForbidden] at h ⊢
    rw [hasForbiddenItems_iff] at h ⊢
    refine ⟨?_, everywhereItems_append h.2 ?_⟩
    · rw [cleanKeys, List.map_append, List.all_append]
      refine Bool.and_eq_true_iff.mpr ⟨h.1, ?_⟩
      simp [PyKey.isOneOf, hk]
    · simp only [everywhereItems, Bool.and_true]
      exact hasForbidden_iff.mp hv

theorem mem_setDefault {kvs : List (PyKey × PyVal)} {k : PyStr} {v : PyVal} {p : PyKey × PyVal}
    (h : p ∈ setDefault kvs k v) : p ∈ kvs ∨ p = (.str k, v) := by
  rcases setDefault_cases kvs k v with hsame | ⟨-, hset⟩
  · rw [hsame] at h
    exact .inl h
  · rw [hset] at h
    simpa using h

theorem finite_setDefault {kvs : List (PyKey × PyVal)} {k : PyStr} {v : PyVal}
    (h : (PyVal.dict kvs).finite = true) (hv : v.finite = true) :
    (PyVal.dict (setDefault kvs k v)).finite = true := by
  simp only [PyVal.finite, finiteItems_eq_all, List.all_eq_true] at h ⊢
  intro p hp
  rcases mem_setDefault hp with hp | rfl
  · exact h p hp
  · exact hv

theorem dumpReplay_eq_ok {v : PyVal} {text : PyStr} (h : dumpReplay v = .ok text) :
    serialisable ⟨false, true⟩ v = true ∧ text = render [cp ' '] v := by
  have hdumps := orRaise_eq_ok.mp h
  unfold dumpsDefault at hdumps
  split at hdumps
  · next hser => exact ⟨hser, (Option.some.inj hdumps).symm⟩
  · cases hdumps

/-- The defaults complete the contract. -/
theorem LegacyTurn.Replayable.contract {t : LegacyTurn} {id : Nat} {text : PyStr}
    (h : t.Replayable id) (hdump : dumpReplay (importReplayPayload t id) = .ok text)
    (htext : bindText text = .ok ()) :
    ∃ kvs, importReplayPayload t id = .dict kvs ∧ ReplayContract false kvs := by
  obtain ⟨hser, rfl⟩ := dumpReplay_eq_ok hdump
  refine ⟨_, rfl, ?_⟩
  have hmessage : py "message_id" ≠ py "response" := by decide
  have hrequest : py "request_id" ≠ py "response" ∧ py "request_id" ≠ py "message_id" := by decide
  refine ⟨?_, ?_, ?_, ?_, ?_, ?_, ?_, h.size⟩
  · refine hasForbidden_setDefault (hasForbidden_setDefault h.noForbidden ?_ rfl) ?_ rfl <;> decide
  · intro p hp
    rcases mem_setDefault hp with hp | rfl
    · rcases mem_setDefault hp with hp | rfl
      · exact h.allowed p hp
      · exact (by decide : PyKey.isOneOf replayPayloadAllowedKeys (.str (py "response")) = true)
    · exact (by decide : PyKey.isOneOf replayPayloadAllowedKeys (.str (py "message_id")) = true)
  · rw [dictGet_setDefault_ne _ hmessage.symm, dictGet_setDefault_self]
    cases hget : dictGet t.payload (py "response") with
    | none => exact ⟨_, by rw [LegacyTurn.payload] at hget; rw [hget]; rfl⟩
    | some v =>
        obtain ⟨s, rfl⟩ := h.response v hget
        exact ⟨s, by rw [LegacyTurn.payload] at hget; rw [hget]; rfl⟩
  · rw [dictGet_setDefault_self, dictGet_setDefault_ne _ hmessage]
    cases hget : dictGet t.payload (py "message_id") with
    | none =>
        rw [LegacyTurn.payload] at hget
        rw [hget]
        rfl
    | some v =>
        have hv := h.messageId v hget
        rw [LegacyTurn.payload] at hget
        rw [hget]
        exact hv
  · rw [dictGet_setDefault_ne _ hrequest.2, dictGet_setDefault_ne _ hrequest.1]
    exact h.requestId
  · exact serialisable_of_finite (finite_setDefault (finite_setDefault h.finite rfl) rfl) hser
  · have hencodable : weigh surrogateWeight (render [cp ' '] (importReplayPayload t id)) = 0 := by
      rw [← encodable_iff_weigh]
      exact require_eq_ok.mp htext
    exact Nat.le_zero.mp (le_trans (weighJson_le_render _) (Nat.le_of_eq hencodable))

/-- What the importer stores for a replayable turn. -/
theorem payloadOk_imported {t : LegacyTurn} {id : Nat} {text : PyStr} {row : TurnRequest}
    (hpy : (PyVal.dict t.payload).isPython = true) (h : t.Replayable id)
    (hdump : dumpReplay (importReplayPayload t id) = .ok text) (htext : bindText text = .ok ())
    (hrow : row.replayPayload = some text) : PayloadOk row := by
  obtain ⟨kvs, hkvs, hcontract⟩ := h.contract hdump htext
  have hpython : (PyVal.dict kvs).isPython = true := by
    rw [← hkvs]
    exact isPython_setDefault (isPython_setDefault hpy rfl) rfl
  obtain ⟨hser, rfl⟩ := dumpReplay_eq_ok hdump
  have hread : loads (render [cp ' '] (importReplayPayload t id)) =
      some (importReplayPayload t id).decoded :=
    loads_render (by decide) (writable_of_serialisable hser)
  rw [hkvs] at hread hrow
  exact ⟨_, _, _, hrow, hread, validateReplayPayload_eq_ok.mpr ⟨rfl, hcontract.decoded hpython⟩⟩

/-- The turns a fixture adds to a ledger with the ids `known`, each with the row its answer gets;
`seq` is the last row so far. -/
def newTurns (known : List PyStr) (seq : Nat) : List LegacyTurn → List (LegacyTurn × Nat)
  | [] => []
  | t :: ts =>
      if t.requestId ∈ known then newTurns known seq ts
      else (t, seq + 2) :: newTurns (known ++ [t.requestId]) (seq + 2) ts

def Db.requestIds (db : Db) : List PyStr := db.turnRequests.rows.map (·.requestId)

theorem not_mem_requestIds {db : Db} {id : PyStr} (h : db.turnRequests.get? id = none) :
    id ∉ db.requestIds := by
  intro hmem
  obtain ⟨r, hr, rfl⟩ := List.mem_map.mp hmem
  rw [Table.get?_of_mem hr] at h
  cases h

theorem mem_requestIds {db : Db} {id : PyStr} {row : TurnRequest}
    (h : db.turnRequests.get? id = some row) : id ∈ db.requestIds :=
  List.mem_map.mpr ⟨row, Table.get?_mem h, Table.get?_key h⟩

theorem requestIds_importTurn {db : Db} {t : LegacyTurn} (now hash text : PyStr)
    (h : db.turnRequests.get? t.requestId = none) :
    (db.importTurn t now hash text).requestIds = db.requestIds ++ [t.requestId] := by
  simp only [Db.requestIds, Db.importTurn]
  rw [Table.insertNew]
  split
  · rw [List.map_append]
    rfl
  · next hsome => exact absurd h hsome

theorem PayloadsOk.importTurn {db : Db} {t : LegacyTurn} {now hash text : PyStr} (h : PayloadsOk db)
    (hrow : ∀ row : TurnRequest, row.replayPayload = some text → PayloadOk row) :
    PayloadsOk (db.importTurn t now hash text) := by
  intro row hmem hs
  rcases Table.mem_insertNew.mp hmem with hmem | ⟨rfl, -⟩
  · exact h row hmem hs
  · exact hrow _ rfl

variable {sha256 : PyStr → PyStr}

/-- **The loop of the importer.** The rows it writes obey the contract if the turns it adds do. -/
theorem payloadsOk_importLoop {now : PyStr} : ∀ {ts : List LegacyTurn} {i k : Nat} {db d : Db}
    {r : ImportReport}, importLoop sha256 now ts i k db = .commit r d →
      (∀ t ∈ ts, (PyVal.dict t.payload).isPython = true) →
      (∀ x ∈ newTurns db.requestIds db.chatLogs.seq ts, x.1.Replayable x.2) → PayloadsOk db →
      PayloadsOk d
  | [], i, k, db, d, r, h, _, _, hok => by
      cases h
      exact hok
  | t :: ts, i, k, db, d, r, h, hpy, hnew, hok => by
      have hpy' := fun t' ht' => hpy t' (List.mem_cons_of_mem t ht')
      simp only [importLoop, Outcome.attempt_eq_commit] at h
      obtain ⟨_, _, h⟩ := h
      rw [newTurns] at hnew
      split at h
      · next row hrow =>
          rw [if_pos (mem_requestIds hrow)] at hnew
          obtain ⟨hash, _, h⟩ := Outcome.attempt_eq_commit.mp h
          split at h
          · cases h
          · exact payloadsOk_importLoop h hpy' hnew hok
      · next habsent =>
          rw [if_neg (not_mem_requestIds habsent)] at hnew
          simp only [Outcome.attempt_eq_commit] at h
          obtain ⟨_, _, _, _, _, _, hash, hhash, text, hdump, _, htext, h⟩ := h
          have ht := hnew _ List.mem_cons_self
          refine payloadsOk_importLoop h hpy' ?_ (hok.importTurn fun row hrow =>
            payloadOk_imported (hpy t List.mem_cons_self) ht hdump htext hrow)
          rw [requestIds_importTurn _ _ _ habsent]
          exact fun x hx => hnew x (List.mem_cons_of_mem _ hx)

theorem isPython_legacyTurn {turn : PyVal} {t : LegacyTurn} (hpy : turn.isPython = true)
    (h : validateLegacyTurn turn = .ok t) : (PyVal.dict t.payload).isPython = true := by
  simp only [validateLegacyTurn, bind_eq_ok, orRaise_eq_ok] at h
  obtain ⟨items, hitems, _, -, _, -, _, -, _, -, _, -, h⟩ := h
  cases h
  obtain rfl := items?_eq_some hitems
  simp only [LegacyTurn.payload]
  cases hget : dictGet items (py "replay_payload") with
  | none => rfl
  | some v =>
      have hv := isPython_dictGet hpy hget
      cases hkvs : v.items? with
      | none =>
          rw [Option.bind_some, hkvs]
          rfl
      | some kvs =>
          rw [Option.bind_some, hkvs]
          rw [items?_eq_some hkvs] at hv
          exact hv

theorem isPython_legacyFixture {fixture : PyVal} {turns : List LegacyTurn}
    (hpy : fixture.isPython = true) (h : validateLegacyFixture fixture = .ok turns) :
    ∀ t ∈ turns, (PyVal.dict t.payload).isPython = true := by
  simp only [validateLegacyFixture, bind_eq_ok, orRaise_eq_ok] at h
  obtain ⟨f, hf, _, -, _, -, vs, hvs, _, -, _, -, h⟩ := h
  obtain rfl := items?_eq_some hf
  obtain ⟨v, hv, hlist⟩ := Option.bind_eq_some_iff.mp hvs
  split at hlist
  · cases hlist
    have hpyv := isPython_dictGet hpy hv
    intro t ht
    obtain ⟨turn, hturn, hok⟩ := of_mem_mapM_ok h t ht
    exact isPython_legacyTurn (everywhereElems_iff.mp hpyv turn hturn) hok
  · cases hlist

/-! ## Every call -/

/-- The documents of the call are Python values. -/
def Call.isPython : Call → Bool
  | .commitTurn a => a.replayPayload.isPython
  | .importLegacyFixture fixture => fixture.isPython
  | _ => true

/-- If the call is an import that goes through, the turns it adds are replayable, each with the row
its answer gets. -/
def Event.ImportsReplayable (e : Event sha256) : Prop :=
  ∀ fixture turns reply, e.call = .importLegacyFixture fixture → e.result = .ok reply →
    validateLegacyFixture fixture = .ok turns →
    ∀ x ∈ newTurns e.before.db.requestIds e.before.db.chatLogs.seq turns, x.1.Replayable x.2

/-- **Every call but an import keeps the contract.** -/
theorem payloadsOk_change {db db' : Db} {call : Call} {reply : Reply}
    (hc : Change sha256 db call reply db') (hpy : call.isPython = true)
    (himport : ∀ fixture, call ≠ .importLegacyFixture fixture) (h : PayloadsOk db) :
    PayloadsOk db' := by
  intro row hrow hs
  rcases completed_change hc himport hrow hs with hrow | ⟨a, c, hash, text, rfl, hinput, htext, hstored⟩
  · exact h row hrow hs
  · obtain ⟨haccepted, -⟩ := (commitInput_eq_ok sha256).mp hinput
    obtain ⟨hdict, hcontract⟩ := validateReplayPayload_eq_ok.mp haccepted.replayPayload
    have hpy' : (PyVal.dict c.replayPayload).isPython = true := by
      rw [← hdict]
      exact hpy
    exact payloadOk_committed hpy' hcontract htext hstored

/-- One executed call. -/
theorem payloadsOk_event (e : Event sha256) (hpy : e.call.isPython = true)
    (himports : e.ImportsReplayable) (h : PayloadsOk e.before.db) :
    PayloadsOk e.after.db := by
  by_cases hcall : ∃ fixture, e.call = .importLegacyFixture fixture
  · obtain ⟨fixture, hcall⟩ := hcall
    have hexec := e.executed
    rw [hcall] at hexec hpy
    rcases perform_db hexec with hsame | ⟨turns, report, hturns, hbody, hresult⟩
    · rw [hsame]
      exact h
    · exact payloadsOk_importLoop hbody (isPython_legacyFixture hpy hturns)
        (himports fixture turns _ hcall hresult hturns) h
  · rcases e.change with hsame | ⟨reply, -, hc⟩
    · rw [hsame]
      exact h
    · exact payloadsOk_change hc hpy (fun fixture hf => hcall ⟨fixture, hf⟩) h

/-- **Every stored replay payload obeys the contract**, in every run whose imports bring replayable
turns. -/
theorem stored_payloads_obey_contract {es : List (Event sha256)} {s : LocalStore}
    (hrun : Run sha256 .init es s) (hpy : ∀ e ∈ es, e.call.isPython = true)
    (himports : ∀ e ∈ es, e.ImportsReplayable) : PayloadsOk s.db := by
  induction hrun with
  | nil =>
      intro row hrow
      cases hrow
  | snoc e _ ih =>
      refine payloadsOk_event e (hpy e (by simp)) (himports e (by simp)) (ih ?_ ?_)
      · exact fun e' he' => hpy e' (List.mem_append_left _ he')
      · exact fun e' he' => himports e' (List.mem_append_left _ he')

/-! ## Two fixtures -/

/-- A fixture with one turn. -/
def legacyFixture (payload : List (PyKey × PyVal)) : PyVal :=
  .dict [(.str (py "schema_version"), .int 1), (.str (py "source"), .str (py "supabase")),
    (.str (py "turns"), .list [.dict [(.str (py "request_id"), .str (py "l1")),
      (.str (py "user_message"), .str (py "oi")), (.str (py "assistant_message"), .str (py "ok")),
      (.str (py "replay_payload"), .dict payload)]])]

/-- A payload without a response and a message id, which the importer fills in. -/
def plainPayload : List (PyKey × PyVal) := [(.str (py "duration_ms"), .int 5)]

/-- A payload that repeats the user's message. -/
def privatePayload : List (PyKey × PyVal) := [(.str (py "user_message"), .str (py "oi"))]

def plainTurn : LegacyTurn := ⟨py "l1", py "oi", py "ok", none, some (.dict plainPayload)⟩

theorem validate_plainFixture : validateLegacyFixture (legacyFixture plainPayload) = .ok [plainTurn] :=
  rfl

theorem plainTurn_replayable : plainTurn.Replayable 2 where
  noForbidden := by decide
  allowed := by decide
  response := by
    intro v hv
    cases hv
  messageId := by
    intro v hv
    cases hv
  requestId := by decide
  finite := by decide
  size := by decide

/-- An import, then a turn. -/
def importedThenCommitted : List (Env × Call) :=
  [(sampleEnv, .importLegacyFixture (legacyFixture plainPayload)), sampleReserve, sampleCommit]

theorem stored_payloads_obey_contract_plain :
    PayloadsOk (execAll sampleSha256 importedThenCommitted .init).db ∧
      ((execAll sampleSha256 importedThenCommitted .init).db.turnRequests.rows.countP fun r =>
        decide (r.status = .completed)) = 2 := by
  refine ⟨stored_payloads_obey_contract (run_trace importedThenCommitted .init) ?_ ?_,
    by decide +kernel⟩
  · intro e he
    simp only [importedThenCommitted, trace, List.mem_cons, List.not_mem_nil, or_false] at he
    rcases he with rfl | rfl | rfl <;> decide +kernel
  · intro e he fixture turns reply hcall _ hturns
    simp only [importedThenCommitted, trace, List.mem_cons, List.not_mem_nil, or_false] at he
    rcases he with rfl | rfl | rfl
    · cases hcall
      rw [validate_plainFixture] at hturns
      cases hturns
      intro x hx
      have hnew : x ∈ newTurns [] 0 [plainTurn] := hx
      obtain rfl : x = (plainTurn, 2) := by simpa [newTurns] using hnew
      exact plainTurn_replayable
    · cases hcall
    · cases hcall

/-- The check of `PayloadOk`, as a computation. -/
def payloadAccepted (row : TurnRequest) : Bool :=
  match row.replayPayload.bind loads with
  | some doc => (validateReplayPayload doc).isOk
  | none => false

theorem payloadAccepted_of_ok {row : TurnRequest} (h : PayloadOk row) : payloadAccepted row = true := by
  obtain ⟨text, doc, kvs, htext, hdoc, hok⟩ := h
  rw [payloadAccepted, htext, Option.bind_some, hdoc]
  simp only [hok]
  rfl

/-- **The importer stores what the contract forbids.** -/
theorem imported_payload_breaks_contract :
    ∃ s es, Run sampleSha256 .init es s ∧ (∀ e ∈ es, e.call.isPython = true) ∧ ¬ PayloadsOk s.db := by
  refine ⟨_, _, run_trace [(sampleEnv, .importLegacyFixture (legacyFixture privatePayload))] .init,
    ?_, ?_⟩
  · intro e he
    simp only [trace, List.mem_cons, List.not_mem_nil, or_false] at he
    rw [he]
    decide +kernel
  · intro hok
    have hall : ((execAll sampleSha256 [(sampleEnv, .importLegacyFixture (legacyFixture privatePayload))]
        .init).db.turnRequests.rows.all fun r => !decide (r.status = .completed) || payloadAccepted r)
        = true := by
      refine List.all_eq_true.mpr fun r hr => ?_
      by_cases hs : r.status = .completed
      · rw [payloadAccepted_of_ok (hok r hr hs), Bool.or_true]
      · simp [hs]
    exact absurd hall (by decide +kernel)

end Katherine.Local
