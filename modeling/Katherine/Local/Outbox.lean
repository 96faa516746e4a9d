import Katherine.Local.Refusals

/-!
# The outbox of a turn

`commit_turn` writes each event of a turn under the id `key:type`, and skips it where a
row with its key and type is there already, whichever turn it belongs to. An event type
has no colon, so the id determines both (`outboxId_injective`), and as every row has the
id its key and type give it (`OutboxInv`), the primary key never fails where the conflict
target did not.

Which events land is then a matter of what is stored: a new one lands with its payload
under its turn, a known one leaves the row of before (`outbox_events_kept`).
-/

namespace Katherine.Local

open Py Sql

/-! ## Ids -/

/-- `f"{idempotency_key}:{event_type}"`. -/
def outboxId (key eventType : PyStr) : PyStr := key ++ [cp ':'] ++ eventType

/-- An event type has no colon. -/
theorem isEventType_colon {s : PyStr} (h : isEventType s = true) : ∀ c ∈ s, c ≠ cp ':' := by
  rw [isEventType, Bool.and_eq_true, List.all_eq_true] at h
  rintro c hc rfl
  exact absurd (h.2 _ hc) (by decide)

/-- What follows the last colon is the type. -/
theorem outboxId_takeWhile (key : PyStr) {eventType : PyStr} (h : ∀ c ∈ eventType, c ≠ cp ':') :
    ((outboxId key eventType).reverse.takeWhile fun c => decide (c ≠ cp ':')).reverse = eventType := by
  have hall : ∀ c ∈ eventType.reverse, decide (c ≠ cp ':') = true := fun c hc =>
    decide_eq_true (h c (List.mem_reverse.mp hc))
  rw [outboxId, List.reverse_append, List.reverse_append, List.takeWhile_append_of_pos hall]
  simp

/-- **The id determines the key and the type.** -/
theorem outboxId_injective {key key' eventType eventType' : PyStr} (h : isEventType eventType = true)
    (h' : isEventType eventType' = true) (heq : outboxId key eventType = outboxId key' eventType') :
    key = key' ∧ eventType = eventType' := by
  have htype := outboxId_takeWhile key (isEventType_colon h)
  rw [heq, outboxId_takeWhile key' (isEventType_colon h')] at htype
  subst htype
  exact ⟨List.append_cancel_right (List.append_cancel_right heq), rfl⟩

/-! ## Accepted events -/

theorem validateOutboxEvent_eventType {index : Nat} {event : PyVal} {e : OutboxInput}
    (h : validateOutboxEvent index event = .ok e) : isEventType e.eventType = true := by
  simp only [validateOutboxEvent, bind_eq_ok, orRaise_eq_ok, Option.filter_eq_some_iff] at h
  obtain ⟨_, _, _, ⟨_, htype⟩, _, _, _, _, _, _, _, _, _, _, _, _, _, _, h⟩ := h
  cases h
  exact htype

/-- The key and the type of an event, as it was passed. -/
def outboxPair (event : PyVal) : Option (PyStr × PyStr) := do
  let fields ← PyVal.elems? event
  let eventType ← fields[0]?.bind PyVal.str?
  let key ← fields[2]?.bind PyVal.str?
  return (key, eventType)

theorem validateOutboxEvent_pair {index : Nat} {event : PyVal} {e : OutboxInput}
    (h : validateOutboxEvent index event = .ok e) :
    outboxPair event = some (e.idempotencyKey, e.eventType) := by
  simp only [validateOutboxEvent, bind_eq_ok, orRaise_eq_ok, Option.filter_eq_some_iff] at h
  obtain ⟨fields, ⟨hfields, _⟩, t, ⟨ht, _⟩, _, _, k, hk, _, _, _, _, _, _, _, _, _, _, h⟩ := h
  cases h
  simp only [outboxPair, hfields, Option.bind_eq_bind, Option.bind_some, ht, hk]
  rfl

/-- The events are checked one by one. -/
theorem validateOutboxFrom_getElem? : ∀ {index : Nat} {events : List PyVal} {es : List OutboxInput},
    validateOutboxFrom index events = .ok es → ∀ (i : Nat) event, events[i]? = some event →
      ∃ e, es[i]? = some e ∧ validateOutboxEvent (index + i) event = .ok e
  | _, [], _, _, i, event, hi => by
      rw [List.getElem?_nil] at hi
      cases hi
  | index, event :: events, es, h, i, event', hi => by
      simp only [validateOutboxFrom, bind_eq_ok] at h
      obtain ⟨e, he, rest, hrest, h⟩ := h
      cases h
      cases i with
      | zero =>
          cases hi
          exact ⟨e, rfl, he⟩
      | succ i =>
          obtain ⟨e', hget, hok⟩ := validateOutboxFrom_getElem? hrest i event' hi
          refine ⟨e', hget, ?_⟩
          rw [Nat.add_right_comm] at hok
          exact hok

theorem validateOutboxFrom_mem : ∀ {index : Nat} {events : List PyVal} {es : List OutboxInput},
    validateOutboxFrom index events = .ok es → ∀ e ∈ es, isEventType e.eventType = true
  | _, [], _, h => by
      cases h
      exact List.forall_mem_nil _
  | index, event :: events, es, h => by
      simp only [validateOutboxFrom, bind_eq_ok] at h
      obtain ⟨e, he, rest, hrest, h⟩ := h
      cases h
      exact List.forall_mem_cons.mpr ⟨validateOutboxEvent_eventType he, validateOutboxFrom_mem hrest⟩

/-- What was accepted: a list, checked one by one, with different keys. -/
theorem validateOutboxEvents_ok {events : PyVal} {es : List OutboxInput}
    (h : validateOutboxEvents events = .ok es) :
    (events = .none ∧ es = []) ∨ ∃ vs, PyVal.elems? events = some vs ∧
      validateOutboxFrom 0 vs = .ok es ∧ (es.map (·.idempotencyKey)).Nodup := by
  unfold validateOutboxEvents at h
  split at h
  · cases h
    exact .inl ⟨rfl, rfl⟩
  · simp only [bind_eq_ok, orRaise_eq_ok, require_eq_ok, decide_eq_true_eq] at h
    obtain ⟨vs, hvs, _, _, validated, hvalidated, _, hnodup, h⟩ := h
    cases h
    exact .inr ⟨vs, hvs, hvalidated, hnodup⟩

theorem validateOutboxEvents_eventType {events : PyVal} {es : List OutboxInput}
    (h : validateOutboxEvents events = .ok es) : ∀ e ∈ es, isEventType e.eventType = true := by
  rcases validateOutboxEvents_ok h with ⟨_, rfl⟩ | ⟨_, _, hfrom, _⟩
  · exact List.forall_mem_nil _
  · exact validateOutboxFrom_mem hfrom

/-- **Two events of one key and type are not accepted.** -/
theorem validateOutboxEvents_distinct {events : PyVal} {vs : List PyVal} (hvs : PyVal.elems? events = some vs)
    {i j : Nat} {v v' : PyVal} {p : PyStr × PyStr} (hi : vs[i]? = some v) (hj : vs[j]? = some v')
    (hij : i ≠ j) (hp : outboxPair v = some p) (hp' : outboxPair v' = some p) (es : List OutboxInput) :
    validateOutboxEvents events ≠ .ok es := by
  intro h
  rcases validateOutboxEvents_ok h with ⟨rfl, _⟩ | ⟨vs', hvs', hfrom, hnodup⟩
  · cases hvs
  · rw [hvs] at hvs'
    cases hvs'
    obtain ⟨e, he, hok⟩ := validateOutboxFrom_getElem? hfrom i v hi
    obtain ⟨e', he', hok'⟩ := validateOutboxFrom_getElem? hfrom j v' hj
    have hpair := validateOutboxEvent_pair hok
    rw [hp] at hpair
    have hpair' := validateOutboxEvent_pair hok'
    rw [hp', hpair] at hpair'
    have hkey : e'.idempotencyKey = e.idempotencyKey := (Prod.mk.inj (Option.some.inj hpair')).1.symm
    have hget : (es.map (·.idempotencyKey))[i]? = some e.idempotencyKey := by
      rw [List.getElem?_map, he]
      rfl
    have hget' : (es.map (·.idempotencyKey))[j]? = some e.idempotencyKey := by
      rw [List.getElem?_map, he', Option.map_some, hkey]
    have hlt : i < (es.map (·.idempotencyKey)).length := (List.getElem?_eq_some_iff.mp hget).1
    exact hij ((List.getElem?_inj hlt hnodup).mp (hget.trans hget'.symm))

/-! ## One insertion -/

/-- The row has the key and the type of the event. -/
def OutboxEvent.Names (x : OutboxEvent) (e : OutboxInput) : Prop :=
  x.idempotencyKey = e.idempotencyKey ∧ x.eventType = e.eventType

instance (x : OutboxEvent) (e : OutboxInput) : Decidable (x.Names e) := inferInstanceAs (Decidable (_ ∧ _))

/-- The row an event becomes. -/
def outboxRow (requestId now payload : PyStr) (e : OutboxInput) : OutboxEvent where
  id := outboxId e.idempotencyKey e.eventType
  eventType := e.eventType
  idempotencyKey := e.idempotencyKey
  status := .pending
  turnRequestId := requestId
  payload := payload
  createdAt := now

/-- **What an insertion does**: nothing where the key and type are known, else one row, whose id must
be free. -/
theorem insertOutboxEvent_cases {id now : PyStr} {t t' : Table OutboxEvent PyStr OutboxEvent.id}
    {e : OutboxInput} (h : insertOutboxEvent id now t e = .ok t') :
    ((∃ x ∈ t.rows, x.Names e) ∧ t' = t) ∨
      ∃ payload, jsonDumps (.dict e.payload) = .ok payload ∧ (∀ x ∈ t.rows, ¬ x.Names e) ∧
        t.get? (outboxId e.idempotencyKey e.eventType) = none ∧
        t' = t.insertNew (outboxRow id now payload e) := by
  simp only [insertOutboxEvent, bind_eq_ok] at h
  obtain ⟨payload, hpayload, h⟩ := h
  split at h
  · next hknown =>
      cases h
      obtain ⟨x, hx, hnames⟩ := List.any_eq_true.mp hknown
      exact .inl ⟨⟨x, hx, of_decide_eq_true hnames⟩, rfl⟩
  · next hnew =>
      simp only [bind_eq_ok, require_eq_ok, Bool.and_eq_true, Option.isNone_iff_eq_none] at h
      obtain ⟨_, ⟨_, hfree⟩, h⟩ := h
      cases h
      refine .inr ⟨payload, hpayload, fun x hx hnames => hnew ?_, hfree, rfl⟩
      exact List.any_eq_true.mpr ⟨x, hx, decide_eq_true hnames⟩

/-- Every row has the id of its key and type. -/
def WellNamed (t : Table OutboxEvent PyStr OutboxEvent.id) : Prop :=
  ∀ x ∈ t.rows, x.id = outboxId x.idempotencyKey x.eventType ∧ isEventType x.eventType = true

theorem WellNamed.insert {id now : PyStr} {t t' : Table OutboxEvent PyStr OutboxEvent.id} {e : OutboxInput}
    (h : WellNamed t) (htype : isEventType e.eventType = true)
    (hinsert : insertOutboxEvent id now t e = .ok t') : WellNamed t' := by
  rcases insertOutboxEvent_cases hinsert with ⟨_, rfl⟩ | ⟨payload, _, _, _, rfl⟩
  · exact h
  · intro x hx
    rcases Table.mem_insertNew.mp hx with hx | ⟨rfl, _⟩
    · exact h x hx
    · exact ⟨rfl, htype⟩

/-- **The primary key does not fail** where the conflict target did not. -/
theorem WellNamed.free {t : Table OutboxEvent PyStr OutboxEvent.id} (h : WellNamed t) {e : OutboxInput}
    (htype : isEventType e.eventType = true) (hnew : ∀ x ∈ t.rows, ¬ x.Names e) :
    t.get? (outboxId e.idempotencyKey e.eventType) = none := by
  cases hget : t.get? (outboxId e.idempotencyKey e.eventType) with
  | none => rfl
  | some x =>
      have hx := Table.get?_mem hget
      obtain ⟨hid, hxtype⟩ := h x hx
      have hsame : x.id = outboxId e.idempotencyKey e.eventType := Table.get?_key hget
      exact absurd (outboxId_injective hxtype htype (hid.symm.trans hsame)) (hnew x hx)

/-! ## All events of a turn -/

/-- The events inserted one after the other, with what has become of each. -/
structure Landed (id : PyStr) (t t' : Table OutboxEvent PyStr OutboxEvent.id) (e : OutboxInput) : Prop where
  /-- There is a row with its key and type. -/
  named : ∃ x ∈ t'.rows, x.Names e
  /-- It is the event's own, unless there was one before. -/
  new : (∀ x ∈ t.rows, ¬ x.Names e) → ∃ x ∈ t'.rows, x.Names e ∧ x.status = .pending ∧
    x.turnRequestId = id ∧ jsonDumps (.dict e.payload) = .ok x.payload

theorem insertOutboxEvent_keeps {id now : PyStr} {t t' : Table OutboxEvent PyStr OutboxEvent.id}
    {e : OutboxInput} (h : insertOutboxEvent id now t e = .ok t') : ∀ x ∈ t.rows, x ∈ t'.rows := by
  rcases insertOutboxEvent_cases h with ⟨_, rfl⟩ | ⟨payload, _, _, _, rfl⟩
  · exact fun x hx => hx
  · exact fun x hx => Table.mem_insertNew.mpr (.inl hx)

theorem insertOutboxEvent_landed {id now : PyStr} {t t' : Table OutboxEvent PyStr OutboxEvent.id}
    {e : OutboxInput} (h : insertOutboxEvent id now t e = .ok t') : Landed id t t' e := by
  rcases insertOutboxEvent_cases h with ⟨hknown, rfl⟩ | ⟨payload, hpayload, _, hfree, rfl⟩
  · obtain ⟨x, hx, hnames⟩ := hknown
    exact ⟨⟨x, hx, hnames⟩, fun hnew => absurd hnames (hnew x hx)⟩
  · have hmem : outboxRow id now payload e ∈ (t.insertNew (outboxRow id now payload e)).rows :=
      Table.mem_insertNew.mpr (.inr ⟨rfl, hfree⟩)
    exact ⟨⟨_, hmem, rfl, rfl⟩, fun _ => ⟨_, hmem, ⟨rfl, rfl⟩, rfl, rfl, hpayload⟩⟩

theorem foldlM_insertOutboxEvent_keeps {id now : PyStr} : ∀ {es : List OutboxInput}
    {t t' : Table OutboxEvent PyStr OutboxEvent.id}, es.foldlM (insertOutboxEvent id now) t = .ok t' →
    ∀ x ∈ t.rows, x ∈ t'.rows
  | [], _, _, h => by
      cases h
      exact fun x hx => hx
  | e :: es, t, t', h => by
      simp only [List.foldlM_cons, bind_eq_ok] at h
      obtain ⟨t₁, h₁, h₂⟩ := h
      exact fun x hx => foldlM_insertOutboxEvent_keeps h₂ x (insertOutboxEvent_keeps h₁ x hx)

theorem foldlM_insertOutboxEvent_named {id now : PyStr} : ∀ {es : List OutboxInput}
    {t t' : Table OutboxEvent PyStr OutboxEvent.id}, es.foldlM (insertOutboxEvent id now) t = .ok t' →
    WellNamed t → (∀ e ∈ es, isEventType e.eventType = true) → WellNamed t'
  | [], _, _, h, hnamed, _ => by
      cases h
      exact hnamed
  | e :: es, t, t', h, hnamed, htypes => by
      simp only [List.foldlM_cons, bind_eq_ok] at h
      obtain ⟨t₁, h₁, h₂⟩ := h
      exact foldlM_insertOutboxEvent_named h₂ (hnamed.insert (htypes e List.mem_cons_self) h₁)
        fun e' he' => htypes e' (List.mem_cons_of_mem e he')

/-- A row that an insertion added names its event. -/
theorem insertOutboxEvent_new {id now : PyStr} {t t' : Table OutboxEvent PyStr OutboxEvent.id}
    {e : OutboxInput} (h : insertOutboxEvent id now t e = .ok t') {x : OutboxEvent} (hx : x ∈ t'.rows)
    (hnew : x ∉ t.rows) : x.Names e := by
  rcases insertOutboxEvent_cases h with ⟨_, rfl⟩ | ⟨payload, _, _, _, rfl⟩
  · exact absurd hx hnew
  · rcases Table.mem_insertNew.mp hx with hx | ⟨rfl, _⟩
    · exact absurd hx hnew
    · exact ⟨rfl, rfl⟩

/-- **Every event of a turn lands**, if no two of them have one key. -/
theorem foldlM_insertOutboxEvent_landed {id now : PyStr} : ∀ {es : List OutboxInput}
    {t t' : Table OutboxEvent PyStr OutboxEvent.id}, es.foldlM (insertOutboxEvent id now) t = .ok t' →
    (es.map (·.idempotencyKey)).Nodup → ∀ e ∈ es, Landed id t t' e
  | [], _, _, _, _ => List.forall_mem_nil _
  | e :: es, t, t', h, hnodup => by
      simp only [List.foldlM_cons, bind_eq_ok] at h
      obtain ⟨t₁, h₁, h₂⟩ := h
      rw [List.map_cons, List.nodup_cons] at hnodup
      have hkeeps := foldlM_insertOutboxEvent_keeps h₂
      refine List.forall_mem_cons.mpr ⟨?_, fun e' he' => ?_⟩
      · obtain ⟨⟨x, hx, hnames⟩, hnew⟩ := insertOutboxEvent_landed h₁
        refine ⟨⟨x, hkeeps x hx, hnames⟩, fun hbefore => ?_⟩
        obtain ⟨x, hx, hrow⟩ := hnew hbefore
        exact ⟨x, hkeeps x hx, hrow⟩
      · have hlanded := foldlM_insertOutboxEvent_landed h₂ hnodup.2 e' he'
        refine ⟨hlanded.named, fun hbefore => hlanded.new fun x hx hnames => ?_⟩
        by_cases hold : x ∈ t.rows
        · exact hbefore x hold hnames
        · -- what the first event added has its key, which is not the key of `e'`
          have hfirst := insertOutboxEvent_new h₁ hx hold
          refine hnodup.1 (List.mem_map.mpr ⟨e', he', ?_⟩)
          exact hnames.1.symm.trans hfirst.1

/-! ## Runs -/

variable {sha256 : PyStr → PyStr}

theorem Imports.outboxEvents {db db' : Db} (h : Imports sha256 db db') : db'.outboxEvents = db.outboxEvents := by
  induction h with
  | refl => rfl
  | step _ _ _ ih => rw [ih]; rfl

theorem WellNamed.deleteWhere {t : Table OutboxEvent PyStr OutboxEvent.id} (h : WellNamed t)
    (p : OutboxEvent → Bool) : WellNamed (t.deleteWhere p) :=
  fun x hx => h x (Table.mem_deleteWhere.mp hx).1

/-- **Every change keeps the ids.** -/
theorem wellNamed_change {db db' : Db} {call : Call} {reply : Reply} (hc : Change sha256 db call reply db')
    (h : WellNamed db.outboxEvents) : WellNamed db'.outboxEvents := by
  cases hc with
  | reserve => exact h
  | @commit a c row x outbox hinput _ _ _ _ _ _ _ _ houtbox =>
      obtain ⟨haccepted, _⟩ := (commitInput_eq_ok sha256).mp hinput
      exact foldlM_insertOutboxEvent_named houtbox h
        (validateOutboxEvents_eventType haccepted.outboxEvents)
  | release => exact h.deleteWhere _
  | storeMemory => exact h
  | deleteHistory => exact (h.deleteWhere _).deleteWhere _
  | deleteMemories => exact h
  | reset => exact h
  | trim => exact h.deleteWhere _
  | importFixture himports =>
      rw [himports.outboxEvents]
      exact h
  | recover => exact h

theorem wellNamed_reachable {s : LocalStore} (h : Reachable sha256 s) : WellNamed s.db.outboxEvents := by
  obtain ⟨es, hrun⟩ := h
  refine hrun.induct (P := fun db => WellNamed db.outboxEvents) (List.forall_mem_nil _) ?_
  intro db call reply db' hc
  exact wellNamed_change hc

/-- **What a commit does with the events of its turn**, on a store `s`. -/
structure OutboxKept (sha256 : PyStr → PyStr) (s : LocalStore) : Prop where
  /-- A first commit keeps every row, and each of its events lands. -/
  landed : ∀ (e : Event sha256) res, e.before = s → e.firstCommit = some res →
    ∃ a c, e.call = .commitTurn a ∧ validateCommit a = .ok c ∧
      (∀ x ∈ s.db.outboxEvents.rows, x ∈ e.after.db.outboxEvents.rows) ∧
      ∀ ev ∈ c.outboxEvents, Landed c.requestId s.db.outboxEvents e.after.db.outboxEvents ev
  /-- An event whose key and type are new finds its id free, whatever was inserted before it. -/
  free : ∀ events pre ev post id now t, validateOutboxEvents events = .ok (pre ++ ev :: post) →
    pre.foldlM (insertOutboxEvent id now) s.db.outboxEvents = .ok t → (∀ x ∈ t.rows, ¬ x.Names ev) →
      t.get? (outboxId ev.idempotencyKey ev.eventType) = none
  /-- Two events of one key and type are refused before anything is written. -/
  rejected : ∀ env a vs (i j : Nat) v v' p, PyVal.elems? a.outboxEvents = some vs → i ≠ j →
    vs[i]? = some v → vs[j]? = some v' → outboxPair v = some p → outboxPair v' = some p →
      ∃ err, err.ofArguments = true ∧ exec sha256 env (.commitTurn a) s = (.error err, s)

/-- **No outbox event is dropped, except for one of the same key and type.** -/
theorem outbox_events_kept {s : LocalStore} (h : Reachable sha256 s) : OutboxKept sha256 s where
  landed := by
    rintro e res rfl hfirst
    obtain ⟨_, _, a, c, hash, hcall, hinput, hbody⟩ := e.firstCommit_change hfirst
    obtain ⟨haccepted, _⟩ := (commitInput_eq_ok sha256).mp hinput
    obtain ⟨row, x, outbox, _, _, _, _, _, _, _, _, _, _, houtbox, _, hdb⟩ := commitBlock_commit hbody
    have hafter : e.after.db.outboxEvents = outbox := by rw [hdb]; rfl
    have hnodup : (c.outboxEvents.map (·.idempotencyKey)).Nodup := by
      rcases validateOutboxEvents_ok haccepted.outboxEvents with ⟨_, hnil⟩ | ⟨_, _, _, hnodup⟩
      · rw [hnil]
        exact List.nodup_nil
      · exact hnodup
    rw [hafter]
    exact ⟨a, c, hcall, validateCommit_eq_ok.mpr haccepted, foldlM_insertOutboxEvent_keeps houtbox,
      foldlM_insertOutboxEvent_landed houtbox hnodup⟩
  free := by
    intro events pre ev post id now t hvalid hfold hnew
    have htypes := validateOutboxEvents_eventType hvalid
    have hnamed := foldlM_insertOutboxEvent_named hfold (wellNamed_reachable h)
      fun e he => htypes e (List.mem_append_left _ he)
    exact hnamed.free (htypes ev (List.mem_append_right _ List.mem_cons_self)) hnew
  rejected := by
    intro env a vs i j v v' p hvs hij hi hj hp hp'
    cases hinput : commitInput sha256 a with
    | ok x =>
        obtain ⟨haccepted, _⟩ := (commitInput_eq_ok sha256).mp hinput
        exact absurd haccepted.outboxEvents (validateOutboxEvents_distinct hvs hi hj hij hp hp' _)
    | error err =>
        refine ⟨err, ?_, ?_⟩
        · exact raises_commitInput sha256 a err hinput
        · simp only [exec, commitTurn, hinput]
          rfl

/-! ## Two turns with one event -/

/-- A turn with one event, the same for every turn. -/
def eventArgs (requestId : PyStr) : CommitArgs :=
  { sampleArgs with
    requestId := .str requestId
    outboxEvents := .list [.tuple [.str (py "archival_extraction_requested"),
      .dict [(.str (py "kind"), .str (py "archival")), (.str (py "version"), .int 1)],
      .str (py "archival:v1")]]
    expectedRevision := .none }

def eventReserve (requestId : PyStr) : Env × Call :=
  (sampleEnv, .reserveRequest (.str requestId) (.str (py "oi")))

/-- The commit of such a turn, after a run. -/
def eventCommit (run : List (Env × Call)) (requestId : PyStr) : Event sampleSha256 :=
  event sampleSha256 sampleEnv (.commitTurn (eventArgs requestId)) (execAll sampleSha256 run .init)

/-- The events of a turn that were accepted, by key and type. -/
def acceptedPairs (a : CommitArgs) : Option (List (PyStr × PyStr)) :=
  (validateOutboxEvents a.outboxEvents).toOption.map (·.map fun e => (e.idempotencyKey, e.eventType))

/-- A first turn's event lands. -/
theorem outbox_events_kept_first :
    ∃ x ∈ (eventCommit [eventReserve (py "r1")] (py "r1")).after.db.outboxEvents.rows,
      x.idempotencyKey = py "archival:v1" ∧ x.eventType = py "archival_extraction_requested" ∧
        x.status = .pending ∧ x.turnRequestId = py "r1" := by
  have hfirst : ((eventCommit [eventReserve (py "r1")] (py "r1")).firstCommit.map (·.requestId)).isSome = true := by
    decide +kernel
  obtain ⟨_, hmap⟩ := Option.isSome_iff_exists.mp hfirst
  obtain ⟨res, hres, _⟩ := Option.map_eq_some_iff.mp hmap
  obtain ⟨a, c, hcall, hvalid, _, hlanded⟩ :=
    (outbox_events_kept ⟨_, run_trace [eventReserve (py "r1")] .init⟩).landed _ res rfl hres
  cases hcall
  have haccepted := validateCommit_eq_ok.mp hvalid
  have hid : c.requestId = py "r1" := (PyVal.str.inj (validateRequestId_str haccepted.requestId)).symm
  have hpairs : acceptedPairs (eventArgs (py "r1")) =
      some [(py "archival:v1", py "archival_extraction_requested")] := by decide +kernel
  rw [acceptedPairs, haccepted.outboxEvents] at hpairs
  have hnamed : c.outboxEvents.map (fun e => (e.idempotencyKey, e.eventType)) =
      [(py "archival:v1", py "archival_extraction_requested")] := Option.some.inj hpairs
  have hmem : (py "archival:v1", py "archival_extraction_requested") ∈
      c.outboxEvents.map fun e => (e.idempotencyKey, e.eventType) := by
    rw [hnamed]
    exact List.mem_cons_self
  obtain ⟨ev, hev, heq⟩ := List.mem_map.mp hmem
  have hempty : (execAll sampleSha256 [eventReserve (py "r1")] .init).db.outboxEvents.rows = [] := by
    decide +kernel
  obtain ⟨x, hx, hnames, hpending, hturn, _⟩ := (hlanded ev hev).new (by
    rw [hempty]
    exact List.forall_mem_nil _)
  obtain ⟨hkey, htype⟩ := Prod.mk.inj heq
  exact ⟨x, hx, hnames.1.trans hkey, hnames.2.trans htype, hpending, hturn.trans hid⟩

/-- **The event of the second turn is dropped**: the row of the first one has its key and type. -/
theorem repeated_event_dropped :
    Reachable sampleSha256 (eventCommit [eventReserve (py "r1"),
      (sampleEnv, .commitTurn (eventArgs (py "r1"))), eventReserve (py "r2")] (py "r2")).before ∧
      (eventCommit [eventReserve (py "r1"), (sampleEnv, .commitTurn (eventArgs (py "r1"))),
        eventReserve (py "r2")] (py "r2")).firstCommit.isSome = true ∧
      ¬ ∃ x ∈ (eventCommit [eventReserve (py "r1"), (sampleEnv, .commitTurn (eventArgs (py "r1"))),
        eventReserve (py "r2")] (py "r2")).after.db.outboxEvents.rows, x.turnRequestId = py "r2" := by
  refine ⟨⟨_, run_trace _ .init⟩, by decide +kernel, ?_⟩
  have hnone : ((eventCommit [eventReserve (py "r1"), (sampleEnv, .commitTurn (eventArgs (py "r1"))),
      eventReserve (py "r2")] (py "r2")).after.db.outboxEvents.rows.all fun x =>
        decide (x.turnRequestId ≠ py "r2")) = true := by decide +kernel
  rintro ⟨x, hx, hturn⟩
  exact of_decide_eq_true (List.all_eq_true.mp hnone x hx) hturn

end Katherine.Local
