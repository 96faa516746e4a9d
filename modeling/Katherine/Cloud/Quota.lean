import Katherine.Lib.Window
import Katherine.Cloud.Atomic

/-!
# Admission quotas over sliding windows

What counts is the log of everything `reserve_admission` ever admitted, with the times it
recorded. A call counts rows after `v_now - 60 seconds` and `v_now - 24 hours` without an
upper end, so rows with later times than its own are counted too, and the order of the
clocks does not matter: of all entries of a window the one admitted last saw the others.

It saw them if they were still there. The purge takes no lock and goes by its own clock.
A call that read its clock, then waited while a purge ran, can miss a row that its own
window should hold; that is the one way past a quota.
-/

namespace Katherine.Cloud

open Py Sql Runs
open Katherine.Context (canonicalUuid)

variable {sha256 : PyStr → PyStr}

/-! ## The log -/

/-- The step is a `reserve_admission` or a `purge_admission_reservations`. -/
def AdmissionCall (e : Event (exec sha256)) : Prop :=
  (∃ t a, e.input = (t, .reserveAdmission a)) ∨
    ∃ t prio a, e.input = (t, .purgeAdmissionReservations prio a)

/-- The reservation that a call admitted. -/
def admittedRow : Times × Call → Reply → Option AdmissionReservation
  | (t, .reserveAdmission a), .admission .admitted => validateAdmission t.vNow a
  | _, _ => none

/-- All reservations that were admitted, in the order of the calls. -/
def admitted (es : List (Event (exec sha256))) : List AdmissionReservation :=
  es.filterMap fun e => admittedRow e.input e.reply

/-- The step deletes the row. -/
def PurgedBy (r : AdmissionReservation) (e : Event (exec sha256)) : Prop :=
  r ∈ e.before.admissionReservations.rows ∧ r ∉ e.after.admissionReservations.rows

/-- The reservations in `[a, a + len)` with `p`. -/
def reservationsIn (p : AdmissionReservation → Bool) (len a : Int) (log : List AdmissionReservation) :
    List AdmissionReservation :=
  log.filter fun r => p r && decide (a ≤ r.reservedAt ∧ r.reservedAt < a + len)

/-- **The quotas**, over every window of a minute and of a day. -/
structure Quotas (log : List AdmissionReservation) : Prop where
  userMinute : ∀ user a, (reservationsIn (·.userId = user) (seconds 60) a log).length ≤
    userRequestsPerMinute
  networkMinute : ∀ network a, (reservationsIn (·.networkHmac = network) (seconds 60) a log).length ≤
    networkRequestsPerMinute
  applicationMinute : ∀ a, (reservationsIn (fun _ => true) (seconds 60) a log).length ≤
    applicationRequestsPerMinute
  userDay : ∀ user a, (reservationsIn (·.userId = user) (hours 24) a log).length ≤ userRequestsPerDay
  userUnits : ∀ user a, ((reservationsIn (·.userId = user) (hours 24) a log).map
    (·.estimatedUnits)).sum ≤ userEstimatedUnitsPerDay

/-! ## What the two procedures do -/

/-- Everything a step of these can do to the table. -/
inductive LedgerStep (e : Event (exec sha256)) : Prop
  | admitted {t : Times} {a : AdmissionArgs} {r : AdmissionReservation}
      (hin : e.input = (t, .reserveAdmission a)) (hv : validateAdmission t.vNow a = some r)
      (hd : admissionDecision e.before.admissionReservations r = .admitted)
      (hrow : admittedRow e.input e.reply = some r)
      (hafter : e.after.admissionReservations = e.before.admissionReservations.insertNew r)
  | rejected (hrow : admittedRow e.input e.reply = none) (hafter : e.after = e.before)
  | purged {t : Times} {prio : AdmissionReservation → Nat} {a : PurgeArgs}
      {p : AdmissionReservation → Bool} (hin : e.input = (t, .purgeAdmissionReservations prio a))
      (hrow : admittedRow e.input e.reply = none)
      (hafter : e.after.admissionReservations = e.before.admissionReservations.deleteWhere p)

theorem validateAdmission_at {vNow : Timestamp} {a : AdmissionArgs} {r : AdmissionReservation}
    (h : validateAdmission vNow a = some r) : r.reservedAt = vNow := by
  simp only [validateAdmission, Option.bind_eq_bind, Option.bind_eq_some_iff] at h
  obtain ⟨_, -, _, -, _, -, _, -, _, -, hr⟩ := h
  cases hr
  rfl

/-- What `reserve_admission` answers to a well-formed request, and what it writes. -/
theorem reserve_of_event {e : Event (exec sha256)} {t : Times} {a : AdmissionArgs}
    {r : AdmissionReservation} (hin : e.input = (t, .reserveAdmission a))
    (hv : validateAdmission t.vNow a = some r) :
    e.reply = .admission (admissionDecision e.before.admissionReservations r) ∧
      e.after = (if admissionDecision e.before.admissionReservations r = .admitted then
        { e.before with admissionReservations := e.before.admissionReservations.insertNew r }
        else e.before) := by
  have hexec := e.executed
  rw [hin] at hexec
  change (reserveAdmission t.vNow a e.before).map Reply.admission id = _ at hexec
  unfold reserveAdmission at hexec
  rw [hv] at hexec
  dsimp only at hexec
  split at hexec
  · rename_i hd
    obtain ⟨hreply, hafter⟩ := Prod.mk.inj hexec
    rw [hd, if_pos rfl]
    exact ⟨hreply.symm, hafter.symm⟩
  · rename_i hd
    obtain ⟨hreply, hafter⟩ := Prod.mk.inj hexec
    rw [if_neg hd]
    exact ⟨hreply.symm, hafter.symm⟩

theorem ledgerStep_of_event {e : Event (exec sha256)} (h : AdmissionCall e) : LedgerStep e := by
  rcases h with ⟨t, a, hin⟩ | ⟨t, prio, a, hin⟩
  · cases hv : validateAdmission t.vNow a with
    | none =>
        have hexec := e.executed
        rw [hin] at hexec
        change (reserveAdmission t.vNow a e.before).map Reply.admission id = _ at hexec
        rw [reserveAdmission, hv] at hexec
        obtain ⟨hreply, hafter⟩ := Prod.mk.inj hexec
        refine .rejected ?_ hafter.symm
        rw [hin, ← hreply]
        rfl
    | some r =>
        obtain ⟨hreply, hafter⟩ := reserve_of_event hin hv
        by_cases hd : admissionDecision e.before.admissionReservations r = .admitted
        · rw [if_pos hd] at hafter
          refine .admitted hin hv hd ?_ (by rw [hafter])
          rw [hin, hreply, hd]
          exact hv
        · rw [if_neg hd] at hafter
          refine .rejected ?_ hafter
          rw [hin, hreply]
          unfold admittedRow
          split
          · rename_i heq hdec
            injection hdec with hdec
            exact absurd hdec hd
          · rfl
  · have hexec := e.executed
    rw [hin] at hexec
    change (purgeAdmissionReservations t.clock prio a e.before).map Reply.purged id = _ at hexec
    have hrow : admittedRow e.input e.reply = none := by
      rw [hin]
      rfl
    unfold purgeAdmissionReservations at hexec
    split at hexec
    · obtain ⟨-, hafter⟩ := Prod.mk.inj hexec
      exact .rejected hrow hafter.symm
    · obtain ⟨-, hafter⟩ := Prod.mk.inj hexec
      exact .purged hin hrow (by rw [← hafter]; rfl)

/-! ## Room -/

/-- What an admitted reservation found: no row of its own, and room in every quota. -/
structure Room (t : Reservations) (r : AdmissionReservation) : Prop where
  fresh : t.get? (r.userId, r.requestId) = none
  userMinute : countSince t (·.userId = r.userId) (r.reservedAt - seconds 60) < userRequestsPerMinute
  networkMinute : countSince t (·.networkHmac = r.networkHmac) (r.reservedAt - seconds 60) <
    networkRequestsPerMinute
  applicationMinute : countSince t (fun _ => true) (r.reservedAt - seconds 60) <
    applicationRequestsPerMinute
  userDay : countSince t (·.userId = r.userId) (r.reservedAt - hours 24) < userRequestsPerDay
  userUnits : unitsSince t (·.userId = r.userId) (r.reservedAt - hours 24) + r.estimatedUnits ≤
    userEstimatedUnitsPerDay

theorem room_of_admitted {t : Reservations} {r : AdmissionReservation}
    (h : admissionDecision t r = .admitted) : Room t r := by
  unfold admissionDecision at h
  dsimp only at h
  split at h
  · split at h <;> cases h
  · rename_i hfresh
    by_cases h1 : userRequestsPerMinute ≤
        countSince t (fun x => decide (x.userId = r.userId)) (r.reservedAt - seconds 60)
    · rw [if_pos h1] at h
      cases h
    rw [if_neg h1] at h
    by_cases h2 : networkRequestsPerMinute ≤
        countSince t (fun x => decide (x.networkHmac = r.networkHmac)) (r.reservedAt - seconds 60)
    · rw [if_pos h2] at h
      cases h
    rw [if_neg h2] at h
    by_cases h3 : applicationRequestsPerMinute ≤
        countSince t (fun _ => true) (r.reservedAt - seconds 60)
    · rw [if_pos h3] at h
      cases h
    rw [if_neg h3] at h
    by_cases h4 : userRequestsPerDay ≤
        countSince t (fun x => decide (x.userId = r.userId)) (r.reservedAt - hours 24)
    · rw [if_pos h4] at h
      cases h
    rw [if_neg h4] at h
    by_cases h5 : userEstimatedUnitsPerDay <
        unitsSince t (fun x => decide (x.userId = r.userId)) (r.reservedAt - hours 24) + r.estimatedUnits
    · rw [if_pos h5] at h
      cases h
    exact ⟨hfresh, not_le.mp h1, not_le.mp h2, not_le.mp h3, not_le.mp h4, not_lt.mp h5⟩

theorem countSince_eq (t : Reservations) (p : AdmissionReservation → Bool) (from_ : Timestamp) :
    countSince t p from_ = Window.since AdmissionReservation.reservedAt (fun _ => 1) p from_ t.rows := by
  simp [countSince, Window.since, List.countP_eq_length_filter]

theorem length_reservationsIn (p : AdmissionReservation → Bool) (len a : Int)
    (log : List AdmissionReservation) : (reservationsIn p len a log).length =
      Window.load AdmissionReservation.reservedAt (fun _ => 1) p len a log := by
  simp [reservationsIn, Window.load]

section Snoc

variable {t : Reservations} {log dropped : List AdmissionReservation} {r : AdmissionReservation}

/-- A count over windows stays within its limit when a reservation is added that found room. -/
theorem length_snoc_le {p : AdmissionReservation → Bool} {len : Int} {limit : Nat}
    (h : ∀ a, (reservationsIn p len a log).length ≤ limit) (hperm : log.Perm (t.rows ++ dropped))
    (hdropped : ∀ d ∈ dropped, d.reservedAt ≤ r.reservedAt - len)
    (hroom : p r = true → countSince t p (r.reservedAt - len) < limit) (a : Int) :
    (reservationsIn p len a (log ++ [r])).length ≤ limit := by
  rw [length_reservationsIn]
  refine Window.load_snoc_le (fun a => ?_) hperm hdropped (fun hp => ?_) a
  · rw [← length_reservationsIn]
    exact h a
  · rw [← countSince_eq]
    exact hroom hp

/-- A reservation that found room in the table leaves every quota as it should be, if what was
dropped from the table is a day older. -/
theorem quotas_snoc (h : Quotas log) (hperm : log.Perm (t.rows ++ dropped))
    (hdropped : ∀ d ∈ dropped, d.reservedAt ≤ r.reservedAt - hours 24) (hroom : Room t r) :
    Quotas (log ++ [r]) := by
  have hminute : ∀ d ∈ dropped, d.reservedAt ≤ r.reservedAt - seconds 60 := by
    intro d hd
    have hshort : seconds 60 ≤ hours 24 := by decide
    exact (hdropped d hd).trans (Int.sub_le_sub_left hshort _)
  refine ⟨fun user => ?_, fun network => ?_, ?_, fun user => ?_, fun user => ?_⟩
  · refine length_snoc_le (h.userMinute user) hperm hminute fun hp => ?_
    obtain rfl := of_decide_eq_true hp
    exact hroom.userMinute
  · refine length_snoc_le (h.networkMinute network) hperm hminute fun hp => ?_
    obtain rfl := of_decide_eq_true hp
    exact hroom.networkMinute
  · exact length_snoc_le h.applicationMinute hperm hminute fun _ => hroom.applicationMinute
  · refine length_snoc_le (h.userDay user) hperm hdropped fun hp => ?_
    obtain rfl := of_decide_eq_true hp
    exact hroom.userDay
  · refine @Window.load_snoc_le _ AdmissionReservation.reservedAt
      AdmissionReservation.estimatedUnits _ _ _ _ _ _ _ (h.userUnits user) hperm hdropped
      fun hp => ?_
    obtain rfl := of_decide_eq_true hp
    exact hroom.userUnits

end Snoc

/-! ## The log and the table -/

/-- The log holds the rows of the table and the rows that were purged, and keeps the quotas. -/
structure LogInv (start : List AdmissionReservation) (pre : List (Event (exec sha256))) (db : Db) :
    Prop where
  rows : ∃ dropped, (start ++ admitted pre).Perm (db.admissionReservations.rows ++ dropped) ∧
    ∀ d ∈ dropped, ∃ e ∈ pre, PurgedBy d e
  quotas : Quotas (start ++ admitted pre)

theorem admitted_snoc (pre : List (Event (exec sha256))) (e : Event (exec sha256)) :
    admitted (pre ++ [e]) = admitted pre ++ (admittedRow e.input e.reply).toList := by
  simp only [admitted, List.filterMap_append, List.filterMap_cons, List.filterMap_nil]
  cases admittedRow e.input e.reply <;> rfl

theorem logInv_step {start : List AdmissionReservation} {pre : List (Event (exec sha256))}
    {e : Event (exec sha256)} (hcall : AdmissionCall e) (h : LogInv start pre e.before)
    (hfresh : ∀ t a, e.input = (t, .reserveAdmission a) → ∀ e' ∈ pre, ∀ r, PurgedBy r e' →
      r.reservedAt ≤ t.vNow - hours 24) : LogInv start (pre ++ [e]) e.after := by
  obtain ⟨⟨dropped, hperm, hdropped⟩, hquotas⟩ := h
  have hkeep : ∀ d ∈ dropped, ∃ e' ∈ pre ++ [e], PurgedBy d e' := by
    intro d hd
    obtain ⟨e', he', hp⟩ := hdropped d hd
    exact ⟨e', List.mem_append_left _ he', hp⟩
  cases ledgerStep_of_event hcall with
  | @admitted t a r hin hv hd hrow hafter =>
      have hroom := room_of_admitted hd
      have hlog : start ++ admitted (pre ++ [e]) = (start ++ admitted pre) ++ [r] := by
        rw [admitted_snoc, hrow, List.append_assoc]
        rfl
      refine ⟨⟨dropped, ?_, hkeep⟩, ?_⟩
      · rw [hlog, hafter, Table.insertNew_rows hroom.fresh]
        -- the new row is last in the log and stands before the dropped ones here
        refine (hperm.append_right [r]).trans ?_
        rw [List.append_assoc, List.append_assoc]
        exact List.perm_append_comm.append_left _
      · rw [hlog]
        refine quotas_snoc hquotas hperm (fun d hd => ?_) hroom
        obtain ⟨e', he', hp⟩ := hdropped d hd
        rw [validateAdmission_at hv]
        exact hfresh t a hin e' he' d hp
  | rejected hrow hafter =>
      have hlog : admitted (pre ++ [e]) = admitted pre := by
        rw [admitted_snoc, hrow]
        exact List.append_nil _
      rw [hafter]
      exact ⟨⟨dropped, by rw [hlog]; exact hperm, hkeep⟩, by rw [hlog]; exact hquotas⟩
  | @purged _ _ _ p _ hrow hafter =>
      have hlog : admitted (pre ++ [e]) = admitted pre := by
        rw [admitted_snoc, hrow]
        exact List.append_nil _
      refine ⟨⟨e.before.admissionReservations.rows.filter p ++ dropped, ?_, ?_⟩, ?_⟩
      · rw [hlog, hafter, Table.deleteWhere_rows, ← List.append_assoc]
        refine hperm.trans (List.Perm.append_right dropped ?_)
        exact (List.filter_append_perm p _).symm.trans List.perm_append_comm
      · intro d hd
        rcases List.mem_append.mp hd with hd | hd
        · obtain ⟨hmem, hpd⟩ := List.mem_filter.mp hd
          refine ⟨e, by simp, hmem, fun hin => ?_⟩
          rw [hafter, Table.deleteWhere_rows, List.mem_filter, hpd] at hin
          exact absurd hin.2 (by simp)
        · exact hkeep d hd
      · rw [hlog]
        exact hquotas

/-! ## One reservation for a request -/

/-- The step admitted a reservation for the key. -/
def Admits (key : PyStr × Uuid) (e : Event (exec sha256)) : Prop :=
  ∃ r, admittedRow e.input e.reply = some r ∧ (r.userId, r.requestId) = key

/-- The step deletes the reservation of the key. -/
def Unreserves (key : PyStr × Uuid) (e : Event (exec sha256)) : Prop :=
  ∃ r, (r.userId, r.requestId) = key ∧ PurgedBy r e

/-- The key has a reservation. -/
def Reserved (key : PyStr × Uuid) (db : Db) : Prop :=
  (db.admissionReservations.get? key).isSome

theorem admits_cases {key : PyStr × Uuid} {e : Event (exec sha256)} (hcall : AdmissionCall e)
    (h : Admits key e) : Reserved key e.after ∧ ¬ Reserved key e.before := by
  obtain ⟨r, hr, rfl⟩ := h
  cases ledgerStep_of_event hcall with
  | admitted _ _ hd hrow hafter =>
      rw [hr] at hrow
      obtain rfl := Option.some.inj hrow
      have hfresh := (room_of_admitted hd).fresh
      refine ⟨?_, ?_⟩
      · rw [Reserved, hafter, Table.get?_insertNew, if_pos rfl]
        rfl
      · rw [Reserved, hfresh]
        nofun
  | rejected hrow =>
      rw [hr] at hrow
      cases hrow
  | purged _ hrow =>
      rw [hr] at hrow
      cases hrow

theorem reserved_kept {key : PyStr × Uuid} {e : Event (exec sha256)} (hcall : AdmissionCall e)
    (h : Reserved key e.before) : Reserved key e.after ∨ Unreserves key e := by
  obtain ⟨r, hr⟩ := Option.isSome_iff_exists.mp h
  cases ledgerStep_of_event hcall with
  | admitted _ _ _ _ hafter =>
      refine .inl ?_
      rw [Reserved, hafter, Table.get?_insertNew_of_some hr]
      rfl
  | rejected _ hafter =>
      rw [hafter]
      exact .inl h
  | @purged _ _ _ p _ _ hafter =>
      have hkey := Table.get?_key hr
      have hget : e.after.admissionReservations.get? key = (some r).filter fun x => !p x := by
        rw [hafter, Table.get?_deleteWhere, hr]
      by_cases hp : p r = true
      · refine .inr ⟨r, hkey, Table.get?_mem hr, fun hin => ?_⟩
        rw [hafter, Table.deleteWhere_rows, List.mem_filter, hp] at hin
        exact absurd hin.2 (by simp)
      · refine .inl ?_
        rw [Reserved, hget]
        simp [hp]

/-! ## Whole runs -/

/-- **Quotas hold over every sliding window** of a run of `reserve_admission` and
`purge_admission_reservations`, with any clocks, if no call comes after a purge of a row that its
own day should still count. Besides, in every such run:

* a call that is not answered with `admitted` writes nothing;
* a request is admitted again only after its reservation was purged;
* while the reservation is there, a repeat is told so: the same message that its replay is
  unavailable, another message that there is a conflict. -/
theorem admission_quotas {db db' : Db} {es : List (Event (exec sha256))} (hrun : Run db es db')
    (hcalls : ∀ e ∈ es, AdmissionCall e) (hstart : Quotas db.admissionReservations.rows)
    (hpurges : ∀ pre e post t a, es = pre ++ e :: post → e.input = (t, .reserveAdmission a) →
      ∀ e' ∈ pre, ∀ r, PurgedBy r e' → r.reservedAt ≤ t.vNow - hours 24) :
    Quotas (db.admissionReservations.rows ++ admitted es) ∧
    (∀ e ∈ es, ∀ t a, e.input = (t, .reserveAdmission a) → e.reply ≠ .admission .admitted →
      e.after = e.before) ∧
    (∀ key pre e₁ mid e₂ post, es = pre ++ e₁ :: (mid ++ e₂ :: post) → Admits key e₁ →
      Admits key e₂ → ∃ e ∈ mid, Unreserves key e) ∧
    (∀ e ∈ es, ∀ t a r x, e.input = (t, .reserveAdmission a) → validateAdmission t.vNow a = some r →
      e.before.admissionReservations.get? (r.userId, r.requestId) = some x → e.after = e.before ∧
        e.reply = .admission (if x.messageHmac = r.messageHmac then .requestReplayUnavailable
          else .requestIdConflict)) := by
  refine ⟨?_, ?_, ?_, ?_⟩
  · have h0 : LogInv db.admissionReservations.rows ([] : List (Event (exec sha256))) db := by
      refine ⟨⟨[], by simp [admitted], by simp⟩, ?_⟩
      simpa [admitted] using hstart
    refine (hrun.history h0 fun pre e post hes h => ?_).1.quotas
    exact logInv_step (hcalls e (by simp [hes])) h fun t a hin => hpurges pre e post t a hes hin
  · intro e he t a hin hreply
    cases ledgerStep_of_event (hcalls e he) with
    | @admitted t' a' r hin' hv hd hrow hafter =>
        have := (reserve_of_event hin' hv).1
        rw [hd] at this
        exact absurd this hreply
    | rejected _ hafter => exact hafter
    | purged hin' =>
        rw [hin] at hin'
        cases hin'
  · rintro key pre e₁ mid e₂ post rfl h₁ h₂
    have hc₁ := hcalls e₁ (by simp)
    have hc₂ := hcalls e₂ (by simp)
    refine hrun.between (P := Reserved key) (F := Admits key) (fun h => (admits_cases hc₁ h).1)
      (fun h => (admits_cases hc₂ h).2) (fun e he => ?_) h₁ h₂
    exact reserved_kept (hcalls e (by simp [he]))
  · intro e _ t a r x hin hv hx
    obtain ⟨hreply, hafter⟩ := reserve_of_event hin hv
    have hdec : admissionDecision e.before.admissionReservations r =
        if x.messageHmac = r.messageHmac then .requestReplayUnavailable else .requestIdConflict := by
      unfold admissionDecision
      rw [hx]
    rw [hdec] at hreply hafter
    refine ⟨?_, hreply⟩
    rw [hafter, if_neg]
    split <;> nofun

/-! ## Past a quota -/

/-- The `n`th of a series of requests. -/
def requestNumber (n : Nat) : Uuid :=
  let text := py "00000000-0000-4000-8000-0000000000" ++
    [cp (Char.ofNat (48 + n / 10)), cp (Char.ofNat (48 + n % 10))]
  if h : canonicalUuid text = true then ⟨text, h⟩
  else ⟨py "11111111-1111-4111-8111-111111111111", sampleRequest_ok⟩

/-- A request of the largest size, at `vNow`. -/
def largeRequest (n : Nat) (vNow : Timestamp) : Times × Call :=
  (⟨vNow, vNow, vNow⟩, .reserveAdmission
    { userId := some (py "u1")
      requestId := some (requestNumber n)
      messageHmac := some (List.replicate 64 (cp 'a'))
      networkHmac := some (List.replicate 64 (cp 'b'))
      estimatedUnits := some 6000 })

/-- Forty-one large requests, 100 seconds apart. A microsecond before the first of them is a day
old another call reads its clock; a purge runs a microsecond after; then the call runs. -/
def overQuota : List (Times × Call) :=
  (List.range 41).map (fun n => largeRequest n (seconds (100 * n))) ++
    [(⟨hours 24 + 1, hours 24 + 1, hours 24 + 1⟩,
      .purgeAdmissionReservations (fun _ => 0) ⟨some (hours 24 + 1), some 1000⟩),
     largeRequest 41 (hours 24 - 1)]

theorem overQuota_calls : ∀ e ∈ trace (exec id) overQuota Db.empty, AdmissionCall e := by
  intro e he
  have hin := input_of_mem_trace he
  rcases List.mem_append.mp hin with hin | hin
  · obtain ⟨n, -, hn⟩ := List.mem_map.mp hin
    exact .inl ⟨_, _, hn.symm⟩
  · simp only [List.mem_cons, List.not_mem_nil, or_false] at hin
    rcases hin with hin | hin
    · exact .inr ⟨_, _, _, hin⟩
    · exact .inl ⟨_, _, hin⟩

/-- **A quota can be passed**: a user is admitted 252000 units within a day. -/
theorem quota_passed : (∃ db', Run Db.empty (trace (exec id) overQuota Db.empty) db') ∧
    (∀ e ∈ trace (exec id) overQuota Db.empty, AdmissionCall e) ∧
    ¬ Quotas (Db.empty.admissionReservations.rows ++
      admitted (trace (exec id) overQuota Db.empty)) := by
  refine ⟨Run.ofInputs overQuota Db.empty, overQuota_calls, fun h => ?_⟩
  exact absurd (h.userUnits (py "u1") 0) (by decide +kernel)

theorem quotas_nil : Quotas [] :=
  ⟨fun _ _ => Nat.zero_le _, fun _ _ => Nat.zero_le _, fun _ => Nat.zero_le _,
    fun _ _ => Nat.zero_le _, fun _ _ => Nat.zero_le _⟩

def firstReservation : Event (exec id) := .of _ (largeRequest 0 0) Db.empty

/-- A purge when it is two days old. -/
def purgeOfFirst : Event (exec id) :=
  .of _ (⟨hours 48, hours 48, hours 48⟩,
    .purgeAdmissionReservations (fun _ => 0) ⟨some (hours 24), some 1000⟩) firstReservation.after

def secondReservation : Event (exec id) := .of _ (largeRequest 1 (hours 48 + 1)) purgeOfFirst.after

theorem purgeOfFirst_before : ∀ r ∈ purgeOfFirst.before.admissionReservations.rows, r.reservedAt = 0 := by
  decide +kernel

/-- The first reservation is purged before the second is made, and both of them count. -/
theorem admission_quotas_sample :
    (purgeOfFirst.before.admissionReservations.rows.length = 1 ∧
      purgeOfFirst.after.admissionReservations.rows.length = 0) ∧
    (admitted [firstReservation, purgeOfFirst, secondReservation]).length = 2 ∧
    Quotas (Db.empty.admissionReservations.rows ++
      admitted [firstReservation, purgeOfFirst, secondReservation]) := by
  refine ⟨⟨by decide +kernel, by decide +kernel⟩, by decide +kernel, ?_⟩
  have hcalls : ∀ e ∈ [firstReservation, purgeOfFirst, secondReservation], AdmissionCall e := by
    intro e he
    simp only [List.mem_cons, List.not_mem_nil, or_false] at he
    rcases he with rfl | rfl | rfl
    · exact .inl ⟨_, _, rfl⟩
    · exact .inr ⟨_, _, _, rfl⟩
    · exact .inl ⟨_, _, rfl⟩
  refine (admission_quotas (.cons firstReservation (.cons purgeOfFirst (.cons secondReservation (.nil _))))
    hcalls quotas_nil ?_).1
  intro pre e post t a hes hin e' he' r hr
  rcases pre with - | ⟨e₁, - | ⟨e₂, - | ⟨e₃, pre⟩⟩⟩
  · cases he'
  · -- the second event is the purge
    simp only [List.cons_append, List.nil_append, List.cons.injEq] at hes
    obtain ⟨-, rfl, -⟩ := hes
    cases hin
  · simp only [List.cons_append, List.nil_append, List.cons.injEq] at hes
    obtain ⟨rfl, rfl, rfl, -⟩ := hes
    cases hin
    simp only [List.mem_cons, List.not_mem_nil, or_false] at he'
    rcases he' with rfl | rfl
    · have hmem : r ∈ Db.empty.admissionReservations.rows := hr.1
      cases hmem
    · rw [purgeOfFirst_before r hr.1]
      decide
  · simp at hes

end Katherine.Cloud
