import SeppPy.Client.Extend

/-! # Extensions that overlap

The heartbeat and the handler share one lease, and nothing orders their calls of `Lease.extend`.
The calls are messages: a request waits to be processed, a response waits to be delivered, and
either may wait as long as it likes. The server holds one expiry for the job; it answers an
extension with the expiry that the extension sets. The client stores whatever response is
delivered, so what it knows is the response delivered last, while the server holds what it granted
last.
-/

namespace SeppPy

open Machine

/-- One call of `Lease.extend`. A call that fails before its request is processed leaves the request
on its way. -/
inductive ExtendCall
  | idle
  | sent (req : Pb.ExtendRequest)
  | answered (resp : Pb.ExtendResponse)
  | abandoned (req : Pb.ExtendRequest)
  | ended
deriving DecidableEq, Repr

/-- The request is on its way to the server. -/
def ExtendCall.request? : ExtendCall → Option Pb.ExtendRequest
  | .sent req => some req
  | .abandoned req => some req
  | _ => none

/-- The call has been sent and has not ended for the client. -/
def ExtendCall.Outstanding : ExtendCall → Prop
  | .sent _ => True
  | .answered _ => True
  | _ => False

variable {ι : Type}

/-- The lease of the client, the clock of the server and the expiry it holds, both in nanoseconds,
and the calls. -/
structure Overlap (ι : Type) where
  lease : Lease
  clock : ℤ
  expiry : ℤ
  calls : ι → ExtendCall

namespace Overlap

/-- The calls that can be made, each with the extension it asks for. -/
inductive Event (ι : Type)
  | send (i : ι)
  /-- The server processes the request at `now`. -/
  | process (i : ι) (now : ℤ)
  | deliver (i : ι)
  /-- The call ends with an exception; a retried attempt is a call of its own. -/
  | fail (i : ι) (err : PyError)

/-- A reserved job before its first extension; the server holds the expiry it has sent. -/
def reserved (j : Pb.Job) (job : Job) (clock : ℤ) : Overlap ι where
  lease := job.ctx.lease
  clock
  expiry := (j.leaseExpiresAt.getD {}).nanoseconds
  calls _ := .idle

variable [DecidableEq ι] (pb : Protobuf) (extension : ι → Timedelta)

def setCall (s : Overlap ι) (i : ι) (call : ExtendCall) : Overlap ι :=
  { s with calls := Function.update s.calls i call }

/-- `Lease.extend(extension)`, up to its call of the RPC. -/
def send (i : ι) (s : Overlap ι) : Option (Overlap ι) :=
  match s.calls i with
  | .idle => some (s.setCall i (.sent
      ⟨s.lease.jobId, s.lease.attempt, pb.fromTimedelta (extension i), s.lease.workerId⟩))
  | _ => none

/-- The server sets the expiry and answers with it, unless the client has given up the call. -/
def process (i : ι) (now : ℤ) (s : Overlap ι) : Option (Overlap ι) :=
  if now < s.clock then none
  else
    let grant (req : Pb.ExtendRequest) : ℤ := now + req.leaseDuration.nanoseconds
    match s.calls i with
    | .sent req =>
      some ({ s with clock := now, expiry := grant req }.setCall i
        (.answered ⟨some (.ofNanoseconds (grant req))⟩))
    | .abandoned req => some ({ s with clock := now, expiry := grant req }.setCall i .ended)
    | _ => none

/-- The rest of `Lease.extend`, once the RPC has succeeded. -/
def deliver (i : ι) (s : Overlap ι) : Option (Overlap ι) :=
  match s.calls i with
  | .answered resp => some ({ s with lease := s.lease.extended (decodeExtend pb resp) }.setCall i .ended)
  | _ => none

/-- The exception leaves `Lease.extend`. -/
def fail (i : ι) (err : PyError) (s : Overlap ι) : Option (Overlap ι) :=
  let s := { s with lease := s.lease.extended (.error err) }
  match s.calls i with
  | .sent req => some (s.setCall i (.abandoned req))
  | .answered _ => some (s.setCall i .ended)
  | _ => none

def step (s : Overlap ι) : Event ι → Option (Overlap ι)
  | .send i => s.send pb extension i
  | .process i now => s.process i now
  | .deliver i => s.deliver pb i
  | .fail i err => s.fail i err

/-- No extension is outstanding. -/
def Quiescent (s : Overlap ι) : Prop := ∀ i, ¬ (s.calls i).Outstanding

/-- The client does not believe in a later expiry than the one the server holds. -/
def Cautious (s : Overlap ι) : Prop := s.lease.knownExpiryMs * 1000000 ≤ s.expiry

/-! ## What the order of the messages determines -/

/-- The expiry that processing a request grants: its time plus the extension asked for. -/
def Event.grant? : Event ι → Option (ι × ℤ)
  | .process i now => some (i, now + extension i * 1000)
  | _ => none

/-- The grants, in the order of processing. -/
def grants (events : List (Event ι)) : List (ι × ℤ) := events.filterMap (Event.grant? extension)

/-- The grant to a call. -/
def grantTo (events : List (Event ι)) (i : ι) : Option ℤ :=
  ((grants extension events).find? fun grant => decide (grant.1 = i)).map Prod.snd

/-- The grant that a delivery brings, unless it lies beyond the times the client can read. -/
def Event.brings? (events : List (Event ι)) : Event ι → Option ℤ
  | .deliver i => (grantTo extension events i).filter fun instant =>
      decide (Pb.Timestamp.ofNanoseconds instant).Representable
  | _ => none

/-- The grants, in the order of delivery. -/
def deliveries (events : List (Event ι)) : List ℤ :=
  events.filterMap (Event.brings? extension events)

/-- The expiry processed last, or else the first one. -/
def lastGranted (first : ℤ) (events : List (Event ι)) : ℤ :=
  ((grants extension events).map Prod.snd).getLastD first

/-- The expiry delivered last, or else the first one. -/
def lastDelivered (first : ℤ) (events : List (Event ι)) : ℤ :=
  (deliveries extension events).getLastD first

variable {extension} {past : List (Event ι)} {e : Event ι} {i j : ι} {instant first : ℤ}

omit [DecidableEq ι] in
private theorem grants_snoc (past : List (Event ι)) (e : Event ι) :
    grants extension (past ++ [e]) = grants extension past ++ (e.grant? extension).toList := by
  simp only [grants, List.filterMap_append]
  cases found : e.grant? extension <;> simp [found]

/-- The grant to a call is the first one. -/
theorem grantTo_snoc_of_some (granted : grantTo extension past i = some instant) (e : Event ι) :
    grantTo extension (past ++ [e]) i = some instant := by
  obtain ⟨grant, found, same⟩ := Option.map_eq_some_iff.mp granted
  rw [grantTo, grants_snoc, List.find?_append, found]
  exact congrArg some same

private theorem grantTo_snoc_of_none (silent : e.grant? extension = none) :
    grantTo extension (past ++ [e]) i = grantTo extension past i := by
  rw [grantTo, grants_snoc, silent, Option.toList_none, List.append_nil]
  rfl

private theorem grantTo_process (fresh : grantTo extension past i = none) (now : ℤ) :
    grantTo extension (past ++ [.process i now]) j =
      if i = j then some (now + extension i * 1000) else grantTo extension past j := by
  by_cases same : i = j
  · subst same
    have absent := Option.map_eq_none_iff.mp fresh
    simp [grantTo, grants_snoc, List.find?_append, absent, Event.grant?]
  · simp [grantTo, grants_snoc, List.find?_append, Event.grant?, same]

/-- A delivery brings the same grant however many events follow it. -/
theorem deliveries_snoc (settled : ∀ i, .deliver i ∈ past → (grantTo extension past i).isSome = true)
    (e : Event ι) :
    deliveries extension (past ++ [e]) =
      deliveries extension past ++ (e.brings? extension (past ++ [e])).toList := by
  have same : past.filterMap (Event.brings? extension (past ++ [e])) =
      past.filterMap (Event.brings? extension past) := by
    refine List.filterMap_congr fun other member => ?_
    cases other with
    | deliver i =>
      obtain ⟨instant, granted⟩ := Option.isSome_iff_exists.mp (settled i member)
      simp only [Event.brings?, granted, grantTo_snoc_of_some granted e]
    | send | process | fail => rfl
  simp only [deliveries, List.filterMap_append, same]
  cases found : e.brings? extension (past ++ [e]) <;> simp [found]

/-! ## The account -/

variable (extension) in
/-- The state against the events that led to it. -/
structure Accounted (first : ℤ) (past : List (Event ι)) (s : Overlap ι) : Prop where
  expiry : s.expiry = lastGranted extension first past
  known : s.lease.knownExpiryMs = lastDelivered extension first past / 1000000
  requested : ∀ i req, (s.calls i).request? = some req →
    req.leaseDuration.nanoseconds = extension i * 1000
  waiting : ∀ i, s.calls i = .idle ∨ (s.calls i).request?.isSome = true →
    grantTo extension past i = none
  answered : ∀ i resp, s.calls i = .answered resp →
    ∃ instant, grantTo extension past i = some instant ∧ resp = ⟨some (.ofNanoseconds instant)⟩
  settled : ∀ i, .deliver i ∈ past → (grantTo extension past i).isSome = true

variable {pb} {s t : Overlap ι} {call : ExtendCall}

/-- A call may change to anything that agrees with what it has been granted. -/
theorem Accounted.setCall (account : Accounted extension first past s)
    (requested : ∀ req, call.request? = some req →
      req.leaseDuration.nanoseconds = extension i * 1000)
    (waiting : call = .idle ∨ call.request?.isSome = true → grantTo extension past i = none)
    (answered : ∀ resp, call = .answered resp →
      ∃ instant, grantTo extension past i = some instant ∧ resp = ⟨some (.ofNanoseconds instant)⟩) :
    Accounted extension first past (s.setCall i call) where
  expiry := account.expiry
  known := account.known
  requested j := by
    by_cases same : j = i
    · subst same
      simpa only [Overlap.setCall, Function.update_self] using requested
    · simpa only [Overlap.setCall, Function.update_of_ne same] using account.requested j
  waiting j := by
    by_cases same : j = i
    · subst same
      simpa only [Overlap.setCall, Function.update_self] using waiting
    · simpa only [Overlap.setCall, Function.update_of_ne same] using account.waiting j
  answered j := by
    by_cases same : j = i
    · subst same
      simpa only [Overlap.setCall, Function.update_self] using answered
    · simpa only [Overlap.setCall, Function.update_of_ne same] using account.answered j
  settled := account.settled

/-- An ended call has nothing to agree with. -/
theorem Accounted.endCall (account : Accounted extension first past s) (i : ι) :
    Accounted extension first past (s.setCall i .ended) :=
  account.setCall (fun _ requested => nomatch requested) (fun waiting => by simp [ExtendCall.request?] at waiting)
    (fun _ answered => nomatch answered)

/-- Sending and failing grant nothing and deliver nothing. -/
theorem Accounted.silent (account : Accounted extension first past s)
    (silent : e.grant? extension = none) (undelivered : ∀ i, e ≠ .deliver i) :
    Accounted extension first (past ++ [e]) s where
  expiry := by
    rw [account.expiry, lastGranted, lastGranted, grants_snoc, silent, Option.toList_none,
      List.append_nil]
  known := by
    have nothing : e.brings? extension (past ++ [e]) = none := by
      cases e with
      | deliver i => exact absurd rfl (undelivered i)
      | send | process | fail => rfl
    rw [account.known, lastDelivered, lastDelivered, deliveries_snoc account.settled, nothing,
      Option.toList_none, List.append_nil]
  requested := account.requested
  waiting i before := (grantTo_snoc_of_none silent).trans (account.waiting i before)
  answered i resp found := by
    rw [grantTo_snoc_of_none silent]
    exact account.answered i resp found
  settled i member := by
    rw [grantTo_snoc_of_none silent]
    refine account.settled i ((List.mem_append.mp member).resolve_right fun last => ?_)
    exact undelivered i (List.mem_singleton.mp last).symm

theorem Accounted.send (account : Accounted extension first past s)
    (taken : s.send pb extension i = some t) : Accounted extension first (past ++ [.send i]) t := by
  unfold Overlap.send at taken
  split at taken
  · next idle =>
    cases taken
    have fresh := account.waiting i (.inl idle)
    refine (account.silent (e := .send i) rfl fun _ same => nomatch same).setCall ?_ ?_ ?_
    · rintro _ ⟨⟩
      exact pb.nanoseconds_fromTimedelta _
    · intro _
      exact (grantTo_snoc_of_none rfl).trans fresh
    · rintro _ ⟨⟩
  · contradiction

private theorem Accounted.fail {err : PyError} (account : Accounted extension first past s)
    (taken : s.fail i err = some t) : Accounted extension first (past ++ [.fail i err]) t := by
  unfold Overlap.fail at taken
  have quiet := account.silent (e := .fail i err) rfl fun _ same => nomatch same
  dsimp only at taken
  split at taken
  · next req sent =>
    cases taken
    refine quiet.setCall ?_ ?_ ?_
    · rintro _ ⟨⟩
      exact account.requested i req (by rw [sent]; rfl)
    · intro _
      exact quiet.waiting i (.inr (by rw [sent]; rfl))
    · rintro _ ⟨⟩
  · cases taken
    exact quiet.endCall i
  · contradiction

/-- Processing a request of a call that has been granted nothing. -/
theorem Accounted.granted (account : Accounted extension first past s)
    (ended : s.calls i = .ended) (fresh : grantTo extension past i = none) (now : ℤ) :
    Accounted extension first (past ++ [.process i now])
      { s with clock := now, expiry := now + extension i * 1000 } where
  expiry := by
    rw [lastGranted, grants_snoc]
    simp [Event.grant?]
  known := by
    rw [account.known, lastDelivered, lastDelivered, deliveries_snoc account.settled]
    simp [Event.brings?]
  requested := account.requested
  waiting j before := by
    rw [grantTo_process fresh]
    split
    · next same =>
      subst same
      simp [ended, ExtendCall.request?] at before
    · exact account.waiting j before
  answered j resp found := by
    rw [grantTo_process fresh]
    split
    · next same =>
      subst same
      rw [ended] at found
      contradiction
    · exact account.answered j resp found
  settled j member := by
    rw [grantTo_process fresh]
    split
    · rfl
    · refine account.settled j ((List.mem_append.mp member).resolve_right fun last => ?_)
      cases List.mem_singleton.mp last

private theorem Accounted.process {now : ℤ} (account : Accounted extension first past s)
    (taken : s.process i now = some t) :
    Accounted extension first (past ++ [.process i now]) t := by
  unfold Overlap.process at taken
  split at taken
  · contradiction
  have settle {req : Pb.ExtendRequest} (waiting : (s.calls i).request? = some req) :
      grantTo extension past i = none ∧
        Accounted extension first (past ++ [.process i now])
          { s.setCall i .ended with
            clock := now
            expiry := now + req.leaseDuration.nanoseconds } := by
    have fresh := account.waiting i (.inr (by rw [waiting]; rfl))
    rw [account.requested i req waiting]
    exact ⟨fresh, (account.endCall i).granted (Function.update_self ..) fresh now⟩
  dsimp only at taken
  split at taken
  · next req sent =>
    cases taken
    have waiting : (s.calls i).request? = some req := by rw [sent]; rfl
    obtain ⟨fresh, settled⟩ := settle waiting
    let granted : Overlap ι :=
      { s.setCall i .ended with clock := now, expiry := now + req.leaseDuration.nanoseconds }
    have answered : Accounted extension first (past ++ [.process i now])
        (granted.setCall i
          (.answered ⟨some (.ofNanoseconds (now + req.leaseDuration.nanoseconds))⟩)) := by
      refine settled.setCall (fun _ requested => nomatch requested) ?_ ?_
      · intro waiting
        simp [ExtendCall.request?] at waiting
      · rintro _ ⟨⟩
        rw [grantTo_process fresh, if_pos rfl, account.requested i req waiting]
        exact ⟨_, rfl, rfl⟩
    simp only [granted, Overlap.setCall, Function.update_idem] at answered
    exact answered
  · next req abandoned =>
    cases taken
    exact (settle (by rw [abandoned]; rfl)).2
  · contradiction

/-- What the lease knows once a grant has been delivered. -/
theorem knownExpiryMs_extended (lease : Lease) (instant : ℤ) :
    (lease.extended (decodeExtend pb ⟨some (.ofNanoseconds instant)⟩)).knownExpiryMs =
      if (Pb.Timestamp.ofNanoseconds instant).Representable then instant / 1000000
      else lease.knownExpiryMs := by
  by_cases readable : (Pb.Timestamp.ofNanoseconds instant).Representable
  · have read : decodeExtend pb ⟨some (.ofNanoseconds instant)⟩ =
        .ok (Pb.Timestamp.ofNanoseconds instant).toUtc :=
      (decodeExtend_ok_iff pb).mpr ⟨readable, rfl⟩
    rw [read, if_pos readable]
    exact (Pb.Timestamp.datetimeToMillis_toUtc _).trans
      (congrArg (· / 1000000) (Pb.Timestamp.nanoseconds_ofNanoseconds instant))
  · rw [if_neg readable]
    cases outcome : decodeExtend pb ⟨some (.ofNanoseconds instant)⟩ with
    | ok expiry => exact absurd ((decodeExtend_ok_iff pb).mp outcome).1 readable
    | error err => rfl

private theorem Accounted.deliver (account : Accounted extension first past s)
    (taken : s.deliver pb i = some t) : Accounted extension first (past ++ [.deliver i]) t := by
  unfold Overlap.deliver at taken
  split at taken
  · next resp found =>
    cases taken
    obtain ⟨instant, granted, rfl⟩ := account.answered i resp found
    have same (j : ι) : grantTo extension (past ++ [.deliver i]) j = grantTo extension past j :=
      grantTo_snoc_of_none rfl
    refine Accounted.endCall (s := { s with lease := _ }) ?_ i
    exact {
      expiry := by
        rw [account.expiry, lastGranted, lastGranted, grants_snoc]
        simp [Event.grant?]
      known := by
        rw [knownExpiryMs_extended, lastDelivered, deliveries_snoc account.settled]
        simp only [Event.brings?, same, granted, Option.filter_some, decide_eq_true_eq]
        split
        · rw [Option.toList_some, List.getLastD_concat]
        · rw [Option.toList_none, List.append_nil]
          exact account.known
      requested := account.requested
      waiting := fun j before => (same j).trans (account.waiting j before)
      answered := fun j resp found => (same j) ▸ account.answered j resp found
      settled := fun j member => by
        rw [same]
        rcases List.mem_append.mp member with before | last
        · exact account.settled j before
        · cases List.mem_singleton.mp last
          rw [granted]
          rfl }
  · contradiction

theorem Accounted.step (account : Accounted extension first past s)
    (taken : s.step pb extension e = some t) : Accounted extension first (past ++ [e]) t := by
  cases e with
  | send i => exact account.send taken
  | process i now => exact account.process taken
  | deliver i => exact account.deliver taken
  | fail i err => exact account.fail taken

private theorem accounted_reserved {j : Pb.Job} {workerId : Option String} {job : Job}
    (decoded : jobFromPb pb j workerId = .ok job) (clock : ℤ) :
    Accounted extension (j.leaseExpiresAt.getD {}).nanoseconds [] (reserved j job clock) := by
  obtain ⟨_, _, _, _, _, _, rfl⟩ := jobFromPb_ok decoded
  exact {
    expiry := rfl
    known := Pb.Timestamp.datetimeToMillis_toUtc _
    requested := fun _ _ requested => nomatch requested
    waiting := fun _ _ => rfl
    answered := fun _ _ answered => nomatch answered
    settled := fun _ member => nomatch member }

variable (pb extension) in
/-- In every run the client is cautious exactly when the grant delivered last, rounded down to a
millisecond, is not later than the one processed last. -/
theorem cautious_iff (j : Pb.Job) (workerId : Option String) (job : Job) (clock : ℤ)
    (decoded : jobFromPb pb j workerId = .ok job) (events : List (Event ι)) (s : Overlap ι)
    (run : Run (Steps (step pb extension)) (reserved j job clock) events s) :
    s.Cautious ↔
      lastDelivered extension (j.leaseExpiresAt.getD {}).nanoseconds events / 1000000 * 1000000 ≤
        lastGranted extension (j.leaseExpiresAt.getD {}).nanoseconds events := by
  have account := run.history (Accounted extension (j.leaseExpiresAt.getD {}).nanoseconds)
    (fun account taken => account.step taken) (accounted_reserved decoded clock)
  rw [Cautious, account.known, account.expiry]
  rfl

/-- A heartbeat asks for thirty seconds and a handler, through its context, for five. -/
def handlerAndHeartbeat : Bool → Timedelta
  | true => 30000000
  | false => 5000000

/-- The heartbeat's extension is processed in the first second and the handler's in the next. -/
def bothProcessed : List (Event Bool) :=
  [.send true, .send false, .process true 1000000000, .process false 2000000000]

/-- Responses delivered in the order of processing leave the client with the handler's expiry. -/
theorem cautious_iff_inOrder :
    ∃ s, Run (Steps (step .checked handlerAndHeartbeat)) (reserved leasedMessage leasedJob 0)
        (bothProcessed ++ [.deliver true, .deliver false]) s ∧ s.Quiescent ∧ s.Cautious := by
  have run := (run?_eq_some_iff (step .checked handlerAndHeartbeat)
    (reserved leasedMessage leasedJob 0) _ (bothProcessed ++ [.deliver true, .deliver false])).mp rfl
  refine ⟨_, run, fun i => ?_, ?_⟩
  · cases i <;> exact not_false
  · exact (cautious_iff .checked handlerAndHeartbeat leasedMessage none leasedJob 0 rfl _ _ run).mpr
      (by decide)

/-- When the handler's response overtakes the heartbeat's, the client ends up believing in the
thirty-first second while the server lets the lease end in the seventh. -/
theorem overtaken_not_cautious :
    ∃ s, Run (Steps (step .checked handlerAndHeartbeat)) (reserved leasedMessage leasedJob 0)
        (bothProcessed ++ [.deliver false, .deliver true]) s ∧ s.Quiescent ∧
      s.lease.knownExpiryMs = 31000 ∧ s.expiry = 7000000000 ∧ ¬ s.Cautious := by
  have run := (run?_eq_some_iff (step .checked handlerAndHeartbeat)
    (reserved leasedMessage leasedJob 0) _ (bothProcessed ++ [.deliver false, .deliver true])).mp rfl
  refine ⟨_, run, fun i => ?_, rfl, rfl, ?_⟩
  · cases i <;> exact not_false
  · unfold Cautious
    decide

end Overlap

end SeppPy
