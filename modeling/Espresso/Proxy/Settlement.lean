import Espresso.Proxy.Formats
import Espresso.Proxy.Handler

/-! What the job history says of a request when `proxy_handler` is through with it. -/
namespace Espresso.Proxy
open Callback Codec Http Jobs

/-- The printer has answered, and taken the request on. -/
def Accepted (response : Option Bytes) : Prop :=
  ∃ body, response = some body ∧ ippCodecMessageCode body < 0x0400

/-- The states that a request may leave its record in. -/
structure Settled (info : RequestInfo) (response : Option Bytes) (state : JobState) : Prop where
  printJob : info.operationId = Operation.printJob → state = .completed ∨ state = .failed
  sendDocument : info.operationId = Operation.sendDocument →
    state = .completed ∨ state = .failed ∨ state = .queued ∧ Accepted response ∧
      info.hasLastDocument = true ∧ info.lastDocument = false
  createJob : info.operationId = Operation.createJob →
    state = .queued ∧ Accepted response ∨ state = .failed

section
variable {info : RequestInfo} {response : Option Bytes} {state : JobState}

theorem Settled.failed : Settled info response .failed :=
  ⟨fun _ => .inr rfl,fun _ => .inr (.inl rfl),fun _ => .inr rfl⟩

theorem Settled.of_not_submits (h : submits info = false) : Settled info response state := by
  simp only [submits, Bool.or_eq_false_iff, decide_eq_false_iff_not] at h
  obtain ⟨⟨hprint,hcreate⟩,hsend⟩ := h
  exact ⟨fun h => absurd h hprint,fun h => absurd h hsend,fun h => absurd h hcreate⟩

/-- A record that is only begun is not settled without an answer. -/
theorem Settled.not_initial (h : submits info = true) :
    ¬ Settled info none (initialState info) := by
  have hnone : ¬ Accepted none := by
    rintro ⟨body,hbody,-⟩
    cases hbody
  intro hsettled
  unfold initialState at hsettled
  split at hsettled
  · rename_i hcreate
    rcases hsettled.createJob hcreate with ⟨-,haccepted⟩ | hfailed
    · exact hnone haccepted
    · cases hfailed
  · rename_i hcreate
    simp only [submits, hcreate, decide_false, Bool.or_false, Bool.or_eq_true,
      decide_eq_true_eq] at h
    rcases h with hprint | hsend
    · rcases hsettled.printJob hprint with h | h <;> cases h
    · rcases hsettled.sendDocument hsend with h | h | ⟨h,-⟩ <;> cases h

end

/-! ### The entries -/

section
variable {info : RequestInfo} {n id : ℕ} {h : JobHistory} {body : Bytes}

theorem monitorAnswer_tracked (body : Bytes) (hsubmits : submits info = true)
    (ht : Tracked n id (· = initialState info) h) (documentBytes now : ℕ) :
    Tracked n id (Settled info (some body)) (monitorAnswer info id body documentBytes now h) := by
  unfold monitorAnswer
  split
  · refine (ht.submissionFailed hsubmits documentBytes now).mono ?_
    rintro state rfl
    exact .failed
  rename_i hstatus
  have haccepted : Accepted (some body) := ⟨body,rfl,not_not.mp hstatus⟩
  split
  · rename_i hprint
    refine (ht.update .completed info.documentFormat.val documentBytes now).mono ?_
    rintro state rfl
    exact ⟨fun _ => .inl rfl,fun _ => .inl rfl,fun h => absurd (hprint.symm.trans h) (by decide)⟩
  rename_i hprint
  split
  · rename_i hcreate
    have hqueued : initialState info = .queued := if_pos hcreate
    have hkept : ∀ state, state = initialState info → Settled info (some body) state := by
      rintro state rfl
      rw [hqueued]
      exact ⟨fun h => absurd (hcreate.symm.trans h) (by decide),
        fun h => absurd (hcreate.symm.trans h) (by decide),fun _ => .inl ⟨rfl,haccepted⟩⟩
    split
    · exact (ht.attach _ now).mono hkept
    · exact ht.mono hkept
  rename_i hcreate
  have hsend : info.operationId = Operation.sendDocument := by
    simpa [submits, hprint, hcreate] using hsubmits
  rw [if_pos hsend]
  refine (ht.update _ info.documentFormat.val documentBytes now).mono ?_
  rintro state rfl
  refine ⟨fun h => absurd h hprint,fun _ => ?_,fun h => absurd h hcreate⟩
  split
  · exact .inl rfl
  · rename_i hlast
    simp only [Bool.not_eq_true, Bool.or_eq_false_iff, Bool.not_eq_false'] at hlast
    exact .inr (.inr ⟨rfl,haccepted,hlast.1,hlast.2⟩)

theorem monitorUntranslated_tracked {response : Option Bytes}
    (ht : Tracked n id (Settled info response) h) (documentBytes now : ℕ) :
    Tracked n id (Settled info response) (monitorUntranslated info id body documentBytes now h) := by
  unfold monitorUntranslated
  split
  · refine (ht.update .failed info.documentFormat.val documentBytes now).mono ?_
    rintro state rfl
    exact .failed
  · exact ht

end

/-! ### The refusal that is not entered -/

/-- The request is to be relayed with a length in front, and that length does not fit an `int`. -/
def LengthTooLarge (heap : Heaps) (q : Relayed) : Prop :=
  submits q.info = true ∧ q.plan.action = .relay ∧ q.outgoingChunked = false ∧
    ∃ endpoint rewritten attributesLength, printerTransportBuild q.target = some endpoint ∧
      upstreamEnvelope heap q endpoint = .ok (rewritten,attributesLength) ∧
      (q.outgoingLength rewritten < 0 ∨ (int32Max : ℤ) < q.outgoingLength rewritten)

section
variable {heap : Heaps} {q : Relayed}

theorem submits_not_query {info : RequestInfo} (h : submits info = true) :
    info.operationId ≠ Operation.getPrinterAttributes := by
  intro hquery
  simp only [submits, hquery] at h
  exact absurd h (by decide)

/-- Every other refusal of a request with a record is entered. -/
theorem upstreamEnvelope_entered {endpoint : TransportEndpoint} {refusal : Refusal}
    (hsubmits : submits q.info = true)
    (h : upstreamEnvelope heap q endpoint = .error refusal) : refusal.entered = true := by
  have hquery : q.queriesPrinter = false := decide_eq_false (submits_not_query hsubmits)
  unfold upstreamEnvelope at h
  simp only [hquery, Bool.not_false, if_true] at h
  split at h
  · cases h
  · split at h <;> cases h <;> rfl

theorem prepare_entered {refusal : Refusal} (hsubmits : submits q.info = true)
    (hlength : ¬ LengthTooLarge heap q) (h : prepare heap q = .error refusal) :
    refusal.entered = true := by
  unfold prepare at h
  simp only at h
  split at h
  · cases h
    rfl
  rename_i hrelay
  split at h
  · cases h
    rfl
  rename_i endpoint hendpoint
  split at h
  · rename_i refusal' henvelope
    cases h
    exact upstreamEnvelope_entered hsubmits henvelope
  rename_i rewritten attributesLength henvelope
  split at h
  · rename_i hrefused
    have haction : q.plan.action = .relay := by
      cases haction : q.plan.action with
      | relay => rfl
      | localStatus => exact absurd haction hrelay
    simp only [Relayed.lengthRefused, Bool.and_eq_true, Bool.not_eq_true', Bool.or_eq_true,
      decide_eq_true_eq] at hrefused
    exact absurd ⟨hsubmits,haction,hrefused.1,endpoint,rewritten,attributesLength,hendpoint,
      henvelope,hrefused.2⟩ hlength
  · cases h

theorem prepare_of_lengthTooLarge (h : LengthTooLarge heap q) :
    prepare heap q = .error ⟨.httpError "400 Bad Request" "Invalid IPP length",false⟩ := by
  obtain ⟨-,haction,hchunked,endpoint,rewritten,attributesLength,hendpoint,henvelope,hrange⟩ := h
  have hrefused : q.lengthRefused rewritten = true := by
    simpa [Relayed.lengthRefused, hchunked] using hrange
  unfold prepare
  simp only [haction, reduceCtorEq, if_false, hendpoint, henvelope, hrefused, if_true]

end

/-! ### The end of a request -/

/-- The entries for a request, after the first, with the printer's answer. -/
inductive Entries (heap : Heaps) (beside : Beside) (q : Relayed) (id : ℕ) (h : JobHistory) :
    Option Bytes → JobHistory → Prop
  | unentered (refusal : Refusal) (hrefusal : prepare heap q = .error refusal)
    (hentered : refusal.entered = false) : Entries heap beside q id h none h
  | failed : Entries heap beside q id h none
    (monitorSubmissionFailed q.info id 0 (beside.clock 2) h)
  | answered (response : Bytes) (documentBytes : ℕ) : Entries heap beside q id h (some response)
    ((monitorAnswer q.info id response documentBytes (beside.clock 2) h).after (beside.others 1))
  | untranslated (response : Bytes) (documentBytes : ℕ) :
    Entries heap beside q id h (some response)
      (monitorUntranslated q.info id response documentBytes (beside.clock 3)
        ((monitorAnswer q.info id response documentBytes (beside.clock 2) h).after
          (beside.others 1)))

/-- How many jobs other requests begin meanwhile. -/
def Beside.begun (beside : Beside) : ℕ :=
  Jobs.begun (beside.others 0) + Jobs.begun (beside.others 1) + Jobs.begun (beside.others 2)

section
variable {σ υ : Type} {env : Environment σ υ} {beside : Beside} {q : Relayed} {c : Request × σ}
  {u : υ} {n : ℕ} {h : JobHistory} {served : Served σ υ} {info : RequestInfo} {id : ℕ}

/-- Each way out of the handler makes the entries of one kind. -/
theorem relay_entries (hserved : relay env beside q c u h = some served) :
    served.job = some (q.info,(monitorRequestStart q.info beside.clock h).1) ∧
      Entries env.heap beside q (monitorRequestStart q.info beside.clock h).1
        ((monitorRequestStart q.info beside.clock h).2.after (beside.others 0))
        served.response served.history := by
  unfold relay at hserved
  simp only at hserved
  split at hserved
  · rename_i refusal hrefusal
    cases hserved
    refine ⟨rfl,?_⟩
    cases hentered : refusal.entered with
    | true => exact .failed
    | false => exact .unentered refusal hrefusal hentered
  · split at hserved
    · cases hserved
    · cases hserved
      exact ⟨rfl,.failed⟩
    · split at hserved
      · cases hserved
        exact ⟨rfl,.failed⟩
      · split at hserved
        · cases hserved
          exact ⟨rfl,.untranslated _ _⟩
        · cases hserved
          exact ⟨rfl,.answered _ _⟩

/-- Whatever entries are made, the record is settled, unless the length is refused. -/
theorem Entries.settled {response : Option Bytes} {h' : JobHistory}
    (hentries : Entries env.heap beside q id h response h') (hsubmits : submits q.info = true)
    (hlength : ¬ LengthTooLarge env.heap q) (ht : Tracked n id (· = initialState q.info) h)
    (hmax : n + Jobs.begun (beside.others 1) < 4294967296)
    (hothers : ∀ call ∈ beside.others 1, call.addresses ≠ some id) :
    ∃ n' ≤ n + Jobs.begun (beside.others 1), Tracked n' id (Settled q.info response) h' := by
  have hanswer := fun body documentBytes =>
    (monitorAnswer_tracked body hsubmits ht documentBytes (beside.clock 2)).after hmax
      hothers
  cases hentries with
  | unentered refusal hrefusal hentered =>
    rw [prepare_entered hsubmits hlength hrefusal] at hentered
    cases hentered
  | failed =>
    refine ⟨n,Nat.le_add_right _ _,(ht.submissionFailed hsubmits 0 (beside.clock 2)).mono ?_⟩
    rintro state rfl
    exact .failed
  | answered body documentBytes => exact ⟨_,le_refl _,hanswer body documentBytes⟩
  | untranslated body documentBytes =>
    exact ⟨_,le_refl _,monitorUntranslated_tracked (hanswer body documentBytes) documentBytes _⟩

theorem relay_settled (hn : Numbered n h) (hmax : n + 1 + beside.begun < 4294967296)
    (hlength : ¬ LengthTooLarge env.heap q) (hserved : relay env beside q c u h = some served)
    (hjob : served.job = some (info,id))
    (hothers : ∀ i, ∀ call ∈ beside.others i, call.addresses ≠ some id) :
    ∀ r ∈ (served.history.after (beside.others 2)).records, r.id = id →
      Settled info served.response r.state := by
  obtain ⟨hjob',hentries⟩ := relay_entries hserved
  rw [hjob', Option.some_inj, Prod.mk.injEq] at hjob
  obtain ⟨rfl,rfl⟩ := hjob
  cases hsubmits : submits q.info with
  | false => exact fun r _ _ => .of_not_submits hsubmits
  | true =>
    unfold Beside.begun at hmax
    obtain ⟨n1,hn1,ht1,-⟩ := monitorRequestStart_tracked beside.clock hn (by omega) hsubmits rfl
    obtain ⟨n2,hn2,ht2⟩ := hentries.settled hsubmits hlength (ht1.after (by omega) (hothers 0))
      (by omega) (hothers 1)
    exact (ht2.after (by omega) (hothers 2)).state

/-- The refused length leaves the record in the state that it was begun in. -/
theorem relay_of_lengthTooLarge (env : Environment σ υ) (beside : Beside) (c : Request × σ)
    (u : υ) (hn : Numbered n h) (hmax : n + 1 < 4294967296)
    (hlength : LengthTooLarge env.heap q) (hquiet : ∀ i, beside.others i = []) :
    ∃ served id, relay env beside q c u h = some served ∧ served.job = some (q.info,id) ∧
      ∃ r ∈ served.history.records, r.id = id ∧ ¬ Settled q.info served.response r.state := by
  obtain ⟨n1,-,ht,r,hr,hid⟩ := monitorRequestStart_tracked beside.clock hn hmax
    hlength.1 rfl
  have hstate : r.state = initialState q.info := ht.state r hr hid
  refine ⟨_,_,by simp only [relay, prepare_of_lengthTooLarge hlength]; rfl,rfl,r,?_,hid,?_⟩
  · simp only [hquiet, Bool.false_eq_true, if_false]
    exact hr
  · rw [hstate]
    exact Settled.not_initial hlength.1

end

section
variable {σ υ : Type} (env : Environment σ υ) (target : Option PrinterTarget) (c : Request × σ)

/-- The request gets as far as the length check, and its length is refused there. -/
def LengthRefused : Prop :=
  ∃ t info s, admission target c.1 env.continued = .ok t ∧
    readAhead (receiveRequest env.read) env.heap.intake c.1.chunked ⟨c,[],0⟩ = (.ok info,s) ∧
    LengthTooLarge env.heap ⟨info,t,s.buffer,c.1.chunked,c.1.contentLength⟩

/-- However the clock runs and whatever other requests enter meanwhile, as long as they do not
address this request's record and the identifiers last, the record is settled once the handler has
returned. `calls` are the entries since the history was set up. -/
def LeavesSettled (u : υ) (calls : List HistoryCall) : Prop :=
  ∀ beside served info id, begun calls + 1 + beside.begun < 4294967296 →
    proxyHandler env beside target c u (JobHistory.init.after calls) = some served →
    served.job = some (info,id) →
    (∀ i, ∀ call ∈ beside.others i, call.addresses ≠ some id) →
    ∀ r ∈ (served.history.after (beside.others 2)).records, r.id = id →
      Settled info served.response r.state

/-- The handler without the requests that are turned down at once. -/
theorem proxyHandler_job {env : Environment σ υ} {beside : Beside} {u : υ} {h : JobHistory}
    {served : Served σ υ} {job : RequestInfo × ℕ}
    (hserved : proxyHandler env beside target c u h = some served)
    (hjob : served.job = some job) :
    ∃ t info s, admission target c.1 env.continued = .ok t ∧
      readAhead (receiveRequest env.read) env.heap.intake c.1.chunked ⟨c,[],0⟩ = (.ok info,s) ∧
      relay env beside ⟨info,t,s.buffer,c.1.chunked,c.1.contentLength⟩ s.connection u h =
        some served := by
  unfold proxyHandler at hserved
  simp only at hserved
  split at hserved
  · cases hserved
    cases hjob
  rename_i t hadmission
  split at hserved
  · cases hserved
  · cases hserved
    cases hjob
  · rename_i info s hahead
    exact ⟨t,info,s,hadmission,hahead,hserved⟩

/-- A request is left settled exactly if its length is not refused. -/
theorem proxyHandler_settles_iff (u : υ) (calls : List HistoryCall)
    (hbegun : begun calls + 1 < 4294967296) :
    LeavesSettled env target c u calls ↔ ¬ LengthRefused env target c := by
  have hn : Numbered (begun calls) (JobHistory.init.after calls) := by
    have h := Numbered.init.after (show 0 + begun calls < 4294967296 by omega)
    rwa [Nat.zero_add] at h
  constructor
  · rintro hsettled ⟨t,info,s,hadmission,hahead,hlength⟩
    let quiet : Beside := ⟨fun _ => 0,fun _ => []⟩
    obtain ⟨served,id,hserved,hjob,r,hr,hid,hnot⟩ := relay_of_lengthTooLarge env quiet
      s.connection u hn hbegun hlength fun _ => rfl
    refine hnot (hsettled quiet served info id hbegun ?_ hjob (fun _ _ => nofun) r hr hid)
    simp only [proxyHandler, hadmission, hahead, hserved]
  · intro hlength beside served info id hmax hserved hjob hothers
    obtain ⟨t,info',s,hadmission,hahead,hrelay⟩ := proxyHandler_job target c hserved hjob
    exact relay_settled hn hmax (fun h => hlength ⟨t,info',s,hadmission,hahead,h⟩) hrelay hjob hothers

end

/-! ### A document of three gigabytes -/

/-- A printer that takes PDF documents, at an address. -/
def pdfPrinter : PrinterTarget :=
  { pdfTarget with
    address := .copy 48 (octets "192.168.1.9")
    port := 631
    resourcePath := .copy 128 (octets "/ipp/print") }

def unlimitedHeaps : Heaps :=
  ⟨.unlimited,.unlimited,.unlimited,.unlimited,.unlimited,.unlimited,.unlimited,.unlimited⟩

/-- A printer that takes everything it is sent, and answers with these octets. -/
def willingPrinter : HttpClient (Bytes × Bytes) where
  init _ u := (true,u)
  openRequest _ u := (none,u)
  write u data := (data.length,(u.1 ++ data,u.2))
  fetchHeaders u := (u.2.length,u)
  isChunkedResponse _ := false
  statusCode _ := 200
  read n u := (.data (u.2.take n) (List.length_take_le n u.2),(u.1,u.2.drop n))

/-- A machine without any failure. -/
def smoothEnvironment : Environment Bytes (Bytes × Bytes) where
  read := wholeRead
  client := willingPrinter
  heap := unlimitedHeaps
  hundredths := fun _ _ => none
  mac := fun _ => 0
  secure := false
  continued := true
  turns := 4

/-- A request with this `Content-Length`, of which nothing has been read. -/
def ippRequest (contentLength : ℕ) : Request :=
  { Request.zero with
    contentType := .copy 128 (octets "application/ipp")
    contentLength := contentLength
    fixedRemaining := contentLength }

def quietBeside : Beside := ⟨fun _ => 0,fun _ => []⟩

theorem proxyHandler_leaves_sending :
    ∃ served id, proxyHandler smoothEnvironment quietBeside (some pdfPrinter)
        (ippRequest 3000000000,pdfRequest.encode) ([],[]) .init = some served ∧
      served.job = some (pdfRequest.inspect,id) ∧
      pdfRequest.inspect.operationId = Operation.printJob ∧
      ∃ r ∈ served.history.records, r.id = id ∧ r.state = .sending := by
  have hserved : ((proxyHandler smoothEnvironment quietBeside (some pdfPrinter)
      (ippRequest 3000000000,pdfRequest.encode) ([],[]) .init).any fun served =>
        served.job = some (pdfRequest.inspect,1) &&
          served.history.records.any fun r => r.id = 1 && r.state = .sending) = true := by
    decide +kernel
  obtain ⟨served,hrun,hcheck⟩ := (Option.any_eq_true _ _).mp hserved
  simp only [Bool.and_eq_true, decide_eq_true_eq, List.any_eq_true] at hcheck
  obtain ⟨hjob,r,hr,hid,hstate⟩ := hcheck
  exact ⟨served,1,hrun,hjob,by decide +kernel,r,hr,hid,hstate⟩

theorem proxyHandler_settles_small :
    begun [] + 1 < 4294967296 ∧
      (LeavesSettled smoothEnvironment (some pdfPrinter)
        (ippRequest pdfRequest.encode.length,pdfRequest.encode) ([],[]) [] ↔
      ¬ LengthRefused smoothEnvironment (some pdfPrinter)
        (ippRequest pdfRequest.encode.length,pdfRequest.encode)) :=
  ⟨by decide,proxyHandler_settles_iff _ _ _ _ [] (by decide)⟩

end Espresso.Proxy
