import Espresso.Codec.Inspect
import Espresso.Codec.Transform
import Espresso.Codec.Operations
import Espresso.Jobs.History

/-! What `ipp_proxy.c` enters into the job history for a request. The clock is read anew for every
entry. -/
namespace Espresso.Proxy
open Codec Jobs

section
variable (info : RequestInfo)

/-- The record of the job that a Send-Document belongs to. -/
def findJob (h : JobHistory) : ℕ :=
  if info.hasJobId then espressoJobHistoryFindUpstream h info.jobId else 0

/-- Returns the identifier of the record; zero stands for no record. -/
def monitorRequestStart (clock : ℕ → ℕ) (h : JobHistory) : ℕ × JobHistory :=
  if info.operationId = Operation.printJob then
    espressoJobHistoryBegin info.jobName.val info.documentFormat.val .sending (clock 0) h
  else if info.operationId = Operation.createJob then
    espressoJobHistoryBegin info.jobName.val info.documentFormat.val .queued (clock 0) h
  else if info.operationId = Operation.sendDocument then
    if findJob info h = 0 then
      let (id,h) :=
        espressoJobHistoryBegin info.jobName.val info.documentFormat.val .sending (clock 0) h
      (id,if info.hasJobId then (espressoJobHistoryAttachUpstream id info.jobId (clock 1) h).2
        else h)
    else
      (findJob info h,(espressoJobHistoryUpdate (findJob info h) .sending info.documentFormat.val 0
        (clock 0) h).2)
  else if info.operationId = Operation.cancelJob ∧ info.hasJobId then
    (espressoJobHistoryFindUpstream h info.jobId,h)
  else (0,h)

def monitorUpdate (id : ℕ) (state : JobState) (format : Bytes) (documentBytes now : ℕ)
    (h : JobHistory) : JobHistory :=
  if id = 0 then h else (espressoJobHistoryUpdate id state format documentBytes now h).2

/-- The operations that submit a job or a part of it. -/
def submits : Bool :=
  info.operationId = Operation.printJob || info.operationId = Operation.createJob ||
    info.operationId = Operation.sendDocument

def monitorSubmissionFailed (id documentBytes now : ℕ) (h : JobHistory) : JobHistory :=
  if submits info then monitorUpdate id .failed info.documentFormat.val documentBytes now h else h

def monitorAttachUpstream (id upstreamJobId now : ℕ) (h : JobHistory) : JobHistory :=
  if id = 0 then h else (espressoJobHistoryAttachUpstream id upstreamJobId now h).2

/-- The entry for a response that has been read, with its status code. -/
def monitorAnswer (id : ℕ) (response : Bytes) (documentBytes now : ℕ) (h : JobHistory) :
    JobHistory :=
  if ¬ ippCodecMessageCode response < 0x0400 then
    monitorSubmissionFailed info id documentBytes now h
  else if info.operationId = Operation.printJob then
    monitorUpdate id .completed info.documentFormat.val documentBytes now h
  else if info.operationId = Operation.createJob then
    match ippCodecGetU32Attribute response (octets "job-id") with
    | some upstreamJobId => monitorAttachUpstream id upstreamJobId now h
    | none => h
  else if info.operationId = Operation.sendDocument then
    monitorUpdate id (if !info.hasLastDocument || info.lastDocument then .completed else .queued)
      info.documentFormat.val documentBytes now h
  else if info.operationId = Operation.cancelJob then monitorUpdate id .cancelled [] 0 now h
  else h

/-- The entry for a response that could not be translated. -/
def monitorUntranslated (id : ℕ) (response : Bytes) (documentBytes now : ℕ) (h : JobHistory) :
    JobHistory :=
  if ippCodecMessageCode response < 0x0400 ∧ info.operationId ≠ Operation.printJob ∧
      info.operationId ≠ Operation.sendDocument ∧ info.operationId ≠ Operation.cancelJob then
    monitorUpdate id .failed info.documentFormat.val documentBytes now h
  else h

end

/-! ### The record of a request -/

/-- Nobody else's record has this identifier, and in the history it is in one of the states `P`. -/
structure Tracked (n id : ℕ) (P : JobState → Prop) (h : JobHistory) : Prop where
  numbered : Numbered n h
  pos : 0 < id
  known : id ≤ n
  state : ∀ r ∈ h.records, r.id = id → P r.state

section
variable {info : RequestInfo} {n id : ℕ} {P Q : JobState → Prop} {h : JobHistory}

theorem Tracked.mono (ht : Tracked n id P h) (hPQ : ∀ state, P state → Q state) :
    Tracked n id Q h :=
  ⟨ht.numbered,ht.pos,ht.known,fun r hr hid => hPQ _ (ht.state r hr hid)⟩

/-- The entries of other requests leave the record alone, or let it go. -/
theorem Tracked.after (ht : Tracked n id P h) {calls : List HistoryCall}
    (hmax : n + begun calls < 4294967296)
    (hother : ∀ call ∈ calls, call.addresses ≠ some id) :
    Tracked (n + begun calls) id P (h.after calls) :=
  ⟨ht.numbered.after hmax,ht.pos,ht.known.trans (Nat.le_add_right _ _),fun r hr hid =>
    ht.state r (ht.numbered.mem_of_mem_after hmax ht.known hother hr hid) hid⟩

theorem Tracked.update (ht : Tracked n id P h) (state : JobState) (format : Bytes)
    (documentBytes now : ℕ) :
    Tracked n id (· = state) (monitorUpdate id state format documentBytes now h) := by
  have hid : id ≠ 0 := Nat.pos_iff_ne_zero.mp ht.pos
  rw [monitorUpdate, if_neg hid]
  refine ⟨ht.numbered.change id fun _ => rfl,ht.pos,ht.known,fun r hr hrid => ?_⟩
  obtain ⟨r',-,-,rfl⟩ := (ht.numbered.mem_change (f := .updated state format documentBytes now)
    (fun _ => rfl) hr).1 hrid
  rfl

theorem Tracked.attach (ht : Tracked n id P h) (upstreamJobId now : ℕ) :
    Tracked n id P (monitorAttachUpstream id upstreamJobId now h) := by
  have hid : id ≠ 0 := Nat.pos_iff_ne_zero.mp ht.pos
  rw [monitorAttachUpstream, if_neg hid]
  refine ⟨ht.numbered.change id fun _ => rfl,ht.pos,ht.known,fun r hr hrid => ?_⟩
  obtain ⟨r',hr',hid',rfl⟩ := (ht.numbered.mem_change (f := .attached upstreamJobId now)
    (fun _ => rfl) hr).1 hrid
  exact ht.state r' hr' hid'

theorem Tracked.submissionFailed (ht : Tracked n id P h) (hsubmits : submits info = true)
    (documentBytes now : ℕ) :
    Tracked n id (· = .failed) (monitorSubmissionFailed info id documentBytes now h) := by
  rw [monitorSubmissionFailed, if_pos hsubmits]
  exact ht.update _ _ _ _

/-- The state that a request begins its record in. -/
def initialState (info : RequestInfo) : JobState :=
  if info.operationId = Operation.createJob then .queued else .sending

/-- A record that is begun is there, and it is the only one with its identifier. -/
theorem begin_tracked (hn : Numbered n h) (hmax : n + 1 < 4294967296)
    (name format : Bytes) (state : JobState) (now : ℕ) {id : ℕ} {h' : JobHistory}
    (hbegin : espressoJobHistoryBegin name format state now h = (id,h')) :
    Tracked (n + 1) id (· = state) h' ∧ ∃ r ∈ h'.records, r.id = id := by
  obtain ⟨hid,hrecords⟩ := begin_eq hn hmax name format state now
  have hnumbered := hn.begin hmax name format state now
  rw [hbegin] at hid hrecords hnumbered
  obtain rfl : id = n + 1 := hid
  refine ⟨⟨hnumbered,Nat.succ_pos n,le_refl _,fun r hr hrid => ?_⟩,
    beganRecord (n + 1) name format state now,?_,rfl⟩
  · rw [hrecords] at hr
    rcases List.mem_append.mp hr with hr | hr
    · have hle := ((hn.prune now).known r ((makeRoom_sublist _).subset hr)).2
      omega
    · rw [List.mem_singleton.mp hr]
      rfl
  · rw [hrecords]
    exact List.mem_append_right _ (List.mem_singleton_self _)

theorem findJob_known (hfound : findJob info h ≠ 0) : ∃ r ∈ h.records, r.id = findJob info h := by
  unfold findJob espressoJobHistoryFindUpstream at hfound ⊢
  split at hfound
  · rename_i hjob
    rw [if_pos hjob]
    split
    · rename_i r hfind
      exact ⟨r,List.mem_reverse.mp (List.mem_of_find?_eq_some hfind),rfl⟩
    · rename_i hnone
      rw [hnone] at hfound
      exact absurd rfl hfound
  · exact absurd rfl hfound

theorem mem_change_of_mem (hn : Numbered n h) {f : JobRecord → JobRecord}
    (hf : ∀ r, (f r).id = r.id) {id : ℕ} (hr : ∃ r ∈ h.records, r.id = id) (id' : ℕ) :
    ∃ r ∈ (h.change id' f).2.records, r.id = id := by
  obtain ⟨r,hr,hid⟩ := hr
  rw [hn.change_records]
  refine ⟨_,List.mem_map_of_mem hr,?_⟩
  split
  · exact (hf r).trans hid
  · exact hid

/-- A request that submits something has its record, in the state to begin with. -/
theorem monitorRequestStart_tracked (clock : ℕ → ℕ) (hn : Numbered n h)
    (hmax : n + 1 < 4294967296) (hsubmits : submits info = true) {id : ℕ} {h' : JobHistory}
    (hstart : monitorRequestStart info clock h = (id,h')) :
    ∃ n' ≤ n + 1, Tracked n' id (· = initialState info) h' ∧ ∃ r ∈ h'.records, r.id = id := by
  unfold monitorRequestStart at hstart
  split at hstart
  · rename_i hprint
    have hstate : initialState info = .sending := if_neg (by rw [hprint]; decide)
    rw [hstate]
    exact ⟨n + 1,le_refl _,begin_tracked hn hmax _ _ _ _ hstart⟩
  rename_i hprint
  split at hstart
  · rename_i hcreate
    have hstate : initialState info = .queued := if_pos hcreate
    rw [hstate]
    exact ⟨n + 1,le_refl _,begin_tracked hn hmax _ _ _ _ hstart⟩
  rename_i hcreate
  have hstate : initialState info = .sending := if_neg hcreate
  have hsend : info.operationId = Operation.sendDocument := by
    simpa [submits, hprint, hcreate] using hsubmits
  rw [if_pos hsend] at hstart
  rw [hstate]
  split at hstart
  · obtain ⟨ht,hr⟩ := begin_tracked hn hmax info.jobName.val info.documentFormat.val .sending
      (clock 0) rfl
    cases hstart
    refine ⟨n + 1,le_refl _,?_⟩
    split
    · have hattach := ht.attach info.jobId (clock 1)
      rw [monitorAttachUpstream, if_neg ht.pos.ne'] at hattach
      exact ⟨hattach,mem_change_of_mem (f := .attached info.jobId (clock 1)) ht.numbered
        (fun _ => rfl) hr _⟩
    · exact ⟨ht,hr⟩
  · rename_i hfound
    cases hstart
    obtain ⟨r,hr,hid⟩ := findJob_known hfound
    have hle := (hn.known r hr).2
    have htracked : Tracked n _ (fun _ => True) h :=
      ⟨hn,Nat.pos_of_ne_zero hfound,hid ▸ hle,fun _ _ _ => trivial⟩
    have hupdate := htracked.update .sending info.documentFormat.val 0 (clock 0)
    rw [monitorUpdate, if_neg hfound] at hupdate
    exact ⟨n,Nat.le_succ n,hupdate,mem_change_of_mem
      (f := .updated .sending info.documentFormat.val 0 (clock 0)) hn (fun _ => rfl) ⟨r,hr,hid⟩ _⟩

end

end Espresso.Proxy
