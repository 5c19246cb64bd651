import Espresso.Lib.Octets

/-! `job_history.c`: what the dashboard shows of the last jobs, oldest first. -/
namespace Espresso.Jobs

abbrev jobHistoryCapacity : ℕ := 16
abbrev jobHistoryTtlMs : ℕ := 60 * 60 * 1000

inductive JobState
  | queued
  | sending
  | completed
  | failed
  | cancelled
  deriving DecidableEq, Repr

structure JobRecord where
  id : ℕ
  upstreamJobId : Option ℕ
  state : JobState
  startedMs : ℕ
  updatedMs : ℕ
  documentBytes : ℕ
  name : Text 64
  format : Text 48
  deriving DecidableEq

/-- The filled part of the array, and the identifier that was given out last. -/
structure JobHistory where
  records : List JobRecord
  nextId : ℕ
  fits : records.length ≤ jobHistoryCapacity

def JobHistory.init : JobHistory := ⟨[],0,Nat.zero_le _⟩

/-- A record is shown for an hour after its last change. -/
def JobRecord.expired (now : ℕ) (r : JobRecord) : Bool :=
  r.updatedMs ≤ now && jobHistoryTtlMs ≤ now - r.updatedMs

def JobHistory.prune (h : JobHistory) (now : ℕ) : JobHistory :=
  ⟨h.records.filter fun r => !r.expired now,h.nextId,(List.length_filter_le _ _).trans h.fits⟩

/-- The first record with this identifier, as an index. -/
def JobHistory.findRecord (h : JobHistory) (id : ℕ) : Option ℕ :=
  h.records.findIdx? fun r => r.id = id

/-- A full array loses its oldest record. -/
def makeRoom (records : List JobRecord) : List JobRecord :=
  if records.length = jobHistoryCapacity then records.tail else records

theorem makeRoom_length {records : List JobRecord} (h : records.length ≤ jobHistoryCapacity) :
    (makeRoom records).length < jobHistoryCapacity := by
  unfold makeRoom
  split
  · rename_i heq
    rw [List.length_tail, heq]
    decide
  · omega

/-- The 32-bit counter skips zero. -/
def incrementId (id : ℕ) : ℕ :=
  let next := (id + 1) % 4294967296
  if next = 0 then 1 else next

/-- The record that is begun. -/
def beganRecord (id : ℕ) (name format : Bytes) (state : JobState) (now : ℕ) : JobRecord where
  id := id
  upstreamJobId := none
  state := state
  startedMs := now
  updatedMs := now
  documentBytes := 0
  name := .copy 64 (if cstr name ≠ [] then name else octets "Print job")
  format := .copy 48 format

def espressoJobHistoryBegin (name format : Bytes) (state : JobState) (now : ℕ) (h : JobHistory) :
    ℕ × JobHistory :=
  let id := incrementId h.nextId
  (id,⟨makeRoom (h.prune now).records ++ [beganRecord id name format state now],id,by
    have hroom := makeRoom_length (h.prune now).fits
    rw [List.length_append]
    exact hroom⟩)

/-- The identifier of the newest record for an upstream job; zero if there is none. -/
def espressoJobHistoryFindUpstream (h : JobHistory) (upstreamJobId : ℕ) : ℕ :=
  match h.records.reverse.find? fun r => r.upstreamJobId = some upstreamJobId with
  | some r => r.id
  | none => 0

/-- A change to the record with this identifier, if there is one. -/
def JobHistory.change (h : JobHistory) (id : ℕ) (f : JobRecord → JobRecord) : Bool × JobHistory :=
  match h.findRecord id with
  | none => (false,h)
  | some i => (true,⟨h.records.modify i f,h.nextId,by rw [List.length_modify]; exact h.fits⟩)

/-- A format or a length that is not known leaves what the record has. -/
def JobRecord.updated (state : JobState) (format : Bytes) (documentBytes now : ℕ) (r : JobRecord) :
    JobRecord :=
  { r with
    state := state
    updatedMs := now
    format := if cstr format ≠ [] then .copy 48 format else r.format
    documentBytes := if documentBytes ≠ 0 then documentBytes else r.documentBytes }

def espressoJobHistoryUpdate (id : ℕ) (state : JobState) (format : Bytes) (documentBytes now : ℕ)
    (h : JobHistory) : Bool × JobHistory :=
  h.change id (.updated state format documentBytes now)

def JobRecord.attached (upstreamJobId now : ℕ) (r : JobRecord) : JobRecord :=
  { r with upstreamJobId := some upstreamJobId, updatedMs := now }

def espressoJobHistoryAttachUpstream (id upstreamJobId now : ℕ) (h : JobHistory) :
    Bool × JobHistory :=
  h.change id (.attached upstreamJobId now)

/-- The newest records first. -/
def espressoJobHistorySnapshot (capacity now : ℕ) (h : JobHistory) : List JobRecord × JobHistory :=
  let h := h.prune now
  (h.records.reverse.take capacity,h)

/-! ### Runs -/

/-- One call. -/
inductive HistoryCall
  | begin (name format : Bytes) (state : JobState) (now : ℕ)
  | update (id : ℕ) (state : JobState) (format : Bytes) (documentBytes now : ℕ)
  | attachUpstream (id upstreamJobId now : ℕ)
  | snapshot (capacity now : ℕ)
  deriving DecidableEq

namespace HistoryCall

def run : HistoryCall → JobHistory → JobHistory
  | begin name format state now, h => (espressoJobHistoryBegin name format state now h).2
  | update id state format documentBytes now, h =>
    (espressoJobHistoryUpdate id state format documentBytes now h).2
  | attachUpstream id upstreamJobId now, h =>
    (espressoJobHistoryAttachUpstream id upstreamJobId now h).2
  | snapshot capacity now, h => (espressoJobHistorySnapshot capacity now h).2

def begins : HistoryCall → Bool
  | begin .. => true
  | _ => false

/-- The identifier of the record that is to be changed. -/
def addresses : HistoryCall → Option ℕ
  | update id .. => some id
  | attachUpstream id .. => some id
  | _ => none

end HistoryCall

def JobHistory.after (h : JobHistory) (calls : List HistoryCall) : JobHistory :=
  calls.foldl (fun h call => call.run h) h

/-- The records of `n` jobs or of some of them, in the order in which they were begun. -/
structure Numbered (n : ℕ) (h : JobHistory) : Prop where
  nextId : h.nextId = n
  increasing : h.records.Pairwise fun r r' => r.id < r'.id
  known : ∀ r ∈ h.records, 0 < r.id ∧ r.id ≤ n

theorem Numbered.init : Numbered 0 .init := ⟨rfl,.nil,by simp [JobHistory.init]⟩

section
variable {h : JobHistory} {n id : ℕ}

theorem Numbered.of_sublist {h' : JobHistory} (hn : Numbered n h)
    (hsub : h'.records.Sublist h.records) (hid : h'.nextId = h.nextId) : Numbered n h' :=
  ⟨hid.trans hn.nextId,hn.increasing.sublist hsub,fun r hr => hn.known r (hsub.subset hr)⟩

theorem Numbered.prune (hn : Numbered n h) (now : ℕ) : Numbered n (h.prune now) :=
  hn.of_sublist List.filter_sublist rfl

theorem makeRoom_sublist (records : List JobRecord) : (makeRoom records).Sublist records := by
  unfold makeRoom
  split
  · exact List.tail_sublist _
  · exact List.Sublist.refl _

theorem incrementId_of_lt (h : n + 1 < 4294967296) : incrementId n = n + 1 := by
  simp only [incrementId, Nat.mod_eq_of_lt h]
  rw [if_neg (Nat.succ_ne_zero n)]

/-- As long as the counter does not run over, a record gets the next number. -/
theorem begin_eq (hn : Numbered n h) (hmax : n + 1 < 4294967296) (name format : Bytes)
    (state : JobState) (now : ℕ) :
    (espressoJobHistoryBegin name format state now h).1 = n + 1 ∧
      (espressoJobHistoryBegin name format state now h).2.records =
        makeRoom (h.prune now).records ++ [beganRecord (n + 1) name format state now] := by
  have hid : incrementId h.nextId = n + 1 := by rw [hn.nextId, incrementId_of_lt hmax]
  constructor
  · exact hid
  · simp only [espressoJobHistoryBegin, hid]

theorem Numbered.begin (hn : Numbered n h) (hmax : n + 1 < 4294967296) (name format : Bytes)
    (state : JobState) (now : ℕ) :
    Numbered (n + 1) (espressoJobHistoryBegin name format state now h).2 := by
  obtain ⟨hid,hrecords⟩ := begin_eq hn hmax name format state now
  have hroom := (hn.prune now).known
  have hsub := makeRoom_sublist (h.prune now).records
  refine ⟨hid,?_,?_⟩
  · rw [hrecords]
    refine List.pairwise_append.mpr ⟨(hn.prune now).increasing.sublist hsub,
      List.pairwise_singleton _ _,fun r hr r' hr' => ?_⟩
    rw [List.mem_singleton.mp hr']
    exact Nat.lt_succ_of_le (hroom r (hsub.subset hr)).2
  · intro r hr
    rw [hrecords] at hr
    rcases List.mem_append.mp hr with hr | hr
    · have := hroom r (hsub.subset hr)
      omega
    · rw [List.mem_singleton.mp hr]
      exact ⟨Nat.succ_pos n,le_refl _⟩

/-! ### Changing one record -/

/-- Where no two records have the same identifier, changing the first with one is changing all. -/
theorem modify_findIdx {records : List JobRecord}
    (h : records.Pairwise fun r r' => r.id < r'.id) (id : ℕ) (f : JobRecord → JobRecord) :
    (match records.findIdx? fun r => r.id = id with
      | none => records
      | some i => records.modify i f) = records.map fun r => if r.id = id then f r else r := by
  induction records with
  | nil => rfl
  | cons r records ih =>
    obtain ⟨hr,hrest⟩ := List.pairwise_cons.mp h
    rw [List.findIdx?_cons, List.map_cons]
    by_cases hid : r.id = id
    · have hsame : records.map (fun r => if r.id = id then f r else r) = records := by
        nth_rewrite 2 [← List.map_id records]
        apply List.map_congr_left
        intro r' hr'
        have hlt := hr r' hr'
        rw [if_neg (by omega), id_eq]
      simp only [hid, decide_true, if_true, List.modify_zero_cons, hsame]
    · have hrec := ih hrest
      simp only [hid, decide_false, Bool.false_eq_true, if_false]
      cases hfind : records.findIdx? fun r => r.id = id with
      | none =>
        rw [hfind] at hrec
        rw [← hrec]
        rfl
      | some i =>
        rw [hfind] at hrec
        rw [← hrec]
        rfl

theorem Numbered.change_records (hn : Numbered n h) (id : ℕ) (f : JobRecord → JobRecord) :
    (h.change id f).2.records = h.records.map fun r => if r.id = id then f r else r := by
  rw [← modify_findIdx hn.increasing id f, JobHistory.change, JobHistory.findRecord]
  cases h.records.findIdx? fun r => r.id = id <;> rfl

theorem change_nextId (h : JobHistory) (id : ℕ) (f : JobRecord → JobRecord) :
    (h.change id f).2.nextId = h.nextId := by
  unfold JobHistory.change
  split <;> rfl

theorem Numbered.change (hn : Numbered n h) (id : ℕ) {f : JobRecord → JobRecord}
    (hf : ∀ r, (f r).id = r.id) : Numbered n (h.change id f).2 := by
  have hid : ∀ r : JobRecord, (if r.id = id then f r else r).id = r.id := by
    intro r
    split
    · exact hf r
    · rfl
  refine ⟨(change_nextId h id f).trans hn.nextId,?_,?_⟩
  · rw [hn.change_records, List.pairwise_map]
    refine hn.increasing.imp fun {r r'} hlt => ?_
    rw [hid, hid]
    exact hlt
  · intro r hr
    rw [hn.change_records] at hr
    obtain ⟨r',hr',rfl⟩ := List.mem_map.mp hr
    rw [hid]
    exact hn.known r' hr'

/-- After a change, every record with the identifier is the result of it. -/
theorem Numbered.mem_change (hn : Numbered n h) {f : JobRecord → JobRecord}
    (hf : ∀ r, (f r).id = r.id) {r : JobRecord} (hr : r ∈ (h.change id f).2.records) :
    (r.id = id → ∃ r' ∈ h.records, r'.id = id ∧ r = f r') ∧ (r.id ≠ id → r ∈ h.records) := by
  rw [hn.change_records] at hr
  obtain ⟨r',hr',rfl⟩ := List.mem_map.mp hr
  split
  · rename_i hid
    exact ⟨fun _ => ⟨r',hr',hid,rfl⟩,fun hne => absurd ((hf r').trans hid) hne⟩
  · rename_i hid
    exact ⟨fun heq => absurd heq hid,fun _ => hr'⟩

/-! ### The record of one job, while others go on -/

theorem Numbered.run (hn : Numbered n h) {call : HistoryCall}
    (hmax : n + (if call.begins then 1 else 0) < 4294967296) :
    Numbered (n + if call.begins then 1 else 0) (call.run h) := by
  cases call with
  | begin name format state now => exact hn.begin hmax name format state now
  | update id state format documentBytes now => exact hn.change id fun _ => rfl
  | attachUpstream id upstreamJobId now => exact hn.change id fun _ => rfl
  | snapshot capacity now => exact hn.prune now

/-- What a call for another job leaves of a record is the record as it was. -/
theorem Numbered.mem_of_mem_run (hn : Numbered n h) (hid : id ≤ n) {call : HistoryCall}
    (hmax : n + (if call.begins then 1 else 0) < 4294967296)
    (hother : call.addresses ≠ some id) {r : JobRecord}
    (hr : r ∈ (call.run h).records) (hrid : r.id = id) : r ∈ h.records := by
  cases call with
  | begin name format state now =>
    change r ∈ (espressoJobHistoryBegin name format state now h).2.records at hr
    rw [(begin_eq hn hmax name format state now).2] at hr
    rcases List.mem_append.mp hr with hr | hr
    · exact List.mem_of_mem_filter ((makeRoom_sublist _).subset hr)
    · rw [List.mem_singleton.mp hr] at hrid
      change n + 1 = id at hrid
      omega
  | update id' state format documentBytes now =>
    refine (hn.mem_change (f := .updated state format documentBytes now) (fun _ => rfl) hr).2 fun heq => hother ?_
    rw [← hrid, heq]
    rfl
  | attachUpstream id' upstreamJobId now =>
    refine (hn.mem_change (f := .attached upstreamJobId now) (fun _ => rfl) hr).2 fun heq => hother ?_
    rw [← hrid, heq]
    rfl
  | snapshot capacity now => exact List.mem_of_mem_filter hr

/-- How many jobs the calls begin. -/
def begun (calls : List HistoryCall) : ℕ := calls.countP HistoryCall.begins

theorem begun_cons (call : HistoryCall) (calls : List HistoryCall) :
    begun (call :: calls) = (if call.begins then 1 else 0) + begun calls := by
  rw [begun, List.countP_cons, Nat.add_comm]
  rfl

theorem begun_append (calls calls' : List HistoryCall) :
    begun (calls ++ calls') = begun calls + begun calls' := List.countP_append

theorem Numbered.after {calls : List HistoryCall} (hn : Numbered n h)
    (hmax : n + begun calls < 4294967296) : Numbered (n + begun calls) (h.after calls) := by
  induction calls generalizing h n with
  | nil => exact hn
  | cons call calls ih =>
    rw [begun_cons] at hmax ⊢
    rw [← Nat.add_assoc]
    exact ih (hn.run (by omega)) (by omega)

theorem Numbered.mem_of_mem_after {calls : List HistoryCall} (hn : Numbered n h)
    (hmax : n + begun calls < 4294967296) (hid : id ≤ n)
    (hother : ∀ call ∈ calls, call.addresses ≠ some id) {r : JobRecord}
    (hr : r ∈ (h.after calls).records) (hrid : r.id = id) : r ∈ h.records := by
  induction calls generalizing h n with
  | nil => exact hr
  | cons call calls ih =>
    rw [begun_cons] at hmax
    refine hn.mem_of_mem_run hid (by omega) (hother call (.head _)) ?_ hrid
    exact ih (hn.run (by omega)) (by omega) (by omega)
      (fun c hc => hother c (.tail _ hc)) hr

end

end Espresso.Jobs
