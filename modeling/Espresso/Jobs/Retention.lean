import Espresso.Jobs.History

/-! Which records the job history keeps, finds and shows, after any sequence of calls. -/
namespace Espresso.Jobs

theorem JobRecord.expired_iff {now : ℕ} {r : JobRecord} :
    r.expired now = true ↔ r.updatedMs + jobHistoryTtlMs ≤ now := by
  rw [JobRecord.expired, Bool.and_eq_true, decide_eq_true_eq, decide_eq_true_eq]
  omega

/-- The records that have not expired. -/
def JobHistory.live (h : JobHistory) (now : ℕ) : List JobRecord :=
  h.records.filter fun r => !r.expired now

theorem mem_live {h : JobHistory} {now : ℕ} {r : JobRecord} :
    r ∈ h.live now ↔ r ∈ h.records ∧ ¬ r.updatedMs + jobHistoryTtlMs ≤ now := by
  rw [JobHistory.live, List.mem_filter, Bool.not_eq_true', ← Bool.not_eq_true,
    JobRecord.expired_iff]

/-- No record has this identifier. -/
def JobHistory.Gone (h : JobHistory) (id : ℕ) : Prop := ∀ r ∈ h.records, r.id ≠ id

/-- At most sixteen records, oldest first, with increasing identifiers that are not zero. -/
structure Kept (h : JobHistory) : Prop where
  few : h.records.length ≤ 16
  nonzero : ∀ r ∈ h.records, r.id ≠ 0
  increasing : h.records.Pairwise fun r r' => r.id < r'.id

/-- Why a record leaves: it has expired, or it is the oldest of sixteen that have not. -/
inductive MayLeave (h : JobHistory) (r : JobRecord) : HistoryCall → Prop
  | evicted {name format : Bytes} {state : JobState} {now : ℕ}
    (hfull : (h.live now).length = 16) (holdest : ∀ r' ∈ h.live now, r.id ≤ r'.id)
    (hlive : r ∈ h.live now) : MayLeave h r (.begin name format state now)
  | expiredAtBegin {name format : Bytes} {state : JobState} {now : ℕ}
    (hold : r.updatedMs + 3600000 ≤ now) : MayLeave h r (.begin name format state now)
  | expiredAtSnapshot {capacity now : ℕ} (hold : r.updatedMs + 3600000 ≤ now) :
    MayLeave h r (.snapshot capacity now)

/-- A change of the record with this identifier: a record that is gone stays gone, another one is
the only one to change. -/
structure ChangesOnly (h : JobHistory) (id : ℕ) (change : JobRecord → JobRecord)
    (result : Bool × JobHistory) : Prop where
  gone : h.Gone id → result = (false,h)
  present : ¬ h.Gone id → result.1 = true ∧ result.2.nextId = h.nextId ∧
    result.2.records = h.records.map fun r => if r.id = id then change r else r

/-- `id` belongs to the record of this upstream job that was begun last; it is zero if there is
none. -/
inductive FoundUpstream (h : JobHistory) (upstreamJobId : ℕ) : ℕ → Prop
  | found (r : JobRecord) (hr : r ∈ h.records) (hcarries : r.upstreamJobId = some upstreamJobId)
    (hlast : ∀ r' ∈ h.records, r'.upstreamJobId = some upstreamJobId → r'.id ≤ r.id) :
    FoundUpstream h upstreamJobId r.id
  | none (hnone : ∀ r ∈ h.records, r.upstreamJobId ≠ some upstreamJobId) :
    FoundUpstream h upstreamJobId 0

/-- The newest records that have not expired, as many as fit, newest first. -/
structure Shows (h : JobHistory) (capacity now : ℕ) (shown : List JobRecord) : Prop where
  count : shown.length = min (h.live now).length capacity
  newestFirst : shown.Pairwise fun r r' => r'.id < r.id
  unexpired : ∀ r ∈ shown, r ∈ h.records ∧ ¬ r.updatedMs + 3600000 ≤ now
  newest : ∀ r ∈ h.live now, r ∉ shown → ∀ r' ∈ shown, r.id < r'.id

/-- What the history does with its records in this state. -/
structure Faithful (h : JobHistory) : Prop where
  kept : Kept h
  leave : ∀ call, ∀ r ∈ h.records, (call.run h).Gone r.id → MayLeave h r call
  update : ∀ id state format documentBytes now,
    ChangesOnly h id (.updated state format documentBytes now)
      (espressoJobHistoryUpdate id state format documentBytes now h)
  attachUpstream : ∀ id upstreamJobId now, ChangesOnly h id (.attached upstreamJobId now)
    (espressoJobHistoryAttachUpstream id upstreamJobId now h)
  findUpstream : ∀ upstreamJobId,
    FoundUpstream h upstreamJobId (espressoJobHistoryFindUpstream h upstreamJobId)
  snapshot : ∀ capacity now, Shows h capacity now (espressoJobHistorySnapshot capacity now h).1

section
variable {h : JobHistory} {n id : ℕ}

theorem Numbered.kept (hn : Numbered n h) : Kept h := by
  refine ⟨h.fits,fun r hr => ?_,hn.increasing⟩
  have := (hn.known r hr).1
  omega

/-! ### Records leave -/

/-- The tail of a full array lacks its first record only. -/
theorem mem_makeRoom {records : List JobRecord} {r : JobRecord} (hr : r ∈ records)
    (hleft : r ∉ makeRoom records) : records.length = 16 ∧ records.head? = some r := by
  unfold makeRoom at hleft
  split at hleft
  · rename_i hfull
    refine ⟨hfull,?_⟩
    cases records with
    | nil => cases hr
    | cons first rest =>
      rcases List.mem_cons.mp hr with rfl | hr
      · rfl
      · exact absurd hr hleft
  · exact absurd hr hleft

theorem head_le_of_increasing {records : List JobRecord} {r : JobRecord}
    (hinc : records.Pairwise fun r r' => r.id < r'.id) (hhead : records.head? = some r) :
    ∀ r' ∈ records, r.id ≤ r'.id := by
  cases records with
  | nil => cases hhead
  | cons first rest =>
    cases hhead
    intro r' hr'
    rcases List.mem_cons.mp hr' with rfl | hr'
    · exact le_refl _
    · exact ((List.pairwise_cons.mp hinc).1 r' hr').le

theorem Numbered.mayLeave (hn : Numbered n h) {call : HistoryCall}
    {r : JobRecord} (hr : r ∈ h.records) (hgone : (call.run h).Gone r.id) : MayLeave h r call := by
  have hchange : ∀ {id : ℕ} {f : JobRecord → JobRecord}, (∀ r, (f r).id = r.id) →
      ¬ (h.change id f).2.Gone r.id := by
    intro id f hf hgone
    refine hgone (if r.id = id then f r else r) ?_ ?_
    · rw [hn.change_records]
      exact List.mem_map.mpr ⟨r,hr,rfl⟩
    · split
      · exact hf r
      · rfl
  cases call with
  | begin name format state now =>
    by_cases hexpired : r.expired now = true
    · exact .expiredAtBegin (JobRecord.expired_iff.mp hexpired)
    have hlive : r ∈ h.live now :=
      List.mem_filter.mpr ⟨hr,by rw [Bool.not_eq_true] at hexpired; rw [hexpired]; rfl⟩
    have hleft : r ∉ makeRoom (h.live now) := fun hmem =>
      hgone r (List.mem_append_left _ hmem) rfl
    obtain ⟨hfull,hhead⟩ := mem_makeRoom hlive hleft
    exact .evicted hfull (head_le_of_increasing (hn.prune now).increasing hhead) hlive
  | update id' state format documentBytes now => exact absurd hgone (hchange fun _ => rfl)
  | attachUpstream id' upstreamJobId now => exact absurd hgone (hchange fun _ => rfl)
  | snapshot capacity now =>
    refine .expiredAtSnapshot (JobRecord.expired_iff.mp ?_)
    by_contra hexpired
    rw [Bool.not_eq_true] at hexpired
    exact hgone r (List.mem_filter.mpr ⟨hr,by rw [hexpired]; rfl⟩) rfl

/-! ### Records change -/

theorem findRecord_eq_none : h.findRecord id = none ↔ h.Gone id := by
  rw [JobHistory.findRecord, List.findIdx?_eq_none_iff]
  exact forall₂_congr fun r _ => by rw [decide_eq_false_iff_not]

theorem Numbered.changesOnly (hn : Numbered n h) (id : ℕ) (f : JobRecord → JobRecord) :
    ChangesOnly h id f (h.change id f) := by
  refine ⟨fun hgone => ?_,fun hpresent => ⟨?_,change_nextId h id f,hn.change_records id f⟩⟩
  · rw [JobHistory.change, findRecord_eq_none.mpr hgone]
  · rw [← findRecord_eq_none] at hpresent
    obtain ⟨i,hi⟩ := Option.ne_none_iff_exists'.mp hpresent
    rw [JobHistory.change, hi]

/-! ### Records are found and shown -/

/-- Where identifiers increase, the last record with a property has the greatest one. -/
theorem find_reverse_last {records : List JobRecord} {p : JobRecord → Bool} {r : JobRecord}
    (hinc : records.Pairwise fun r r' => r.id < r'.id)
    (hfind : records.reverse.find? p = some r) : ∀ r' ∈ records, p r' = true → r'.id ≤ r.id := by
  obtain ⟨-,later,earlier,hsplit,hlater⟩ := List.find?_eq_some_iff_append.mp hfind
  have hrecords : records = earlier.reverse ++ r :: later.reverse := by
    rw [← List.reverse_reverse records, hsplit]
    simp
  intro r' hr' hp
  rw [hrecords] at hr' hinc
  rcases List.mem_append.mp hr' with hmem | hmem
  · exact ((List.pairwise_append.mp hinc).2.2 r' hmem r (.head _)).le
  · rcases List.mem_cons.mp hmem with rfl | hmem
    · exact le_refl _
    · have hnot := hlater r' (List.mem_reverse.mp hmem)
      rw [hp] at hnot
      cases hnot

theorem Numbered.foundUpstream (hn : Numbered n h) (upstreamJobId : ℕ) :
    FoundUpstream h upstreamJobId (espressoJobHistoryFindUpstream h upstreamJobId) := by
  unfold espressoJobHistoryFindUpstream
  split
  · rename_i r hfind
    have hp := List.find?_some hfind
    rw [decide_eq_true_eq] at hp
    refine .found r (List.mem_reverse.mp (List.mem_of_find?_eq_some hfind)) hp fun r' hr' hp' => ?_
    exact find_reverse_last hn.increasing hfind r' hr' (decide_eq_true hp')
  · rename_i hfind
    refine .none fun r hr hcarries => ?_
    have hnot := List.find?_eq_none.mp hfind r (List.mem_reverse.mpr hr)
    exact hnot (decide_eq_true hcarries)

theorem Numbered.shows (hn : Numbered n h) (capacity now : ℕ) :
    Shows h capacity now (espressoJobHistorySnapshot capacity now h).1 := by
  change Shows h capacity now ((h.live now).reverse.take capacity)
  have hinc : (h.live now).reverse.Pairwise fun r r' => r'.id < r.id :=
    List.pairwise_reverse.mpr (hn.prune now).increasing
  refine ⟨?_,hinc.sublist (List.take_sublist _ _),fun r hr => ?_,fun r hr hnot r' hr' => ?_⟩
  · rw [List.length_take, List.length_reverse, Nat.min_comm]
  · exact mem_live.mp (List.mem_reverse.mp (List.mem_of_mem_take hr))
  · rw [← List.take_append_drop capacity (h.live now).reverse] at hinc
    have hmem := List.mem_reverse.mpr hr
    rw [← List.take_append_drop capacity (h.live now).reverse] at hmem
    rcases List.mem_append.mp hmem with htaken | hdropped
    · exact absurd htaken hnot
    · exact (List.pairwise_append.mp hinc).2.2 r' hr' r hdropped

end

/-- Whatever the calls and their clock values, the history keeps, changes, finds and shows what it
should, as long as the identifiers last. -/
theorem jobHistory_after (calls : List HistoryCall) (hbegun : begun calls < 4294967296) :
    Faithful (JobHistory.init.after calls) := by
  have hn := Numbered.init.after (show 0 + begun calls < 4294967296 by omega)
  exact ⟨hn.kept,fun call r hr hgone => hn.mayLeave hr hgone,
    fun id state format documentBytes now => hn.changesOnly id _,
    fun id upstreamJobId now => hn.changesOnly id _,hn.foundUpstream,hn.shows⟩

/-- Two jobs, the first of which the printer knows as number 7. -/
def twoJobs : List HistoryCall :=
  [.begin (octets "a") (octets "application/pdf") .sending 5, .attachUpstream 1 7 9,
   .begin (octets "b") (octets "image/urf") .sending 3]

theorem jobHistory_after_twoJobs : Faithful (JobHistory.init.after twoJobs) :=
  jobHistory_after twoJobs (by decide)

end Espresso.Jobs
