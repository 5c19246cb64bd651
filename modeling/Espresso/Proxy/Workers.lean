import Espresso.Lib.Ledger
import Espresso.Lib.System

/-! `ipp_accept_task` and `ipp_worker_task` of `ipp_proxy.c`: the task that accepts connections
and the tasks that each serve one, with the slots they share. Sockets and blocks of memory are
numbered as they are handed out. -/
namespace Espresso.Proxy

abbrev ippServerWorkers : ℕ := 2

/-! ### The tasks -/

/-- Where `ipp_accept_task` stands. -/
inductive Acceptor
  | taking
  | selecting
  | accepting (secure : Bool)
  | allocating (socket : ℕ) (secure : Bool)
  | creating (argument socket : ℕ) (secure : Bool)
  | freeing (argument socket : ℕ)
  /-- `xSemaphoreGive`, and the socket that is to be closed after it. -/
  | giving (socket : Option ℕ)
  | closing (socket : ℕ)
  deriving DecidableEq

/-- Where an `ipp_worker_task` stands. -/
inductive Worker
  | started (argument socket : ℕ) (secure : Bool)
  /-- `tls_identity_accept`, before and after its `calloc`. -/
  | securing (socket : ℕ)
  | shaking (socket session : ℕ)
  /-- `ipp_http_request_open`, before and after its `calloc`. -/
  | opening (socket : ℕ) (session : Option ℕ)
  | reading (socket : ℕ) (session : Option ℕ) (request : ℕ)
  /-- The reply to a request that could not be opened. -/
  | rejecting (socket : ℕ) (session : Option ℕ)
  /-- The reply to a request that is no POST. -/
  | refusing (socket : ℕ) (session : Option ℕ) (request : ℕ)
  /-- `proxy_handler`. -/
  | handling (socket : ℕ) (session : Option ℕ) (request : ℕ)
  | destroying (socket : ℕ) (session request : Option ℕ)
  | leaving (socket : ℕ) (session : Option ℕ)
  | closing (socket : ℕ)
  | giving
  deriving DecidableEq

def Acceptor.socket : Acceptor → Option ℕ
  | .taking | .selecting | .accepting _ => none
  | .allocating socket _ | .creating _ socket _ | .freeing _ socket | .closing socket => some socket
  | .giving socket => socket

def Acceptor.argument : Acceptor → Option ℕ
  | .creating argument _ _ | .freeing argument _ => some argument
  | _ => none

def Worker.socket : Worker → Option ℕ
  | .started _ socket _ | .securing socket | .shaking socket _ | .opening socket _
  | .reading socket _ _ | .rejecting socket _ | .refusing socket _ _ | .handling socket _ _
  | .destroying socket _ _ | .leaving socket _ | .closing socket => some socket
  | .giving => none

def Worker.argument : Worker → Option ℕ
  | .started argument _ _ => some argument
  | _ => none

def Worker.session : Worker → Option ℕ
  | .shaking _ session => some session
  | .opening _ session | .reading _ session _ | .rejecting _ session | .refusing _ session _
  | .handling _ session _ | .destroying _ session _ | .leaving _ session => session
  | _ => none

def Worker.request : Worker → Option ℕ
  | .reading _ _ request | .refusing _ _ request | .handling _ _ request => some request
  | .destroying _ _ request => request
  | _ => none

def Acceptor.holds (pc : Acceptor) : List ℕ := pc.argument.toList ++ pc.socket.toList

def Worker.holds (w : Worker) : List ℕ :=
  w.argument.toList ++ w.request.toList ++ w.session.toList ++ w.socket.toList

/-- The acceptor has a slot of its own. -/
def Acceptor.reserved : Acceptor → ℕ
  | .taking | .closing _ => 0
  | _ => 1

/-! ### The system -/

structure Pool where
  slots : ℕ
  acceptor : Acceptor
  workers : List Worker
  ledger : Ledger
  deriving DecidableEq

def Pool.start : Pool := ⟨ippServerWorkers,.taking,[],.start⟩

/-- What the call that a task is at returns. -/
inductive Pool.Answer
  | fails
  | succeeds
  /-- Of `select`: there is a connection to the secure port. -/
  | secure
  /-- Of `ipp_http_request_open`: the request is no POST. -/
  | other
  deriving DecidableEq

inductive Pool.Action
  | acceptor (a : Answer)
  | worker (w : Worker) (a : Answer)

namespace Pool

/-- A counting semaphore does not count beyond its maximum. -/
def give (s : Pool) : Pool :=
  { s with slots := if s.slots < ippServerWorkers then s.slots + 1 else s.slots }

def issue (s : Pool) : Pool := { s with ledger := s.ledger.issue }

def giveBack (n : ℕ) (s : Pool) : Pool := { s with ledger := s.ledger.giveBack n }

def acceptAt (pc : Acceptor) (s : Pool) : Pool := { s with acceptor := pc }

def acceptStep (s : Pool) (a : Answer) : Option Pool :=
  match s.acceptor, a with
  | .taking, .succeeds =>
    if s.slots = 0 then none else some { s with slots := s.slots - 1, acceptor := .selecting }
  | .taking, _ => some s
  | .selecting, .fails => some (s.acceptAt (.giving none))
  | .selecting, a => some (s.acceptAt (.accepting (a = .secure)))
  | .accepting _, .fails => some (s.acceptAt (.giving none))
  | .accepting secure, _ => some (s.issue.acceptAt (.allocating s.ledger.issued secure))
  | .allocating socket _, .fails => some (s.acceptAt (.giving (some socket)))
  | .allocating socket secure, _ => some (s.issue.acceptAt (.creating s.ledger.issued socket secure))
  | .creating argument socket _, .fails => some (s.acceptAt (.freeing argument socket))
  | .creating argument socket secure, _ =>
    some { s with acceptor := .taking, workers := .started argument socket secure :: s.workers }
  | .freeing argument socket, _ => some ((s.giveBack argument).acceptAt (.giving (some socket)))
  | .giving none, _ => some (s.give.acceptAt .taking)
  | .giving (some socket), _ => some (s.give.acceptAt (.closing socket))
  | .closing socket, _ => some ((s.giveBack socket).acceptAt .taking)

/-- Where a worker goes on, if it does, and what it leaves of the ledger. -/
def workerStep (l : Ledger) : Worker → Answer → Option Worker × Ledger
  | .started argument socket secure, _ =>
    (some (if secure then .securing socket else .opening socket none),l.giveBack argument)
  | .securing socket, .fails => (some (.destroying socket none none),l)
  | .securing socket, _ => (some (.shaking socket l.issued),l.issue)
  | .shaking socket session, .fails => (some (.destroying socket none none),l.giveBack session)
  | .shaking socket session, _ => (some (.opening socket (some session)),l)
  | .opening socket session, .fails => (some (.rejecting socket session),l)
  | .opening socket session, _ => (some (.reading socket session l.issued),l.issue)
  | .reading socket session request, .fails =>
    (some (.rejecting socket session),l.giveBack request)
  | .reading socket session request, .other => (some (.refusing socket session request),l)
  | .reading socket session request, _ => (some (.handling socket session request),l)
  | .rejecting socket session, _ => (some (.destroying socket session none),l)
  | .refusing socket session request, _ => (some (.destroying socket session (some request)),l)
  | .handling socket session request, _ => (some (.destroying socket session (some request)),l)
  | .destroying socket session none, _ => (some (.leaving socket session),l)
  | .destroying socket session (some request), _ =>
    (some (.leaving socket session),l.giveBack request)
  | .leaving socket none, _ => (some (.closing socket),l)
  | .leaving socket (some session), _ => (some (.closing socket),l.giveBack session)
  | .closing socket, _ => (some .giving,l.giveBack socket)
  | .giving, _ => (none,l)

/-- A worker that goes on takes its own place again; one that does not gives its slot back. -/
def workerStepped (s : Pool) (w : Worker) : Option Worker × Ledger → Pool
  | (some w',l) => { s with workers := w' :: s.workers.erase w, ledger := l }
  | (none,l) => { s with workers := s.workers.erase w, ledger := l }.give

def step (s : Pool) : Action → Option Pool
  | .acceptor a => s.acceptStep a
  | .worker w a =>
    if w ∈ s.workers then some (s.workerStepped w (workerStep s.ledger w a)) else none

/-- What the tasks hold between them. -/
def held (s : Pool) : List ℕ := s.acceptor.holds ++ s.workers.flatMap Worker.holds

def sockets (s : Pool) : List ℕ := s.acceptor.socket.toList ++ s.workers.filterMap Worker.socket

end Pool

/-! ### What every interleaving keeps -/

/-- Every slot is with the semaphore, with the acceptor or with a worker, and nothing that was
handed out is held twice, lost or given back twice. -/
structure Pool.Stands (s : Pool) : Prop where
  slots_eq : s.slots + s.acceptor.reserved + s.workers.length = ippServerWorkers
  closing : ∀ socket, s.acceptor = .closing socket → 1 ≤ s.slots
  balanced : s.ledger.Balanced s.held

namespace Pool

variable {s s' : Pool} {w : Worker} {a : Answer}

theorem stands_start : start.Stands := ⟨rfl,nofun,Ledger.balanced_start⟩

@[simp] theorem give_acceptor (s : Pool) : s.give.acceptor = s.acceptor := rfl

@[simp] theorem give_workers (s : Pool) : s.give.workers = s.workers := rfl

@[simp] theorem give_ledger (s : Pool) : s.give.ledger = s.ledger := rfl

/-- A slot that is given back does not get lost. -/
theorem give_slots (h : s.slots < ippServerWorkers) : s.give.slots = s.slots + 1 := if_pos h

/-! #### The acceptor -/

theorem acceptStep_slots (hs : s.Stands) (h : s.acceptStep a = some s') :
    s'.slots + s'.acceptor.reserved + s'.workers.length = ippServerWorkers ∧
      ∀ socket, s'.acceptor = .closing socket → 1 ≤ s'.slots := by
  obtain ⟨hslots,-,-⟩ := hs
  generalize hpc : s.acceptor = pc at h hslots
  unfold acceptStep at h
  rw [hpc] at h
  split at h
  case h_1 =>
    split at h
    · cases h
    · rename_i hsome
      cases h
      refine ⟨?_,nofun⟩
      simp only [Acceptor.reserved] at hslots ⊢
      omega
  case h_2 =>
    cases h
    rw [hpc]
    exact ⟨hslots,nofun⟩
  case h_10 =>
    cases h
    refine ⟨?_,nofun⟩
    simp only [Acceptor.reserved, List.length_cons] at hslots ⊢
    omega
  case h_12 | h_13 =>
    cases h
    have hfree : s.slots < ippServerWorkers := by
      simp only [Acceptor.reserved] at hslots
      omega
    simp only [acceptAt, give_slots hfree, give_workers, Acceptor.reserved] at hslots ⊢
    exact ⟨by omega,fun _ _ => by omega⟩
  all_goals
    cases h
    exact ⟨hslots,nofun⟩

/-- What the acceptor holds changes hands as the ledger says. -/
theorem acceptStep_held (hs : s.Stands) (h : s.acceptStep a = some s') :
    s'.ledger.Balanced s'.held := by
  have hbalanced := hs.balanced
  unfold held at hbalanced ⊢
  unfold acceptStep at h
  generalize hpc : s.acceptor = pc at h hbalanced
  split at h
  case h_1 =>
    split at h
    · cases h
    · cases h
      exact hbalanced
  case h_2 =>
    cases h
    rw [hpc]
    exact hbalanced
  case h_6 | h_8 =>
    cases h
    exact hbalanced.issue
  case h_11 | h_14 =>
    cases h
    exact hbalanced.giveBack
  all_goals
    cases h
    exact hbalanced

/-! #### The workers -/

/-- What a worker holds changes hands as the ledger says; `others` is what the other tasks hold. -/
theorem workerStep_held {l : Ledger} {others : List ℕ} (h : l.Balanced (w.holds ++ others)) :
    (workerStep l w a).2.Balanced
      (((workerStep l w a).1.map Worker.holds).getD [] ++ others) := by
  fun_cases workerStep l w a
  case case1 argument socket secure =>
    have hback : (l.giveBack argument).Balanced (socket :: others) := h.giveBack
    cases secure <;> exact hback
  all_goals first
    | exact h
    | exact h.issue
    | exact h.giveBack

theorem held_worker (hw : w ∈ s.workers) :
    s.held.Perm (w.holds ++ (s.acceptor.holds ++ (s.workers.erase w).flatMap Worker.holds)) := by
  unfold held
  have hperm := (List.perm_cons_erase hw).flatMap_right Worker.holds
  rw [List.flatMap_cons] at hperm
  refine (hperm.append_left _).trans ?_
  rw [← List.append_assoc, ← List.append_assoc]
  exact List.perm_append_comm.append_right _

theorem length_erase_worker (hw : w ∈ s.workers) :
    (s.workers.erase w).length + 1 = s.workers.length := by
  rw [List.length_erase_of_mem hw]
  have := List.length_pos_of_mem hw
  omega

/-- A worker takes its own place again, or leaves its slot to the next one. -/
theorem workerStepped_stands (hs : s.Stands) (hw : w ∈ s.workers) :
    (s.workerStepped w (workerStep s.ledger w a)).Stands := by
  have hheld := workerStep_held (a := a) (hs.balanced.perm (held_worker hw).symm)
  have hlength := length_erase_worker hw
  have hslots := hs.slots_eq
  generalize workerStep s.ledger w a = stepped at hheld
  obtain ⟨rest,l⟩ := stepped
  cases rest with
  | some w' =>
    refine ⟨?_,hs.closing,hheld.perm ?_⟩
    · rw [← hslots, ← hlength]
      rfl
    · unfold held workerStepped
      simp only [Option.map_some, Option.getD_some, List.flatMap_cons]
      rw [← List.append_assoc, ← List.append_assoc]
      exact List.perm_append_comm.append_right _
  | none =>
    have hfree : s.slots < ippServerWorkers := by omega
    refine ⟨?_,fun socket hsocket => ?_,hheld⟩
    · simp only [workerStepped, give, if_pos hfree]
      omega
    · have := hs.closing socket hsocket
      simp only [workerStepped, give, if_pos hfree]
      omega

theorem step_stands {action : Action} (hs : s.Stands) (h : s.step action = some s') :
    s'.Stands := by
  cases action with
  | acceptor a =>
    obtain ⟨hslots,hclosing⟩ := acceptStep_slots hs h
    exact ⟨hslots,hclosing,acceptStep_held hs h⟩
  | worker w a =>
    simp only [step] at h
    split at h
    · rename_i hw
      cases h
      exact workerStepped_stands hs hw
    · cases h

theorem run_stands {actions : List Action}
    (h : System.Trace step (fun _ _ => True) start actions s) : s.Stands :=
  h.invariant (fun _ _ _ hs _ hstep => step_stands hs hstep) stands_start

/-! ### The results -/

theorem length_sockets_le (s : Pool) :
    s.sockets.length ≤ s.acceptor.socket.toList.length + s.workers.length := by
  unfold sockets
  rw [List.length_append]
  exact Nat.add_le_add_left (List.length_filterMap_le _ _) _

/-- There are never more connections than slots, and the acceptor waits only for workers. -/
theorem pool_bounded {actions : List Action}
    (h : System.Trace step (fun _ _ => True) start actions s) :
    s.workers.length ≤ ippServerWorkers ∧ s.sockets.length ≤ ippServerWorkers ∧
      (s.acceptStep .succeeds = none → s.workers.length = ippServerWorkers) := by
  obtain ⟨hslots,hclosing,-⟩ := run_stands h
  refine ⟨by omega,(length_sockets_le s).trans ?_,fun hblocked => ?_⟩
  · generalize hpc : s.acceptor = pc at hslots hclosing
    cases pc with
    | taking | selecting | accepting _ =>
      simp only [Acceptor.socket, Option.toList_none, List.length_nil]
      omega
    | closing socket =>
      have := hclosing socket rfl
      simp only [Acceptor.socket, Option.toList_some, List.length_singleton, Acceptor.reserved]
        at hslots ⊢
      omega
    | allocating _ _ | creating _ _ _ | freeing _ _ =>
      simp only [Acceptor.socket, Option.toList_some, List.length_singleton, Acceptor.reserved]
        at hslots ⊢
      omega
    | giving socket =>
      have hone : socket.toList.length ≤ 1 := by cases socket <;> simp
      simp only [Acceptor.socket, Acceptor.reserved] at hslots ⊢
      omega
  · unfold acceptStep at hblocked
    generalize hpc : s.acceptor = pc at hblocked hslots
    cases pc with
    | taking =>
      simp only [ite_eq_left_iff, reduceCtorEq, imp_false, Decidable.not_not] at hblocked
      simp only [Acceptor.reserved] at hslots
      omega
    | giving socket => cases socket <;> cases hblocked
    | selecting | accepting _ | allocating _ _ | creating _ _ _ | freeing _ _ | closing _ =>
      cases hblocked

/-- No socket and no block of memory is lost, in two hands, given back twice or used after it. -/
theorem pool_owned {actions : List Action}
    (h : System.Trace step (fun _ _ => True) start actions s) :
    s.held.Nodup ∧ s.ledger.returned.Nodup ∧ (∀ n ∈ s.held, n ∉ s.ledger.returned) ∧
      ∀ n < s.ledger.issued, n ∈ s.held ∨ n ∈ s.ledger.returned :=
  have hbalanced := (run_stands h).balanced
  ⟨hbalanced.held_nodup,hbalanced.returned_nodup,fun _ => hbalanced.not_returned,
    fun _ => hbalanced.held_or_returned⟩

/-- The calls that a worker has before it at most. -/
def workerRank : Worker → ℕ
  | .started _ _ _ => 11
  | .securing _ => 10
  | .shaking _ _ => 9
  | .opening _ _ => 8
  | .reading _ _ _ => 7
  | .rejecting _ _ | .refusing _ _ _ | .handling _ _ _ => 6
  | .destroying _ _ _ => 5
  | .leaving _ _ => 4
  | .closing _ => 3
  | .giving => 2

theorem workerStep_rank (l : Ledger) (w : Worker) (a : Answer) :
    ∀ w' ∈ (workerStep l w a).1, workerRank w' < workerRank w := by
  fun_cases workerStep l w a
  case case1 argument socket secure => cases secure <;> simp [workerRank]
  all_goals simp [workerRank]

def poolRank (s : Pool) : ℕ := (s.workers.map workerRank).sum

theorem poolRank_worker (hw : w ∈ s.workers) :
    (s.workerStepped w (workerStep s.ledger w a)).poolRank < s.poolRank := by
  have hsum : s.poolRank = workerRank w + ((s.workers.erase w).map workerRank).sum :=
    ((List.perm_cons_erase hw).map workerRank).sum_eq
  have hless := workerStep_rank s.ledger w a
  have hpos : 0 < workerRank w := by cases w <;> exact Nat.succ_pos _
  generalize workerStep s.ledger w a = stepped at hless
  obtain ⟨rest,l⟩ := stepped
  cases rest with
  | some w' =>
    have := hless w' rfl
    simp only [poolRank, workerStepped, List.map_cons, List.sum_cons] at hsum ⊢
    omega
  | none =>
    simp only [poolRank, workerStepped, give_workers] at hsum ⊢
    omega

/-- Whatever their calls return, workers come to an end by themselves. -/
theorem workers_finish (oracle : Pool → Worker → Answer) (s : Pool) : ∃ actions s',
    System.Trace step (fun s action => ∃ w, action = .worker w (oracle s w)) s actions s' ∧
      s'.workers = [] ∧ s'.acceptor = s.acceptor := by
  induction hrank : s.poolRank using Nat.strong_induction_on generalizing s with
  | _ rank ih =>
    cases hworkers : s.workers with
    | nil => exact ⟨[],s,.nil s,hworkers,rfl⟩
    | cons w rest =>
      have hw : w ∈ s.workers := hworkers ▸ List.mem_cons_self
      have hstep : s.step (.worker w (oracle s w)) =
          some (s.workerStepped w (workerStep s.ledger w (oracle s w))) := if_pos hw
      obtain ⟨actions,s',hrun,hnone,hacceptor⟩ := ih _ (hrank ▸ poolRank_worker hw) _ rfl
      refine ⟨.worker w (oracle s w) :: actions,s',.cons ⟨w,rfl⟩ hstep hrun,hnone,hacceptor.trans ?_⟩
      cases (workerStep s.ledger w (oracle s w)) with
      | mk rest l => cases rest <;> rfl

/-- From wherever a run has come to, once the workers have done every slot is back, and all that
was handed out but for what the acceptor is at. -/
theorem pool_drains (oracle : Pool → Worker → Answer) {actions : List Action}
    (h : System.Trace step (fun _ _ => True) start actions s) : ∃ more s',
    System.Trace step (fun s action => ∃ w, action = .worker w (oracle s w)) s more s' ∧
      s'.workers = [] ∧ s'.acceptor = s.acceptor ∧
      s'.slots + s'.acceptor.reserved = ippServerWorkers ∧
      (s.acceptor.holds ++ s'.ledger.returned).Perm (List.range s'.ledger.issued) := by
  obtain ⟨more,s',hrun,hnone,hacceptor⟩ := workers_finish oracle s
  have hstands : s'.Stands :=
    hrun.invariant (fun _ _ _ hs _ hstep => step_stands hs hstep) (run_stands h)
  have hslots := hstands.slots_eq
  have hbalanced := hstands.balanced
  unfold held Ledger.Balanced at hbalanced
  rw [hnone] at hslots hbalanced
  rw [List.flatMap_nil, List.append_nil, hacceptor] at hbalanced
  exact ⟨more,s',hrun,hnone,hacceptor,hslots,hbalanced⟩

/-! ### Two clients at once -/

/-- A plain connection and a secure one; the secure one is refused, the plain one is at work. -/
def twoConnections : List Action :=
  [.acceptor .succeeds,.acceptor .succeeds,.acceptor .succeeds,.acceptor .succeeds,
    .acceptor .succeeds,.worker (.started 1 0 false) .succeeds,.acceptor .succeeds,
    .acceptor .secure,.worker (.opening 0 none) .succeeds,.acceptor .succeeds,.acceptor .succeeds,
    .acceptor .succeeds,.worker (.reading 0 none 2) .succeeds,
    .worker (.started 4 3 true) .succeeds,.worker (.securing 3) .succeeds,
    .worker (.shaking 3 5) .fails]

theorem twoConnections_run : ∃ s, System.Trace step (fun _ _ => True) start twoConnections s ∧
    s.workers = [.destroying 3 none none,.handling 0 none 2] ∧ s.acceptor = .taking ∧
    s.slots = 0 ∧ s.ledger.returned = [5,4,1] := by
  obtain ⟨s,hrun,hstate⟩ : ∃ s, System.execute (System.supervise step (fun _ _ => True)) start
      twoConnections = some s ∧ s.workers = [.destroying 3 none none,.handling 0 none 2] ∧
      s.acceptor = .taking ∧ s.slots = 0 ∧ s.ledger.returned = [5,4,1] := ⟨_,rfl,by decide⟩
  exact ⟨s,.of_execute hrun,hstate⟩

theorem pool_bounded_two : ∃ s, System.Trace step (fun _ _ => True) start twoConnections s ∧
    s.workers.length = ippServerWorkers ∧ s.sockets.length ≤ ippServerWorkers := by
  obtain ⟨s,hrun,-,hacceptor,hslots,-⟩ := twoConnections_run
  obtain ⟨-,hsockets,hblocked⟩ := pool_bounded hrun
  exact ⟨s,hrun,hblocked (by simp [acceptStep, hacceptor, hslots]),hsockets⟩

theorem pool_owned_two : ∃ s, System.Trace step (fun _ _ => True) start twoConnections s ∧
    s.ledger.returned = [5,4,1] ∧ ∀ n ∈ s.held, n ∉ s.ledger.returned := by
  obtain ⟨s,hrun,-,-,-,hreturned⟩ := twoConnections_run
  obtain ⟨-,-,hheld,-⟩ := pool_owned hrun
  exact ⟨s,hrun,hreturned,hheld⟩

theorem pool_drains_two : ∃ s s' : Pool, System.Trace step (fun _ _ => True) start twoConnections s ∧
    s.workers ≠ [] ∧ s'.workers = [] ∧ s'.slots = ippServerWorkers := by
  obtain ⟨s,hrun,hworkers,hacceptor,-,-⟩ := twoConnections_run
  obtain ⟨-,s',-,hnone,hsame,hslots,-⟩ := pool_drains (fun _ _ => .fails) hrun
  rw [hsame, hacceptor] at hslots
  exact ⟨s,s',hrun,by rw [hworkers]; nofun,hnone,hslots⟩

end Pool
end Espresso.Proxy
