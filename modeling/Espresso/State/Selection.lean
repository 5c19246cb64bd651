import Espresso.Lib.System
import Espresso.Codec.Discovery

/-! The selected printer in memory and in NVS, under every interleaving of the tasks that read and
write it. A task is a call of `app_state_set_target`, `app_state_clear_target` or
`refresh_saved_address`, or a Get-Printer-Attributes handler. The sections under the lock and the
NVS commits are single steps. -/
namespace Espresso.State
open Codec

/-- Where a task stands. -/
inductive Task
  | idle
  /-- In `app_state_set_target`, before the commit. A refresh has taken the profile from memory. -/
  | setting (refresh : Bool) (target : PrinterTarget)
  /-- Committed, memory still to be written. -/
  | persisted (target : PrinterTarget)
  | clearing
  | erased
  /-- `refresh_saved_address`, waiting for the address. -/
  | resolving (target : PrinterTarget)
  /-- A handler, waiting for the printer with the profile it started with. -/
  | handling (target : PrinterTarget)
  deriving DecidableEq

structure AppState where
  target : Option PrinterTarget
  nvs : Option PrinterTarget
  tasks : List Task
  /-- The task of the last commit, as long as it has not written memory. -/
  unpublished : Option ℕ
  /-- What was last chosen or cleared on purpose. -/
  chosen : Option PrinterTarget
  deriving DecidableEq

inductive Action
  | select (task : ℕ) (target : PrinterTarget)
  | clear (task : ℕ)
  | refresh (task : ℕ)
  | resolve (task : ℕ) (address : Option Bytes)
  | handle (task : ℕ)
  | commit (task : ℕ)
  | publish (task : ℕ)
  | respond (task : ℕ) (response : Option Bytes) (residue : Bool)
  deriving DecidableEq

/-- Both functions that store a profile refuse one without an address. -/
def storable (target : PrinterTarget) : Bool := target.port ≠ 0 && target.address.val ≠ []

def AppState.goto (s : AppState) (p : ℕ) (task : Task) : AppState :=
  { s with tasks := s.tasks.set p task }

/-- A commit of task `p`. -/
def AppState.store (s : AppState) (p : ℕ) (nvs : Option PrinterTarget) : AppState :=
  { s with nvs := nvs, unpublished := some p }

/-- The write of task `p` that follows its commit. -/
def AppState.publish (s : AppState) (p : ℕ) (target : Option PrinterTarget) : AppState :=
  { s with
    target := target
    unpublished := if s.unpublished = some p then none else s.unpublished }

/-- `app_state_update_target`. -/
def AppState.update (s : AppState) (target : PrinterTarget) : AppState :=
  if storable target then { s with target := some target } else s

/-- The end of a Get-Printer-Attributes handler: the profile it started with, with the response
merged into it. `memcmp` also sees what is left behind the terminators; that is `residue`. -/
def AppState.merge (s : AppState) (target : PrinterTarget) (response : Bytes) (residue : Bool) :
    AppState :=
  match ippCodecApplyPrinterAttributes response { target with stateReasons := .empty } with
  | .ok updated => if updated ≠ target ∨ residue then s.update updated else s
  | .error _ => s

def step (s : AppState) : Action → Option AppState
  | .select p target =>
    match s.tasks[p]? with
    | some .idle => some (if storable target then s.goto p (.setting false target) else s)
    | _ => none
  | .clear p =>
    match s.tasks[p]? with
    | some .idle => some (s.goto p .clearing)
    | _ => none
  | .refresh p =>
    match s.tasks[p]?, s.target with
    | some .idle, some target =>
      some (if target.hostname.val ≠ [] then s.goto p (.resolving target) else s)
    | _, _ => none
  | .resolve p address =>
    match s.tasks[p]?, address with
    | some (.resolving _), none => some (s.goto p .idle)
    | some (.resolving target), some resolved =>
      let moved := { target with address := .copy 48 resolved }
      some (s.goto p (if moved.address ≠ target.address ∧ storable moved then .setting true moved
        else .idle))
    | _, _ => none
  | .handle p =>
    match s.tasks[p]?, s.target with
    | some .idle, some target => some (s.goto p (.handling target))
    | _, _ => none
  | .commit p =>
    match s.tasks[p]? with
    | some (.setting refresh target) =>
      some { ((s.store p (some target)).goto p (.persisted target)) with
        chosen := if refresh then s.chosen else some target }
    | some .clearing => some { ((s.store p none).goto p .erased) with chosen := none }
    | _ => none
  | .publish p =>
    match s.tasks[p]? with
    | some (.persisted target) => some ((s.publish p (some target)).goto p .idle)
    | some .erased => some ((s.publish p none).goto p .idle)
    | _ => none
  | .respond p response residue =>
    match s.tasks[p]?, response with
    | some (.handling _), none => some (s.goto p .idle)
    | some (.handling target), some response =>
      some ((s.merge target response residue).goto p .idle)
    | _, _ => none

/-! ### What merging leaves alone -/

/-- The names by which a printer is reached. -/
structure Endpoint where
  address : Text 48
  port : ℕ
  resourcePath : Text 128
  deriving DecidableEq

def endpoint (t : PrinterTarget) : Endpoint := ⟨t.address,t.port,t.resourcePath⟩

/-- What a refresh of the address leaves alone. -/
structure Identity where
  instanceName : Text 64
  hostname : Text 64
  port : ℕ
  resourcePath : Text 128
  deriving DecidableEq

def identity (t : PrinterTarget) : Identity := ⟨t.instanceName,t.hostname,t.port,t.resourcePath⟩

/-- The fields by which a printer is known and reached are the same. -/
structure SamePrinter (t t' : PrinterTarget) : Prop where
  address : t'.address = t.address
  port : t'.port = t.port
  resourcePath : t'.resourcePath = t.resourcePath
  instanceName : t'.instanceName = t.instanceName
  hostname : t'.hostname = t.hostname

theorem SamePrinter.refl (t : PrinterTarget) : SamePrinter t t := ⟨rfl,rfl,rfl,rfl,rfl⟩

theorem SamePrinter.trans {t t' t'' : PrinterTarget} (h : SamePrinter t t')
    (h' : SamePrinter t' t'') : SamePrinter t t'' :=
  ⟨h'.address.trans h.address,h'.port.trans h.port,h'.resourcePath.trans h.resourcePath,
    h'.instanceName.trans h.instanceName,h'.hostname.trans h.hostname⟩

theorem SamePrinter.ite {t a b : PrinterTarget} {c : Prop} [Decidable c] (ha : SamePrinter t a)
    (hb : SamePrinter t b) : SamePrinter t (if c then a else b) := by
  split
  · exact ha
  · exact hb

theorem SamePrinter.colorIf {t a : PrinterTarget} {condition : Bool} (h : SamePrinter t a) :
    SamePrinter t (colorIf a condition) := by
  unfold Codec.colorIf
  split
  · exact ⟨h.address,h.port,h.resourcePath,h.instanceName,h.hostname⟩
  · exact h

theorem SamePrinter.endpoint_eq {t t' : PrinterTarget} (h : SamePrinter t t') :
    endpoint t' = endpoint t := by
  rw [endpoint, h.address, h.port, h.resourcePath, endpoint]

theorem samePrinter_applyValue (t : PrinterTarget) (name : Bytes) (tag : UInt8) (value : Bytes) :
    SamePrinter t (applyValue t name tag value) := by
  unfold applyValue
  repeat' first
    | with_reducible apply SamePrinter.ite
    | with_reducible apply SamePrinter.colorIf
    | exact ⟨rfl,rfl,rfl,rfl,rfl⟩
  · split
    · exact ⟨rfl,rfl,rfl,rfl,rfl⟩
    · exact ⟨rfl,rfl,rfl,rfl,rfl⟩

theorem samePrinter_readItems (t : PrinterTarget) (current : Bytes) (items : List Item) :
    SamePrinter t (Walker.readItems (fun t _ => t) applyValue t current items) := by
  induction items generalizing t current with
  | nil => exact .refl t
  | cons i is ih =>
    cases i with
    | group tag => exact ih t []
    | value tag name value => exact (samePrinter_applyValue t _ tag value).trans (ih _ _)

theorem samePrinter_finalizeUrf (t : PrinterTarget) (tokens : List Bytes) :
    SamePrinter t (tokens.foldl finalizeUrf t) := by
  induction tokens generalizing t with
  | nil => exact .refl t
  | cons token tokens ih =>
    refine SamePrinter.trans ?_ (ih (finalizeUrf t token))
    unfold finalizeUrf
    constructor
    all_goals
      simp only
      split_ifs <;> rfl

theorem samePrinter_finalize (t : PrinterTarget) : SamePrinter t (ippCodecFinalizeProfile t) := by
  unfold ippCodecFinalizeProfile
  extract_lets t1 t2 t3 t4
  have h1 : SamePrinter t t1 := samePrinter_finalizeUrf t _
  have h2 : SamePrinter t t2 := h1.trans ⟨rfl,rfl,rfl,rfl,rfl⟩
  have h3 : SamePrinter t t3 := .ite (h2.trans ⟨rfl,rfl,rfl,rfl,rfl⟩) h2
  have h4 : SamePrinter t t4 := .ite (h3.trans ⟨rfl,rfl,rfl,rfl,rfl⟩) h3
  exact .ite (h4.trans ⟨rfl,rfl,rfl,rfl,rfl⟩) h4

/-- A merged response names no other printer. -/
theorem samePrinter_merge {t t' : PrinterTarget} {response : Bytes}
    (h : ippCodecApplyPrinterAttributes response { t with stateReasons := .empty } = .ok t') :
    SamePrinter t t' := by
  cases hd : decode response with
  | error f =>
    obtain ⟨t'',he⟩ := ippCodecApplyPrinterAttributes_error hd { t with stateReasons := .empty }
    rw [he] at h
    cases h
  | ok e =>
    rw [ippCodecApplyPrinterAttributes_ok hd] at h
    cases h
    have hheader : SamePrinter t (applyHeader { t with stateReasons := .empty } e.header) :=
      ⟨rfl,rfl,rfl,rfl,rfl⟩
    exact (hheader.trans (samePrinter_readItems _ [] e.items)).trans (samePrinter_finalize _)

/-! ### The invariant -/

/-- Memory and NVS name the same endpoint, or neither names one. -/
def Agree (s : AppState) : Prop := s.target.map endpoint = s.nvs.map endpoint

instance (s : AppState) : Decidable (Agree s) := inferInstanceAs (Decidable (_ = _))

/-- NVS holds the printer that was last chosen, perhaps at a newer address, or nothing if the
selection was last cleared. -/
def Kept (s : AppState) : Prop := s.nvs.map identity = s.chosen.map identity

instance (s : AppState) : Decidable (Kept s) := inferInstanceAs (Decidable (_ = _))

/-- No operation is in progress. -/
def Quiescent (s : AppState) : Prop := ∀ task ∈ s.tasks, task = .idle

instance (s : AppState) : Decidable (Quiescent s) := inferInstanceAs (Decidable (∀ _ ∈ _, _))

structure Initial (s : AppState) : Prop where
  agree : Agree s
  kept : Kept s
  quiescent : Quiescent s
  published : s.unpublished = none

/-- The endpoint a task is about to leave in memory. -/
def Task.pending : Task → Option Endpoint
  | .persisted target => some (endpoint target)
  | .handling target => some (endpoint target)
  | _ => none

/-- The profile a refresh is about to commit. -/
def Task.refreshed : Task → Option PrinterTarget
  | .setting true target => some target
  | _ => none

/-- With every commit published, memory is only written by a task whose endpoint memory holds
already; and a refresh commits only if the printer it took from memory is still the persisted
one. -/
def Fresh (s : AppState) : Action → Prop
  | .publish p | .respond p _ _ => s.unpublished = none →
      s.target.map endpoint = s.tasks[p]?.bind Task.pending
  | .commit p => ∀ target ∈ s.tasks[p]?.bind Task.refreshed,
      s.nvs.map identity = some (identity target)
  | _ => True

instance (s : AppState) (a : Action) : Decidable (Fresh s a) := by
  cases a <;> unfold Fresh <;> infer_instance

/-- A task between its commit and its write to memory. -/
def Task.committed : Task → Bool
  | .persisted _ | .erased => true
  | _ => false

/-- A commit that memory does not show yet is still to be published, and NVS holds it. -/
def Committed (s : AppState) (p : ℕ) : Prop :=
  (∃ target, s.tasks[p]? = some (.persisted target) ∧ s.nvs = some target) ∨
    (s.tasks[p]? = some .erased ∧ s.nvs = none)

structure Inv (s : AppState) : Prop where
  agree : s.unpublished = none → Agree s
  committed : ∀ p, s.unpublished = some p → Committed s p
  kept : Kept s

theorem Initial.inv {s : AppState} (h : Initial s) : Inv s := by
  refine ⟨fun _ => h.agree,fun p hp => ?_,h.kept⟩
  rw [h.published] at hp
  cases hp

/-- At rest every commit has been published. -/
theorem Inv.agree_of_quiescent {s : AppState} (h : Inv s) (hq : Quiescent s) : Agree s := by
  apply h.agree
  cases hu : s.unpublished with
  | none => rfl
  | some p =>
    rcases h.committed p hu with ⟨target,htask,-⟩ | ⟨htask,-⟩
    · cases hq _ (List.mem_of_getElem? htask)
    · cases hq _ (List.mem_of_getElem? htask)

/-! ### Steps -/

/-- A task that has nothing to publish may go anywhere. -/
theorem Inv.goto {s : AppState} (h : Inv s) {p : ℕ} {task : Task} (htask : s.tasks[p]? = some task)
    (hnot : task.committed = false) (task' : Task) : Inv (s.goto p task') := by
  refine ⟨h.agree,fun q hq => ?_,h.kept⟩
  have hne : p ≠ q := by
    rintro rfl
    rcases h.committed p hq with ⟨target,hp,-⟩ | ⟨hp,-⟩
    · rw [htask, Option.some_inj] at hp
      rw [hp] at hnot
      cases hnot
    · rw [htask, Option.some_inj] at hp
      rw [hp] at hnot
      cases hnot
  unfold Committed
  rw [AppState.goto, List.getElem?_set_ne hne]
  exact h.committed q hq

/-- Writing memory outside a commit. -/
theorem Inv.write {s : AppState} (h : Inv s) {target : Option PrinterTarget}
    (hsame : s.unpublished = none → target.map endpoint = s.target.map endpoint) :
    Inv { s with target := target } :=
  ⟨fun hu => (hsame hu).trans (h.agree hu),h.committed,h.kept⟩

theorem Inv.merge {s : AppState} (h : Inv s) {target : PrinterTarget}
    (hsame : s.unpublished = none → s.target.map endpoint = some (endpoint target))
    (response : Bytes) (residue : Bool) : Inv (s.merge target response residue) := by
  unfold AppState.merge
  split
  · rename_i updated hmerge
    split
    · unfold AppState.update
      split
      · refine h.write fun hu => ?_
        rw [hsame hu, Option.map_some, (samePrinter_merge hmerge).endpoint_eq]
      · exact h
    · exact h
  · exact h

/-- The state after the commit of task `p`. -/
theorem Inv.commit {s : AppState} {p : ℕ} {task task' : Task} (htask : s.tasks[p]? = some task)
    {nvs chosen : Option PrinterTarget} (hkept : nvs.map identity = chosen.map identity)
    (hto : (∃ target, task' = .persisted target ∧ nvs = some target) ∨
      (task' = .erased ∧ nvs = none)) :
    Inv { ((s.store p nvs).goto p task') with chosen := chosen } := by
  refine ⟨fun hu => ?_,fun q hq => ?_,hkept⟩
  · cases hu
  · cases hq
    have hlen : p < s.tasks.length := (List.getElem?_eq_some_iff.mp htask).1
    have hget : (s.tasks.set p task')[p]? = some task' := by simp [hlen]
    rcases hto with ⟨target,rfl,rfl⟩ | ⟨rfl,rfl⟩
    · exact .inl ⟨target,hget,rfl⟩
    · exact .inr ⟨hget,rfl⟩

/-- The state after task `p` has written memory. If its commit was the last one, memory now shows
it; else `Fresh` applies, or another commit is still to be published. -/
theorem Inv.publish {s : AppState} (h : Inv s) {p : ℕ} {target : Option PrinterTarget}
    (hlast : s.unpublished = some p → target = s.nvs)
    (hfresh : s.unpublished = none → s.target.map endpoint = target.map endpoint) (task' : Task) :
    Inv ((s.publish p target).goto p task') := by
  by_cases hu : s.unpublished = some p
  · refine ⟨fun _ => ?_,fun q hq => ?_,h.kept⟩
    · exact congrArg _ (hlast hu)
    · simp [AppState.publish, AppState.goto, hu] at hq
  · refine ⟨fun hnone => ?_,fun q hq => ?_,h.kept⟩
    · simp only [AppState.publish, AppState.goto, if_neg hu] at hnone
      exact (hfresh hnone).symm.trans (h.agree hnone)
    · simp only [AppState.publish, AppState.goto, if_neg hu] at hq
      have hne : p ≠ q := by
        rintro rfl
        exact hu hq
      unfold Committed
      simp only [AppState.publish, AppState.goto, List.getElem?_set_ne hne]
      exact h.committed q hq

theorem Inv.step {s s' : AppState} {a : Action} (h : Inv s) (hfresh : Fresh s a)
    (hstep : step s a = some s') : Inv s' := by
  cases a with
  | select p target =>
    simp only [State.step] at hstep
    split at hstep
    · rename_i htask
      cases hstep
      split
      · exact h.goto htask rfl _
      · exact h
    · cases hstep
  | clear p =>
    simp only [State.step] at hstep
    split at hstep
    · rename_i htask
      cases hstep
      exact h.goto htask rfl _
    · cases hstep
  | refresh p =>
    simp only [State.step] at hstep
    split at hstep
    · rename_i htask _
      cases hstep
      split
      · exact h.goto htask rfl _
      · exact h
    · cases hstep
  | resolve p address =>
    simp only [State.step] at hstep
    split at hstep
    · rename_i htask
      cases hstep
      exact h.goto htask rfl _
    · rename_i htask
      cases hstep
      exact h.goto htask rfl _
    · cases hstep
  | handle p =>
    simp only [State.step] at hstep
    split at hstep
    · rename_i htask _
      cases hstep
      exact h.goto htask rfl _
    · cases hstep
  | commit p =>
    simp only [State.step] at hstep
    split at hstep
    · rename_i refresh target htask
      cases hstep
      refine Inv.commit htask ?_ (.inl ⟨target,rfl,rfl⟩)
      cases refresh with
      | false => rfl
      | true =>
        have hkept := hfresh target (by simp [htask, Task.refreshed])
        exact hkept.symm.trans h.kept
    · rename_i htask
      cases hstep
      exact Inv.commit htask rfl (.inr ⟨rfl,rfl⟩)
    · cases hstep
  | publish p =>
    simp only [State.step] at hstep
    split at hstep
    · rename_i target htask
      cases hstep
      have hlast : s.unpublished = some p → some target = s.nvs := by
        intro hu
        rcases h.committed p hu with ⟨target',htask',hnvs⟩ | ⟨htask',-⟩
        · rw [htask] at htask'
          cases htask'
          exact hnvs.symm
        · rw [htask] at htask'
          cases htask'
      refine h.publish hlast (fun hu => ?_) _
      rw [hfresh hu, htask]
      rfl
    · rename_i htask
      cases hstep
      have hlast : s.unpublished = some p → none = s.nvs := by
        intro hu
        rcases h.committed p hu with ⟨target',htask',-⟩ | ⟨-,hnvs⟩
        · rw [htask] at htask'
          cases htask'
        · exact hnvs.symm
      refine h.publish hlast (fun hu => ?_) _
      rw [hfresh hu, htask]
      rfl
    · cases hstep
  | respond p response residue =>
    simp only [State.step] at hstep
    split at hstep
    · rename_i htask
      cases hstep
      exact h.goto htask rfl _
    · rename_i target response htask
      cases hstep
      have htasks : (s.merge target response residue).tasks = s.tasks := by
        unfold AppState.merge AppState.update
        split
        · split_ifs <;> rfl
        · rfl
      refine (h.merge (fun hu => ?_) response residue).goto (htasks ▸ htask) rfl _
      rw [hfresh hu, htask]
      rfl
    · cases hstep

/-! ### Runs -/

/-- A printer with nothing known but its address. -/
def printerAt (address : String) : PrinterTarget :=
  { PrinterTarget.zero with port := 631, address := .copy 48 (octets address) }

/-- Two tasks at rest, nothing selected. -/
def atRest : AppState := ⟨none,none,[.idle,.idle],none,none⟩

theorem atRest_initial : Initial atRest := ⟨rfl,rfl,by decide,rfl⟩

/-- A response that reports nothing but its version. -/
def bareResponse : Bytes := [2,0,0,0,0,0,0,1,3]

end Espresso.State
