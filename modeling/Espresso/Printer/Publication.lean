import Espresso.Lib.System
import Espresso.Printer.Advertisement
import Espresso.Printer.Capabilities

/-! The two mDNS services that `printer_discovery.c` publishes for the selected printer, and the
flags it keeps about them, over runs in which any mDNS call may fail. -/
namespace Espresso.Printer
open Codec

/-! ### The identity of a facade -/

def fnv1a (hash : UInt64) (data : Bytes) : UInt64 :=
  data.foldl (fun hash b => (hash ^^^ b.toUInt64) * 1099511628211) hash

def hashText (hash : UInt64) (value : Bytes) : UInt64 := fnv1a (fnv1a hash value) [0xff]

/-- `%0*x`, for a number that fits the width. -/
def hexField (width n : ℕ) : Bytes :=
  (List.range width).reverse.map fun i =>
    let digit := n / 16 ^ i % 16
    UInt8.ofNat (if digit < 10 then 0x30 + digit else 0x57 + digit)

/-- The UUID of the facade for a printer, on the bridge with this address. -/
def printerIdentityTargetUuid (mac : Fin 6 → UInt8) (t : PrinterTarget) : Text 64 :=
  let hash : UInt64 := 14695981039346656037
  let hash := if t.uuid.val ≠ [] then hashText hash t.uuid.val
    else hashText (hashText hash t.hostname.val) t.instanceName.val
  let hash := hashText hash t.resourcePath.val
  let hash := (fnv1a hash [UInt8.ofNat t.port,UInt8.ofNat (t.port / 256)]).toNat
  let dash := octets "-"
  .copy 64 (hexField 8 (hash / 2 ^ 32) ++ dash ++ hexField 4 (hash / 2 ^ 16 % 2 ^ 16) ++ dash ++
    octets "4" ++ hexField 3 (hash % 2 ^ 12) ++ dash ++
    octets "8" ++ hexField 3 (hash / 2 ^ 4 % 2 ^ 12) ++ dash ++
    (List.ofFn mac).flatMap fun b => hexField 2 b.toNat)

/-! ### The mDNS component -/

inductive Service
  | ipp
  | ipps
  deriving DecidableEq, Repr

inductive Subtype
  | universal
  | print
  deriving DecidableEq, Repr

structure Registration where
  instanceName : Bytes
  universal : Bool
  print : Bool
  deriving DecidableEq

/-- The services that are registered. -/
structure Registry where
  ipp : Option Registration
  ipps : Option Registration
  deriving DecidableEq

def Registry.empty : Registry := ⟨none,none⟩

def Registry.get (r : Registry) : Service → Option Registration
  | .ipp => r.ipp
  | .ipps => r.ipps

def Registry.set (r : Registry) (service : Service) (registration : Option Registration) :
    Registry :=
  match service with
  | .ipp => { r with ipp := registration }
  | .ipps => { r with ipps := registration }

/-- The calls that are made. A TXT record is not looked at again, so its items are left out. -/
inductive MdnsCall
  | serviceAdd (service : Service) (instanceName : Bytes)
  | serviceRemove (service : Service)
  | instanceNameSet (service : Service) (instanceName : Bytes)
  | txtSet (service : Service)
  | subtypeAdd (service : Service) (instanceName : Bytes) (subtype : Subtype)
  | subtypeRemove (service : Service) (instanceName : Bytes) (subtype : Subtype)
  deriving DecidableEq

inductive MdnsError
  | fail
  | notFound
  deriving DecidableEq, Repr

def Registration.has (registration : Registration) : Subtype → Bool
  | .universal => registration.universal
  | .print => registration.print

def Registration.mark (registration : Registration) (subtype : Subtype) (present : Bool) :
    Registration :=
  match subtype with
  | .universal => { registration with universal := present }
  | .print => { registration with print := present }

/-- What a successful call makes of the registrations. A call that cannot succeed has an error
instead: a service or a subtype is not added twice, all other calls need their service, and those
about subtypes find it by its instance name. -/
def MdnsCall.effect (r : Registry) : MdnsCall → Except MdnsError Registry
  | .serviceAdd service instanceName =>
    match r.get service with
    | some _ => .error .fail
    | none => .ok (r.set service (some ⟨instanceName,false,false⟩))
  | .serviceRemove service =>
    match r.get service with
    | some _ => .ok (r.set service none)
    | none => .error .notFound
  | .instanceNameSet service instanceName =>
    match r.get service with
    | some registration => .ok (r.set service (some { registration with instanceName }))
    | none => .error .notFound
  | .txtSet service => if (r.get service).isSome then .ok r else .error .notFound
  | .subtypeAdd service instanceName subtype =>
    match r.get service with
    | some registration =>
      if registration.instanceName ≠ instanceName then .error .notFound
      else if registration.has subtype then .error .fail
      else .ok (r.set service (some (registration.mark subtype true)))
    | none => .error .notFound
  | .subtypeRemove service instanceName subtype =>
    match r.get service with
    | some registration =>
      if registration.instanceName = instanceName ∧ registration.has subtype then
        .ok (r.set service (some (registration.mark subtype false)))
      else .error .notFound
    | none => .error .notFound

/-- The calls that fail spuriously. No function makes the same call twice. -/
abbrev Faults := MdnsCall → Bool

def noFaults : Faults := fun _ => false

/-- A spurious failure has no effect. -/
def perform (faults : Faults) (r : Registry) (call : MdnsCall) : Option MdnsError × Registry :=
  match call.effect r with
  | .error e => (some e,r)
  | .ok r' => if faults call then (some .fail,r) else (none,r')

/-- One call after the other, up to the first that fails. -/
def performAll (faults : Faults) : Registry → List MdnsCall → Option MdnsError × Registry
  | r, [] => (none,r)
  | r, call :: calls =>
    match perform faults r call with
    | (none,r) => performAll faults r calls
    | (some e,r) => (some e,r)

/-! ### The bridge -/

deriving instance DecidableEq for Advertisement

/-- `memset(&s_advertisement, 0, sizeof(s_advertisement))`. -/
def Advertisement.zero : Advertisement where
  instanceName := .empty
  makeModel := .empty
  product := .empty
  pdl := .empty
  urf := .empty
  uuid := .empty
  note := .empty
  color := .empty
  duplex := .empty
  copies := .empty
  collate := .empty
  printerState := .empty
  ippEverywhere := false

/-- The selection, the chosen name, the variables of `printer_discovery.c` about its services, and
the services themselves. -/
structure Bridge where
  target : Option PrinterTarget
  printerName : Text 64
  ippAdvertised : Bool
  ippsAdvertised : Bool
  everywhereAdvertised : Bool
  serviceInstance : Text 64
  advertisement : Advertisement
  registry : Registry
  deriving DecidableEq

/-- After `mdns_init`. -/
def Bridge.initial (target : Option PrinterTarget) (printerName : Text 64) : Bridge where
  target := target
  printerName := printerName
  ippAdvertised := false
  ippsAdvertised := false
  everywhereAdvertised := false
  serviceInstance := .empty
  advertisement := .zero
  registry := .empty

section
variable (mac : Fin 6 → UInt8)

/-- What is to be advertised for a printer. -/
def Bridge.pending (b : Bridge) (t : PrinterTarget) : Advertisement :=
  printerAdvertisementBuild t (some (printerIdentityTargetUuid mac t).val) (some b.printerName.val)

def changeSubtype (add : Bool) (service : Service) (instanceName : Bytes) : MdnsCall :=
  if add then .subtypeAdd service instanceName .print
  else .subtypeRemove service instanceName .print

/-- The calls that bring registered services up to date. -/
def Bridge.updateCalls (b : Bridge) (pending : Advertisement) : List MdnsCall :=
  let name := pending.instanceName.val
  (if b.serviceInstance ≠ pending.instanceName then
    [.instanceNameSet .ipp name,.instanceNameSet .ipps name] else []) ++
  [.txtSet .ipp,.txtSet .ipps] ++
  if b.everywhereAdvertised ≠ pending.ippEverywhere then
    [changeSubtype pending.ippEverywhere .ipp name,changeSubtype pending.ippEverywhere .ipps name]
  else []

/-- The calls that register the services. -/
def publishCalls (pending : Advertisement) : List MdnsCall :=
  let name := (Text.copy 64 pending.instanceName.val).val
  let everywhere (service : Service) : List MdnsCall :=
    if pending.ippEverywhere then [.subtypeAdd service name .print] else []
  [.serviceAdd .ipp name,.subtypeAdd .ipp name .universal] ++ everywhere .ipp ++
    [.serviceAdd .ipps name] ++ everywhere .ipps

/-- `advertise_selected_locked` for services that are registered by their flags. -/
def Bridge.updateServices (faults : Faults) (b : Bridge) (pending : Advertisement) :
    Option MdnsError × Bridge :=
  match performAll faults b.registry (b.updateCalls pending) with
  | (some e,registry) => (some e,{ b with registry })
  | (none,registry) =>
    (none,{ b with
      registry
      everywhereAdvertised := pending.ippEverywhere
      serviceInstance := .copy 64 pending.instanceName.val
      advertisement := pending })

/-- `advertise_selected_locked` for services that are not; the flags are written at the end. -/
def Bridge.publishServices (faults : Faults) (b : Bridge) (pending : Advertisement) :
    Option MdnsError × Bridge :=
  let b := { b with serviceInstance := .copy 64 pending.instanceName.val }
  match performAll faults b.registry (publishCalls pending) with
  | (some e,registry) => (some e,{ b with registry })
  | (none,registry) =>
    (none,{ b with
      registry
      ippAdvertised := true
      ippsAdvertised := true
      everywhereAdvertised := pending.ippEverywhere
      advertisement := pending })

/-- `printer_discovery_advertise_selected`. -/
def printerDiscoveryAdvertiseSelected (faults : Faults) (b : Bridge) : Option MdnsError × Bridge :=
  match b.target with
  | none => (none,b)
  | some t =>
    let pending := b.pending mac t
    if b.ippAdvertised ∧ b.ippsAdvertised ∧ b.advertisement = pending then (none,b)
    else if b.ippAdvertised then b.updateServices faults pending
    else b.publishServices faults pending

/-- Removing a service that is not there counts as success. -/
def removeFailure (outcome : Option MdnsError) : Option MdnsError :=
  if outcome = some .notFound then none else outcome

def Bridge.removeIpp (faults : Faults) (b : Bridge) : Option MdnsError × Bridge :=
  if b.ippAdvertised then
    let (outcome,registry) := perform faults b.registry (.serviceRemove .ipp)
    match removeFailure outcome with
    | some e => (some e,{ b with registry })
    | none =>
      (none,{ b with
        registry
        ippAdvertised := false
        serviceInstance := .empty
        advertisement := .zero })
  else (none,b)

def Bridge.removeIpps (faults : Faults) (b : Bridge) : Option MdnsError × Bridge :=
  if b.ippsAdvertised then
    let (outcome,registry) := perform faults b.registry (.serviceRemove .ipps)
    match removeFailure outcome with
    | some e => (some e,{ b with registry })
    | none => (none,{ b with registry, ippsAdvertised := false, everywhereAdvertised := false })
  else (none,b)

/-- `printer_discovery_clear_selection` for a printer that may or may not be erased from NVS. The
first error is returned, but the second service is removed in any case. -/
def printerDiscoveryClearSelection (erased : Bool) (faults : Faults) (b : Bridge) :
    Option MdnsError × Bridge :=
  if erased then
    let (err,b) := Bridge.removeIpp faults { b with target := none }
    let (secureErr,b) := b.removeIpps faults
    (err.or secureErr,b)
  else (some .fail,b)

/-- `printer_discovery_select` for a printer that may or may not be saved. -/
def printerDiscoverySelect (saved : Bool) (t : PrinterTarget) (faults : Faults) (b : Bridge) :
    Option MdnsError × Bridge :=
  if saved then printerDiscoveryAdvertiseSelected mac faults { b with target := some t }
  else (some .fail,b)

/-- What can happen. The profile of the selected printer also changes without being advertised. -/
inductive Event
  | targetSet (t : PrinterTarget)
  | nameSet (name : Text 64)
  | select (saved : Bool) (t : PrinterTarget) (faults : Faults)
  | advertise (faults : Faults)
  | clear (erased : Bool) (faults : Faults)

def Bridge.after (b : Bridge) : Event → Bridge
  | .targetSet t => { b with target := some t }
  | .nameSet name => { b with printerName := name }
  | .select saved t faults => (printerDiscoverySelect mac saved t faults b).2
  | .advertise faults => (printerDiscoveryAdvertiseSelected mac faults b).2
  | .clear erased faults => (printerDiscoveryClearSelection erased faults b).2

def Bridge.step (b : Bridge) (event : Event) : Option Bridge := some (b.after mac event)

/-- The calls of `printer_discovery_advertise_selected`, if none fails. -/
def Bridge.advertiseCalls (b : Bridge) : List MdnsCall :=
  match b.target with
  | none => []
  | some t =>
    let pending := b.pending mac t
    if b.ippAdvertised ∧ b.ippsAdvertised ∧ b.advertisement = pending then []
    else if b.ippAdvertised then b.updateCalls pending
    else publishCalls pending

/-- The flags tell what is registered, clearing reports success only when nothing is left, and
advertising works unless an mDNS call fails for no reason. -/
structure Consistent (b : Bridge) : Prop where
  ipp : b.ippAdvertised = true ↔ b.registry.ipp.isSome = true
  ipps : b.ippsAdvertised = true ↔ b.registry.ipps.isSome = true
  cleared : ∀ erased faults, (printerDiscoveryClearSelection erased faults b).1 = none →
    (printerDiscoveryClearSelection erased faults b).2.registry = .empty
  advertises : ∀ faults, (∀ call ∈ b.advertiseCalls mac, faults call = false) →
    (printerDiscoveryAdvertiseSelected mac faults b).1 = none

/-- Everything but a TXT update changes what is registered. -/
def MdnsCall.changes : MdnsCall → Bool
  | .txtSet _ => false
  | _ => true

/-- No call fails, or one fails before any registration has been changed. -/
def AllOrNothing (faults : Faults) (calls : List MdnsCall) : Prop :=
  (∀ call ∈ calls, faults call = false) ∨
  ∀ call ∈ calls.takeWhile (fun call => !faults call), call.changes = false

/-- An operation that does not stop half-way. -/
def Whole (b : Bridge) : Event → Prop
  | .targetSet _ => True
  | .nameSet _ => True
  | .select saved t faults =>
    saved = true → AllOrNothing faults (({ b with target := some t } : Bridge).advertiseCalls mac)
  | .advertise faults => AllOrNothing faults (b.advertiseCalls mac)
  | .clear erased faults => erased = true → b.ippAdvertised = true →
    faults (.serviceRemove .ipp) = faults (.serviceRemove .ipps)

/-! ### Sequences of calls -/

variable {mac} {faults : Faults} {r r' : Registry} {calls : List MdnsCall}

theorem performAll_ok (hfaults : ∀ call ∈ calls, faults call = false)
    (h : calls.foldlM MdnsCall.effect r = .ok r') : performAll faults r calls = (none,r') := by
  induction calls generalizing r with
  | nil =>
    cases h
    rfl
  | cons call calls ih =>
    obtain ⟨hcall,hcalls⟩ := List.forall_mem_cons.mp hfaults
    rw [List.foldlM_cons] at h
    cases heffect : call.effect r with
    | error e =>
      rw [heffect] at h
      cases h
    | ok r1 =>
      rw [heffect] at h
      have hperform : perform faults r call = (none,r1) := by
        simp only [perform, heffect, hcall, Bool.false_eq_true, if_false]
      rw [performAll, hperform]
      exact ih hcalls h

theorem performAll_none (h : (performAll faults r calls).1 = none) :
    ∀ call ∈ calls, faults call = false := by
  induction calls generalizing r with
  | nil => simp
  | cons call calls ih =>
    rw [performAll, perform] at h
    cases heffect : call.effect r with
    | error e =>
      rw [heffect] at h
      cases h
    | ok r1 =>
      rw [heffect] at h
      cases hfault : faults call with
      | true =>
        simp only [hfault, if_true] at h
        cases h
      | false =>
        simp only [hfault, Bool.false_eq_true, if_false] at h
        exact List.forall_mem_cons.mpr ⟨hfault,ih h⟩

theorem effect_of_not_changes {call : MdnsCall} (hcall : call.changes = false)
    (h : call.effect r = .ok r') : r' = r := by
  cases call with
  | txtSet service =>
    simp only [MdnsCall.effect] at h
    split at h <;> cases h
    rfl
  | _ => cases hcall

theorem performAll_nothing
    (h : ∀ call ∈ calls.takeWhile (fun call => !faults call), call.changes = false) :
    (performAll faults r calls).2 = r := by
  induction calls with
  | nil => rfl
  | cons call calls ih =>
    rw [performAll, perform]
    cases heffect : call.effect r with
    | error e => rfl
    | ok r1 =>
      cases hfault : faults call with
      | true => simp only [if_true]
      | false =>
        rw [List.takeWhile_cons_of_pos (by simp [hfault])] at h
        obtain ⟨hcall,hcalls⟩ := List.forall_mem_cons.mp h
        cases effect_of_not_changes hcall heffect
        simp only [Bool.false_eq_true, if_false]
        exact ih hcalls

/-- What an operation that does not stop half-way makes of the registrations. -/
theorem performAll_cases (hwhole : AllOrNothing faults calls)
    (h : calls.foldlM MdnsCall.effect r = .ok r') :
    performAll faults r calls = (none,r') ∨ ∃ e, performAll faults r calls = (some e,r) := by
  cases hresult : (performAll faults r calls).1 with
  | none => exact .inl (performAll_ok (performAll_none hresult) h)
  | some e =>
    right
    refine ⟨e,Prod.ext hresult ?_⟩
    rcases hwhole with hall | hnothing
    · rw [performAll_ok hall h] at hresult
      cases hresult
    · exact performAll_nothing hnothing

/-! ### The registrations that the variables describe -/

/-- Both services under one name, with the print subtype or without. -/
def registered (instanceName : Bytes) (everywhere : Bool) : Registry :=
  ⟨some ⟨instanceName,true,everywhere⟩,some ⟨instanceName,false,everywhere⟩⟩

def Bridge.described (b : Bridge) : Registry :=
  if b.ippAdvertised then registered b.serviceInstance.val b.everywhereAdvertised else .empty

/-- The variables describe the registrations, and either both services are there or none is. -/
structure InStep (b : Bridge) : Prop where
  flags : b.ippsAdvertised = b.ippAdvertised
  registry : b.registry = b.described

theorem publishCalls_effect (pending : Advertisement) :
    (publishCalls pending).foldlM MdnsCall.effect .empty =
      .ok (registered pending.instanceName.val pending.ippEverywhere) := by
  rw [publishCalls, Text.copy_self]
  cases pending.ippEverywhere <;> simp [MdnsCall.effect, Registry.get, Registry.set, Registry.empty,
    Registration.has, Registration.mark, registered, Bind.bind, Except.bind, pure, Except.pure]

theorem renames_effect (name old : Bytes) (everywhere : Bool) :
    [.instanceNameSet .ipp name,.instanceNameSet .ipps name].foldlM MdnsCall.effect
      (registered old everywhere) = .ok (registered name everywhere) := rfl

theorem txtSets_effect (name : Bytes) (everywhere : Bool) :
    [.txtSet .ipp,.txtSet .ipps].foldlM MdnsCall.effect (registered name everywhere) =
      .ok (registered name everywhere) := rfl

theorem changeSubtypes_effect (name : Bytes) {old everywhere : Bool} (h : old ≠ everywhere) :
    [changeSubtype everywhere .ipp name,changeSubtype everywhere .ipps name].foldlM
      MdnsCall.effect (registered name old) = .ok (registered name everywhere) := by
  cases old <;> cases everywhere <;> simp_all [changeSubtype, MdnsCall.effect, Registry.get,
    Registry.set, Registration.has, Registration.mark, registered, Bind.bind, Except.bind, pure,
    Except.pure]

theorem foldlM_append_ok {calls' : List MdnsCall} {r'' : Registry}
    (h : calls.foldlM MdnsCall.effect r = .ok r') (h' : calls'.foldlM MdnsCall.effect r' = .ok r'') :
    (calls ++ calls').foldlM MdnsCall.effect r = .ok r'' := by
  rw [List.foldlM_append, h]
  exact h'

theorem updateCalls_effect {b : Bridge} (h : b.ippAdvertised = true) (pending : Advertisement) :
    (b.updateCalls pending).foldlM MdnsCall.effect b.described =
      .ok (registered pending.instanceName.val pending.ippEverywhere) := by
  rw [Bridge.described, if_pos h, Bridge.updateCalls]
  refine foldlM_append_ok (foldlM_append_ok ?_ (txtSets_effect pending.instanceName.val
    b.everywhereAdvertised)) ?_
  · split
    · exact renames_effect _ _ _
    · rename_i hname
      rw [not_not.mp hname]
      rfl
  · split
    · rename_i hprint
      exact changeSubtypes_effect _ hprint
    · rename_i hprint
      rw [not_not.mp hprint]
      rfl

/-! ### One operation -/

theorem InStep.updateServices {b : Bridge} {pending : Advertisement} (h : InStep b)
    (hipp : b.ippAdvertised = true) (hwhole : AllOrNothing faults (b.updateCalls pending)) :
    InStep (b.updateServices faults pending).2 ∧
      ((∀ call ∈ b.updateCalls pending, faults call = false) →
        (b.updateServices faults pending).1 = none) := by
  have heffect := updateCalls_effect hipp pending
  rw [← h.registry] at heffect
  unfold Bridge.updateServices
  refine ⟨?_,fun hall => by rw [performAll_ok hall heffect]⟩
  rcases performAll_cases hwhole heffect with hdone | ⟨e,hfailed⟩
  · rw [hdone]
    refine ⟨h.flags,?_⟩
    simp only [Bridge.described, hipp, if_true, Text.copy_self]
  · rw [hfailed]
    exact h

theorem InStep.publishServices {b : Bridge} {pending : Advertisement} (h : InStep b)
    (hipp : b.ippAdvertised = false) (hwhole : AllOrNothing faults (publishCalls pending)) :
    InStep (b.publishServices faults pending).2 ∧
      ((∀ call ∈ publishCalls pending, faults call = false) →
        (b.publishServices faults pending).1 = none) := by
  have hempty : b.registry = .empty := by
    rw [h.registry, Bridge.described, hipp]
    rfl
  have heffect := publishCalls_effect pending
  rw [← hempty] at heffect
  unfold Bridge.publishServices
  refine ⟨?_,fun hall => by simp only [performAll_ok hall heffect]⟩
  rcases performAll_cases hwhole heffect with hdone | ⟨e,hfailed⟩
  · simp only [hdone]
    refine ⟨rfl,?_⟩
    simp only [Bridge.described, if_true, Text.copy_self]
  · simp only [hfailed]
    refine ⟨h.flags,?_⟩
    simp only [Bridge.described, hipp, Bool.false_eq_true, if_false, hempty]

/-- Advertising keeps the variables in step, and works unless a call fails. -/
theorem InStep.advertise {b : Bridge} (h : InStep b)
    (hwhole : AllOrNothing faults (b.advertiseCalls mac)) :
    InStep (printerDiscoveryAdvertiseSelected mac faults b).2 ∧
      ((∀ call ∈ b.advertiseCalls mac, faults call = false) →
        (printerDiscoveryAdvertiseSelected mac faults b).1 = none) := by
  cases htarget : b.target with
  | none =>
    simp only [printerDiscoveryAdvertiseSelected, htarget]
    exact ⟨h,fun _ => trivial⟩
  | some t =>
    simp only [Bridge.advertiseCalls, printerDiscoveryAdvertiseSelected, htarget] at hwhole ⊢
    by_cases hsame : b.ippAdvertised ∧ b.ippsAdvertised ∧ b.advertisement = b.pending mac t
    · simp only [if_pos hsame]
      exact ⟨h,fun _ => trivial⟩
    simp only [if_neg hsame] at hwhole ⊢
    cases hipp : b.ippAdvertised with
    | true =>
      simp only [hipp, if_true] at hwhole ⊢
      exact h.updateServices hipp hwhole
    | false =>
      simp only [hipp, Bool.false_eq_true, if_false] at hwhole ⊢
      exact h.publishServices hipp hwhole

theorem perform_serviceRemove {service : Service} {registration : Registration}
    (h : r.get service = some registration) :
    perform faults r (.serviceRemove service) =
      if faults (.serviceRemove service) then (some .fail,r) else (none,r.set service none) := by
  simp only [perform, MdnsCall.effect, h]

theorem removeIpp_eq {b : Bridge} {registration : Registration} (hipp : b.ippAdvertised = true)
    (hregistry : b.registry.ipp = some registration) :
    b.removeIpp faults =
      if faults (.serviceRemove .ipp) then (some .fail,b)
      else (none,{ b with
        registry := { b.registry with ipp := none }
        ippAdvertised := false
        serviceInstance := .empty
        advertisement := .zero }) := by
  have hperform := @perform_serviceRemove faults b.registry .ipp registration hregistry
  rw [Bridge.removeIpp, if_pos hipp]
  simp only [hperform]
  cases faults (.serviceRemove .ipp) <;> rfl

theorem removeIpps_eq {b : Bridge} {registration : Registration} (hipps : b.ippsAdvertised = true)
    (hregistry : b.registry.ipps = some registration) :
    b.removeIpps faults =
      if faults (.serviceRemove .ipps) then (some .fail,b)
      else (none,{ b with
        registry := { b.registry with ipps := none }
        ippsAdvertised := false
        everywhereAdvertised := false }) := by
  have hperform := @perform_serviceRemove faults b.registry .ipps registration hregistry
  rw [Bridge.removeIpps, if_pos hipps]
  simp only [hperform]
  cases faults (.serviceRemove .ipps) <;> rfl

theorem clearSelection_absent {b : Bridge} (hipp : b.ippAdvertised = false)
    (hipps : b.ippsAdvertised = false) :
    printerDiscoveryClearSelection true faults b = (none,{ b with target := none }) := by
  simp [printerDiscoveryClearSelection, Bridge.removeIpp, Bridge.removeIpps, hipp, hipps]

/-- Each of the two removals succeeds or leaves its service and its flag as they are. -/
theorem clearSelection_present {b : Bridge} {ipp ipps : Registration}
    (hipp : b.ippAdvertised = true) (hipps : b.ippsAdvertised = true)
    (hregistry : b.registry = ⟨some ipp,some ipps⟩) :
    printerDiscoveryClearSelection true faults b =
      match faults (.serviceRemove .ipp), faults (.serviceRemove .ipps) with
      | true, true => (some .fail,{ b with target := none })
      | true, false => (some .fail,{ b with
          target := none
          registry := ⟨some ipp,none⟩
          ippsAdvertised := false
          everywhereAdvertised := false })
      | false, true => (some .fail,{ b with
          target := none
          registry := ⟨none,some ipps⟩
          ippAdvertised := false
          serviceInstance := .empty
          advertisement := .zero })
      | false, false => (none,{ b with
          target := none
          registry := .empty
          ippAdvertised := false
          ippsAdvertised := false
          everywhereAdvertised := false
          serviceInstance := .empty
          advertisement := .zero }) := by
  have hfirst := @removeIpp_eq faults { b with target := none } ipp hipp
    (congrArg Registry.ipp hregistry)
  rw [printerDiscoveryClearSelection, if_pos rfl, hfirst]
  cases faults (.serviceRemove .ipp) with
  | true =>
    have hsecond := @removeIpps_eq faults { b with target := none } ipps hipps
      (congrArg Registry.ipps hregistry)
    simp only [if_true, hsecond]
    cases faults (.serviceRemove .ipps) with
    | true => rfl
    | false => simp [hregistry]
  | false =>
    have hsecond := @removeIpps_eq faults { b with
      target := none
      registry := { b.registry with ipp := none }
      ippAdvertised := false
      serviceInstance := .empty
      advertisement := .zero } ipps hipps (congrArg Registry.ipps hregistry)
    simp only [Bool.false_eq_true, if_false, hsecond]
    cases faults (.serviceRemove .ipps) with
    | true => simp [hregistry]
    | false => rfl

theorem InStep.registry_eq {b : Bridge} (h : InStep b) (hipp : b.ippAdvertised = true) :
    b.registry = registered b.serviceInstance.val b.everywhereAdvertised := by
  rw [h.registry, Bridge.described, if_pos hipp]

/-- Clearing takes both services away or leaves both. -/
theorem InStep.clear {b : Bridge} (h : InStep b) {erased : Bool}
    (hwhole : erased = true → b.ippAdvertised = true →
      faults (.serviceRemove .ipp) = faults (.serviceRemove .ipps)) :
    InStep (printerDiscoveryClearSelection erased faults b).2 := by
  cases erased with
  | false => exact h
  | true =>
    cases hipp : b.ippAdvertised with
    | false =>
      rw [clearSelection_absent hipp (h.flags.trans hipp)]
      exact ⟨h.flags,h.registry⟩
    | true =>
      have hsame := hwhole rfl hipp
      rw [clearSelection_present hipp (h.flags.trans hipp) (h.registry_eq hipp), hsame]
      cases faults (.serviceRemove .ipps) with
      | true => exact ⟨h.flags,h.registry⟩
      | false => exact ⟨rfl,rfl⟩

theorem InStep.cleared {b : Bridge} (h : InStep b) {erased : Bool}
    (hok : (printerDiscoveryClearSelection erased faults b).1 = none) :
    (printerDiscoveryClearSelection erased faults b).2.registry = .empty := by
  cases erased with
  | false => cases hok
  | true =>
    cases hipp : b.ippAdvertised with
    | false =>
      rw [clearSelection_absent hipp (h.flags.trans hipp)]
      rw [h.registry, Bridge.described, hipp]
      rfl
    | true =>
      rw [clearSelection_present hipp (h.flags.trans hipp) (h.registry_eq hipp)] at hok ⊢
      cases hf : faults (.serviceRemove .ipp) <;> cases hg : faults (.serviceRemove .ipps) <;>
        simp only [hf, hg] at hok ⊢
      all_goals cases hok

theorem InStep.consistent {b : Bridge} (h : InStep b) : Consistent mac b := by
  refine ⟨?_,?_,fun erased faults hok => h.cleared hok,fun faults hall => ?_⟩
  · rw [h.registry, Bridge.described]
    cases b.ippAdvertised <;> simp [registered, Registry.empty]
  · rw [h.registry, Bridge.described, h.flags]
    cases b.ippAdvertised <;> simp [registered, Registry.empty]
  · exact (h.advertise (.inl hall)).2 hall

/-- An operation that does not stop half-way keeps the variables in step. -/
theorem InStep.after {b : Bridge} {event : Event} (h : InStep b) (hwhole : Whole mac b event) :
    InStep (b.after mac event) := by
  cases event with
  | targetSet t => exact ⟨h.flags,h.registry⟩
  | nameSet name => exact ⟨h.flags,h.registry⟩
  | select saved t faults =>
    simp only [Bridge.after, printerDiscoverySelect]
    cases saved with
    | false => exact h
    | true =>
      have hselected : InStep { b with target := some t } := ⟨h.flags,h.registry⟩
      exact (hselected.advertise (hwhole rfl)).1
  | advertise faults => exact (h.advertise hwhole).1
  | clear erased faults => exact h.clear hwhole

end

/-- The address of some bridge. -/
def someMac : Fin 6 → UInt8 := fun i => UInt8.ofNat (0x20 + i)

def subtypesFail : Faults
  | .subtypeAdd _ _ _ => true
  | _ => false

/-- The first printer is selected, and its `_universal` subtype cannot be added. -/
def halfPublished : Bridge :=
  (Bridge.initial none .empty).after someMac
    (.select true (targetFromResult silentPrinter false) subtypesFail)

end Espresso.Printer
