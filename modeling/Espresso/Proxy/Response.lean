import Espresso.Proxy.Upstream

/-! A printer's response is read whole: `read_upstream_response` of `ipp_proxy.c` and its copy
`read_response` of `printer_capabilities.c`. -/
namespace Espresso.Printer
open Codec Proxy

abbrev capabilityResponseMax : ℕ := 128 * 1024

section
variable {υ : Type} (client : HttpClient υ) (mem : Memory)

def growCapabilityResponse (length capacity : ℕ) : Except EspError ℕ :=
  if length = capacity then
    if capabilityResponseMax ≤ capacity then .error espErrInvalidSize
    else
      let next := min (capacity * 2) capabilityResponseMax
      if mem next then .ok next else .error .noMemory
  else .ok capacity

theorem growCapabilityResponse_eq : growCapabilityResponse mem = growResponse mem := rfl

/-- The loop of `read_response`. -/
def readCapabilityResponse (data : Bytes) (capacity timeoutRetries : ℕ) (u : υ) :
    Except EspError Bytes × υ :=
  match _h : growCapabilityResponse mem data.length capacity with
  | .error e => (.error e,u)
  | .ok capacity =>
    match client.read (capacity - data.length) u with
    | (.again,u) =>
      if 3 ≤ timeoutRetries + 1 then (.error espErrTimeout,u)
      else readCapabilityResponse data capacity (timeoutRetries + 1) u
    | (.failed,u) => (.error .fail,u)
    | (.data d _,u) =>
      if d = [] then (.ok data,u) else readCapabilityResponse (data ++ d) capacity 0 u
termination_by (max capacity capabilityResponseMax - data.length,3 - timeoutRetries)
decreasing_by
  · rw [growResponse_max mem _h]
    exact Prod.Lex.right _ (by omega)
  · rename_i hlen _ hd
    have hpos := List.length_pos_of_ne_nil hd
    rw [growResponse_max mem _h, List.length_append]
    have hmax := growResponse_max mem _h
    have hsame : capabilityResponseMax = responseMax := rfl
    refine Prod.Lex.left _ _ ?_
    omega

theorem readCapabilityResponse_step (data : Bytes) (capacity timeoutRetries : ℕ) (u : υ) :
    readCapabilityResponse client mem data capacity timeoutRetries u =
      match growResponse mem data.length capacity with
      | .error e => (.error e,u)
      | .ok capacity =>
        match client.read (capacity - data.length) u with
        | (.again,u) =>
          if receiveTimeoutRetries ≤ timeoutRetries + 1 then (.error espErrTimeout,u)
          else readCapabilityResponse client mem data capacity (timeoutRetries + 1) u
        | (.failed,u) => (.error .fail,u)
        | (.data d _,u) =>
          if d = [] then (.ok data,u)
          else readCapabilityResponse client mem (data ++ d) capacity 0 u := by
  rw [readCapabilityResponse, growCapabilityResponse_eq]
  split <;> rename_i hgrow <;> rw [hgrow]

def readResponse (u : υ) : Except EspError Bytes × υ :=
  if !mem 4096 then (.error .noMemory,u) else readCapabilityResponse client mem [] 4096 0 u

/-- The two loops do the same. -/
theorem readCapabilityResponse_eq (data : Bytes) (capacity timeoutRetries : ℕ) (u : υ) :
    readCapabilityResponse client mem data capacity timeoutRetries u =
      Proxy.readResponse client mem data capacity timeoutRetries u := by
  fun_induction Proxy.readResponse client mem data capacity timeoutRetries u with
  | case1 data capacity retries u e hgrow => rw [readCapabilityResponse_step, hgrow]
  | case2 data capacity retries u capacity' hgrow u' hread hretries =>
    rw [readCapabilityResponse_step, hgrow]
    simp only [hread, if_pos hretries]
  | case3 data capacity retries u capacity' hgrow u' hread hretries ih =>
    rw [readCapabilityResponse_step, hgrow]
    simp only [hread, if_neg hretries, ih]
  | case4 data capacity retries u capacity' hgrow u' hread =>
    rw [readCapabilityResponse_step, hgrow]
    simp only [hread]
  | case5 data capacity retries u capacity' hgrow hd u' hread =>
    rw [readCapabilityResponse_step, hgrow]
    simp only [hread, if_true]
  | case6 data capacity retries u capacity' hgrow d hd u' hread hne ih =>
    rw [readCapabilityResponse_step, hgrow]
    simp only [hread, if_neg hne, ih]

/-! ### What the loop makes of a body -/

/-- `R u k body`: the client at `u` still has to deliver `body`, and its last `k` reads would have
blocked. A read delivers some of the body or would block, the third time in a row never, and an
empty read means the end. -/
def Delivering (R : υ → ℕ → Bytes → Prop) : Prop :=
  ∀ u k body n, R u k body → 0 < n → match client.read n u with
    | (.again,u') => k + 1 < receiveTimeoutRetries ∧ R u' (k + 1) body
    | (.failed,_) => False
    | (.data d _,u') => ∃ rest, body = d ++ rest ∧ R u' 0 rest ∧ (d = [] → body = [])

/-- There is room for the next read. -/
theorem growResponse_ok {length capacity next : ℕ} (h : growResponse mem length capacity = .ok next)
    (hlen : length ≤ capacity) (hcap : capacity ≤ responseMax) (hpos : 0 < capacity) :
    length < next ∧ next ≤ responseMax := by
  unfold growResponse at h
  split at h
  · split at h
    · cases h
    · rename_i hmax
      simp only at h
      split at h
      · cases h
        omega
      · cases h
  · cases h
    omega

/-- With memory the buffer stops growing only where it is full at its largest. -/
theorem growResponse_error (hmem : ¬ mem.Refuses) {length capacity : ℕ} {e : EspError}
    (h : growResponse mem length capacity = .error e) (hcap : capacity ≤ responseMax) :
    length = responseMax ∧ e = espErrInvalidSize := by
  have hgrant : ∀ n, mem n = true := by
    intro n
    by_contra hn
    exact hmem ⟨n,by simpa using hn⟩
  unfold growResponse at h
  split at h
  · split at h
    · cases h
      exact ⟨by omega,rfl⟩
    · simp only [hgrant, if_true] at h
      cases h
  · cases h

/-- The loop returns what is left of the body behind what it has, if together that is less than its
buffer may hold. -/
theorem readResponse_delivering {R : υ → ℕ → Bytes → Prop} (hR : Delivering client R)
    (hmem : ¬ mem.Refuses) {data body : Bytes} {capacity timeoutRetries : ℕ} {u : υ}
    (h : R u timeoutRetries body) (hlen : data.length ≤ capacity) (hcap : capacity ≤ responseMax)
    (hpos : 0 < capacity) :
    (Proxy.readResponse client mem data capacity timeoutRetries u).1 =
      if data.length + body.length < responseMax then .ok (data ++ body)
      else .error espErrInvalidSize := by
  fun_induction Proxy.readResponse client mem data capacity timeoutRetries u generalizing body with
  | case1 data capacity retries u e hgrow =>
    obtain ⟨hfull,rfl⟩ := growResponse_error mem hmem hgrow hcap
    rw [if_neg (by omega)]
  | case2 data capacity retries u next hgrow u' hread hretries =>
    obtain ⟨hroom,-⟩ := growResponse_ok mem hgrow hlen hcap hpos
    have hgo := hR u retries body _ h (Nat.sub_pos_of_lt hroom)
    rw [hread] at hgo
    exact absurd hgo.1 (by omega)
  | case3 data capacity retries u next hgrow u' hread hretries ih =>
    obtain ⟨hroom,hnext⟩ := growResponse_ok mem hgrow hlen hcap hpos
    have hgo := hR u retries body _ h (Nat.sub_pos_of_lt hroom)
    rw [hread] at hgo
    exact ih hgo.2 hroom.le hnext (by omega)
  | case4 data capacity retries u next hgrow u' hread =>
    obtain ⟨hroom,-⟩ := growResponse_ok mem hgrow hlen hcap hpos
    have hgo := hR u retries body _ h (Nat.sub_pos_of_lt hroom)
    rw [hread] at hgo
    exact hgo.elim
  | case5 data capacity retries u next hgrow hd u' hread =>
    obtain ⟨hroom,hnext⟩ := growResponse_ok mem hgrow hlen hcap hpos
    have hgo := hR u retries body _ h (Nat.sub_pos_of_lt hroom)
    rw [hread] at hgo
    obtain ⟨rest,-,-,hend⟩ := hgo
    rw [hend rfl, List.append_nil, List.length_nil, if_pos (by omega)]
  | case6 data capacity retries u next hgrow d hd u' hread hne ih =>
    obtain ⟨hroom,hnext⟩ := growResponse_ok mem hgrow hlen hcap hpos
    have hgo := hR u retries body _ h (Nat.sub_pos_of_lt hroom)
    rw [hread] at hgo
    obtain ⟨rest,rfl,hrest,-⟩ := hgo
    have hfit : (data ++ d).length ≤ next := by
      rw [List.length_append]
      omega
    rw [ih hrest hfit hnext (by omega)]
    simp only [List.length_append, List.append_assoc, Nat.add_assoc]

theorem readUpstreamResponse_delivering {R : υ → ℕ → Bytes → Prop} (hR : Delivering client R)
    (hmem : ¬ mem.Refuses) {body : Bytes} {u : υ} (h : R u 0 body) :
    (readUpstreamResponse client mem u).1 =
      if body.length < responseMax then .ok body else .error espErrInvalidSize := by
  have hfirst : mem 4096 = true := by
    by_contra hm
    exact hmem ⟨4096,by simpa using hm⟩
  simp only [readUpstreamResponse, hfirst, Bool.not_true, Bool.false_eq_true, if_false]
  have hstart : 4096 ≤ responseMax := by decide
  simpa using readResponse_delivering client mem hR hmem h (List.length_nil.trans_le (Nat.zero_le 4096))
    hstart (by decide)

/-- The two functions agree, and every body gets the verdict its length calls for except one of
exactly the largest length: when it fills the buffer the loop gives up before the read that would
have found the end. -/
theorem readResponse_verdict {R : υ → ℕ → Bytes → Prop} (hR : Delivering client R)
    (hmem : ¬ mem.Refuses) {body : Bytes} {u : υ} (h : R u 0 body) :
    readResponse client mem u = readUpstreamResponse client mem u ∧
      (((body.length ≤ responseMax → (readUpstreamResponse client mem u).1 = .ok body) ∧
        (responseMax < body.length →
          (readUpstreamResponse client mem u).1 = .error espErrInvalidSize)) ↔
      body.length ≠ responseMax) := by
  refine ⟨?_,?_⟩
  · simp only [readResponse, readUpstreamResponse, readCapabilityResponse_eq]
  · rw [readUpstreamResponse_delivering client mem hR hmem h]
    constructor
    · rintro ⟨hwhole,-⟩ hmax
      have hok := hwhole hmax.le
      rw [if_neg (by omega)] at hok
      cases hok
    · intro hne
      refine ⟨fun hle => if_pos (by omega),fun hlt => if_neg (by omega)⟩

end

/-- A client that has the whole body at hand. -/
def readyClient : HttpClient Bytes where
  init _ u := (true,u)
  openRequest _ u := (none,u)
  write u data := (data.length,u)
  fetchHeaders u := (-1,u)
  isChunkedResponse _ := false
  statusCode _ := 200
  read n u := (.data (u.take n) (List.length_take_le n u),u.drop n)

theorem readyClient_delivering : Delivering readyClient (fun u _ body => u = body) := by
  rintro u k body n rfl hn
  refine ⟨u.drop n,(List.take_append_drop n u).symm,rfl,?_⟩
  intro h
  exact (List.take_eq_nil_iff.mp h).resolve_left (by omega)

theorem readResponse_verdict_ready : ([0x01,0x02] : Bytes).length ≠ responseMax ∧
    (readUpstreamResponse readyClient Memory.unlimited [0x01,0x02]).1 = .ok [0x01,0x02] :=
  ⟨by decide,((readResponse_verdict readyClient Memory.unlimited readyClient_delivering
    Memory.unlimited_not_refuses rfl).2.mpr (by decide)).1 (by decide)⟩

/-- A body of exactly 128 KiB is refused. -/
theorem readUpstreamResponse_full :
    (List.replicate responseMax (0 : UInt8)).length ≤ responseMax ∧
      (readUpstreamResponse readyClient Memory.unlimited (List.replicate responseMax 0)).1 =
        .error espErrInvalidSize := by
  refine ⟨(List.length_replicate ..).le,?_⟩
  rw [readUpstreamResponse_delivering readyClient Memory.unlimited readyClient_delivering
    Memory.unlimited_not_refuses rfl, List.length_replicate, if_neg (Nat.lt_irrefl _)]

end Espresso.Printer
