import Espresso.Codec.Fields
import Espresso.Printer.Capabilities

/-! The list of printers that a scan collects, from the plain results and then from the secure
ones. -/
namespace Espresso.Printer
open Codec

abbrev espressoPrinterMax : ℕ := 12

/-- A result of the scan, with the answers to the queries of its capability probe. -/
structure Discovered where
  result : MdnsResult
  query : Queries

def sameService (entry t : PrinterTarget) : Bool :=
  t.hostname.val ≠ [] && entry.hostname.val ≠ [] && strcasecmp entry.hostname.val t.hostname.val &&
    entry.resourcePath.val = t.resourcePath.val

def sameEndpoint (entry t : PrinterTarget) : Bool :=
  entry.address.val = t.address.val && entry.port = t.port &&
    entry.resourcePath.val = t.resourcePath.val

def duplicate (entry t : PrinterTarget) : Bool := sameService entry t || sameEndpoint entry t

/-- The profile after a probe, also after a failed one. -/
def probed (query : Queries) (t : PrinterTarget) : PrinterTarget :=
  match printerCapabilitiesProbe query t with
  | .ok t => t
  | .error (_,t) => t

/-- A URF list stands for its format where no formats are known. -/
def assumeUrf (t : PrinterTarget) : PrinterTarget :=
  if t.pdl.val = [] ∧ t.urf.val ≠ [] then { t with pdl := .copy 256 (octets "image/urf") } else t

/-- The printer has an address and a port, and takes URF. -/
structure Usable (t : PrinterTarget) : Prop where
  address : t.address.val ≠ []
  port : t.port ≠ 0
  pdl : (occurrence (octets "image/urf") t.pdl.val).isSome
  urf : t.urf.val ≠ []

instance (t : PrinterTarget) : Decidable (Usable t) :=
  decidable_of_iff (t.address.val ≠ [] ∧ t.port ≠ 0 ∧
      (occurrence (octets "image/urf") t.pdl.val).isSome ∧ t.urf.val ≠ [])
    ⟨fun h => ⟨h.1,h.2.1,h.2.2.1,h.2.2.2⟩,fun h => ⟨h.1,h.2,h.3,h.4⟩⟩

/-- What a result is listed as, if it is to be listed. The bridge itself is not. -/
def candidate (secure : Bool) (d : Discovered) : Option PrinterTarget :=
  if (d.result.hostname.any fun hostname => strcasecmp hostname (octets "espresso")) then none
  else
    let t := assumeUrf (probed d.query (targetFromResult d.result secure))
    if Usable t then some t else none

/-- The first duplicate is replaced if this makes it secure; without one the printer is new. -/
def place (secure : Bool) (t : PrinterTarget) : List PrinterTarget → List PrinterTarget
  | [] => [t]
  | entry :: found =>
    if duplicate entry t then
      (if secure && !entry.secureTransport then t else entry) :: found
    else entry :: place secure t found

def collectResults (secure : Bool) : List Discovered → List PrinterTarget → List PrinterTarget
  | [], found => found
  | d :: results, found =>
    if found.length < espressoPrinterMax then
      match candidate secure d with
      | none => collectResults secure results found
      | some t => collectResults secure results (place secure t found)
    else found

/-! ### What can become of a printer -/

/-- This entry is the first duplicate, and it is not secure. -/
structure Upgrades (found : List PrinterTarget) (t : PrinterTarget) (i : ℕ) : Prop where
  entry : ∃ entry, found[i]? = some entry ∧ duplicate entry t = true ∧
    entry.secureTransport = false
  first : ∀ j < i, ∀ entry, found[j]? = some entry → duplicate entry t = false

theorem Upgrades.unique {found : List PrinterTarget} {t : PrinterTarget} {i j : ℕ}
    (hi : Upgrades found t i) (hj : Upgrades found t j) : i = j := by
  obtain ⟨a,ha,hda,-⟩ := hi.entry
  obtain ⟨b,hb,hdb,-⟩ := hj.entry
  rcases lt_trichotomy i j with h | h | h
  · rw [hj.first i h a ha] at hda
    cases hda
  · exact h
  · rw [hi.first j h b hb] at hdb
    cases hdb

/-- The printer is added, or dropped as a duplicate, or it upgrades an entry. -/
theorem place_cases (secure : Bool) (t : PrinterTarget) (found : List PrinterTarget) :
    (place secure t found = found ++ [t] ∧ ∀ entry ∈ found, duplicate entry t = false) ∨
    (place secure t found = found ∧ ∃ entry ∈ found, duplicate entry t = true ∧
      (secure = true → ∀ i, ¬ Upgrades found t i)) ∨
    (secure = true ∧ ∃ i, Upgrades found t i ∧ place secure t found = found.set i t) := by
  induction found with
  | nil => exact .inl ⟨rfl,fun _ h => absurd h List.not_mem_nil⟩
  | cons e es ih =>
    by_cases hdup : duplicate e t = true
    · by_cases hup : (secure && !e.secureTransport) = true
      · refine .inr (.inr ?_)
        obtain ⟨hsecure,hplain⟩ := (Bool.and_eq_true _ _).mp hup
        have hfirst : Upgrades (e :: es) t 0 :=
          ⟨⟨e,rfl,hdup,by simpa using hplain⟩,fun j hj => absurd hj (Nat.not_lt_zero j)⟩
        refine ⟨hsecure,0,hfirst,?_⟩
        rw [place, if_pos hdup, if_pos hup, List.set_cons_zero]
      · refine .inr (.inl ⟨?_,e,List.mem_cons_self,hdup,?_⟩)
        · rw [place, if_pos hdup, if_neg hup]
        · rintro rfl i hi
          have h0 : i = 0 := by
            by_contra hne
            have := hi.first 0 (by omega) e rfl
            rw [hdup] at this
            cases this
          obtain ⟨entry,hentry,-,hplain⟩ := hi.entry
          rw [h0, List.getElem?_cons_zero, Option.some_inj] at hentry
          simp [hentry, hplain] at hup
    · have hno : duplicate e t = false := by simpa using hdup
      have hup : ∀ i, Upgrades es t i ↔ Upgrades (e :: es) t (i + 1) := by
        intro i
        constructor
        · rintro ⟨hentry,hfirst⟩
          refine ⟨hentry,fun j hj entry hj' => ?_⟩
          cases j with
          | zero =>
            rw [List.getElem?_cons_zero, Option.some_inj] at hj'
            rwa [← hj']
          | succ j => exact hfirst j (by omega) entry hj'
        · rintro ⟨hentry,hfirst⟩
          exact ⟨hentry,fun j hj entry hj' => hfirst (j + 1) (by omega) entry hj'⟩
      rw [place, if_neg hdup]
      rcases ih with ⟨heq,hall⟩ | ⟨heq,entry,hmem,hentry,hnone⟩ | ⟨hsecure,i,hi,heq⟩
      · exact .inl ⟨by rw [heq, List.cons_append],by simpa [hno] using hall⟩
      · refine .inr (.inl ⟨by rw [heq],entry,List.mem_cons_of_mem _ hmem,hentry,?_⟩)
        intro hsecure i hi
        cases i with
        | zero =>
          obtain ⟨entry,hentry,hd,-⟩ := hi.entry
          rw [List.getElem?_cons_zero, Option.some_inj] at hentry
          rw [← hentry, hno] at hd
          cases hd
        | succ i => exact hnone hsecure i ((hup i).mpr hi)
      · exact .inr (.inr ⟨hsecure,i + 1,(hup i).mp hi,by rw [heq, List.set_cons_succ]⟩)

/-! ### Runs -/

/-- The candidates among the results, until the list is full. -/
def collect (secure : Bool) : List PrinterTarget → List PrinterTarget → List PrinterTarget
  | [], found => found
  | t :: ts, found =>
    if found.length < espressoPrinterMax then collect secure ts (place secure t found) else found

theorem collect_full {secure : Bool} {found : List PrinterTarget}
    (h : ¬ found.length < espressoPrinterMax) (ts : List PrinterTarget) :
    collect secure ts found = found := by
  cases ts with
  | nil => rfl
  | cons t ts => rw [collect, if_neg h]

theorem collectResults_eq (secure : Bool) (results : List Discovered)
    (found : List PrinterTarget) :
    collectResults secure results found =
      collect secure (results.filterMap (candidate secure)) found := by
  induction results generalizing found with
  | nil => rfl
  | cons d results ih =>
    rw [collectResults, List.filterMap_cons]
    split
    · rename_i hroom
      cases candidate secure d with
      | none => exact ih found
      | some t =>
        simp only [collect, if_pos hroom]
        exact ih _
    · rename_i hfull
      rw [collect_full hfull]

theorem collect_append (secure : Bool) (ts ts' found : List PrinterTarget) :
    collect secure (ts ++ ts') found = collect secure ts' (collect secure ts found) := by
  induction ts generalizing found with
  | nil => rfl
  | cons t ts ih =>
    rw [List.cons_append, collect, collect]
    split
    · exact ih _
    · rename_i hfull
      rw [collect_full hfull]

/-- What every placement keeps, the scan keeps. -/
theorem collect_induct {P : List PrinterTarget → Prop} {secure : Bool} {ts : List PrinterTarget}
    (hplace : ∀ t ∈ ts, ∀ found, P found → P (place secure t found)) {found : List PrinterTarget}
    (h : P found) : P (collect secure ts found) := by
  induction ts generalizing found with
  | nil => exact h
  | cons t ts ih =>
    rw [collect]
    split
    · exact ih (fun t' ht' => hplace t' (List.mem_cons_of_mem _ ht'))
        (hplace t List.mem_cons_self found h)
    · exact h

/-- Secure entries stay where they are. -/
theorem place_secure {secure : Bool} {t entry : PrinterTarget} {found : List PrinterTarget} {i : ℕ}
    (hi : found[i]? = some entry) (hsecure : entry.secureTransport = true) :
    (place secure t found)[i]? = some entry := by
  have hlen : i < found.length := (List.getElem?_eq_some_iff.mp hi).1
  rcases place_cases secure t found with ⟨heq,-⟩ | ⟨heq,-⟩ | ⟨-,j,hj,heq⟩
  · rw [heq, List.getElem?_append_left hlen, hi]
  · rw [heq, hi]
  · obtain ⟨entry',hentry,-,hplain⟩ := hj.entry
    have hne : j ≠ i := by
      rintro rfl
      rw [hi, Option.some_inj] at hentry
      rw [hentry, hplain] at hsecure
      cases hsecure
    rw [heq, List.getElem?_set_ne hne, hi]

theorem collect_secure {secure : Bool} {ts found : List PrinterTarget} {entry : PrinterTarget}
    {i : ℕ} (hi : found[i]? = some entry) (hsecure : entry.secureTransport = true) :
    (collect secure ts found)[i]? = some entry :=
  collect_induct (P := fun found => found[i]? = some entry)
    (fun _ _ _ h => place_secure h hsecure) hi

/-- Placing a printer brings in no other. -/
theorem mem_place {secure : Bool} {t t' : PrinterTarget} {found : List PrinterTarget}
    (h : t' ∈ place secure t found) : t' = t ∨ t' ∈ found := by
  rcases place_cases secure t found with ⟨heq,-⟩ | ⟨heq,-⟩ | ⟨-,j,-,heq⟩
  · rw [heq, List.mem_append, List.mem_singleton] at h
    exact h.symm
  · rw [heq] at h
    exact .inr h
  · rw [heq] at h
    exact (List.mem_or_eq_of_mem_set h).symm

/-! ### Duplicates -/

theorem strcasecmp_comm (a b : Bytes) : strcasecmp a b = strcasecmp b a :=
  decide_eq_decide.mpr eq_comm

theorem duplicate_comm (a b : PrinterTarget) : duplicate a b = duplicate b a := by
  have hpath : decide (a.resourcePath.val = b.resourcePath.val) =
      decide (b.resourcePath.val = a.resourcePath.val) := decide_eq_decide.mpr eq_comm
  have haddress : decide (a.address.val = b.address.val) =
      decide (b.address.val = a.address.val) := decide_eq_decide.mpr eq_comm
  have hport : decide (a.port = b.port) = decide (b.port = a.port) := decide_eq_decide.mpr eq_comm
  have hservice : sameService a b = sameService b a := by
    rw [sameService, sameService, strcasecmp_comm, hpath,
      Bool.and_comm (decide (b.hostname.val ≠ []))]
  have hendpoint : sameEndpoint a b = sameEndpoint b a := by
    rw [sameEndpoint, sameEndpoint, haddress, hport, hpath]
  rw [duplicate, duplicate, hservice, hendpoint]

/-- No two entries are the same printer. -/
def Distinct (found : List PrinterTarget) : Prop :=
  ∀ (i j : ℕ) a b, i ≠ j → found[i]? = some a → found[j]? = some b → duplicate a b = false

/-- This entry is upgraded by one of the secure printers to come. -/
def Upgraded (i : ℕ) : List PrinterTarget → List PrinterTarget → Prop
  | _, [] => False
  | found, t :: ts => found.length < espressoPrinterMax ∧
    (Upgrades found t i ∨ Upgraded i (place true t found) ts)

/-- Where a secure printer upgrades an entry, the other entries that it duplicates are upgraded by
later ones. -/
def CollisionsResolved : List PrinterTarget → List PrinterTarget → Prop
  | _, [] => True
  | found, t :: ts => found.length < espressoPrinterMax →
    (∀ (i j : ℕ) entry, Upgrades found t i → found[j]? = some entry → j ≠ i →
      duplicate entry t = true → Upgraded j (place true t found) ts) ∧
    CollisionsResolved (place true t found) ts

/-- Only plain entries are upgraded. -/
theorem Upgraded.plain {i : ℕ} {found ts : List PrinterTarget} (h : Upgraded i found ts)
    {entry : PrinterTarget} (hi : found[i]? = some entry) : entry.secureTransport = false := by
  induction ts generalizing found with
  | nil => exact h.elim
  | cons t ts ih =>
    obtain ⟨-,hup | hlater⟩ := h
    · obtain ⟨entry',hentry,-,hplain⟩ := hup.entry
      rw [hi, Option.some_inj] at hentry
      rwa [hentry]
    · by_contra hsecure
      exact hsecure (ih hlater (place_secure hi (by simpa using hsecure)))

/-- Duplicates of the list are left to later upgrades. -/
def DuplicatesUpgraded (found ts : List PrinterTarget) : Prop :=
  ∀ (i j : ℕ) a b, i ≠ j → found[i]? = some a → found[j]? = some b → duplicate a b = true →
    Upgraded i found ts ∨ Upgraded j found ts

theorem getElem?_concat {t a : PrinterTarget} {found : List PrinterTarget} {i : ℕ}
    (h : (found ++ [t])[i]? = some a) : found[i]? = some a ∨ i = found.length ∧ a = t := by
  rcases lt_trichotomy i found.length with hlt | heq | hgt
  · rw [List.getElem?_append_left hlt] at h
    exact .inl h
  · rw [heq, List.getElem?_concat_length, Option.some_inj] at h
    exact .inr ⟨heq,h.symm⟩
  · rw [List.getElem?_eq_none (by simp; omega)] at h
    cases h

/-- A new printer is in no pair of duplicates. -/
theorem duplicate_concat {t a b : PrinterTarget} {found : List PrinterTarget}
    (hall : ∀ entry ∈ found, duplicate entry t = false) {i j : ℕ} (hne : i ≠ j)
    (hi : (found ++ [t])[i]? = some a) (hj : (found ++ [t])[j]? = some b)
    (hdup : duplicate a b = true) : found[i]? = some a ∧ found[j]? = some b := by
  rcases getElem?_concat hi with hia | ⟨hil,hat⟩
  · rcases getElem?_concat hj with hjb | ⟨-,hbt⟩
    · exact ⟨hia,hjb⟩
    · rw [hbt, hall a (List.mem_of_getElem? hia)] at hdup
      cases hdup
  · rcases getElem?_concat hj with hjb | ⟨hjl,-⟩
    · rw [hat, duplicate_comm, hall b (List.mem_of_getElem? hjb)] at hdup
      cases hdup
    · exact absurd (hil.trans hjl.symm) hne

/-- Without an upgrade, the question is the same before and after a printer. -/
theorem duplicatesUpgraded_step {t : PrinterTarget} {found ts : List PrinterTarget}
    (hroom : found.length < espressoPrinterMax) (hnone : ∀ i, ¬ Upgrades found t i)
    (hplace : place true t found = found ∨
      place true t found = found ++ [t] ∧ ∀ entry ∈ found, duplicate entry t = false) :
    DuplicatesUpgraded (place true t found) ts ↔ DuplicatesUpgraded found (t :: ts) := by
  have hup : ∀ i, Upgraded i found (t :: ts) ↔ Upgraded i (place true t found) ts := fun i =>
    ⟨fun h => h.2.resolve_left (hnone i),fun h => ⟨hroom,.inr h⟩⟩
  simp only [DuplicatesUpgraded, hup]
  rcases hplace with heq | ⟨heq,hall⟩
  · rw [heq]
  · rw [heq]
    constructor
    · intro h i j a b hne hi hj hdup
      refine h i j a b hne ?_ ?_ hdup
      · rw [List.getElem?_append_left (List.getElem?_eq_some_iff.mp hi).1, hi]
      · rw [List.getElem?_append_left (List.getElem?_eq_some_iff.mp hj).1, hj]
    · intro h i j a b hne hi hj hdup
      obtain ⟨hi,hj⟩ := duplicate_concat hall hne hi hj hdup
      exact h i j a b hne hi hj hdup

/-- The upgraded entry takes its duplicates along; those of the new one come in. -/
theorem upgrade_step {t : PrinterTarget} {found ts : List PrinterTarget} {i : ℕ}
    (hroom : found.length < espressoPrinterMax) (hi : Upgrades found t i)
    (heq : place true t found = found.set i t) (hsecure : t.secureTransport = true) :
    DuplicatesUpgraded (place true t found) ts ∧ CollisionsResolved (place true t found) ts ↔
      DuplicatesUpgraded found (t :: ts) ∧
        (∀ (i j : ℕ) entry, Upgrades found t i → found[j]? = some entry → j ≠ i →
          duplicate entry t = true → Upgraded j (place true t found) ts) ∧
        CollisionsResolved (place true t found) ts := by
  obtain ⟨entry,hentry,-,-⟩ := hi.entry
  have hself : (place true t found)[i]? = some t := by
    rw [heq, List.getElem?_set_self (List.getElem?_eq_some_iff.mp hentry).1]
  have hother : ∀ {j : ℕ}, j ≠ i → (place true t found)[j]? = found[j]? := by
    intro j hj
    rw [heq, List.getElem?_set_ne hj.symm]
  -- the new entry is secure and stays
  have hstays : ¬ Upgraded i (place true t found) ts := fun h => by
    rw [h.plain hself] at hsecure
    cases hsecure
  constructor
  · rintro ⟨hdups,hcollisions⟩
    refine ⟨fun j k a b hne hj hk hdup => ?_,fun i' j b hi' hj hne hdup => ?_,hcollisions⟩
    · by_cases hji : j = i
      · exact .inl ⟨hroom,.inl (hji ▸ hi)⟩
      by_cases hki : k = i
      · exact .inr ⟨hroom,.inl (hki ▸ hi)⟩
      rw [← hother hji] at hj
      rw [← hother hki] at hk
      exact (hdups j k a b hne hj hk hdup).imp (fun h => ⟨hroom,.inr h⟩) fun h => ⟨hroom,.inr h⟩
    · obtain rfl := hi.unique hi'
      rw [← hother hne] at hj
      exact (hdups j i b t hne hj hself hdup).resolve_right hstays
  · rintro ⟨hdups,hnew,hcollisions⟩
    refine ⟨fun j k a b hne hj hk hdup => ?_,hcollisions⟩
    by_cases hji : j = i
    · rw [hji, hself, Option.some_inj] at hj
      have hki : k ≠ i := fun h => hne (hji.trans h.symm)
      rw [hother hki] at hk
      rw [← hj, duplicate_comm] at hdup
      exact .inr (hnew i k b hi hk hki hdup)
    by_cases hki : k = i
    · rw [hki, hself, Option.some_inj] at hk
      rw [hother hji] at hj
      rw [← hk] at hdup
      exact .inl (hnew i j a hi hj hji hdup)
    rw [hother hji] at hj
    rw [hother hki] at hk
    have hlater : ∀ {l : ℕ}, l ≠ i → Upgraded l found (t :: ts) →
        Upgraded l (place true t found) ts :=
      fun hl h => h.2.resolve_left fun hup => hl (hup.unique hi)
    exact (hdups j k a b hne hj hk hdup).imp (hlater hji) (hlater hki)

/-- The secure printers leave no duplicates just if all duplicates that there are, and all that
upgrades bring about, are upgraded later. -/
theorem collect_distinct_iff {ts : List PrinterTarget}
    (hts : ∀ t ∈ ts, t.secureTransport = true) (found : List PrinterTarget) :
    Distinct (collect true ts found) ↔
      DuplicatesUpgraded found ts ∧ CollisionsResolved found ts := by
  induction ts generalizing found with
  | nil =>
    simp only [collect, Distinct, DuplicatesUpgraded, Upgraded, CollisionsResolved, or_self,
      and_true, imp_false, Bool.not_eq_true]
  | cons t ts ih =>
    by_cases hroom : found.length < espressoPrinterMax
    · rw [collect, if_pos hroom, ih (fun t' ht' => hts t' (List.mem_cons_of_mem _ ht')),
        CollisionsResolved, imp_iff_right hroom]
      rcases place_cases true t found with ⟨heq,hall⟩ | ⟨heq,-,-,-,hnone⟩ | ⟨-,i,hi,heq⟩
      · have hnone : ∀ i, ¬ Upgrades found t i := by
          intro i hi
          obtain ⟨entry,hentry,hdup,-⟩ := hi.entry
          rw [hall entry (List.mem_of_getElem? hentry)] at hdup
          cases hdup
        rw [duplicatesUpgraded_step hroom hnone (.inr ⟨heq,hall⟩),
          and_iff_right (a := ∀ i j entry, Upgrades found t i → _)
            fun i _ _ hi => absurd hi (hnone i)]
      · have hnone := hnone rfl
        rw [duplicatesUpgraded_step hroom hnone (.inl heq),
          and_iff_right (a := ∀ i j entry, Upgrades found t i → _)
            fun i _ _ hi => absurd hi (hnone i)]
      · exact upgrade_step hroom hi heq (hts t List.mem_cons_self)
    · rw [collect, if_neg hroom]
      simp only [Distinct, DuplicatesUpgraded, Upgraded, CollisionsResolved, hroom, false_and,
        or_self, false_imp_iff, and_true, imp_false, Bool.not_eq_true]

/-- Plain printers bring no duplicates. -/
theorem place_plain_distinct {t : PrinterTarget} {found : List PrinterTarget}
    (h : Distinct found) : Distinct (place false t found) := by
  rcases place_cases false t found with ⟨heq,hall⟩ | ⟨heq,-⟩ | ⟨hsecure,-⟩
  · intro i j a b hne hi hj
    rw [heq] at hi hj
    by_contra hdup
    have hdup : duplicate a b = true := by simpa using hdup
    obtain ⟨hi,hj⟩ := duplicate_concat hall hne hi hj hdup
    rw [h i j a b hne hi hj] at hdup
    cases hdup
  · rwa [heq]
  · cases hsecure

/-! ### Candidates -/

theorem candidate_some {secure : Bool} {d : Discovered} {t : PrinterTarget}
    (h : candidate secure d = some t) :
    t = assumeUrf (probed d.query (targetFromResult d.result secure)) ∧ Usable t := by
  unfold candidate at h
  obtain ⟨-,h⟩ := Option.ite_none_left_eq_some.mp h
  obtain ⟨husable,heq⟩ := Option.ite_none_right_eq_some.mp h
  cases heq
  exact ⟨rfl,husable⟩

theorem leaves_secureTransport {input : Bytes} {t t' : PrinterTarget} (h : Leaves input t t') :
    t'.secureTransport = t.secureTransport :=
  Leaves.untouched PrinterTarget.secureTransport (fun _ _ => rfl) (fun _ _ => rfl) (fun _ => rfl) h

theorem probeFormat_secureTransport (query : Queries) (n : ℕ) (t : PrinterTarget)
    (documentFormat : Bytes) :
    (probeFormat query n t documentFormat).secureTransport = t.secureTransport := by
  unfold probeFormat
  split
  · rfl
  · split
    · split
      · rename_i h
        exact leaves_secureTransport (.inl h)
      · rename_i h
        exact leaves_secureTransport (.inr ⟨_,h⟩)
    · rfl

theorem probeFormats_secureTransport (query : Queries) (n : ℕ) (t : PrinterTarget)
    (formats : List Bytes) :
    (probeFormats query n t formats).secureTransport = t.secureTransport := by
  induction formats generalizing n t with
  | nil => rfl
  | cons documentFormat rest ih =>
    rw [probeFormats, ih, probeFormat_secureTransport]

/-- The probe asks over the transport that was discovered. -/
theorem probed_secureTransport (query : Queries) (t : PrinterTarget) :
    (probed query t).secureTransport = t.secureTransport := by
  by_cases hcomplete : t.address.val = [] ∨ t.resourcePath.val = [] ∨ t.port = 0
  · rw [probed, printerCapabilitiesProbe, if_pos hcomplete]
  rw [probed, printerCapabilitiesProbe, if_neg hcomplete]
  cases hask : (askCapabilities query (clearLive t)).2 with
  | error e =>
    simp only [hask]
    rfl
  | ok response =>
    simp only [hask]
    by_cases hcode : 0x0400 ≤ ippCodecMessageCode response
    · rw [if_pos hcode]
      rfl
    · rw [if_neg hcode]
      cases happly : ippCodecApplyPrinterAttributes response (clearLive t) with
      | error r =>
        have hr : r.2.secureTransport = (clearLive t).secureTransport :=
          leaves_secureTransport (.inr ⟨r.1,happly⟩)
        exact hr
      | ok u =>
        have hu : u.secureTransport = (clearLive t).secureTransport :=
          leaves_secureTransport (.inl happly)
        simp only
        rw [ippCodecFinalizeProfile_eq]
        refine (probeFormats_secureTransport _ _ _ _).trans ?_
        split
        · exact hu
        · exact hu

theorem candidate_secureTransport {secure : Bool} {d : Discovered} {t : PrinterTarget}
    (h : candidate secure d = some t) : t.secureTransport = secure := by
  have hassume : ∀ u, (assumeUrf u).secureTransport = u.secureTransport := by
    intro u
    unfold assumeUrf
    split <;> rfl
  rw [(candidate_some h).1, hassume, probed_secureTransport, targetFromResult,
    ippCodecFinalizeProfile_eq]
  rfl

/-! ### A scan -/

/-- The list after the first `n` results. -/
def collectedAfter (plain secure : List Discovered) (n : ℕ) : List PrinterTarget :=
  collectResults true (secure.take (n - plain.length)) (collectResults false (plain.take n) [])

/-- The list after all results. -/
def collected (plain secure : List Discovered) : List PrinterTarget :=
  collectResults true secure (collectResults false plain [])

/-- Secure results that upgrade an entry duplicate no other entry for good. -/
def UpgradesApart (plain secure : List Discovered) : Prop :=
  CollisionsResolved (collectResults false plain []) (secure.filterMap (candidate true))

theorem mem_candidates {secure : Bool} {results : List Discovered} {t : PrinterTarget}
    (h : t ∈ results.filterMap (candidate secure)) : Usable t ∧ t.secureTransport = secure := by
  obtain ⟨d,-,hd⟩ := List.mem_filterMap.mp h
  exact ⟨(candidate_some hd).2,candidate_secureTransport hd⟩

theorem collectResults_usable {secure : Bool} {results : List Discovered}
    {found : List PrinterTarget} (h : ∀ t ∈ found, Usable t) :
    ∀ t ∈ collectResults secure results found, Usable t := by
  rw [collectResults_eq]
  refine collect_induct (P := fun found => ∀ t ∈ found, Usable t) (fun t ht found h t' ht' => ?_) h
  rcases mem_place ht' with rfl | ht'
  · exact (mem_candidates ht).1
  · exact h t' ht'

theorem collectResults_plain (results : List Discovered) :
    ∀ t ∈ collectResults false results [], t.secureTransport = false := by
  rw [collectResults_eq]
  refine collect_induct (P := fun found => ∀ t ∈ found, t.secureTransport = false)
    (fun t ht found h t' ht' => ?_) (fun _ h => absurd h List.not_mem_nil)
  rcases mem_place ht' with rfl | ht'
  · exact (mem_candidates ht).2
  · exact h t' ht'

theorem collectResults_append (secure : Bool) (results results' : List Discovered)
    (found : List PrinterTarget) : collectResults secure (results ++ results') found =
      collectResults secure results' (collectResults secure results found) := by
  rw [collectResults_eq, collectResults_eq, collectResults_eq, List.filterMap_append,
    collect_append]

theorem collectedAfter_secure {plain secure : List Discovered} {m n : ℕ} (hmn : m ≤ n) {i : ℕ}
    {entry : PrinterTarget} (hi : (collectedAfter plain secure m)[i]? = some entry)
    (hsecure : entry.secureTransport = true) :
    (collectedAfter plain secure n)[i]? = some entry := by
  rcases Nat.lt_or_ge plain.length m with hm | hm
  · have hsplit : secure.take (n - plain.length) = secure.take (m - plain.length) ++
        (secure.drop (m - plain.length)).take (n - m) := by
      rw [← List.take_add]
      congr 1
      omega
    rw [collectedAfter, List.take_of_length_le hm.le] at hi
    rw [collectedAfter, List.take_of_length_le (l := plain) (by omega), hsplit,
      collectResults_append, collectResults_eq]
    exact collect_secure hi hsecure
  · rw [collectedAfter, Nat.sub_eq_zero_of_le hm, List.take_zero] at hi
    have hplain := collectResults_plain (plain.take m) entry (List.mem_of_getElem? hi)
    rw [hsecure] at hplain
    cases hplain

/-- The list after a scan has no duplicates just if upgrades stay apart; all its printers are
usable, and no result replaces a secure one. -/
theorem collected_distinct_iff (plain secure : List Discovered) :
    (Distinct (collected plain secure) ↔ UpgradesApart plain secure) ∧
    (∀ t ∈ collected plain secure, Usable t) ∧
    ∀ m n (i : ℕ) entry, m ≤ n → (collectedAfter plain secure m)[i]? = some entry →
      entry.secureTransport = true → (collectedAfter plain secure n)[i]? = some entry := by
  refine ⟨?_,?_,fun m n i entry hmn hi hsecure => collectedAfter_secure hmn hi hsecure⟩
  · have hplain : Distinct (collectResults false plain []) := by
      rw [collectResults_eq]
      refine collect_induct (fun _ _ _ h => place_plain_distinct h) ?_
      rintro i j a b - hi
      cases hi
    rw [collected, collectResults_eq, collect_distinct_iff fun t ht => (mem_candidates ht).2]
    refine and_iff_right fun i j a b hne hi hj hdup => ?_
    rw [hplain i j a b hne hi hj] at hdup
    cases hdup
  · exact collectResults_usable (collectResults_usable fun _ h => absurd h List.not_mem_nil)

/-- A result of a printer that answers no query. -/
def silentResult (hostname address : String) : Discovered where
  result := { silentPrinter with
    hostname := some (octets hostname)
    addresses := [.v4 (octets address)] }
  query := fun _ _ => .error .fail

/-- The secure result upgrades the first printer, whose name it has, and has the address of the
second. -/
theorem collected_duplicate : ¬ Distinct (collected
    [silentResult "acme" "192.168.1.20", silentResult "office" "192.168.1.21"]
    [silentResult "acme" "192.168.1.21"]) := by
  have heval : ((collected
        [silentResult "acme" "192.168.1.20", silentResult "office" "192.168.1.21"]
        [silentResult "acme" "192.168.1.21"])[0]?.any fun a => (collected
        [silentResult "acme" "192.168.1.20", silentResult "office" "192.168.1.21"]
        [silentResult "acme" "192.168.1.21"])[1]?.any fun b => duplicate a b) = true := by
    decide +kernel
  intro h
  obtain ⟨a,ha,hb⟩ := (Option.any_eq_true _ _).mp heval
  obtain ⟨b,hb,hdup⟩ := (Option.any_eq_true _ _).mp hb
  rw [h 0 1 a b (by decide) ha hb] at hdup
  cases hdup

end Espresso.Printer
