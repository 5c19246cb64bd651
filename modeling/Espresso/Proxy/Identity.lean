import Espresso.Codec.Endpoints
import Espresso.Printer.Publication
import Espresso.Proxy.Refresh

/-! The identity of the facade in the reply to a Get-Printer-Attributes request and in the TXT
record that is published when the exchange is over. -/
namespace Espresso.Proxy
open Callback Codec Http Jobs Printer

/-! ### The identity of a profile -/

section
variable (mac : Fin 6 → UInt8) (t : PrinterTarget)

theorem hexField_cons (width n : ℕ) : ∃ c rest, hexField (width + 1) n = c :: rest ∧
    c ≠ 0 ∧ c ≠ 0x75 := by
  refine ⟨_,_,by rw [hexField, List.range_succ, List.reverse_concat, List.map_cons],?_⟩
  have hdigits : ∀ digit : Fin 16, UInt8.ofNat (if digit.val < 10 then 0x30 + digit.val
      else 0x57 + digit.val) ≠ 0 ∧ UInt8.ofNat (if digit.val < 10 then 0x30 + digit.val
      else 0x57 + digit.val) ≠ 0x75 := by decide +kernel
  exact hdigits ⟨n / 16 ^ width % 16,Nat.mod_lt _ (by decide)⟩

/-- An identity begins with a digit, and so is no URN. -/
theorem identity_cons : ∃ c rest, (printerIdentityTargetUuid mac t).val = c :: rest ∧
    c ≠ 0x75 := by
  rw [printerIdentityTargetUuid]
  generalize UInt64.toNat _ = hash
  obtain ⟨c,rest,hfield,hzero,hurn⟩ := hexField_cons 7 (hash / 2 ^ 32)
  have hcopy : ∀ b : Bytes, (Text.copy 64 (c :: b)).val = c :: cstr (b.take 62) := by
    intro b
    change cstr ((c :: b).take 63) = _
    rw [List.take_succ_cons, cstr, List.takeWhile_cons_of_pos (by simpa using hzero), cstr]
  simp only [hfield, List.cons_append, hcopy]
  exact ⟨c,_,rfl,hurn⟩

theorem uuidUrn_identity : uuidUrn (printerIdentityTargetUuid mac t).val =
    octets "urn:uuid:" ++ (printerIdentityTargetUuid mac t).val := by
  obtain ⟨c,rest,hval,hurn⟩ := identity_cons mac t
  have hprefix : (octets "urn:uuid:").isPrefixOf (c :: rest) = false := by
    have hscheme : octets "urn:uuid:" = 0x75 :: octets "rn:uuid:" := by decide +kernel
    rw [hscheme, List.isPrefixOf_cons_cons, beq_eq_false_iff_ne.mpr (Ne.symm hurn), Bool.false_and]
  have hlength := (printerIdentityTargetUuid mac t).property.2
  rw [uuidUrn, hval, hprefix, ← hval, if_neg (by simp), List.take_of_length_le (by omega)]

theorem uuidUrn_identity_inj {t' : PrinterTarget} :
    uuidUrn (printerIdentityTargetUuid mac t).val = uuidUrn (printerIdentityTargetUuid mac t').val ↔
      printerIdentityTargetUuid mac t = printerIdentityTargetUuid mac t' := by
  rw [uuidUrn_identity, uuidUrn_identity, List.append_cancel_left_eq]
  exact Subtype.ext_iff.symm

/-- The hash goes over these fields. -/
theorem printerIdentityTargetUuid_congr {t' : PrinterTarget} (huuid : t'.uuid = t.uuid)
    (hhostname : t'.hostname = t.hostname) (hinstance : t'.instanceName = t.instanceName)
    (hpath : t'.resourcePath = t.resourcePath) (hport : t'.port = t.port) :
    printerIdentityTargetUuid mac t' = printerIdentityTargetUuid mac t := by
  simp only [printerIdentityTargetUuid, huuid, hhostname, hinstance, hpath, hport]

/-- Of these fields, a response changes the UUID alone. -/
theorem identity_refreshed (response : Bytes) :
    printerIdentityTargetUuid mac (refreshed t response) =
      printerIdentityTargetUuid mac
        { t with uuid := (lastWritten Record.newUuid (responseRecords response)).getD t.uuid } := by
  apply printerIdentityTargetUuid_congr
  · exact view_written (fun t => t.uuid) (fun _ _ => rfl) (fun _ _ => rfl) _ response
  · exact refreshed_untouched (fun t => t.hostname) (fun _ _ => rfl) fun _ => rfl
  · exact refreshed_untouched (fun t => t.instanceName) (fun _ _ => rfl) fun _ => rfl
  · exact refreshed_untouched (fun t => t.resourcePath) (fun _ _ => rfl) fun _ => rfl
  · exact refreshed_untouched (fun t => t.port) (fun _ _ => rfl) fun _ => rfl

end

/-! ### The reply -/

/-- The values of `printer-uuid` in a message. -/
def reportedUuids (message : Bytes) : List Bytes :=
  match decode message with
  | .ok e => (e.printerValues "printer-uuid").map Prod.snd
  | .error _ => []

theorem reportedUuids_of_decode {message : Bytes} {e : Envelope} (he : decode message = .ok e) :
    reportedUuids message = (e.printerValues "printer-uuid").map Prod.snd := by
  rw [reportedUuids, he]

/-- The version of a message is no part of its attributes. -/
theorem reportedUuids_setVersion {message : Bytes} {e : Envelope} (he : decode message = .ok e)
    (major minor : UInt8) : reportedUuids (setVersion major minor message) =
      reportedUuids message := by
  have hlength : ([major,minor] ++ e.header.drop 2).length = ippHeaderLength := by
    rw [List.length_append, List.length_drop, e.header_length]
    rfl
  have hset : decode (setVersion major minor message) =
      .ok { e with header := [major,minor] ++ e.header.drop 2, header_length := hlength } := by
    have hheader : 2 ≤ e.header.length := by
      rw [e.header_length]
      decide
    rw [decode_eq_ok_iff, setVersion, ← encode_of_decode he, Envelope.encode_eq,
      Envelope.encode_eq, List.drop_append_of_le_length hheader, List.append_assoc]
  rw [reportedUuids_of_decode hset, reportedUuids_of_decode he]
  rfl

theorem printerValues_filtered {e e' : Envelope} {requested : Bytes} (name : String)
    (h : e'.records = e.records.filter fun r =>
      !filtersOut .printer requested r.group r.attributeName) :
    e'.printerValues name =
      if filtersOut .printer requested Tag.printerAttributes (octets name) then []
      else e.printerValues name := by
  rw [Envelope.printerValues, Envelope.valuesOf, h, List.filter_filter]
  by_cases hout : filtersOut .printer requested Tag.printerAttributes (octets name) = true
  · rw [if_pos hout, List.map_eq_nil_iff, List.filter_eq_nil_iff]
    rintro r - hr
    obtain ⟨hcond,hin⟩ := (Bool.and_eq_true _ _).mp hr
    obtain ⟨hgroup,hname⟩ := of_decide_eq_true hcond
    rw [hgroup, hname, hout] at hin
    cases hin
  · rw [if_neg hout, Envelope.printerValues, Envelope.valuesOf]
    congr 1
    refine List.filter_congr fun r _ => ?_
    by_cases hcond : r.group = Tag.printerAttributes ∧ r.attributeName = octets name
    · simp [hcond.1, hcond.2, hout]
    · simp [hcond]

/-- A response to a query that succeeds carries the identity it is given, one that fails carries
what the printer says. -/
theorem reportedUuids_normalized {hundredths : Bytes → ℕ → Option ℕ} {mem : Memory}
    {response out printerUri authority localUuid : Bytes} {t : PrinterTarget} {k : ℕ}
    (hzero : 0 ∉ localUuid) (hne : localUuid ≠ [])
    (h : ippCodecNormalizePrinterResponse hundredths mem response printerUri authority localUuid t =
      .ok (out,k)) :
    ∃ e', decode out = .ok e' ∧ (e'.printerValues "printer-uuid").map Prod.snd =
      if ippCodecMessageCode response < 0x0400 then [uuidUrn localUuid]
      else reportedUuids response := by
  have huri : ∀ tag, isRewritten tag (octets "printer-uuid") = false := by
    intro tag
    simp [isRewritten, rewrittenNames, octets_inj]
  by_cases hstatus : ippCodecMessageCode response < 0x0400
  · obtain ⟨e,e',-,he',-,-,hrecords,-⟩ := normalize_ok h hstatus
    refine ⟨e',he',?_⟩
    have hvalues := normalize_replaced_values hrecords
      (s := ⟨Present.uuid,"printer-uuid",
        only (cstr localUuid ≠ []) [(Tag.uri,uuidUrn (cstr localUuid))]⟩)
      (by simp [standins]) (show isReplaced (octets "printer-uuid") = true by decide +kernel)
    rw [if_pos hstatus, hvalues, cstr_eq_self hzero]
    simp [only, hne]
  · rw [ippCodecNormalizePrinterResponse, if_pos (not_lt.mp hstatus)] at h
    obtain ⟨e,e',he,he',-,-,-,hrecords⟩ := ippCodecRewrite_ok printerUri authority h
    refine ⟨e',he',?_⟩
    rw [if_neg hstatus, reportedUuids_of_decode he, Envelope.printerValues, Envelope.valuesOf,
      hrecords, filter_rewritten printerUri authority fun r _ _ hname => hname ▸ huri r.tag]
    rfl

theorem translate_query {hundredths : Bytes → ℕ → Option ℕ} {heap : Heaps}
    {mac : Fin 6 → UInt8} {secure : Bool} {q : Relayed} {response out : Bytes}
    (hquery : q.queriesPrinter = true)
    (h : translate hundredths heap mac secure q response = .ok out) :
    ∃ normalized k k',
      ippCodecNormalizePrinterResponse hundredths heap.answer response (localPrinterUri secure)
        (localAuthority secure) (printerIdentityTargetUuid mac q.target).val
        ((updatedProfile q.target response).getD q.target) = .ok (normalized,k) ∧
      ippCodecFilterPrinterResponse heap.filter q.info.requestedAttributes.val normalized =
        .ok (out,k') := by
  simp only [translate, hquery, if_true] at h
  cases hnormalized : ippCodecNormalizePrinterResponse hundredths heap.answer response
      (localPrinterUri secure) (localAuthority secure) (printerIdentityTargetUuid mac q.target).val
      ((updatedProfile q.target response).getD q.target) with
  | error f =>
    rw [hnormalized] at h
    cases h
  | ok result =>
    obtain ⟨normalized,k⟩ := result
    rw [hnormalized] at h
    cases hfiltered : ippCodecFilterPrinterResponse heap.filter q.info.requestedAttributes.val
        normalized with
    | error f =>
      replace h : (ippCodecFilterPrinterResponse heap.filter q.info.requestedAttributes.val
        normalized >>= fun filtered => pure filtered.1) = Except.ok out := h
      rw [hfiltered] at h
      cases h
    | ok result' =>
      obtain ⟨filtered,k'⟩ := result'
      replace h : (ippCodecFilterPrinterResponse heap.filter q.info.requestedAttributes.val
        normalized >>= fun filtered => pure filtered.1) = Except.ok out := h
      rw [hfiltered] at h
      cases h
      exact ⟨normalized,k,k',rfl,hfiltered⟩

/-- Once it is normalised, a response needs nothing but memory. -/
theorem translate_succeeds {hundredths : Bytes → ℕ → Option ℕ} {heap : Heaps}
    {mac : Fin 6 → UInt8} {secure : Bool} {q : Relayed} {response normalized : Bytes} {k : ℕ}
    (hquery : q.queriesPrinter = true)
    (hnormalized : ippCodecNormalizePrinterResponse hundredths heap.answer response
      (localPrinterUri secure) (localAuthority secure) (printerIdentityTargetUuid mac q.target).val
      ((updatedProfile q.target response).getD q.target) = .ok (normalized,k))
    (hmem : ¬ heap.filter.Refuses) :
    ∃ out, translate hundredths heap mac secure q response = .ok out := by
  obtain ⟨c,rest,hval,-⟩ := identity_cons mac q.target
  obtain ⟨e,he,-⟩ := reportedUuids_normalized (printerIdentityTargetUuid mac q.target).property.1
    (by rw [hval]; exact List.cons_ne_nil _ _) hnormalized
  obtain ⟨out,k',hfiltered⟩ : ∃ out k', ippCodecFilterResponse heap.filter .printer
      q.info.requestedAttributes.val normalized = .ok (out,k') :=
    ippCodecFilterResponse_succeeds hmem he
  refine ⟨out,?_⟩
  simp only [translate, hquery, if_true, hnormalized, ippCodecFilterPrinterResponse]
  change (ippCodecFilterResponse heap.filter .printer q.info.requestedAttributes.val normalized
    >>= fun filtered => pure filtered.1) = Except.ok out
  rw [hfiltered]
  rfl

theorem decode_of_normalize {hundredths : Bytes → ℕ → Option ℕ} {mem : Memory}
    {response out printerUri authority localUuid : Bytes} {t : PrinterTarget} {k : ℕ}
    (h : ippCodecNormalizePrinterResponse hundredths mem response printerUri authority localUuid t =
      .ok (out,k)) : ∃ e, decode response = .ok e := by
  by_cases hstatus : ippCodecMessageCode response < 0x0400
  · obtain ⟨e,-,he,-⟩ := normalize_ok h hstatus
    exact ⟨e,he⟩
  · rw [ippCodecNormalizePrinterResponse, if_pos (not_lt.mp hstatus)] at h
    obtain ⟨e,-,he,-⟩ := ippCodecRewrite_ok printerUri authority h
    exact ⟨e,he⟩

/-- The identities in the reply to a query. -/
theorem reportedUuids_translate {hundredths : Bytes → ℕ → Option ℕ} {heap : Heaps}
    {mac : Fin 6 → UInt8} {secure : Bool} {q : Relayed} {response out : Bytes}
    (hquery : q.queriesPrinter = true)
    (h : translate hundredths heap mac secure q response = .ok out) (major minor : UInt8) :
    reportedUuids (setVersion major minor out) =
      if filtersOut .printer q.info.requestedAttributes.val Tag.printerAttributes
        (octets "printer-uuid") then []
      else if ippCodecMessageCode response < 0x0400 then
        [uuidUrn (printerIdentityTargetUuid mac q.target).val]
      else reportedUuids response := by
  obtain ⟨normalized,k,k',hnormalized,hfiltered⟩ := translate_query hquery h
  obtain ⟨c,rest,hval,-⟩ := identity_cons mac q.target
  obtain ⟨e1,he1,hvalues⟩ := reportedUuids_normalized
    (printerIdentityTargetUuid mac q.target).property.1 (by rw [hval]; exact List.cons_ne_nil _ _)
    hnormalized
  obtain ⟨e2,e',he2,he',-,-,-,hrecords⟩ := ippCodecFilterResponse_ok hfiltered
  cases he1.symm.trans he2
  rw [reportedUuids_setVersion he', reportedUuids_of_decode he',
    printerValues_filtered "printer-uuid" hrecords, ← hvalues]
  split
  · rfl
  · rfl

/-! ### The exchange -/

section
variable {σ υ : Type} {env : Environment σ υ} {beside : Beside}

/-- A reply with a message of the printer is the translation of what it answered. -/
theorem relay_reply {q : Relayed} {c : Request × σ} {u : υ} {h : JobHistory}
    {served : Served σ υ} {response body : Bytes}
    (hserved : relay env beside q c u h = some served)
    (hresponse : served.response = some response) (hreply : served.reply = .response body) :
    ∃ out, translate env.hundredths env.heap env.mac env.secure q response = .ok out ∧
      body = setVersion q.info.major q.info.minor out := by
  unfold relay at hserved
  simp only at hserved
  split at hserved
  · cases hserved
    cases hresponse
  · split at hserved
    · cases hserved
    · cases hserved
      cases hresponse
    · split at hserved
      · cases hserved
        cases hresponse
      · split at hserved
        · cases hserved
          cases hreply
        · rename_i out htranslate
          cases hserved
          cases hresponse
          cases hreply
          exact ⟨out,htranslate,rfl⟩

end

section
variable (mac : Fin 6 → UInt8)

/-- What an answered query does about the selection, if it says anything new: the profile in memory
is updated, unless it has no address, and the services are advertised again. -/
def refreshSelection (faults : Faults) (profile : Option PrinterTarget) (b : Bridge) :
    Option MdnsError × Bridge :=
  match profile with
  | some updated => printerDiscoveryAdvertiseSelected mac faults
      { b with target := if State.storable updated then some updated else b.target }
  | none => (none,b)

/-- The services are advertised for this printer, as it is known. -/
structure Current (t : PrinterTarget) (b : Bridge) : Prop where
  target : b.target = some t
  ipp : b.ippAdvertised = true
  ipps : b.ippsAdvertised = true
  advertisement : b.advertisement = b.pending mac t

/-- The profile with the UUID that the response brings; one without an address is not updated. -/
def identified (t : PrinterTarget) (response : Bytes) : PrinterTarget :=
  if State.storable t then
    { t with uuid := (lastWritten Record.newUuid (responseRecords response)).getD t.uuid }
  else t

/-- The client does not ask for the UUID; or the printer's has no effect on the identity; or the
query fails, and what the printer says is the identity all the same. -/
def SameIdentity (t : PrinterTarget) (requested response : Bytes) : Prop :=
  filtersOut .printer requested Tag.printerAttributes (octets "printer-uuid") = true ∨
    if ippCodecMessageCode response < 0x0400 then
      printerIdentityTargetUuid mac (identified t response) = printerIdentityTargetUuid mac t
    else ∀ v ∈ reportedUuids response,
      v = uuidUrn (printerIdentityTargetUuid mac (identified t response)).val

variable {mac} {faults : Faults} {b : Bridge} {t : PrinterTarget}

/-- Advertising that succeeds has published what is known of the selected printer. -/
theorem advertise_published (htarget : b.target = some t)
    (h : (printerDiscoveryAdvertiseSelected mac faults b).1 = none) :
    (printerDiscoveryAdvertiseSelected mac faults b).2.advertisement = b.pending mac t := by
  unfold printerDiscoveryAdvertiseSelected at h ⊢
  rw [htarget] at h ⊢
  simp only at h ⊢
  split
  · rename_i hcurrent
    exact hcurrent.2.2
  · rename_i hchanged
    rw [if_neg hchanged] at h
    split
    · rename_i hipp
      rw [if_pos hipp] at h
      unfold Bridge.updateServices at h ⊢
      split
      · rename_i hperform
        rw [hperform] at h
        cases h
      · rfl
    · rename_i hipp
      rw [if_neg hipp] at h
      unfold Bridge.publishServices at h ⊢
      simp only at h ⊢
      split
      · rename_i hperform
        rw [hperform] at h
        cases h
      · rfl

theorem pending_uuid (b : Bridge) (t : PrinterTarget) :
    (b.pending mac t).uuid = printerIdentityTargetUuid mac t := by
  rw [Bridge.pending, printerAdvertisementBuild_uuid, Option.getD_some]
  exact Text.copy_self _

/-- The UUID that is published when the exchange is over. -/
theorem refreshSelection_uuid {e : Envelope} {response : Bytes} (he : decode response = .ok e)
    (hcurrent : Current mac t b)
    (h : (refreshSelection mac faults (updatedProfile t response) b).1 = none) :
    (refreshSelection mac faults (updatedProfile t response) b).2.advertisement.uuid =
      printerIdentityTargetUuid mac (identified t response) := by
  have hstored : printerIdentityTargetUuid mac (identified t response) =
      printerIdentityTargetUuid mac (if State.storable t then refreshed t response else t) := by
    rw [identified]
    cases State.storable t with
    | false => rfl
    | true =>
      rw [if_pos rfl, if_pos rfl]
      exact (identity_refreshed mac t response).symm
  rw [hstored]
  rw [updatedProfile_of_decode he] at h ⊢
  by_cases hsame : refreshed t response = t
  · rw [if_neg (not_not.mpr hsame), hsame, ite_self]
    change b.advertisement.uuid = _
    rw [hcurrent.advertisement, pending_uuid]
  · rw [if_pos hsame] at h ⊢
    simp only [refreshSelection, storable_refreshed, hcurrent.target] at h ⊢
    have htarget : (if State.storable t = true then some (refreshed t response) else some t) =
        some (if State.storable t = true then refreshed t response else t) := by
      split <;> rfl
    rw [htarget] at h ⊢
    rw [advertise_published rfl h]
    exact pending_uuid _ _

end

section
variable {σ υ : Type} {env : Environment σ υ} {beside : Beside} {t : PrinterTarget}
  {c : Request × σ} {u : υ} {h : JobHistory} {served : Served σ υ} {info : RequestInfo} {id : ℕ}
  {response body : Bytes} {faults : Faults} {b : Bridge}

/-- What the client is told, and what is published. -/
theorem proxyHandler_uuids
    (hserved : proxyHandler env beside (some t) c u h = some served)
    (hjob : served.job = some (info,id))
    (hquery : info.operationId = Operation.getPrinterAttributes)
    (hresponse : served.response = some response) (hreply : served.reply = .response body)
    (hcurrent : Current env.mac t b)
    (hpublished : (refreshSelection env.mac faults served.profile b).1 = none) :
    reportedUuids body =
      (if filtersOut .printer info.requestedAttributes.val Tag.printerAttributes
        (octets "printer-uuid") then []
      else if ippCodecMessageCode response < 0x0400 then
        [uuidUrn (printerIdentityTargetUuid env.mac t).val]
      else reportedUuids response) ∧
    (refreshSelection env.mac faults served.profile b).2.advertisement.uuid =
      printerIdentityTargetUuid env.mac (identified t response) := by
  obtain ⟨q,c',hrelay,rfl,rfl⟩ := proxyHandler_relays hserved hjob
  obtain ⟨out,htranslate,rfl⟩ := relay_reply hrelay hresponse hreply
  have hqueries : q.queriesPrinter = true := decide_eq_true hquery
  obtain ⟨normalized,k,-,hnormalized,-⟩ := translate_query hqueries htranslate
  obtain ⟨e,he⟩ := decode_of_normalize hnormalized
  rw [proxyHandler_profile hserved hjob hquery hresponse] at hpublished ⊢
  exact ⟨reportedUuids_translate hqueries htranslate _ _,
    refreshSelection_uuid he hcurrent hpublished⟩

/-- The client is told the identity that is published exactly if the printer's answer leaves it as
it was, or the client is told none. -/
theorem proxyHandler_identity_iff
    (hserved : proxyHandler env beside (some t) c u h = some served)
    (hjob : served.job = some (info,id))
    (hquery : info.operationId = Operation.getPrinterAttributes)
    (hresponse : served.response = some response) (hreply : served.reply = .response body)
    (hcurrent : Current env.mac t b)
    (hpublished : (refreshSelection env.mac faults served.profile b).1 = none) :
    (∀ v ∈ reportedUuids body, v = uuidUrn
      (refreshSelection env.mac faults served.profile b).2.advertisement.uuid.val) ↔
    SameIdentity env.mac t info.requestedAttributes.val response := by
  obtain ⟨hreported,huuid⟩ :=
    proxyHandler_uuids hserved hjob hquery hresponse hreply hcurrent hpublished
  rw [hreported, huuid, SameIdentity]
  by_cases hout : filtersOut .printer info.requestedAttributes.val Tag.printerAttributes
      (octets "printer-uuid") = true
  · rw [if_pos hout]
    exact iff_of_true nofun (.inl hout)
  · rw [if_neg hout, or_iff_right hout]
    split
    · rw [List.forall_mem_singleton, uuidUrn_identity_inj, eq_comm]
    · rfl

end

/-- The printer says who it is. -/
def identifiedResponse : Envelope where
  header := [2,0,0,0,0,0,0,1]
  items := [.group Tag.operationAttributes,
    named Tag.charset "attributes-charset" (octets "utf-8"),
    named Tag.language "attributes-natural-language" (octets "en"),
    .group Tag.printerAttributes,
    named Tag.uri "printer-uuid" (octets "urn:uuid:6b2c9d4e-1f00-4a7b-8c1d-00112233aabb")]
  document := []
  header_length := literalHeader_length
  items_ok := by decide +kernel

/-- A bridge on which this printer has been selected. -/
def selectedBridge (t : PrinterTarget) : Bridge :=
  (printerDiscoverySelect smoothEnvironment.mac true t noFaults (.initial none .empty)).2

theorem relaysTo_identified :
    relaysTo pdfPrinter attributesRequest.encode identifiedResponse.encode
      attributesRequest.inspect = true := by decide +kernel

/-- An exchange with a printer that has been selected without a UUID, and reports one. -/
theorem proxyHandler_identified :
    ∃ served id body, proxyHandler smoothEnvironment quietBeside (some pdfPrinter)
        (ippRequest attributesRequest.encode.length,attributesRequest.encode)
        ([],identifiedResponse.encode) .init = some served ∧
      served.job = some (attributesRequest.inspect,id) ∧
      attributesRequest.inspect.operationId = Operation.getPrinterAttributes ∧
      served.response = some identifiedResponse.encode ∧ served.reply = .response body ∧
      Current smoothEnvironment.mac pdfPrinter (selectedBridge pdfPrinter) ∧
      (refreshSelection smoothEnvironment.mac noFaults served.profile
        (selectedBridge pdfPrinter)).1 = none := by
  obtain ⟨served,id,hrun,hjob,hresponse,hreply⟩ :=
    proxyHandler_of_relaysTo relaysTo_identified (by decide +kernel) (by decide +kernel)
  have hquery : attributesRequest.inspect.operationId = Operation.getPrinterAttributes := by
    decide +kernel
  obtain ⟨⟨normalized,k⟩,hnormalized⟩ := exists_of_isOk (show (ippCodecNormalizePrinterResponse
    smoothEnvironment.hundredths .unlimited identifiedResponse.encode (localPrinterUri false)
    (localAuthority false) (printerIdentityTargetUuid smoothEnvironment.mac pdfPrinter).val
    ((updatedProfile pdfPrinter identifiedResponse.encode).getD pdfPrinter)).isOk = true by
      decide +kernel)
  obtain ⟨out,hout⟩ : ∃ out, translate smoothEnvironment.hundredths unlimitedHeaps
      smoothEnvironment.mac false ⟨attributesRequest.inspect,pdfPrinter,[],false,0⟩
      identifiedResponse.encode = .ok out :=
    translate_succeeds (decide_eq_true hquery) hnormalized Memory.unlimited_not_refuses
  have hcurrent : Current smoothEnvironment.mac pdfPrinter (selectedBridge pdfPrinter) :=
    ⟨by decide +kernel,by decide +kernel,by decide +kernel,by decide +kernel⟩
  refine ⟨served,id,_,hrun,hjob,hquery,hresponse,hreply out hout,hcurrent,?_⟩
  rw [proxyHandler_profile hrun hjob hquery hresponse]
  decide +kernel

/-- The client is still told the old identity, while the new one is already published. -/
theorem proxyHandler_two_identities :
    ∃ served id body, proxyHandler smoothEnvironment quietBeside (some pdfPrinter)
        (ippRequest attributesRequest.encode.length,attributesRequest.encode)
        ([],identifiedResponse.encode) .init = some served ∧
      served.job = some (attributesRequest.inspect,id) ∧
      attributesRequest.inspect.operationId = Operation.getPrinterAttributes ∧
      served.response = some identifiedResponse.encode ∧ served.reply = .response body ∧
      Current smoothEnvironment.mac pdfPrinter (selectedBridge pdfPrinter) ∧
      (refreshSelection smoothEnvironment.mac noFaults served.profile
        (selectedBridge pdfPrinter)).1 = none ∧
      ∃ v ∈ reportedUuids body, v ≠ uuidUrn (refreshSelection smoothEnvironment.mac noFaults
        served.profile (selectedBridge pdfPrinter)).2.advertisement.uuid.val := by
  obtain ⟨served,id,body,hrun,hjob,hquery,hresponse,hreply,hcurrent,hpublished⟩ :=
    proxyHandler_identified
  refine ⟨served,id,body,hrun,hjob,hquery,hresponse,hreply,hcurrent,hpublished,?_⟩
  obtain ⟨hreported,huuid⟩ :=
    proxyHandler_uuids hrun hjob hquery hresponse hreply hcurrent hpublished
  have htold : filtersOut .printer attributesRequest.inspect.requestedAttributes.val
      Tag.printerAttributes (octets "printer-uuid") = false := by decide +kernel
  have hstatus : ippCodecMessageCode identifiedResponse.encode < 0x0400 := by decide +kernel
  have hne : printerIdentityTargetUuid smoothEnvironment.mac pdfPrinter ≠
      printerIdentityTargetUuid smoothEnvironment.mac
        (identified pdfPrinter identifiedResponse.encode) := by decide +kernel
  rw [hreported, huuid, htold, if_neg Bool.false_ne_true, if_pos hstatus]
  exact ⟨_,List.mem_singleton_self _,mt (uuidUrn_identity_inj _ _).mp hne⟩

theorem proxyHandler_identity_identified :
    ∃ (served : Served Bytes (Bytes × Bytes)) (id : ℕ) (body : Bytes),
      served.job = some (attributesRequest.inspect,id) ∧ served.reply = .response body ∧
      ((∀ v ∈ reportedUuids body, v = uuidUrn (refreshSelection smoothEnvironment.mac noFaults
          served.profile (selectedBridge pdfPrinter)).2.advertisement.uuid.val) ↔
        SameIdentity smoothEnvironment.mac pdfPrinter
          attributesRequest.inspect.requestedAttributes.val identifiedResponse.encode) := by
  obtain ⟨served,id,body,hrun,hjob,hquery,hresponse,hreply,hcurrent,hpublished⟩ :=
    proxyHandler_identified
  exact ⟨served,id,body,hjob,hreply,proxyHandler_identity_iff hrun hjob hquery hresponse hreply
    hcurrent hpublished⟩

end Espresso.Proxy
