import Espresso.Codec.Transform

/-! URI rewriting in both directions: what the bridge puts into a job URI on the way to the client
it takes out again on the way back. -/
namespace Espresso.Codec

/-- An authority `scheme://hostport`, as `printer_transport_build` and the local endpoints have
it. -/
structure Authority where
  scheme : Bytes
  hostport : Bytes
  scheme_plain : ∀ c ∈ scheme, c ≠ 0x2f ∧ c ≠ 0
  hostport_plain : ∀ c ∈ hostport, c ≠ 0x2f ∧ c ≠ 0

def Authority.text (a : Authority) : Bytes := a.scheme ++ 0x3a :: 0x2f :: 0x2f :: a.hostport

/-! ### Paths -/

/-- A path is empty or starts with a slash. -/
theorem uriPath_cases (value : Bytes) : uriPath value = [] ∨ ∃ rest, uriPath value = 0x2f :: rest := by
  unfold uriPath
  split
  · rename_i rest _
    cases hd : rest.dropWhile (· ≠ 0x2f) with
    | nil => exact .inl rfl
    | cons c tail =>
      have hne : rest.dropWhile (· ≠ 0x2f) ≠ [] := by rw [hd]; simp
      have hc := List.head_dropWhile_not (fun c => decide (c ≠ 0x2f)) hne
      simp only [hd, List.head_cons, decide_eq_false_iff_not, not_not] at hc
      exact .inr ⟨tail,by rw [hc]⟩
  · exact .inl rfl

namespace Authority
variable (a : Authority)

theorem zero_notMem_text : 0 ∉ a.text := by
  intro h
  simp only [text, List.mem_append, List.mem_cons] at h
  rcases h with h | h | h | h | h
  · exact (a.scheme_plain 0 h).2 rfl
  · exact absurd h (by decide)
  · exact absurd h (by decide)
  · exact absurd h (by decide)
  · exact (a.hostport_plain 0 h).2 rfl

theorem afterScheme_text (path : Bytes) :
    afterScheme (a.text ++ path) = some (a.hostport ++ path) := by
  have hscheme : ∀ scheme : Bytes, (∀ c ∈ scheme, c ≠ 0x2f) →
      afterScheme (scheme ++ 0x3a :: 0x2f :: 0x2f :: (a.hostport ++ path)) =
        some (a.hostport ++ path) := by
    intro scheme
    induction scheme with
    | nil => intro _; rfl
    | cons c scheme ih =>
      intro h
      have htail : ∀ d ∈ scheme, d ≠ 0x2f := fun d hd => h d (List.mem_cons_of_mem _ hd)
      -- A colon of the scheme is not followed by a slash.
      rw [List.cons_append, afterScheme_cons]
      · exact ih htail
      · intro _
        cases scheme with
        | nil => simp
        | cons d rest => simpa using htail d List.mem_cons_self
  have h := hscheme a.scheme fun c hc => (a.scheme_plain c hc).1
  simpa [text] using h

/-- Behind an authority the path is found again. -/
theorem uriPath_text {path : Bytes} (h : path = [] ∨ ∃ rest, path = 0x2f :: rest) :
    uriPath (a.text ++ path) = path := by
  have hhost : ∀ c ∈ a.hostport, decide (c ≠ 0x2f) = true := by
    intro c hc
    simpa using (a.hostport_plain c hc).1
  rw [uriPath, a.afterScheme_text]
  simp only
  rw [List.dropWhile_append_of_pos hhost]
  rcases h with rfl | ⟨rest,rfl⟩
  · rfl
  · rw [List.dropWhile_cons_of_neg (by simp)]

end Authority

/-- The value that a job URI leaves with. -/
theorem rewrittenValue_jobUri (printerUri authority value : Bytes) :
    rewrittenValue printerUri authority Tag.uri (octets "job-uri") value =
      cstr authority ++ cstr (uriPath value) := by
  have hname : isRewritten Tag.uri (octets "job-uri") = true := by decide +kernel
  simp only [rewrittenValue, newValue, hname, if_true, rewriteUri, octets_inj, String.reduceEq,
    or_self, if_false, Option.getD_some]
  exact cstr_append_of_notMem (zero_notMem_cstr _) _

/-- Its path can be found again, up to the first NUL. -/
theorem uriPath_rewrittenValue (printerUri : Bytes) (a : Authority) (value : Bytes) :
    uriPath (rewrittenValue printerUri a.text Tag.uri (octets "job-uri") value) =
      cstr (uriPath value) := by
  rw [rewrittenValue_jobUri, cstr_eq_self a.zero_notMem_text]
  apply a.uriPath_text
  rcases uriPath_cases value with h | ⟨rest,h⟩
  · exact .inl (by rw [h]; rfl)
  · exact .inr ⟨cstr rest,by rw [h]; rfl⟩

/-! ### Rewriting twice -/

section
variable (uriA uriB authorityB : Bytes) (a : Authority)

/-- The second rewriting finds in a value what the first one has left of it. -/
theorem rewrittenValue_rewrittenValue (tag : UInt8) (name value : Bytes) :
    rewrittenValue uriB authorityB tag name (rewrittenValue uriA a.text tag name value) =
      rewrittenValue uriB authorityB tag name value := by
  cases h : isRewritten tag name with
  | false => simp [rewrittenValue, newValue, h]
  | true =>
    simp only [isRewritten, rewrittenNames, List.any_cons, List.any_nil, Bool.or_false,
      Bool.and_eq_true, Bool.or_eq_true, decide_eq_true_eq] at h
    obtain ⟨rfl,h⟩ := h
    rcases h with rfl | rfl | rfl | rfl | rfl
    · rfl
    · rfl
    · rfl
    · rfl
    · rw [rewrittenValue_jobUri uriB authorityB, uriPath_rewrittenValue, cstr_cstr,
        rewrittenValue_jobUri]

theorem editItems_editItems (f g : UInt8 → Bytes → Bytes → Bytes) (group : UInt8)
    (current : Bytes) (items : List Item) :
    editItems (replaces false) g group current (editItems (replaces false) f group current items) =
      editItems (replaces false) (fun tag name value => g tag name (f tag name value)) group current
        items := by
  induction items generalizing group current with
  | nil => rfl
  | cons i is ih =>
    cases i with
    | group tag => simp only [editItems, ih]
    | value tag name value =>
      simp only [editItems, replaces, Bool.false_and, Bool.false_eq_true, if_false] at ih ⊢
      rw [ih]

/-- On items, the second rewriting alone counts. -/
theorem transformItems_transformItems (items : List Item) :
    transformItems uriB authorityB false 0 []
        (transformItems uriA a.text false 0 [] items) =
      transformItems uriB authorityB false 0 [] items := by
  rw [transformItems, transformItems, editItems_editItems]
  congr 1
  funext tag name value
  exact rewrittenValue_rewrittenValue uriA uriB authorityB a tag name value

end

section
variable {mem : Memory} {m m' uriA : Bytes} {a : Authority} {n : ℕ}

/-- A message that was rewritten once is rewritten like the original, memory permitting. -/
theorem rewrite_rewritten (h : ippCodecRewrite mem m uriA a.text = .ok (m',n))
    (memB memB' : Memory) (uriB authorityB : Bytes) :
    ippCodecRewrite memB m' uriB authorityB = .error .noMemory ∨
      ippCodecRewrite memB' m uriB authorityB = .error .noMemory ∨
      ∃ out k k', ippCodecRewrite memB m' uriB authorityB = .ok (out,k) ∧
        ippCodecRewrite memB' m uriB authorityB = .ok (out,k') := by
  obtain ⟨e,e',he,he',-,hheader,hdocument,hitems⟩ := ippCodecRewrite_items uriA a.text h
  cases h1 : ippCodecRewrite memB m' uriB authorityB with
  | error f =>
    rcases ippCodecRewrite_error uriB authorityB h1 with ⟨rfl,-⟩ | hd
    · exact .inl rfl
    · rw [he'] at hd; cases hd
  | ok r1 =>
    cases h2 : ippCodecRewrite memB' m uriB authorityB with
    | error f =>
      rcases ippCodecRewrite_error uriB authorityB h2 with ⟨rfl,-⟩ | hd
      · exact .inr (.inl rfl)
      · rw [he] at hd; cases hd
    | ok r2 =>
      obtain ⟨out1,k1⟩ := r1
      obtain ⟨out2,k2⟩ := r2
      obtain ⟨e1,o1,he1,ho1,-,hh1,hd1,hi1⟩ := ippCodecRewrite_items uriB authorityB h1
      obtain ⟨e2,o2,he2,ho2,-,hh2,hd2,hi2⟩ := ippCodecRewrite_items uriB authorityB h2
      rw [he'] at he1
      rw [he] at he2
      cases he1
      cases he2
      have hsame : out1 = out2 := by
        rw [← encode_of_decode ho1, ← encode_of_decode ho2, Envelope.encode_eq,
          Envelope.encode_eq, hh1, hh2, hd1, hd2, hi1, hi2, hheader, hdocument, hitems,
          transformItems_transformItems]
      exact .inr (.inr ⟨out1,k1,k2,rfl,by rw [hsame]⟩)

/-- URI rewriting composes. So it is idempotent, and a job URI that has gone to the client and come
back reaches the printer with its own path. -/
theorem ippCodecRewrite_composes (h : ippCodecRewrite mem m uriA a.text = .ok (m',n)) :
    (∀ (memB memB' : Memory) (uriB : Bytes) (b : Authority),
      ippCodecRewrite memB m' uriB b.text = .error .noMemory ∨
        ippCodecRewrite memB' m uriB b.text = .error .noMemory ∨
        ∃ out k k', ippCodecRewrite memB m' uriB b.text = .ok (out,k) ∧
          ippCodecRewrite memB' m uriB b.text = .ok (out,k')) ∧
    (∀ memB, ippCodecRewrite memB m' uriA a.text = .error .noMemory ∨
      ∃ k, ippCodecRewrite memB m' uriA a.text = .ok (m',k)) ∧
    ∀ (memB : Memory) (uriB : Bytes) (b : Authority) (out : Bytes) (k : ℕ),
      ippCodecRewrite memB m' uriB b.text = .ok (out,k) →
      ∃ e e', decode m = .ok e ∧ decode out = .ok e' ∧
        e'.records = e.records.map (rewriteRecord uriB b.text) ∧
        ∀ r ∈ e.records, r.tag = Tag.uri → r.attributeName = octets "job-uri" →
          (rewriteRecord uriB b.text r).value = b.text ++ cstr (uriPath r.value) ∧
          uriPath (rewriteRecord uriB b.text r).value = cstr (uriPath r.value) ∧
          (0 ∉ r.value → uriPath (rewriteRecord uriB b.text r).value = uriPath r.value) := by
  refine ⟨fun memB memB' uriB b => rewrite_rewritten h memB memB' uriB b.text,?_,?_⟩
  · intro memB
    rcases rewrite_rewritten h memB mem uriA a.text with h1 | h1 | ⟨out,k,k',h1,h2⟩
    · exact .inl h1
    · rw [h] at h1
      cases h1
    · rw [h] at h2
      cases h2
      exact .inr ⟨k,h1⟩
  · intro memB uriB b out k h1
    obtain ⟨e,e1,he,he1,-,-,-,hitems⟩ := ippCodecRewrite_items uriA a.text h
    obtain ⟨e2,e',he2,he',-,-,-,hitems'⟩ := ippCodecRewrite_items uriB b.text h1
    rw [he1] at he2
    cases he2
    refine ⟨e,e',he,he',?_,?_⟩
    · rw [Envelope.records, hitems', hitems, transformItems_transformItems]
      have hrecords := @recordsFrom_editItems _ (rewrittenValue uriB b.text) _ _ _
        e.items (InStep.refl (replaces false) 0 [])
      simp only [replaces, Bool.false_and, Bool.not_false, List.filter_true] at hrecords
      exact hrecords
    · intro r _ htag hname
      have hpath : uriPath (rewriteRecord uriB b.text r).value = cstr (uriPath r.value) := by
        simp only [rewriteRecord, htag, hname]
        exact uriPath_rewrittenValue uriB b r.value
      refine ⟨?_,hpath,fun h0 => ?_⟩
      · simp only [rewriteRecord, htag, hname]
        rw [rewrittenValue_jobUri, cstr_eq_self b.zero_notMem_text]
      · rw [hpath]
        exact cstr_eq_self fun h => h0 ((uriPath_suffix r.value).subset h)

end

/-- The endpoint of the bridge without TLS. -/
def localAuthority : Authority where
  scheme := octets "ipp"
  hostport := octets "espresso.local:631"
  scheme_plain := by decide +kernel
  hostport_plain := by decide +kernel

def jobUriResponse : Envelope where
  header := [2,0,0,0,0,0,0,8]
  items := [.group Tag.jobAttributes,
    named Tag.uri "job-uri" (octets "ipp://[fe80::1]:631/jobs/42")]
  document := []
  header_length := literalHeader_length
  items_ok := by decide +kernel

def jobUriAnswer : Envelope where
  header := [2,0,0,0,0,0,0,8]
  items := [.group Tag.jobAttributes,
    named Tag.uri "job-uri" (octets "ipp://espresso.local:631/jobs/42")]
  document := []
  header_length := literalHeader_length
  items_ok := by decide +kernel

theorem ippCodecRewrite_jobUri :
    ippCodecRewrite Memory.unlimited jobUriResponse.encode (octets "ipp://espresso.local:631/ipp/print")
      localAuthority.text = .ok (jobUriAnswer.encode,49) := by
  decide +kernel

/-- What the client sends back reaches the printer under the address the printer gave. -/
theorem ippCodecRewrite_composes_jobUri :
    ippCodecRewrite Memory.unlimited jobUriResponse.encode
        (octets "ipp://espresso.local:631/ipp/print") localAuthority.text =
      .ok (jobUriAnswer.encode,49) ∧
    ∀ uriB : Bytes, ∀ b : Authority,
      ippCodecRewrite Memory.unlimited jobUriAnswer.encode uriB b.text = .error .noMemory ∨
        ippCodecRewrite Memory.unlimited jobUriResponse.encode uriB b.text = .error .noMemory ∨
        ∃ out k k', ippCodecRewrite Memory.unlimited jobUriAnswer.encode uriB b.text = .ok (out,k) ∧
          ippCodecRewrite Memory.unlimited jobUriResponse.encode uriB b.text = .ok (out,k') :=
  ⟨ippCodecRewrite_jobUri,
    (ippCodecRewrite_composes ippCodecRewrite_jobUri).1 Memory.unlimited Memory.unlimited⟩

end Espresso.Codec
