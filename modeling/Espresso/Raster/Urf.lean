import Espresso.Raster.Document

/-! The converter as a whole: which streams it accepts and what it writes for them. -/
namespace Espresso.Raster
open Callback

/-! ### The Apple page header -/

/-- Everything that an accepted page header says. -/
theorem buildPageHeader_ok {pwg apple : Bytes} {info : PageInfo}
    (h : buildPageHeader pwg = .ok (apple,info)) :
    apple = appleHeader pwg (u32At pwg Offset.bitsPerPixel) info.appleColorSpace ∧
      colorSpace (u32At pwg Offset.colorSpace) (u32At pwg Offset.numColors) =
        some info.appleColorSpace ∧
      u32At pwg Offset.bitsPerPixel ≤ 255 ∧
      info.height = u32At pwg Offset.height ∧
      info.bytesPerPixel = (u32At pwg Offset.bitsPerPixel + 7) / 8 ∧
      info.bytesPerLine = u32At pwg Offset.bytesPerLine ∧
      info.bytesPerLine =
        (u32At pwg Offset.width * u32At pwg Offset.bitsPerPixel + 7) / 8 := by
  unfold buildPageHeader at h
  simp only at h
  split at h
  · cases h
  rename_i hfields
  split at h
  · cases h
  rename_i space hspace
  split at h
  · cases h
  rename_i hline
  split at h
  · cases h
  cases h
  push Not at hfields hline
  exact ⟨rfl,hspace,hfields.2.2.2.2.2.2.2.2.2.1,rfl,rfl,rfl,hline.2.2.symm⟩

theorem u32At_lt (data : Bytes) (offset : ℕ) : u32At data offset < 4294967296 := readU32_lt _ _ _ _

/-- The header written for a page carries its geometry and colour. -/
structure CarriesHeader (p : Page) : Prop where
  length : p.apple.length = 32
  bitsPerPixel : (p.apple.getD 0 0).toNat = u32At p.header Offset.bitsPerPixel
  colorSpace : colorSpace (u32At p.header Offset.colorSpace) (u32At p.header Offset.numColors) =
    some (p.apple.getD 1 0)
  duplex : p.apple.getD 2 0 = if u32At p.header Offset.duplex ≠ 0 then
    (if u32At p.header Offset.tumble ≠ 0 then 2 else 3) else 1
  width : u32At p.apple 12 = u32At p.header Offset.width
  height : u32At p.apple 16 = u32At p.header Offset.height
  resolution : u32At p.apple 20 = u32At p.header Offset.xResolution

section
variable (pwg : Bytes) (bitsPerPixel : ℕ) (space : UInt8)

theorem appleHeader_u32 {offset : ℕ} {field : ℕ} (hlt : field < 4294967296)
    (h0 : (appleHeader pwg bitsPerPixel space).getD offset 0 = UInt8.ofNat (field / 16777216))
    (h1 : (appleHeader pwg bitsPerPixel space).getD (offset + 1) 0 = UInt8.ofNat (field / 65536))
    (h2 : (appleHeader pwg bitsPerPixel space).getD (offset + 2) 0 = UInt8.ofNat (field / 256))
    (h3 : (appleHeader pwg bitsPerPixel space).getD (offset + 3) 0 = UInt8.ofNat field) :
    u32At (appleHeader pwg bitsPerPixel space) offset = field := by
  rw [u32At, h0, h1, h2, h3]
  exact readU32_u32 field hlt

end

theorem Page.carriesHeader (p : Page) : CarriesHeader p := by
  obtain ⟨happle,hspace,hbits,-⟩ := buildPageHeader_ok p.accepted
  constructor
  · rw [happle]
    simp [appleHeader]
  · rw [happle]
    simp only [appleHeader, List.cons_append, List.getD_cons_zero, UInt8.toNat_ofNat']
    omega
  · rw [happle]
    simp only [appleHeader, List.cons_append, List.getD_cons_zero, List.getD_cons_succ]
    exact hspace
  · rw [happle]
    simp only [appleHeader, List.cons_append, List.getD_cons_zero, List.getD_cons_succ]
  all_goals
    rw [happle]
    apply appleHeader_u32 _ _ _ (u32At_lt _ _) <;>
      simp only [appleHeader, u32, List.cons_append, List.nil_append, Nat.reduceAdd,
        List.getD_cons_zero, List.getD_cons_succ]

/-! ### Rows of a page in both formats -/

/-- The rows of a PWG page, by the fields of its own header. -/
def PwgRows (header raw : Bytes) (rows : List Bytes) : Prop :=
  Lines ((u32At header Offset.bitsPerPixel + 7) / 8) (u32At header Offset.bytesPerLine)
    (u32At header Offset.height) raw rows

/-- The rows of an Apple Raster page, by the fields of its own header. -/
def UrfRows (apple raw : Bytes) (rows : List Bytes) : Prop :=
  Lines (((apple.getD 0 0).toNat + 7) / 8) ((u32At apple 12 * (apple.getD 0 0).toNat + 7) / 8)
    (u32At apple 16) raw rows

theorem Page.pwgRows_iff (p : Page) (rows : List Bytes) :
    PwgRows p.header p.raw rows ↔ rows = p.rows := by
  obtain ⟨-,-,-,hheight,hpixel,hline,-⟩ := buildPageHeader_ok p.accepted
  rw [PwgRows, ← hheight, ← hpixel, ← hline]
  constructor
  · intro h
    exact Lines.unique p.info.bytesPerPixel_pos h p.lines
  · rintro rfl
    exact p.lines

/-- Both formats decode to the same rows. -/
theorem Page.urfRows_iff (p : Page) (rows : List Bytes) :
    UrfRows p.apple p.raw rows ↔ PwgRows p.header p.raw rows := by
  obtain ⟨-,-,-,-,-,hline,hwidth⟩ := buildPageHeader_ok p.accepted
  have h := p.carriesHeader
  rw [UrfRows, PwgRows, h.bitsPerPixel, h.width, h.height, ← hwidth, ← hline]

/-! ### Acceptance -/

section
variable {σ τ : Type} {read : ReadFn σ} {write : WriteFn τ} {R : σ → Bytes → Prop}
  {taken : τ → Bytes}

theorem pwgDocument_eq (p : Page) (ps : List Page) : pwgDocument p ps =
    octets "RaS2" ++ (p.header ++ (p.raw ++ ps.flatMap Page.pwg)) := by
  rw [pwgDocument, List.flatMap_cons, Page.pwg, List.append_assoc]

/-- Every page takes up octets. -/
theorem pwgDocument_length (p : Page) (ps : List Page) : ps.length < (pwgDocument p ps).length := by
  have hpages : ∀ qs : List Page, qs.length ≤ (qs.flatMap Page.pwg).length := by
    intro qs
    induction qs with
    | nil => simp
    | cons q qs ih =>
      have hq := q.header_length
      simp only [pwgHeaderSize] at hq
      rw [List.flatMap_cons, List.length_append, List.length_cons, Page.pwg, List.length_append]
      omega
  have h := hpages (p :: ps)
  rw [pwgDocument, List.length_append]
  simp only [List.length_cons] at h
  omega

/-- The converter up to the first page. -/
theorem espressoPwgToUrf_start (hread : Delivers read R) (hwrite : Accepts write taken)
    {s : σ} {t : τ} {pwg b : Bytes} (hlength : pwg.length = pwgHeaderSize)
    (hs : R s (octets "RaS2" ++ (pwg ++ b))) (turns : ℕ) :
    ∃ st1, At R taken b (taken t ++ fileHeader (u32At pwg Offset.totalPageCount)) st1 ∧
      espressoPwgToUrf read write turns (s,t) =
        copyPages read write (u32At pwg Offset.totalPageCount) turns 0 pwg st1 := by
  have hsync : (octets "RaS2").length = 4 := by decide +kernel
  have h0 : At R taken (octets "RaS2" ++ (pwg ++ b)) (taken t) (s,t) := ⟨hs,rfl⟩
  have h1 := inputExact_spec hread h0 4
  rw [if_pos (by rw [List.length_append]; omega), ← hsync, List.take_left, List.drop_left] at h1
  obtain ⟨st1,hrun1,h1⟩ := h1
  have h2 := inputExact_spec hread h1 pwgHeaderSize
  rw [if_pos (by rw [List.length_append]; omega), ← hlength, List.take_left,
    List.drop_left] at h2
  obtain ⟨st2,hrun2,h2⟩ := h2
  obtain ⟨st3,hrun3,h3⟩ := outputAll_spec hwrite h2 (fileHeader (u32At pwg Offset.totalPageCount))
  refine ⟨st3,h3,?_⟩
  rw [hsync] at hrun1
  rw [hlength] at hrun2
  rw [espressoPwgToUrf, Run.bind_of_ok hrun1, if_neg (by simp), Run.bind_of_ok hrun2,
    Run.bind_of_ok hrun3]

theorem espressoPwgToUrf_complete (hread : Delivers read R) (hwrite : Accepts write taken)
    {s : σ} {t : τ} {p : Page} {ps : List Page} (hs : R s (pwgDocument p ps)) {turns : ℕ}
    (hturns : ps.length < turns) (hcount : CountMatches p.totalPageCount (ps.length + 1)) :
    ∃ st', espressoPwgToUrf read write turns (s,t) = (.ok (),st') ∧
      taken st'.2 = taken t ++ urfDocument p ps := by
  rw [pwgDocument_eq] at hs
  obtain ⟨st1,h1,hrun1⟩ := espressoPwgToUrf_start hread hwrite p.header_length hs turns
  obtain ⟨st2,hrun2,htaken⟩ := copyPages_complete hread hwrite p ps
    (by rwa [Nat.zero_add, Nat.add_comm]) hturns h1
  exact ⟨st2,by rw [hrun1]; exact hrun2,by rw [htaken, List.append_assoc]; rfl⟩

theorem espressoPwgToUrf_sound (hread : Delivers read R) (hwrite : Accepts write taken)
    {s : σ} {t : τ} {input : Bytes} (hs : R s input) {turns : ℕ} (hturns : input.length < turns) :
    (∃ p ps, input = pwgDocument p ps ∧ CountMatches p.totalPageCount (ps.length + 1)) ∨
    ∃ e st', espressoPwgToUrf read write turns (s,t) = (.error e,st') := by
  have h0 : At R taken input (taken t) (s,t) := ⟨hs,rfl⟩
  have h1 := inputExact_spec hread h0 4
  split at h1
  · obtain ⟨st1,hrun1,h1⟩ := h1
    by_cases hsync : input.take 4 = octets "RaS2"
    · have h2 := inputExact_spec hread h1 pwgHeaderSize
      split at h2
      · rename_i hheader
        have htake := List.length_take_of_le hheader
        have hinput : input = octets "RaS2" ++
            ((input.drop 4).take pwgHeaderSize ++ (input.drop 4).drop pwgHeaderSize) := by
          rw [List.take_append_drop, ← hsync, List.take_append_drop]
        have hs' := hs
        rw [hinput] at hs'
        obtain ⟨st3,h3,hrun3⟩ := espressoPwgToUrf_start hread hwrite htake hs' turns
        have hshort : ((input.drop 4).drop pwgHeaderSize).length < turns := by
          simp only [List.length_drop]
          omega
        have hpages := @copyPages_sound _ _ _ _ _ _ _ _ _
          (u32At ((input.drop 4).take pwgHeaderSize) Offset.totalPageCount) _ 0 hread hwrite _ htake
          hshort h3
        rcases hpages with ⟨p,ps,hp,hb,hcount⟩ | ⟨e,st4,hrun4⟩
        · refine .inl ⟨p,ps,?_,?_⟩
          · rw [pwgDocument_eq, hp, ← hb]
            exact hinput
          · rw [Page.totalPageCount, hp, Nat.add_comm]
            simpa using hcount
        · exact .inr ⟨e,st4,by rw [hrun3]; exact hrun4⟩
      · obtain ⟨st2,hrun2⟩ := h2
        refine .inr ⟨.invalid,st2,?_⟩
        rw [espressoPwgToUrf, Run.bind_of_ok hrun1, if_neg (by simp [hsync])]
        exact Run.bind_of_error hrun2 _
    · refine .inr ⟨.unsupported,st1,?_⟩
      rw [espressoPwgToUrf, Run.bind_of_ok hrun1, if_pos hsync]
      rfl
  · obtain ⟨st1,hrun1⟩ := h1
    exact .inr ⟨.invalid,st1,by rw [espressoPwgToUrf]; exact Run.bind_of_error hrun1 _⟩

end

/-- The converter accepts exactly the documents of one or more acceptable pages whose number, as a
32-bit count, is the announced one. For these it writes an Apple Raster document of the same
pages. -/
theorem espressoPwgToUrf_iff {σ τ : Type} {read : ReadFn σ} {write : WriteFn τ}
    {R : σ → Bytes → Prop} {taken : τ → Bytes} (hread : Delivers read R)
    (hwrite : Accepts write taken) {s : σ} {t : τ} {input : Bytes} (hs : R s input) {turns : ℕ}
    (hturns : input.length < turns) :
    ∃ result s' t', espressoPwgToUrf read write turns (s,t) = (result,(s',t')) ∧
      result ≠ .unfinished ∧
      (result = .ok () ↔ ∃ p ps, input = pwgDocument p ps ∧
        CountMatches p.totalPageCount (ps.length + 1)) ∧
      ∀ p ps, input = pwgDocument p ps → CountMatches p.totalPageCount (ps.length + 1) →
        taken t' = taken t ++ urfDocument p ps ∧ ∀ q ∈ p :: ps, CarriesHeader q ∧
          ∀ rows, UrfRows q.apple q.raw rows ↔ PwgRows q.header q.raw rows := by
  have hcomplete : ∀ p ps, input = pwgDocument p ps →
      CountMatches p.totalPageCount (ps.length + 1) →
      ∃ st', espressoPwgToUrf read write turns (s,t) = (.ok (),st') ∧
        taken st'.2 = taken t ++ urfDocument p ps := by
    rintro p ps rfl hcount
    exact espressoPwgToUrf_complete hread hwrite hs
      (by have := pwgDocument_length p ps; omega) hcount
  rcases espressoPwgToUrf_sound hread hwrite hs hturns with ⟨p,ps,hinput,hcount⟩ | ⟨e,st',hrun⟩
  · obtain ⟨⟨s',t'⟩,hrun,-⟩ := hcomplete p ps hinput hcount
    refine ⟨.ok (),s',t',hrun,nofun,⟨fun _ => ⟨p,ps,hinput,hcount⟩,fun _ => rfl⟩,?_⟩
    intro q qs hinput' hcount'
    obtain ⟨st2,hrun2,htaken⟩ := hcomplete q qs hinput' hcount'
    rw [hrun] at hrun2
    cases hrun2
    exact ⟨htaken,fun r _ => ⟨r.carriesHeader,r.urfRows_iff⟩⟩
  · have hnone : ¬ ∃ p ps, input = pwgDocument p ps ∧
        CountMatches p.totalPageCount (ps.length + 1) := by
      rintro ⟨p,ps,hinput,hcount⟩
      obtain ⟨st2,hrun2,-⟩ := hcomplete p ps hinput hcount
      rw [hrun] at hrun2
      cases hrun2
    refine ⟨.error e,st'.1,st'.2,hrun,nofun,⟨nofun,fun h => absurd h hnone⟩,?_⟩
    intro p ps hinput hcount
    exact absurd ⟨p,ps,hinput,hcount⟩ hnone

/-! ### The page counter wraps -/

/-- Header of a page with one grey pixel; it announces a single page. -/
def greyHeader : Bytes :=
  octets "PwgRaster" ++ List.replicate 267 0 ++ u32 300 ++ u32 300 ++ List.replicate 88 0 ++
  u32 1 ++ u32 1 ++ u32 0 ++ u32 8 ++ u32 8 ++ u32 1 ++ u32 0 ++ u32 18 ++ List.replicate 16 0 ++
  u32 1 ++ List.replicate 28 0 ++ u32 1 ++ List.replicate 1340 0

def greyPage : Page where
  header := greyHeader
  apple := appleHeader greyHeader 8 0
  info := ⟨1,1,1,8,1,0,by decide⟩
  raw := [0,0,5]
  rows := [[5]]
  header_length := by decide +kernel
  accepted := by decide +kernel
  lines := @Lines.group 1 1 0 [0,5] [5] [] 0 []
    (@Runs.run 1 0 [5] [] [] (by decide) rfl .nil) rfl .nil

/-- A document that starts like this one and announces one page is no longer than one page. -/
theorem greyDocument_length {p : Page} {b : Bytes}
    (h : pwgDocument greyPage [] ++ b = pwgDocument p []) : b = [] := by
  have hlines := p.lines.length_le p.info.bytesPerPixel_pos
  rw [pwgDocument_eq, pwgDocument_eq, List.flatMap_nil, List.append_nil, List.append_nil,
    List.append_assoc, List.append_assoc] at h
  have h' := List.append_cancel_left h
  obtain ⟨hheader,hraw⟩ := List.append_inj h' (greyPage.header_length.trans p.header_length.symm)
  have hinfo := p.accepted
  rw [← hheader, greyPage.accepted] at hinfo
  simp only [Except.ok.injEq, Prod.mk.injEq] at hinfo
  rw [← hinfo.2, ← hraw, List.length_append] at hlines
  have hgrey : greyPage.raw.length = 3 := rfl
  have hbound : greyPage.info.height * (1 + 2 * greyPage.info.bytesPerLine) = 3 := rfl
  exact List.length_eq_zero_iff.mp (by omega)

theorem espressoPwgToUrf_wraps {n : ℕ} (hpos : 0 < n) (hn : n % 4294967296 = 0) :
    (∃ st', espressoPwgToUrf wholeRead wholeWrite
      ((pwgDocument greyPage (List.replicate n greyPage)).length + 1)
      (pwgDocument greyPage (List.replicate n greyPage),[]) = (.ok (),st')) ∧
    ¬ ∃ p ps, pwgDocument greyPage (List.replicate n greyPage) = pwgDocument p ps ∧
      (p.totalPageCount = 0 ∨ p.totalPageCount = 0xffffffff ∨
        ps.length + 1 = p.totalPageCount) := by
  have hgrey : greyPage.totalPageCount = 1 := by decide +kernel
  constructor
  · have hcount : CountMatches greyPage.totalPageCount
        ((List.replicate n greyPage).length + 1) := by
      refine .inr (.inr ?_)
      rw [hgrey, List.length_replicate]
      omega
    have hturns : (List.replicate n greyPage).length <
        (pwgDocument greyPage (List.replicate n greyPage)).length + 1 :=
      Nat.lt_succ_of_lt (pwgDocument_length _ _)
    obtain ⟨st',hrun,-⟩ := @espressoPwgToUrf_complete _ _ _ _ _ _ wholeRead_delivers
      wholeWrite_accepts _ [] _ _ rfl _ hturns hcount
    exact ⟨st',hrun⟩
  · rintro ⟨p,ps,heq,hcount⟩
    have hheader : p.header = greyPage.header := by
      rw [pwgDocument_eq, pwgDocument_eq] at heq
      exact (List.append_inj_left (List.append_cancel_left heq)
        (greyPage.header_length.trans p.header_length.symm)).symm
    have hone : p.totalPageCount = 1 := by rw [Page.totalPageCount, hheader]; exact hgrey
    rw [hone] at hcount
    have hps : ps = [] := by
      rcases hcount with h | h | h
      · omega
      · omega
      · exact List.length_eq_zero_iff.mp (by omega)
    subst hps
    have hsplit : pwgDocument greyPage (List.replicate n greyPage) =
        pwgDocument greyPage [] ++ (List.replicate n greyPage).flatMap Page.pwg := by
      simp [pwgDocument_eq]
    rw [hsplit] at heq
    have hnil := greyDocument_length heq
    obtain ⟨m,rfl⟩ : ∃ m, n = m + 1 := ⟨n - 1,by omega⟩
    rw [List.replicate_succ, List.flatMap_cons, Page.pwg, List.append_eq_nil_iff,
      List.append_eq_nil_iff] at hnil
    exact absurd hnil.1.2 (by decide)

/-- A document of 2^32 + 1 pages passes for the single page that its first header announces. -/
theorem espressoPwgToUrf_counts_modulo :
    (∃ st', espressoPwgToUrf wholeRead wholeWrite
      ((pwgDocument greyPage (List.replicate (2 ^ 32) greyPage)).length + 1)
      (pwgDocument greyPage (List.replicate (2 ^ 32) greyPage),[]) = (.ok (),st')) ∧
    ¬ ∃ p ps, pwgDocument greyPage (List.replicate (2 ^ 32) greyPage) = pwgDocument p ps ∧
      (p.totalPageCount = 0 ∨ p.totalPageCount = 0xffffffff ∨
        ps.length + 1 = p.totalPageCount) := by
  have hpos : 0 < 2 ^ 32 := by norm_num
  have hn : 2 ^ 32 % 4294967296 = 0 := by norm_num
  exact espressoPwgToUrf_wraps hpos hn

/-- The page on its own is a document. -/
theorem espressoPwgToUrf_iff_grey :
    ∃ result s' t', espressoPwgToUrf wholeRead wholeWrite
        ((pwgDocument greyPage []).length + 1) (pwgDocument greyPage [],[]) = (result,(s',t')) ∧
      result ≠ .unfinished ∧
      (result = .ok () ↔ ∃ p ps, pwgDocument greyPage [] = pwgDocument p ps ∧
        CountMatches p.totalPageCount (ps.length + 1)) ∧
      ∀ p ps, pwgDocument greyPage [] = pwgDocument p ps →
        CountMatches p.totalPageCount (ps.length + 1) →
        id t' = id [] ++ urfDocument p ps ∧ ∀ q ∈ p :: ps, CarriesHeader q ∧
          ∀ rows, UrfRows q.apple q.raw rows ↔ PwgRows q.header q.raw rows := by
  have hinput : pwgDocument greyPage [] = pwgDocument greyPage [] := Eq.refl _
  exact espressoPwgToUrf_iff wholeRead_delivers wholeWrite_accepts hinput (Nat.lt_add_one _)

end Espresso.Raster
