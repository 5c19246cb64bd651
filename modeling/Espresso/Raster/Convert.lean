import Espresso.Lib.Run
import Espresso.Lib.Callback

/-! `raster_converter.c`: PWG Raster becomes Apple Raster while it streams through. The compressed
rows are copied as they are; only the file and page headers change. -/
namespace Espresso.Raster
open Callback

inductive RasterError
  | invalid
  | unsupported
  | readError
  | writeError
  deriving DecidableEq, Repr

abbrev pwgHeaderSize : ℕ := 1796
abbrev maxRasterWidth : ℕ := 20000
abbrev maxRasterHeight : ℕ := 200000
abbrev maxBytesPerLine : ℕ := 256 * 1024

namespace Offset
abbrev mediaType : ℕ := 128
abbrev duplex : ℕ := 272
abbrev xResolution : ℕ := 276
abbrev yResolution : ℕ := 280
abbrev mediaPosition : ℕ := 324
abbrev tumble : ℕ := 368
abbrev width : ℕ := 372
abbrev height : ℕ := 376
abbrev bitsPerColor : ℕ := 384
abbrev bitsPerPixel : ℕ := 388
abbrev bytesPerLine : ℕ := 392
abbrev colorOrder : ℕ := 396
abbrev colorSpace : ℕ := 400
abbrev numColors : ℕ := 420
abbrev totalPageCount : ℕ := 452
abbrev printQuality : ℕ := 484
end Offset

def u32At (data : Bytes) (offset : ℕ) : ℕ :=
  readU32 (data.getD offset 0) (data.getD (offset + 1) 0) (data.getD (offset + 2) 0)
    (data.getD (offset + 3) 0)

/-- What the row copier needs of a page. A pixel has at least one octet, so that every run makes
progress. -/
structure PageInfo where
  width : ℕ
  height : ℕ
  bytesPerLine : ℕ
  bitsPerPixel : ℕ
  bytesPerPixel : ℕ
  appleColorSpace : UInt8
  bytesPerPixel_pos : 0 < bytesPerPixel
  deriving DecidableEq

/-! ### Page headers -/

/-- The Apple colour space, if the number of colours fits. -/
def colorSpace (pwg colors : ℕ) : Option UInt8 :=
  match pwg with
  | 18 => if colors = 1 then some 0 else none
  | 19 => if colors = 3 then some 1 else none
  | 16 => if colors = 3 then some 2 else none
  | 20 => if colors = 3 then some 3 else none
  | 0 => if colors = 1 then some 4 else none
  | 1 => if colors = 3 then some 5 else none
  | 6 => if colors = 4 then some 6 else none
  | _ => none

def mediaTypes : List String :=
  ["auto","stationery","transparency","envelope","cardstock","labels","stationery-letterhead",
   "disc","photographic-matte","photographic-satin","photographic-semi-gloss",
   "photographic-glossy","photographic-high-gloss","other"]

def mediaType (header : Bytes) : UInt8 :=
  let input := cstr ((header.drop Offset.mediaType).take 64)
  match mediaTypes.findIdx? fun value => octets value = input with
  | some i => UInt8.ofNat i
  | none => 13

/-- The 32-octet Apple page header. -/
def appleHeader (pwg : Bytes) (bitsPerPixel : ℕ) (space : UInt8) : Bytes :=
  [UInt8.ofNat bitsPerPixel, space,
   if u32At pwg Offset.duplex ≠ 0 then (if u32At pwg Offset.tumble ≠ 0 then 2 else 3) else 1,
   UInt8.ofNat (u32At pwg Offset.printQuality), mediaType pwg,
   UInt8.ofNat (u32At pwg Offset.mediaPosition), 0, 0, 0, 0, 0, 0] ++
  u32 (u32At pwg Offset.width) ++ u32 (u32At pwg Offset.height) ++
  u32 (u32At pwg Offset.xResolution) ++ [0, 0, 0, 0, 0, 0, 0, 0]

def buildPageHeader (pwg : Bytes) : Except RasterError (Bytes × PageInfo) :=
  let xdpi := u32At pwg Offset.xResolution
  let ydpi := u32At pwg Offset.yResolution
  let bitsPerColor := u32At pwg Offset.bitsPerColor
  let colors := u32At pwg Offset.numColors
  let width := u32At pwg Offset.width
  let height := u32At pwg Offset.height
  let bitsPerPixel := u32At pwg Offset.bitsPerPixel
  let bytesPerLine := u32At pwg Offset.bytesPerLine
  let bytesPerPixel := (bitsPerPixel + 7) / 8
  if pwg.take 9 ≠ octets "PwgRaster" ∨ xdpi = 0 ∨ xdpi ≠ ydpi ∨ width = 0 ∨
      maxRasterWidth < width ∨ height = 0 ∨ maxRasterHeight < height ∨
      u32At pwg Offset.colorOrder ≠ 0 ∨ bitsPerPixel = 0 ∨ 255 < bitsPerPixel ∨
      bitsPerColor ∉ [1,2,4,8,16] ∨ bitsPerPixel ≠ bitsPerColor * colors % 4294967296 then
    .error .unsupported
  else match colorSpace (u32At pwg Offset.colorSpace) colors with
    | none => .error .unsupported
    | some space =>
      if bytesPerLine = 0 ∨ maxBytesPerLine < bytesPerLine ∨
          (width * bitsPerPixel + 7) / 8 ≠ bytesPerLine then .error .invalid
      else if h : bytesPerPixel = 0 ∨ 8 < bytesPerPixel then .error .unsupported
      else .ok (appleHeader pwg bitsPerPixel space,
        ⟨width,height,bytesPerLine,bitsPerPixel,bytesPerPixel,space,by omega⟩)

/-! ### Reading and writing -/

inductive ReadResult
  | ok (data : Bytes)
  | eof
  | failed

/-- `received` has been read, `missing` octets are to follow. -/
def readExact {σ : Type} (read : ReadFn σ) (eofAllowed : Bool) (s : σ) (received : Bytes)
    (missing : ℕ) : ReadResult × σ :=
  if missing = 0 then (.ok received,s)
  else match read s missing with
    | (none,s') => (.failed,s')
    | (some d,s') =>
      if missing < d.length then (.failed,s')
      else if d = [] then (if received = [] ∧ eofAllowed then .eof else .failed,s')
      else readExact read eofAllowed s' (received ++ d) (missing - d.length)
termination_by missing
decreasing_by
  rename_i _ _ hd
  have : 0 < d.length := List.length_pos_of_ne_nil hd
  omega

section
variable {σ τ : Type} (read : ReadFn σ) (write : WriteFn τ)

/-- Both contexts: the reader's and the writer's. -/
abbrev Context (σ τ : Type) := σ × τ

/-- Read exactly `n` octets; anything else is an invalid document. -/
def inputExact (n : ℕ) : Run (Context σ τ) RasterError Bytes := fun (s,t) =>
  match readExact read false s [] n with
  | (.ok data,s) => (.ok data,(s,t))
  | (.eof,s) => (.error .invalid,(s,t))
  | (.failed,s) => (.error .invalid,(s,t))

def outputAll (data : Bytes) : Run (Context σ τ) RasterError Unit := fun (s,t) =>
  match writeAll write t data with
  | (true,t) => (.ok (),(s,t))
  | (false,t) => (.error .writeError,(s,t))

def copyByte : Run (Context σ τ) RasterError UInt8 := do
  let data ← inputExact read 1
  outputAll write data
  return data.headD 0

/-- Copied through a 64-octet buffer. -/
def copyPayload (length : ℕ) : Run (Context σ τ) RasterError Unit :=
  if length = 0 then pure ()
  else do
    let piece := min length 64
    let data ← inputExact read piece
    outputAll write data
    copyPayload (length - piece)
termination_by length

/-! ### Rows -/

/-- Pixels of a run; a control octet from 129 on announces that many different ones. -/
def units (control : UInt8) : ℕ :=
  if 128 ≤ control then 257 - control.toNat else control.toNat + 1

/-- Octets of a run in the document. -/
def encodedLength (bytesPerPixel : ℕ) (control : UInt8) : ℕ :=
  if 128 ≤ control then units control * bytesPerPixel else bytesPerPixel

theorem units_pos (control : UInt8) : 0 < units control := by
  have := control.toNat_lt
  unfold units
  split <;> omega

/-- The inner loop: the runs of one line, of which `decoded` octets are there. -/
def copyRuns (page : PageInfo) (decoded : ℕ) : Run (Context σ τ) RasterError Unit :=
  if decoded < page.bytesPerLine then do
    let control ← copyByte read write
    if control = 128 then Run.fail .invalid
    else if page.bytesPerLine - decoded < units control * page.bytesPerPixel then
      Run.fail .invalid
    else do
      copyPayload read write (encodedLength page.bytesPerPixel control)
      copyRuns page (decoded + units control * page.bytesPerPixel)
  else pure ()
termination_by page.bytesPerLine - decoded
decreasing_by
  have := Nat.mul_pos (units_pos control) page.bytesPerPixel_pos
  omega

/-- The outer loop: a repeat octet and a line, until `height` lines are there. -/
def copyPage (page : PageInfo) (rows : ℕ) : Run (Context σ τ) RasterError Unit :=
  if rows < page.height then do
    let rep ← copyByte read write
    if page.height - rows < rep.toNat + 1 then Run.fail .invalid
    else do
      copyRuns read write page 0
      copyPage page (rows + (rep.toNat + 1))
  else pure ()
termination_by page.height - rows

/-! ### Pages -/

/-- The header of the next page, or nothing at the end of the document. -/
def nextHeader : Run (Context σ τ) RasterError (Option Bytes) := fun (s,t) =>
  match readExact read true s [] pwgHeaderSize with
  | (.ok data,s) => (.ok (some data),(s,t))
  | (.eof,s) => (.ok none,(s,t))
  | (.failed,s) => (.error .invalid,(s,t))

/-- `pages` is the 32-bit page counter. -/
def copyPages (expectedPages : ℕ) : ℕ → ℕ → Bytes → Run (Context σ τ) RasterError Unit
  | 0, _, _ => Run.unfinished
  | turns + 1, pages, pwg =>
    match buildPageHeader pwg with
    | .error e => Run.fail e
    | .ok (apple,page) => do
      outputAll write apple
      copyPage read write page 0
      let pages := (pages + 1) % 4294967296
      match ← nextHeader read with
      | some pwg => copyPages expectedPages turns pages pwg
      | none =>
        if expectedPages ≠ 0 ∧ expectedPages ≠ 0xffffffff ∧ pages ≠ expectedPages then
          Run.fail .invalid
        else pure ()

def fileHeader (expectedPages : ℕ) : Bytes := octets "UNIRAST" ++ [0] ++ u32 expectedPages

/-- At most `turns` pages are copied. -/
def espressoPwgToUrf (turns : ℕ) : Run (Context σ τ) RasterError Unit := do
  let sync ← inputExact read 4
  if sync ≠ octets "RaS2" then Run.fail .unsupported
  else do
    let pwg ← inputExact read pwgHeaderSize
    let expectedPages := u32At pwg Offset.totalPageCount
    outputAll write (fileHeader expectedPages)
    copyPages read write expectedPages turns 0 pwg

end

end Espresso.Raster
