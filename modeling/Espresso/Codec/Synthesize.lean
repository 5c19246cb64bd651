import Espresso.Codec.Envelope
import Espresso.Codec.Text
import Espresso.Codec.Target
import Espresso.Codec.Presence
import Espresso.Codec.Operations

/-! The attributes that the facade adds to a Get-Printer-Attributes response. Most stand in for
an attribute that the printer did not report and are guarded by its presence bit; the rest
describe the relay itself and are always added. -/
namespace Espresso.Codec

def named (tag : UInt8) (name : String) (data : Bytes) : Item := .value tag (octets name) data

def additional (tag : UInt8) (data : Bytes) : Item := .value tag [] data

/-- An attribute with all its values: only the first record carries the name. -/
def attributeItems (name : String) : List (UInt8 × Bytes) → List Item
  | [] => []
  | v :: vs => named v.1 name v.2 :: vs.map fun w => additional w.1 w.2

def attributeList (attributes : List (String × List (UInt8 × Bytes))) : List Item :=
  attributes.flatMap fun a => attributeItems a.1 a.2

def str (tag : UInt8) (s : String) : UInt8 × Bytes := (tag,octets s)

def int32 (tag : UInt8) (n : ℕ) : UInt8 × Bytes := (tag,u32 n)

def bool (b : Bool) : UInt8 × Bytes := (Tag.boolean,[if b then 1 else 0])

def resolutionValue (dpi : ℕ) : UInt8 × Bytes :=
  (Tag.resolution,[0,0] ++ u16 dpi ++ [0,0] ++ u16 dpi ++ [3])

def csvValues (tag : UInt8) (csv : Bytes) : List (UInt8 × Bytes) :=
  ((csvTokens csv).filter (· ≠ [])).map fun token => (tag,token)

/-! ### Media sizes -/

def mediaAliases : List (String × ℕ × ℕ) :=
  [("A3",29700,42000), ("iso-a3",29700,42000), ("A4",21000,29700), ("iso-a4",21000,29700),
   ("A5",14800,21000), ("iso-a5",14800,21000), ("Letter",21590,27940), ("na-letter",21590,27940),
   ("Legal",21590,35560), ("na-legal",21590,35560), ("Executive",18415,26670),
   ("Tabloid",27940,43180), ("4x6",10160,15240), ("5x7",12700,17780), ("Env10",10478,24130),
   ("EnvDL",11000,22000)]

section
variable (hundredths : Bytes → ℕ → Option ℕ)

/-- Size of a PWG self-describing media name. The double-precision step is a parameter:
`hundredths text multiplier` is the scaled and rounded value of a number text, if it is a
positive number that fits. -/
def mediaDimensions (name : Bytes) : Option (ℕ × ℕ) :=
  match mediaAliases.find? fun a => equalSpan name (octets a.1) with
  | some a => some a.2
  | none =>
    if name = [] ∨ 64 ≤ name.length then none
    else
      let media := cstr name
      let dimensions := (media.reverse.takeWhile (· ≠ 0x5f)).reverse
      let unit := dimensions.drop (dimensions.length - 2)
      let number := dimensions.take (dimensions.length - 2)
      let size (multiplier : ℕ) : Option (ℕ × ℕ) :=
        if 0x78 ∈ number then do
          let width ← hundredths (number.takeWhile (· ≠ 0x78)) multiplier
          let height ← hundredths ((number.dropWhile (· ≠ 0x78)).tail) multiplier
          return (width,height)
        else none
      if 2 < dimensions.length ∧ equalSpan unit (octets "mm") then size 100
      else if 2 < dimensions.length ∧ equalSpan unit (octets "in") then size 2540
      else none

/-- The records of one media collection. -/
def mediaCollection (media : Bytes) (size : ℕ × ℕ) : List (UInt8 × Bytes) :=
  [(Tag.beginCollection,[]),
   str Tag.memberName "media-key", (Tag.keyword,media),
   str Tag.memberName "media-size", (Tag.beginCollection,[]),
   str Tag.memberName "x-dimension", int32 Tag.integer size.1,
   str Tag.memberName "y-dimension", int32 Tag.integer size.2,
   (Tag.endCollection,[]),
   str Tag.memberName "media-size-name", (Tag.keyword,media),
   str Tag.memberName "media-bottom-margin", int32 Tag.integer 0,
   str Tag.memberName "media-left-margin", int32 Tag.integer 0,
   str Tag.memberName "media-right-margin", int32 Tag.integer 0,
   str Tag.memberName "media-top-margin", int32 Tag.integer 0,
   str Tag.memberName "media-source", str Tag.keyword "main",
   str Tag.memberName "media-type", str Tag.keyword "stationery",
   (Tag.endCollection,[])]

def mediaSize (size : ℕ × ℕ) : List (UInt8 × Bytes) :=
  [(Tag.beginCollection,[]),
   str Tag.memberName "x-dimension", int32 Tag.integer size.1,
   str Tag.memberName "y-dimension", int32 Tag.integer size.2,
   (Tag.endCollection,[])]

/-- One collection for each media name whose size is known. -/
def forMedia (media : Bytes) (collection : Bytes → ℕ × ℕ → List (UInt8 × Bytes)) :
    List (UInt8 × Bytes) :=
  ((csvTokens media).filter (· ≠ [])).flatMap fun name =>
    match mediaDimensions hundredths name with
    | some size => collection name size
    | none => []

def defaultCollection (t : PrinterTarget) : List (UInt8 × Bytes) :=
  if t.mediaDefault.val = [] then []
  else match mediaDimensions hundredths t.mediaDefault.val with
    | some size => mediaCollection t.mediaDefault.val size
    | none => []

/-! ### Attributes guarded by a presence bit -/

def labelOf (t : PrinterTarget) : Bytes :=
  if t.label.val ≠ [] then t.label.val else t.instanceName.val

/-- `printer-uuid` value; a bare UUID goes through a 74-octet buffer. -/
def uuidUrn (localUuid : Bytes) : Bytes :=
  if 9 < localUuid.length ∧ (octets "urn:uuid:").isPrefixOf localUuid then localUuid
  else octets "urn:uuid:" ++ localUuid.take 64

structure Standin where
  flag : ℕ
  name : String
  values : List (UInt8 × Bytes)

/-- Values that are added only if the profile supports them. -/
def only (condition : Bool) (values : List (UInt8 × Bytes)) : List (UInt8 × Bytes) :=
  if condition then values else []

/-- The stand-ins in the order in which they are added. -/
def standins (printerUri localUuid : Bytes) (t : PrinterTarget) : List Standin :=
  let has (format : String) := csvContains t.pdl.val (octets format)
  [⟨Present.versions,"ipp-versions-supported",[str Tag.keyword "1.1",str Tag.keyword "2.0"]⟩,
   ⟨Present.operations,"operations-supported",
    ((List.range 64).filter (ippCodecRelayOperations t.operationsSupported).testBit).map
      (int32 Tag.enum)⟩,
   ⟨Present.printerUri,"printer-uri-supported",[(Tag.uri,printerUri)]⟩,
   ⟨Present.uriAuth,"uri-authentication-supported",[str Tag.keyword "none"]⟩,
   ⟨Present.uriSecurity,"uri-security-supported",
    [str Tag.keyword (if (octets "ipps://").isPrefixOf printerUri then "tls" else "none")]⟩,
   ⟨Present.referenceUriSchemes,"reference-uri-schemes-supported",[str Tag.uriScheme "ftp"]⟩,
   ⟨Present.uuid,"printer-uuid",only (localUuid ≠ []) [(Tag.uri,uuidUrn localUuid)]⟩,
   ⟨Present.name,"printer-name",[(Tag.name,labelOf t)]⟩,
   ⟨Present.info,"printer-info",[(Tag.text,labelOf t)]⟩,
   ⟨Present.makeModel,"printer-make-and-model",[(Tag.text,labelOf t)]⟩,
   ⟨Present.location,"printer-location",[(Tag.text,t.location.val)]⟩,
   ⟨Present.charsetConfigured,"charset-configured",[str Tag.charset "utf-8"]⟩,
   ⟨Present.charsetSupported,"charset-supported",[str Tag.charset "utf-8"]⟩,
   ⟨Present.languageConfigured,"natural-language-configured",[str Tag.language "en"]⟩,
   ⟨Present.languageSupported,"generated-natural-language-supported",[str Tag.language "en"]⟩,
   ⟨Present.moreInfo,"printer-more-info",[str Tag.uri "http://espresso.local/"]⟩,
   ⟨Present.upTime,"printer-up-time",[int32 Tag.integer 1]⟩,
   ⟨Present.pdlOverride,"pdl-override-supported",[str Tag.keyword "not-attempted"]⟩,
   ⟨Present.queuedJobCount,"queued-job-count",[int32 Tag.integer 0]⟩,
   -- a list that contains image/urf has a first value for image/pwg-raster to continue
   ⟨Present.formats,"document-format-supported",
    csvValues Tag.mimeType t.pdl.val ++
      only (has "image/urf" && !has "image/pwg-raster") [str Tag.mimeType "image/pwg-raster"]⟩,
   ⟨Present.formatDefault,"document-format-default",
    if has "application/pdf" then [str Tag.mimeType "application/pdf"]
    else only (has "image/urf") [str Tag.mimeType "image/urf"]⟩,
   ⟨Present.documentPasswordSupported,"document-password-supported",
    only (has "application/pdf") [int32 Tag.integer 1023]⟩,
   ⟨Present.urf,"urf-supported",csvValues Tag.keyword t.urf.val⟩,
   ⟨Present.color,"color-supported",[bool t.color]⟩,
   ⟨Present.sides,"sides-supported",
    str Tag.keyword "one-sided" :: only t.duplex
      [str Tag.keyword "two-sided-long-edge",str Tag.keyword "two-sided-short-edge"]⟩,
   ⟨Present.copies,"copies-supported",
    only (t.copiesUpper ≠ 0) [(Tag.range,u32 1 ++ u32 t.copiesUpper)]⟩,
   ⟨Present.copiesDefault,"copies-default",only (t.copiesUpper ≠ 0) [int32 Tag.integer 1]⟩,
   ⟨Present.media,"media-supported",csvValues Tag.keyword t.media.val⟩,
   ⟨Present.mediaKeySupported,"media-key-supported",csvValues Tag.keyword t.media.val⟩,
   ⟨Present.mediaSizeSupported,"media-size-supported",
    forMedia hundredths t.media.val fun _ size => mediaSize size⟩,
   ⟨Present.mediaDefault,"media-default",
    only (t.mediaDefault.val ≠ []) [(Tag.keyword,t.mediaDefault.val)]⟩,
   ⟨Present.mediaColDatabase,"media-col-database",
    forMedia hundredths t.media.val mediaCollection⟩,
   ⟨Present.mediaColDefault,"media-col-default",defaultCollection hundredths t⟩,
   ⟨Present.mediaColSupported,"media-col-supported",
    only (t.media.val ≠ []) (["media-bottom-margin","media-key","media-left-margin",
      "media-right-margin","media-size","media-size-name","media-source","media-top-margin",
      "media-type"].map (str Tag.keyword))⟩,
   ⟨Present.mediaColReady,"media-col-ready",defaultCollection hundredths t⟩,
   ⟨Present.mediaSourceSupported,"media-source-supported",
    [str Tag.keyword "auto",str Tag.keyword "main"]⟩,
   ⟨Present.mediaTypeSupported,"media-type-supported",[str Tag.keyword "stationery"]⟩,
   ⟨Present.printerInputTray,"printer-input-tray",
    [str Tag.octetString "type=sheetFeedAutoRemovableTray;mediafeed=0;mediaxfeed=0;maxcapacity=-2;level=-2;status=0;name=auto",
     str Tag.octetString "type=sheetFeedAutoRemovableTray;mediafeed=0;mediaxfeed=0;maxcapacity=250;level=100;status=0;name=main"]⟩,
   ⟨Present.printColorMode,"print-color-mode-supported",
    str Tag.keyword "monochrome" :: only t.color [str Tag.keyword "color"]⟩,
   ⟨Present.printColorDefault,"print-color-mode-default",
    only (t.colorModeDefault.val ≠ []) [(Tag.keyword,t.colorModeDefault.val)]⟩,
   ⟨Present.resolution,"printer-resolution-supported",
    only (t.resolutionLowDpi ≠ 0) (resolutionValue t.resolutionLowDpi ::
      only (t.resolutionLowDpi < t.resolutionHighDpi) [resolutionValue t.resolutionHighDpi])⟩,
   ⟨Present.resolutionDefault,"printer-resolution-default",
    only (t.resolutionLowDpi ≠ 0) [resolutionValue t.resolutionLowDpi]⟩,
   ⟨Present.finishingsDefault,"finishings-default",[int32 Tag.enum 3]⟩,
   ⟨Present.finishingsSupported,"finishings-supported",[int32 Tag.enum 3]⟩,
   ⟨Present.orientationDefault,"orientation-requested-default",[int32 Tag.enum 3]⟩,
   ⟨Present.orientationSupported,"orientation-requested-supported",[int32 Tag.enum 3]⟩,
   ⟨Present.outputBinDefault,"output-bin-default",[str Tag.keyword "face-down"]⟩,
   ⟨Present.outputBinSupported,"output-bin-supported",[str Tag.keyword "face-down"]⟩,
   ⟨Present.printQualityDefault,"print-quality-default",[int32 Tag.enum 4]⟩,
   ⟨Present.printQualitySupported,"print-quality-supported",[int32 Tag.enum 4]⟩,
   ⟨Present.sidesDefault,"sides-default",[str Tag.keyword "one-sided"]⟩,
   ⟨Present.pagesPerMinute,"pages-per-minute",[int32 Tag.integer 0]⟩,
   ⟨Present.pagesPerMinuteColor,"pages-per-minute-color",only t.color [int32 Tag.integer 0]⟩,
   ⟨Present.compression,"compression-supported",[str Tag.keyword "none"]⟩,
   ⟨Present.multipleDocuments,"multiple-document-jobs-supported",[bool false]⟩,
   ⟨Present.printerState,"printer-state",
    only (t.printerState ≠ 0) [int32 Tag.enum t.printerState.toNat]⟩,
   ⟨Present.stateReasons,"printer-state-reasons",
    only (t.printerState ≠ 0) (csvValues Tag.keyword
      (if t.stateReasons.val ≠ [] then t.stateReasons.val else octets "none"))⟩,
   ⟨Present.acceptingJobs,"printer-is-accepting-jobs",
    only t.acceptingJobsKnown [bool t.acceptingJobs]⟩,
   ⟨Present.jobCreation,"job-creation-attributes-supported",
    [str Tag.keyword "job-name",str Tag.keyword "document-format"] ++
    only (1 < t.copiesUpper) [str Tag.keyword "copies"] ++
    only (t.media.val ≠ []) [str Tag.keyword "media",str Tag.keyword "media-col"] ++
    [str Tag.keyword "sides",str Tag.keyword "print-color-mode"] ++
    only (t.resolutionLowDpi ≠ 0) [str Tag.keyword "printer-resolution"] ++
    [str Tag.keyword "print-content-optimize",str Tag.keyword "print-rendering-intent"]⟩]

/-! ### Facade-owned metadata -/

def epoch : Bytes := [0x07,0xb2,1,1,0,0,0,0,0x2b,0,0]

/-- What describes the relay itself, with the multi-document timeouts if jobs can be created and
the raster resolutions if there is a raster format. -/
def facadeOwned (t : PrinterTarget) : List (String × List (UInt8 × Bytes)) :=
  [("job-ids-supported",[bool true]),
   ("preferred-attributes-supported",[bool false]),
   ("media-bottom-margin-supported",[int32 Tag.integer 0]),
   ("media-left-margin-supported",[int32 Tag.integer 0]),
   ("media-right-margin-supported",[int32 Tag.integer 0]),
   ("media-top-margin-supported",[int32 Tag.integer 0]),
   ("media-ready",only (t.mediaDefault.val ≠ []) [(Tag.keyword,t.mediaDefault.val)]),
   ("print-content-optimize-default",[str Tag.keyword "auto"]),
   ("print-content-optimize-supported",[str Tag.keyword "auto"]),
   ("print-rendering-intent-default",[str Tag.keyword "auto"]),
   ("print-rendering-intent-supported",[str Tag.keyword "auto"]),
   ("printer-config-change-date-time",[(Tag.dateTime,epoch)]),
   ("printer-config-change-time",[int32 Tag.integer 0]),
   ("printer-device-id",[str Tag.text "MFG:ESPresso;MDL:Legacy AirPrint Bridge;CMD:URF,PWG;"]),
   ("printer-geo-location",[(Tag.unknown,[])]),
   ("printer-get-attributes-supported",[str Tag.keyword "document-format"]),
   ("printer-icons",[str Tag.uri "http://espresso.local/favicon.svg"]),
   ("printer-organization",[str Tag.text ""]),
   ("printer-organizational-unit",[str Tag.text ""]),
   ("printer-state-change-date-time",[(Tag.dateTime,epoch)]),
   ("printer-state-change-time",[int32 Tag.integer 0]),
   ("printer-supply",[str Tag.octetString
     "index=1;class=supplyThatIsConsumed;type=unknown;unit=unknown;maxcapacity=-2;level=-2;colorantname=unknown"]),
   ("printer-supply-description",[str Tag.text "Legacy printer supply"]),
   ("printer-supply-info-uri",[str Tag.uri "http://espresso.local/"]),
   ("which-jobs-supported",
    [str Tag.keyword "completed",str Tag.keyword "not-completed",str Tag.keyword "all"]),
   ("multiple-operation-time-out",
    only (t.operationsSupported.testBit Operation.createJob) [int32 Tag.integer 60]),
   ("multiple-operation-time-out-action",
    only (t.operationsSupported.testBit Operation.createJob) [str Tag.keyword "abort-job"]),
   ("pwg-raster-document-resolution-supported",
    only (csvContains t.pdl.val (octets "image/urf") && t.resolutionLowDpi ≠ 0)
      (resolutionValue t.resolutionLowDpi ::
        only (t.resolutionLowDpi < t.resolutionHighDpi) [resolutionValue t.resolutionHighDpi]))]

/-- A higher resolution without a lower one is written as a further value of whatever precedes. -/
def orphanResolution (t : PrinterTarget) : List Item :=
  if csvContains t.pdl.val (octets "image/urf") ∧ t.resolutionLowDpi = 0 ∧
      t.resolutionLowDpi < t.resolutionHighDpi then
    [additional Tag.resolution (resolutionValue t.resolutionHighDpi).2]
  else []

def rasterOwned (t : PrinterTarget) : List (String × List (UInt8 × Bytes)) :=
  let urf := csvContains t.pdl.val (octets "image/urf")
  [("pwg-raster-document-sheet-back",only urf [str Tag.keyword "normal"]),
   ("pwg-raster-document-type-supported",
    only (urf && valueContains t.urf.val (octets "w8")) [str Tag.keyword "sgray_8"] ++
    only (urf && valueContains t.urf.val (octets "srgb24")) [str Tag.keyword "srgb_8"])]

/-- Added to every normalised response, whatever the printer reported. -/
def facadeAttributes (t : PrinterTarget) : List Item :=
  attributeList (facadeOwned t) ++ (orphanResolution t ++ attributeList (rasterOwned t))

/-- Stand-ins for what the printer did not report. -/
def missingStandins (present : ℕ) (printerUri localUuid : Bytes) (t : PrinterTarget) :
    List (String × List (UInt8 × Bytes)) :=
  ((standins hundredths printerUri localUuid t).filter fun s => present &&& s.flag = 0).map
    fun s => (s.name,s.values)

/-- Everything that is inserted before the end-of-attributes tag. -/
def synthesizedAttributes (present : ℕ) (currentGroup : UInt8) (printerUri localUuid : Bytes)
    (t : PrinterTarget) : List Item :=
  (if currentGroup = Tag.printerAttributes then [] else [.group Tag.printerAttributes]) ++
    (attributeList (missingStandins hundredths present printerUri localUuid t) ++
      facadeAttributes t)

end

end Espresso.Codec
