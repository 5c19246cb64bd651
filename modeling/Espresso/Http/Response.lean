import Espresso.Http.Chunk
import Espresso.Http.Sizes

/-! An HTTP response as a client reads it: lines up to an empty one, and a body of the length that
they announce. -/
namespace Espresso.Http

/-! ### Lines -/

/-- The lines before the first empty one, and what follows that. -/
def readLines (stream : Bytes) : Option (List Bytes × Bytes) :=
  match _h : splitLine stream with
  | none => none
  | some (line,rest) =>
    if line = [] then some ([],rest)
    else (readLines rest).map fun (lines,rest) => (line :: lines,rest)
termination_by stream.length
decreasing_by
  have hlen := splitLine_length _h
  omega

theorem readLines_eq (stream : Bytes) : readLines stream = match splitLine stream with
    | none => none
    | some (line,rest) =>
      if line = [] then some ([],rest)
      else (readLines rest).map fun (lines,rest) => (line :: lines,rest) := by
  rw [readLines]
  split <;> rename_i h <;> rw [h]

/-- A line that is read as it was written. -/
def PlainLine (line : Bytes) : Prop :=
  line ≠ [] ∧ line.length < httpLineSize ∧ ∀ c ∈ line, c ≠ cr ∧ c ≠ lf

instance (line : Bytes) : Decidable (PlainLine line) := by unfold PlainLine; infer_instance

def writtenLines (lines : List Bytes) : Bytes := lines.flatMap (· ++ crlf)

theorem readLines_written {lines : List Bytes} (h : ∀ line ∈ lines, PlainLine line) (rest : Bytes) :
    readLines (writtenLines lines ++ crlf ++ rest) = some (lines,rest) := by
  induction lines with
  | nil =>
    have hempty : splitLine (crlf ++ rest) = some ([],rest) :=
      splitLine_iff.mpr ⟨rfl,by decide,nofun⟩
    change readLines (crlf ++ rest) = _
    rw [readLines_eq, hempty]
    rfl
  | cons line lines ih =>
    obtain ⟨⟨hne,hlength,hplain⟩,hlines⟩ := List.forall_mem_cons.mp h
    have hstream : writtenLines (line :: lines) ++ crlf ++ rest =
        line ++ crlf ++ (writtenLines lines ++ crlf ++ rest) := by
      simp only [writtenLines, List.flatMap_cons, List.append_assoc]
    rw [hstream, readLines_eq, splitLine_iff.mpr ⟨rfl,hlength,hplain⟩]
    simp only
    rw [if_neg hne, ih hlines]
    rfl

/-- Lines that have been read stay read when more arrives. -/
theorem readLines_append {stream rest : Bytes} {lines : List Bytes}
    (h : readLines stream = some (lines,rest)) (more : Bytes) :
    readLines (stream ++ more) = some (lines,rest ++ more) := by
  fun_induction readLines stream generalizing lines rest with
  | case1 stream hline => cases h
  | case2 stream rest1 hline =>
    cases h
    rw [readLines_eq, splitLine_append hline more]
    rfl
  | case3 stream line rest1 hline hne ih =>
    obtain ⟨⟨lines1,rest2⟩,hrest,heq⟩ := Option.map_eq_some_iff.mp h
    cases heq
    rw [readLines_eq, splitLine_append hline more]
    simp only
    rw [if_neg hne, ih hrest]
    rfl

/-! ### Responses -/

structure Response where
  status : Bytes
  contentType : Bytes
  body : Bytes
  deriving DecidableEq

def fieldValue (name : String) (fields : List Bytes) : Option Bytes :=
  let start := octets name ++ octets ": "
  (fields.find? fun field => start.isPrefixOf field).map fun field => field.drop start.length

/-- What a client takes for a complete response. -/
def clientResponse (received : Bytes) : Option Response :=
  match readLines received with
  | some (line :: fields,rest) =>
    if (octets "HTTP/1.1 ").isPrefixOf line then
      match fieldValue "Content-Type" fields,
          (fieldValue "Content-Length" fields).bind parseDecimalSize with
      | some contentType, some n =>
        if n ≤ rest.length then some ⟨line.drop 9,contentType,rest.take n⟩ else none
      | _, _ => none
    else none
  | _ => none

section
variable {line contentType body : Bytes} {fields : List Bytes}

/-- The head of a response with this body. -/
structure Announces (line : Bytes) (fields : List Bytes) (contentType body : Bytes) : Prop where
  plain : ∀ l ∈ line :: fields, PlainLine l
  version : octets "HTTP/1.1 " <+: line
  contentType : fieldValue "Content-Type" fields = some contentType
  contentLength : (fieldValue "Content-Length" fields).bind parseDecimalSize = some body.length

/-- The octets of a response. -/
def responseOctets (line : Bytes) (fields : List Bytes) (body : Bytes) : Bytes :=
  writtenLines (line :: fields) ++ crlf ++ body

theorem clientResponse_whole (h : Announces line fields contentType body) :
    clientResponse (responseOctets line fields body) = some ⟨line.drop 9,contentType,body⟩ := by
  unfold clientResponse responseOctets
  rw [readLines_written h.plain]
  simp only [h.contentType, h.contentLength]
  rw [if_pos (List.isPrefixOf_iff_prefix.mpr h.version), if_pos le_rfl, List.take_length]

/-- A response that is cut off anywhere is not taken for a complete one. -/
theorem clientResponse_cut (h : Announces line fields contentType body) {part : Bytes}
    (hpart : part <+: responseOctets line fields body) (hne : part ≠ responseOctets line fields body) :
    clientResponse part = none := by
  obtain ⟨missing,hmissing⟩ := hpart
  have hpos : 0 < missing.length := by
    refine List.length_pos_of_ne_nil ?_
    rintro rfl
    exact hne (by rw [← hmissing, List.append_nil])
  unfold clientResponse
  cases hlines : readLines part with
  | none => rfl
  | some r =>
    obtain ⟨lines,rest⟩ := r
    have hall := readLines_append hlines missing
    rw [hmissing, responseOctets, readLines_written h.plain] at hall
    cases hall
    simp only [h.contentType, h.contentLength]
    rw [if_pos (List.isPrefixOf_iff_prefix.mpr h.version),
      if_neg (by rw [List.length_append]; omega)]

end

end Espresso.Http
