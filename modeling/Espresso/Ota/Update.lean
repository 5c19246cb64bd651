import Espresso.Lib.System
import Espresso.Printer.Capabilities

/-! Firmware updates: `ota_update.c`, and the two handlers of `web_server.c` that begin one. The
server task and the task that downloads from GitHub run side by side. Every critical section and
every call of the platform is a step of its own; the platform answers as it likes. -/
namespace Espresso.Ota
open Printer (EspError)

abbrev espErrInvalidState : EspError := .other 0x103
abbrev espErrInvalidSize : EspError := .other 0x104
abbrev espErrTimeout : EspError := .other 0x107
abbrev espErrHttpsOtaInProgress : EspError := .other 0x9001

abbrev espressoOtaMessageMax : ℕ := 128
abbrev espressoOtaVersionMax : ℕ := 32
abbrev uploadChunk : ℕ := 4096

/-! ### The status -/

structure OtaUpdateStatus where
  state : Text 16
  message : Text espressoOtaMessageMax
  nextVersion : Text espressoOtaVersionMax
  bytesWritten : ℕ
  totalBytes : ℕ
  partitionSize : ℕ
  active : Bool
  restartPending : Bool
  deriving DecidableEq

namespace OtaUpdateStatus
variable (errToName : EspError → Bytes) (s : OtaUpdateStatus)

/-- `s_status`, after `ota_update_init` has found a slot of this size. -/
def initial (partitionSize : ℕ) : OtaUpdateStatus where
  state := .copy _ (octets "idle")
  message := .copy _ (octets "Ready to update")
  nextVersion := .empty
  bytesWritten := 0
  totalBytes := 0
  partitionSize := partitionSize
  active := false
  restartPending := false

def setFailure (error : EspError) (context : String) : OtaUpdateStatus :=
  { s with
    state := .copy _ (octets "error")
    message := .copy _ (octets context ++ octets ": " ++ errToName error)
    active := false
    restartPending := false }

def setProgress (bytesWritten totalBytes : ℕ) : OtaUpdateStatus :=
  { s with
    bytesWritten := bytesWritten
    totalBytes := if 0 < totalBytes then totalBytes else s.totalBytes }

def setMessage (message : String) : OtaUpdateStatus :=
  { s with message := .copy _ (octets message) }

def setNextVersion (version : Bytes) : OtaUpdateStatus :=
  { s with nextVersion := .copy _ version }

def setReady (version : Bytes) : OtaUpdateStatus :=
  { s with
    state := .copy _ (octets "ready")
    message := .copy _ (octets "Update installed; restarting")
    nextVersion := .copy _ version
    active := false
    restartPending := true }

/-- Nothing for `ESP_ERR_INVALID_STATE`. -/
def reserveUpdate (state message : String) (total : ℕ) : Option OtaUpdateStatus :=
  if s.active || s.restartPending then none
  else some { s with
    state := .copy _ (octets state)
    message := .copy _ (octets message)
    nextVersion := .empty
    bytesWritten := 0
    totalBytes := total
    active := true }

/-- The end of `ota_update_abort_upload`. -/
def setAborted (message : String) : OtaUpdateStatus :=
  { s with
    state := .copy _ (octets "error")
    message := .copy _ (octets message)
    active := false
    restartPending := false }

theorem reserveUpdate_eq_some {state message : String} {total : ℕ} {s' : OtaUpdateStatus}
    (h : s.reserveUpdate state message total = some s') :
    s.active = false ∧ s.restartPending = false ∧ s'.active = true ∧ s'.restartPending = false ∧
      s'.bytesWritten = 0 ∧ s'.totalBytes = total := by
  unfold reserveUpdate at h
  split at h
  · cases h
  · rename_i hfree
    rw [Bool.or_eq_true, not_or, Bool.not_eq_true, Bool.not_eq_true] at hfree
    cases h
    exact ⟨hfree.1,hfree.2,rfl,hfree.2,rfl,rfl⟩

end OtaUpdateStatus

/-! ### The tasks -/

/-- Where the server task stands. -/
inductive Server
  | idle
  /-- `ota_update_begin_upload`, before `esp_ota_begin`. -/
  | reserved (size : ℕ)
  /-- `update_upload_handler`, before its buffer is allocated. -/
  | begun (size : ℕ)
  | receiving (remaining : ℕ)
  /-- `ota_update_write`, before `esp_ota_write`. -/
  | writing (data : Bytes) (remaining : ℕ)
  /-- Before the status is read. -/
  | written (length remaining : ℕ)
  /-- Before `set_progress`, with what has been read. -/
  | counted (bytesWritten totalBytes length remaining : ℕ)
  /-- `ota_update_finish_upload`, before `esp_ota_end`. -/
  | finishing
  | ended
  | described (version : Bytes)
  /-- Before `set_ready`. -/
  | selected (version : Bytes)
  /-- `ota_update_schedule_restart`, before its task is created. -/
  | ready
  | restartFailed
  /-- `ota_update_abort_upload`, before `esp_ota_abort`. -/
  | aborting (message : String)
  | aborted (message : String)
  /-- Before `set_failure`. -/
  | failing (error : EspError) (context : String)
  /-- `ota_update_start_github`, before its task is created. -/
  | starting
  deriving DecidableEq

/-- Where `github_update_task` stands. -/
inductive Download
  | none
  | started
  /-- The clock has to be set first, before `esp_netif_sntp_init`. -/
  | synchronizing
  | waiting (attempt : ℕ)
  | waited
  | connecting
  /-- Before `esp_https_ota_begin`. -/
  | opening
  | opened
  | described (version : Bytes)
  | named (version : Bytes)
  | performing (version : Bytes)
  /-- Before `set_progress`, after `esp_https_ota_perform`. -/
  | performed (version : Bytes) (error : Option EspError) (written imageSize : ℤ)
  /-- After the loop. -/
  | judging (version : Bytes) (error : Option EspError)
  | discarding (error : EspError) (context : String)
  /-- Before `set_failure`. -/
  | failing (error : EspError) (context : String)
  /-- Before `esp_https_ota_finish`. -/
  | finishing (version : Bytes)
  /-- Before `set_ready`. -/
  | finished (version : Bytes)
  | restarting
  deriving DecidableEq

/-- The status, the tasks, and the slot that is not running. What is in the slot, if it has been
validated, which slot is started next and what has been received of an upload is not known to the
code. -/
structure Device where
  status : OtaUpdateStatus
  /-- `s_upload_partition` is set. -/
  uploadPartition : Bool
  server : Server
  download : Download
  restartTask : Bool
  uploadHandle : Bool
  downloadHandle : Bool
  slot : Bytes
  image : Option Bytes
  boot : Bool
  uploaded : Bool
  received : Bytes
  deriving DecidableEq

def Device.initial (partitionSize : UInt32) (slot : Bytes) : Device where
  status := .initial partitionSize.toNat
  uploadPartition := false
  server := .idle
  download := .none
  restartTask := false
  uploadHandle := false
  downloadHandle := false
  slot := slot
  image := none
  boot := false
  uploaded := false
  received := []

/-- What the platform answers to the call that a task waits for; `go` where it waits for none. -/
inductive Answer
  | go
  | result (error : Option EspError)
  | granted (ok : Bool)
  /-- `httpd_req_recv`: nothing for an error or the end of the connection. -/
  | received (data : Option Bytes)
  | timedOut
  | described (version : Bytes)
  | clockSet (ok : Bool)
  | imageSize (size : ℤ)
  /-- One `esp_https_ota_perform`, the octets that it has written, and the two lengths after it. -/
  | performed (error : Option EspError) (data : Bytes) (written imageSize : ℤ)
  | complete (ok : Bool)
  deriving DecidableEq

inductive Action
  | upload (contentLen : ℕ)
  | github
  | server (answer : Answer)
  | download (answer : Answer)
  deriving DecidableEq

section
variable (errToName : EspError → Bytes) (partitionSize : UInt32) (s : Device)

namespace Device

/-- `update_upload_handler` up to the reservation. -/
def upload (contentLen : ℕ) : Device :=
  if contentLen = 0 ∨ partitionSize.toNat < contentLen then s
  else match s.status.reserveUpdate "uploading" "Receiving firmware" contentLen with
    | none => s
    | some status =>
      { s with status := status, uploadPartition := true, server := .reserved contentLen }

/-- `ota_update_start_github` up to the reservation. -/
def github : Device :=
  match s.status.reserveUpdate "downloading" "Connecting to GitHub Pages" 0 with
  | none => s
  | some status => { s with status := status, server := .starting }

/-- One step of `update_upload_handler`, or of `update_github_handler`. -/
def serverStep : Server → Answer → Option Device
  | .reserved size, .result none =>
    some { s with server := .begun size, uploadHandle := true, slot := [], image := none,
                  received := [] }
  | .reserved _, .result (some e) =>
    some { s with server := .failing e "Could not prepare OTA slot", uploadPartition := false }
  | .begun size, .granted true => some { s with server := .receiving size }
  | .begun _, .granted false =>
    some { s with server := .aborting "Not enough memory to receive firmware" }
  | .receiving 0, .go => some { s with server := .finishing }
  | .receiving remaining, .timedOut => if remaining = 0 then none else some s
  | .receiving remaining, .received (some data) =>
    -- no more than was asked for
    if data = [] ∨ min remaining uploadChunk < data.length then none
    else some { s with server := .writing data remaining, received := s.received ++ data }
  | .receiving remaining, .received none =>
    if remaining = 0 then none
    else some { s with server := .aborting "Firmware upload was interrupted" }
  | .writing data remaining, .result none =>
    if !s.uploadPartition then none
    else some { s with server := .written data.length remaining, slot := s.slot ++ data }
  | .writing _ _, .result (some _) =>
    some { s with server := .aborting "Could not write firmware to flash" }
  | .written length remaining, .go =>
    some { s with server := .counted s.status.bytesWritten s.status.totalBytes length remaining }
  | .counted bytesWritten totalBytes length remaining, .go =>
    some { s with server := .receiving (remaining - length),
                  status := s.status.setProgress ((bytesWritten + length) % 4294967296)
                    totalBytes }
  | .finishing, .go => if s.uploadPartition then none else some { s with server := .idle }
  | .finishing, .result none =>
    if !s.uploadPartition then none
    else some { s with server := .ended, uploadPartition := false, uploadHandle := false,
                       image := some s.slot }
  | .finishing, .result (some e) =>
    if !s.uploadPartition then none
    else some { s with server := .failing e "Firmware validation failed",
                       uploadPartition := false, uploadHandle := false }
  | .ended, .described version => some { s with server := .described version }
  | .ended, .result (some e) =>
    some { s with server := .failing e "Upload is not an ESP32 app firmware image" }
  | .described version, .result none =>
    some { s with server := .selected version, boot := true, uploaded := true }
  | .described _, .result (some e) =>
    some { s with server := .failing e "Could not select updated firmware" }
  | .selected version, .go =>
    some { s with server := .ready, status := s.status.setReady version }
  | .ready, .granted true => some { s with server := .idle, restartTask := true }
  | .ready, .granted false => some { s with server := .restartFailed }
  | .restartFailed, .go =>
    some { s with server := .idle,
                  status := s.status.setFailure errToName .noMemory
                    "Update installed; automatic restart failed" }
  | .aborting message, .go =>
    if s.uploadPartition then
      some { s with server := .aborted message, uploadPartition := false, uploadHandle := false }
    else some { s with server := .aborted message }
  | .aborted message, .go =>
    some { s with server := .idle, status := s.status.setAborted message }
  | .failing e context, .go =>
    some { s with server := .idle, status := s.status.setFailure errToName e context }
  | .starting, .granted true => some { s with server := .idle, download := .started }
  | .starting, .granted false =>
    some { s with server := .failing .noMemory "Could not start update task" }
  | _, _ => none

/-- One step of `github_update_task`. -/
def downloadStep : Download → Answer → Option Device
  | .started, .clockSet true => some { s with download := .connecting }
  | .started, .clockSet false =>
    some { s with download := .synchronizing,
                  status := s.status.setMessage "Synchronizing clock for secure download" }
  | .synchronizing, .result none => some { s with download := .waiting 0 }
  | .synchronizing, .result (some e) =>
    if e = espErrInvalidState then some { s with download := .waiting 0 }
    else some { s with download := .failing e "Could not start clock synchronization" }
  | .waiting attempt, .clockSet ok =>
    if ok ∨ 5 ≤ attempt then some { s with download := .waited }
    else some { s with download := .waiting (attempt + 1) }
  | .waited, .clockSet true => some { s with download := .connecting }
  | .waited, .clockSet false =>
    some { s with download := .failing espErrTimeout "Clock synchronization timed out" }
  | .connecting, .go =>
    some { s with download := .opening,
                  status := s.status.setMessage "Connecting to GitHub Pages" }
  | .opening, .result none =>
    some { s with download := .opened, downloadHandle := true, slot := [], image := none }
  | .opening, .result (some e) =>
    some { s with download := .failing e "Could not connect to GitHub Pages" }
  | .opened, .described version => some { s with download := .described version }
  | .opened, .result (some e) =>
    some { s with download := .discarding e "Could not read firmware metadata" }
  | .described version, .go =>
    some { s with download := .named version, status := s.status.setNextVersion version }
  | .named version, .imageSize size =>
    some { s with download := .performing version,
                  status := if 0 < size then s.status.setProgress 0 size.toNat else s.status }
  | .performing version, .performed e data written size =>
    some { s with download := .performed version e written size, slot := s.slot ++ data }
  | .performed version e written size, .go =>
    some { s with download := if e = some espErrHttpsOtaInProgress then .performing version
                    else .judging version e,
                  status := if 0 ≤ written then s.status.setProgress written.toNat size.toNat
                    else s.status }
  | .judging version none, .complete true => some { s with download := .finishing version }
  | .judging _ none, .complete false =>
    some { s with download := .discarding espErrInvalidSize "Firmware download failed" }
  | .judging _ (some e), .go =>
    some { s with download := .discarding e "Firmware download failed" }
  | .discarding e context, .go =>
    some { s with download := .failing e context, downloadHandle := false }
  | .failing e context, .go =>
    some { s with download := .none, status := s.status.setFailure errToName e context }
  | .finishing version, .result none =>
    some { s with download := .finished version, downloadHandle := false, image := some s.slot,
                  boot := true, uploaded := false }
  | .finishing _, .result (some e) =>
    some { s with download := .failing e "Firmware validation failed", downloadHandle := false }
  | .finished version, .go =>
    some { s with download := .restarting, status := s.status.setReady version }
  | _, _ => none

end Device

/-- The server task takes one request at a time. -/
def step : Action → Option Device
  | .upload contentLen => if s.server = .idle then some (s.upload partitionSize contentLen) else none
  | .github => if s.server = .idle then some s.github else none
  | .server answer => s.serverStep errToName s.server answer
  | .download answer => s.downloadStep errToName s.download answer

end

end Espresso.Ota
