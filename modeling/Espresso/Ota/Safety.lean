import Espresso.Ota.Update

/-! What every interleaving of the two updaters keeps: one of them at a time, an upload accounted
for octet by octet, and nothing but a validated image behind the boot record. -/
namespace Espresso.Ota
open Printer (EspError)

/-! ### One update at a time -/

/-- What a task has to do with the slot. -/
inductive Phase
  | free
  | holding
  | pending
  deriving DecidableEq

def Server.phase : Server → Phase
  | .idle => .free
  | .ready | .restartFailed => .pending
  | _ => .holding

def Download.phase : Download → Phase
  | .none => .free
  | .restarting => .pending
  | _ => .holding

@[simp] theorem Server.phase_idle : Server.idle.phase = .free := rfl

@[simp] theorem Download.phase_none : Download.none.phase = .free := rfl

@[simp] theorem Download.phase_restarting : Download.restarting.phase = .pending := rfl

/-- `s_upload_partition` is set there. -/
def Server.opens : Server → Bool
  | .reserved _ | .begun _ | .receiving _ | .writing _ _ | .written _ _ | .counted _ _ _ _
  | .finishing | .aborting _ => true
  | _ => false

def Server.writes : Server → Bool
  | .reserved _ => false
  | pc => pc.opens

def Download.writes : Download → Bool
  | .opened | .described _ | .named _ | .performing _ | .performed _ _ _ _ | .judging _ _
  | .discarding _ _ | .finishing _ => true
  | _ => false

theorem Server.holding_of_writes {pc : Server} (h : pc.writes = true) : pc.phase = .holding := by
  cases pc <;> first | rfl | cases h

/-- The status tells which of the tasks is at work, and there is one at most. -/
inductive Device.Stands (s : Device) : Prop
  | free (hs : s.server = .idle) (hd : s.download = .none) (hr : s.restartTask = false)
    (ha : s.status.active = false) (hp : s.status.restartPending = false)
  | uploading (hs : s.server.phase = .holding) (hd : s.download = .none)
    (hr : s.restartTask = false) (ha : s.status.active = true)
    (hp : s.status.restartPending = false)
  | downloading (hs : s.server = .idle) (hd : s.download.phase = .holding)
    (hr : s.restartTask = false) (ha : s.status.active = true)
    (hp : s.status.restartPending = false)
  | announced (hs : s.server.phase = .pending) (hd : s.download = .none)
    (hr : s.restartTask = false) (ha : s.status.active = false)
    (hp : s.status.restartPending = true)
  | scheduled (hs : s.server = .idle) (hd : s.download = .none) (hr : s.restartTask = true)
    (ha : s.status.active = false) (hp : s.status.restartPending = true)
  | restarting (hs : s.server = .idle) (hd : s.download = .restarting)
    (hr : s.restartTask = false) (ha : s.status.active = false)
    (hp : s.status.restartPending = true)

section
variable {errToName : EspError → Bytes} {partitionSize : UInt32} {s s' : Device} {a : Answer}

/-- What a step of the server task leaves of its hold on the slot. -/
inductive Device.ServerStepped (s s' : Device) : Prop
  | goesOn (hs : s'.server.phase = .holding) (hd : s'.download = s.download)
    (ha : s'.status.active = s.status.active)
    (hp : s'.status.restartPending = s.status.restartPending)
  | gaveUp (hs : s'.server = .idle) (hd : s'.download = s.download)
    (ha : s'.status.active = false) (hp : s'.status.restartPending = false)
  | succeeded (hs : s'.server = .ready) (hd : s'.download = s.download)
    (ha : s'.status.active = false) (hp : s'.status.restartPending = true)
  | handedOver (hs : s'.server = .idle) (hd : s'.download = .started)
    (ha : s'.status.active = s.status.active)
    (hp : s'.status.restartPending = s.status.restartPending)

theorem serverStep_holding (hpc : s.server.phase = .holding)
    (hpartition : s.uploadPartition = s.server.opens)
    (h : s.serverStep errToName s.server a = some s') :
    s.ServerStepped s' ∧ s'.restartTask = s.restartTask := by
  generalize hserver : s.server = pc at h hpc hpartition
  unfold Device.serverStep at h
  split at h
  all_goals try split_ifs at h with hguard
  all_goals cases h
  all_goals first
    | exact ⟨.goesOn rfl rfl rfl rfl,rfl⟩
    | exact ⟨.goesOn (hserver ▸ hpc) rfl rfl rfl,rfl⟩
    | exact ⟨.gaveUp rfl rfl rfl rfl,rfl⟩
    | exact ⟨.succeeded rfl rfl rfl rfl,rfl⟩
    | exact ⟨.handedOver rfl rfl rfl rfl,rfl⟩
    | exact absurd hpartition hguard
    | cases hpc

/-- The partition and the handle are there exactly where the server task is in between. -/
theorem serverStep_owned (hpartition : s.uploadPartition = s.server.opens)
    (hupload : s.uploadHandle = s.server.writes)
    (h : s.serverStep errToName s.server a = some s') :
    s'.uploadPartition = s'.server.opens ∧ s'.uploadHandle = s'.server.writes ∧
      s'.downloadHandle = s.downloadHandle := by
  generalize hserver : s.server = pc at h hpartition hupload
  unfold Device.serverStep at h
  split at h
  all_goals try split_ifs at h with hguard
  all_goals cases h
  all_goals first
    | exact ⟨hpartition,hupload,rfl⟩
    | exact ⟨rfl,hupload,rfl⟩
    | exact ⟨hpartition,rfl,rfl⟩
    | exact ⟨rfl,rfl,rfl⟩
    | exact ⟨hserver ▸ hpartition,hserver ▸ hupload,rfl⟩
    | exact absurd hpartition hguard

/-- What a step of the download leaves of its hold on the slot. -/
inductive Device.DownloadStepped (s s' : Device) : Prop
  | goesOn (hd : s'.download.phase = .holding) (ha : s'.status.active = s.status.active)
    (hp : s'.status.restartPending = s.status.restartPending)
  | gaveUp (hd : s'.download = .none) (ha : s'.status.active = false)
    (hp : s'.status.restartPending = false)
  | succeeded (hd : s'.download = .restarting) (ha : s'.status.active = false)
    (hp : s'.status.restartPending = true)

theorem downloadStep_holding (h : s.downloadStep errToName s.download a = some s') :
    s.DownloadStepped s' ∧ s'.server = s.server ∧ s'.restartTask = s.restartTask := by
  generalize s.download = pc at h
  unfold Device.downloadStep at h
  split at h
  all_goals try split_ifs at h
  all_goals cases h
  all_goals first
    | exact ⟨.goesOn rfl rfl rfl,rfl,rfl⟩
    | exact ⟨.gaveUp rfl rfl rfl,rfl,rfl⟩
    | exact ⟨.succeeded rfl rfl rfl,rfl,rfl⟩

theorem downloadStep_owned (hdownload : s.downloadHandle = s.download.writes)
    (h : s.downloadStep errToName s.download a = some s') :
    s'.downloadHandle = s'.download.writes ∧ s'.uploadPartition = s.uploadPartition ∧
      s'.uploadHandle = s.uploadHandle := by
  generalize s.download = pc at h hdownload
  unfold Device.downloadStep at h
  split at h
  all_goals try split_ifs at h
  all_goals cases h
  all_goals first
    | exact ⟨hdownload,rfl,rfl⟩
    | exact ⟨rfl,rfl,rfl⟩

/-- A request that is refused changes nothing; one that is not finds everything free. -/
theorem upload_cases (contentLen : ℕ) : s.upload partitionSize contentLen = s ∨
    0 < contentLen ∧ contentLen ≤ partitionSize.toNat ∧ s.status.active = false ∧
      s.status.restartPending = false ∧
      ∃ status, s.status.reserveUpdate "uploading" "Receiving firmware" contentLen = some status ∧
        s.upload partitionSize contentLen = { s with
          status := status, uploadPartition := true, server := .reserved contentLen } := by
  unfold Device.upload
  split
  · exact .inl rfl
  rename_i hsize
  split
  · exact .inl rfl
  rename_i status hreserve
  obtain ⟨hactive,hpending,-⟩ := s.status.reserveUpdate_eq_some hreserve
  obtain ⟨hne,hle⟩ := not_or.mp hsize
  exact .inr ⟨Nat.pos_of_ne_zero hne,not_lt.mp hle,hactive,hpending,status,hreserve,rfl⟩

theorem github_cases : s.github = s ∨ s.status.active = false ∧
    s.status.restartPending = false ∧
    ∃ status, s.status.reserveUpdate "downloading" "Connecting to GitHub Pages" 0 = some status ∧
      s.github = { s with status := status, server := .starting } := by
  unfold Device.github
  split
  · exact .inl rfl
  · rename_i status hreserve
    obtain ⟨hactive,hpending,-⟩ := s.status.reserveUpdate_eq_some hreserve
    exact .inr ⟨hactive,hpending,status,hreserve,rfl⟩

/-- Nothing is at work where the status says so. -/
theorem Device.Stands.eq_free (h : s.Stands) (ha : s.status.active = false)
    (hp : s.status.restartPending = false) :
    s.server = .idle ∧ s.download = .none ∧ s.restartTask = false := by
  cases h with
  | free hs hd hr => exact ⟨hs,hd,hr⟩
  | uploading hs hd hr ha' => cases ha.symm.trans ha'
  | downloading hs hd hr ha' => cases ha.symm.trans ha'
  | announced hs hd hr ha' hp' => cases hp.symm.trans hp'
  | scheduled hs hd hr ha' hp' => cases hp.symm.trans hp'
  | restarting hs hd hr ha' hp' => cases hp.symm.trans hp'

theorem serverStep_pending (hpc : s.server.phase = .pending)
    (h : s.serverStep errToName s.server a = some s') :
    (s'.server = .restartFailed ∧ s'.restartTask = s.restartTask ∧ s'.status = s.status ∨
      s'.server = .idle ∧ s'.restartTask = true ∧ s'.status = s.status ∨
      s'.server = .idle ∧ s'.restartTask = s.restartTask ∧ s'.status.active = false ∧
        s'.status.restartPending = false) ∧ s'.download = s.download := by
  generalize s.server = pc at h hpc
  unfold Device.serverStep at h
  split at h
  all_goals try split_ifs at h
  all_goals cases h
  all_goals first
    | exact ⟨.inl ⟨rfl,rfl,rfl⟩,rfl⟩
    | exact ⟨.inr (.inl ⟨rfl,rfl,rfl⟩),rfl⟩
    | exact ⟨.inr (.inr ⟨rfl,rfl,rfl,rfl⟩),rfl⟩
    | cases hpc

theorem stands_server (h : s.Stands) (hpartition : s.uploadPartition = s.server.opens)
    (hstep : s.serverStep errToName s.server a = some s') : s'.Stands := by
  have hidle : s.server ≠ .idle := by
    intro hidle
    rw [hidle] at hstep
    cases hstep
  cases h with
  | free hs => exact absurd hs hidle
  | downloading hs => exact absurd hs hidle
  | scheduled hs => exact absurd hs hidle
  | restarting hs => exact absurd hs hidle
  | uploading hs hd hr ha hp =>
    obtain ⟨hstepped,hr'⟩ := serverStep_holding hs hpartition hstep
    cases hstepped with
    | goesOn hs' hd' ha' hp' =>
      exact .uploading hs' (hd'.trans hd) (hr'.trans hr) (ha'.trans ha) (hp'.trans hp)
    | gaveUp hs' hd' ha' hp' => exact .free hs' (hd'.trans hd) (hr'.trans hr) ha' hp'
    | succeeded hs' hd' ha' hp' =>
      exact .announced (hs' ▸ rfl) (hd'.trans hd) (hr'.trans hr) ha' hp'
    | handedOver hs' hd' ha' hp' =>
      exact .downloading hs' (hd' ▸ rfl) (hr'.trans hr) (ha'.trans ha) (hp'.trans hp)
  | announced hs hd hr ha hp =>
    obtain ⟨hcases,hd'⟩ := serverStep_pending hs hstep
    rcases hcases with ⟨hs',hr',hstatus⟩ | ⟨hs',hr',hstatus⟩ | ⟨hs',hr',ha',hp'⟩
    · exact .announced (hs' ▸ rfl) (hd'.trans hd) (hr'.trans hr) (hstatus ▸ ha) (hstatus ▸ hp)
    · exact .scheduled hs' (hd'.trans hd) hr' (hstatus ▸ ha) (hstatus ▸ hp)
    · exact .free hs' (hd'.trans hd) (hr'.trans hr) ha' hp'

/-- The server task leaves the download alone, but for starting it where there is none. -/
theorem serverStep_download (h : s.serverStep errToName s.server a = some s') :
    s'.download = s.download ∨ s.server = .starting ∧ s'.download = .started := by
  generalize s.server = pc at h
  unfold Device.serverStep at h
  split at h
  all_goals try split_ifs at h
  all_goals cases h
  all_goals first
    | exact .inl rfl
    | exact .inr ⟨rfl,rfl⟩

theorem Device.Stands.download_of_holding (h : s.Stands) (hs : s.server.phase = .holding) :
    s.download = .none := by
  cases h with
  | uploading _ hd => exact hd
  | announced hs' => cases hs.symm.trans hs'
  | free hs' | downloading hs' | scheduled hs' | restarting hs' =>
    rw [hs'] at hs
    cases hs

theorem Device.Stands.server_of_holding (h : s.Stands) (hd : s.download.phase = .holding) :
    s.server = .idle := by
  cases h with
  | downloading hs => exact hs
  | free _ hd' | uploading _ hd' | announced _ hd' | scheduled _ hd' | restarting _ hd' =>
    rw [hd'] at hd
    cases hd

theorem downloadStep_phase (h : s.downloadStep errToName s.download a = some s') :
    s.download.phase = .holding := by
  generalize s.download = pc at h
  unfold Device.downloadStep at h
  split at h
  all_goals try split_ifs at h
  all_goals cases h
  all_goals rfl

theorem stands_download (h : s.Stands) (hstep : s.downloadStep errToName s.download a = some s') :
    s'.Stands := by
  have hphase := downloadStep_phase hstep
  have hnone : s.download ≠ .none := by
    intro hnone
    rw [hnone] at hphase
    cases hphase
  cases h with
  | free hs hd => exact absurd hd hnone
  | uploading hs hd => exact absurd hd hnone
  | announced hs hd => exact absurd hd hnone
  | scheduled hs hd => exact absurd hd hnone
  | restarting hs hd =>
    rw [hd] at hphase
    cases hphase
  | downloading hs hd hr ha hp =>
    obtain ⟨hstepped,hs',hr'⟩ := downloadStep_holding hstep
    cases hstepped with
    | goesOn hd' ha' hp' =>
      exact .downloading (hs'.trans hs) hd' (hr'.trans hr) (ha'.trans ha) (hp'.trans hp)
    | gaveUp hd' ha' hp' => exact .free (hs'.trans hs) hd' (hr'.trans hr) ha' hp'
    | succeeded hd' ha' hp' => exact .restarting (hs'.trans hs) hd' (hr'.trans hr) ha' hp'

/-! ### The octets of an upload -/

/-- Of an upload, `inFlight` is in the buffer, `unreported` octets in the slot are not counted in the
status yet, and `left` are still to be received. -/
structure Copied (partitionSize : UInt32) (status : OtaUpdateStatus) (slot received inFlight : Bytes)
    (unreported left : ℕ) : Prop where
  fits : status.totalBytes ≤ partitionSize.toNat
  received : received = slot ++ inFlight
  reported : status.bytesWritten + unreported = slot.length
  whole : slot.length + inFlight.length + left = status.totalBytes

def Server.Tally (partitionSize : UInt32) (status : OtaUpdateStatus) (slot received : Bytes)
    (image : Option Bytes) : Server → Prop
  | .reserved size => status.bytesWritten = 0 ∧ status.totalBytes = size ∧
    size ≤ partitionSize.toNat
  | .begun size => Copied partitionSize status slot received [] 0 size
  | .receiving remaining => Copied partitionSize status slot received [] 0 remaining
  | .writing data remaining => data.length ≤ remaining ∧
    Copied partitionSize status slot received data 0 (remaining - data.length)
  | .written length remaining => length ≤ remaining ∧
    Copied partitionSize status slot received [] length (remaining - length)
  | .counted bytesWritten totalBytes length remaining =>
    bytesWritten = status.bytesWritten ∧ totalBytes = status.totalBytes ∧ length ≤ remaining ∧
      Copied partitionSize status slot received [] length (remaining - length)
  | .finishing => Copied partitionSize status slot received [] 0 0
  | .ended | .described _ | .selected _ =>
    Copied partitionSize status slot received [] 0 0 ∧ image = some slot
  | _ => True

def Device.Tally (partitionSize : UInt32) (s : Device) : Prop :=
  s.server.Tally partitionSize s.status s.slot s.received s.image

theorem Copied.begun {status : OtaUpdateStatus} {size : ℕ} (hreported : status.bytesWritten = 0)
    (htotal : status.totalBytes = size) (hfits : size ≤ partitionSize.toNat) :
    Copied partitionSize status [] [] [] 0 size :=
  ⟨htotal ▸ hfits,rfl,hreported,by simp [htotal]⟩

section
variable {status : OtaUpdateStatus} {slot received data : Bytes} {length remaining : ℕ}

theorem Copied.taken (h : Copied partitionSize status slot received [] 0 remaining)
    (hle : data.length ≤ remaining) :
    Copied partitionSize status slot (received ++ data) data 0 (remaining - data.length) := by
  have hwhole := h.whole
  have hreceived := h.received
  rw [List.length_nil, Nat.add_zero] at hwhole
  rw [List.append_nil] at hreceived
  exact ⟨h.fits,by rw [hreceived],h.reported,by omega⟩

theorem Copied.stored (h : Copied partitionSize status slot received data 0 remaining) :
    Copied partitionSize status (slot ++ data) received [] data.length remaining := by
  have hwhole := h.whole
  have hreported := h.reported
  refine ⟨h.fits,by rw [h.received, List.append_nil],?_,?_⟩
  · rw [List.length_append]
    omega
  · rw [List.length_append, List.length_nil]
    omega

/-- The count does not wrap: the upload fits the slot. -/
theorem Copied.counted (h : Copied partitionSize status slot received [] length remaining) :
    Copied partitionSize (status.setProgress ((status.bytesWritten + length) % 4294967296)
      status.totalBytes) slot received [] 0 remaining := by
  have hwhole := h.whole
  have hreported := h.reported
  have hfits := h.fits
  have hsize := partitionSize.toNat_lt
  rw [List.length_nil, Nat.add_zero] at hwhole
  have hkept : (status.setProgress ((status.bytesWritten + length) % 4294967296)
      status.totalBytes).totalBytes = status.totalBytes := by
    unfold OtaUpdateStatus.setProgress
    split <;> rfl
  refine ⟨hkept.symm ▸ hfits,h.received,?_,hkept.symm ▸ h.whole⟩
  change (status.bytesWritten + length) % 4294967296 + 0 = slot.length
  rw [Nat.mod_eq_of_lt (by omega)]
  omega

end

theorem tally_server (htally : s.Tally partitionSize)
    (h : s.serverStep errToName s.server a = some s') : s'.Tally partitionSize := by
  unfold Device.Tally at htally
  generalize hserver : s.server = pc at h htally
  unfold Device.serverStep at h
  split at h
  all_goals try split_ifs at h with hguard
  all_goals cases h
  all_goals first
    | exact trivial
    | exact htally
    | exact Copied.begun htally.1 htally.2.1 htally.2.2
    | exact ⟨htally.1,htally.2.stored⟩
    | exact ⟨rfl,rfl,htally.1,htally.2⟩
    | exact ⟨htally,rfl⟩
    | skip
  · rename_i remaining hne
    unfold Device.Tally
    rw [hserver]
    exact htally
  · rename_i remaining data
    have hle : data.length ≤ remaining :=
      (not_lt.mp (not_or.mp hguard).2).trans (min_le_left _ _)
    exact ⟨hle,Copied.taken htally hle⟩
  · obtain ⟨rfl,rfl,-,hcopied⟩ := htally
    exact hcopied.counted

theorem tally_idle (hs : s.server = .idle) : s.Tally partitionSize := by
  unfold Device.Tally
  rw [hs]
  trivial

/-! ### Runs -/

/-- What holds in every state of every run. -/
structure Device.Safe (partitionSize : UInt32) (s : Device) : Prop where
  stands : s.Stands
  partition : s.uploadPartition = s.server.opens
  upload : s.uploadHandle = s.server.writes
  download : s.downloadHandle = s.download.writes
  tally : s.Tally partitionSize

theorem safe_initial (slot : Bytes) : (Device.initial partitionSize slot).Safe partitionSize :=
  ⟨.free rfl rfl rfl rfl rfl,rfl,rfl,rfl,trivial⟩

theorem safe_upload (h : s.Safe partitionSize) (contentLen : ℕ) :
    (s.upload partitionSize contentLen).Safe partitionSize := by
  rcases @upload_cases partitionSize s contentLen with hsame | hnew
  · rw [hsame]
    exact h
  obtain ⟨-,hle,ha,hp,status,hreserve,heq⟩ := hnew
  obtain ⟨hs,hd,hr⟩ := h.stands.eq_free ha hp
  obtain ⟨-,-,ha',hp',hbytes,htotal⟩ := s.status.reserveUpdate_eq_some hreserve
  have hupload := h.upload
  rw [hs] at hupload
  rw [heq]
  exact ⟨.uploading rfl hd hr ha' hp',rfl,hupload,h.download,hbytes,htotal,hle⟩

theorem safe_github (h : s.Safe partitionSize) : s.github.Safe partitionSize := by
  rcases github_cases (s := s) with hsame | ⟨ha,hp,status,hreserve,heq⟩
  · rw [hsame]
    exact h
  obtain ⟨hs,hd,hr⟩ := h.stands.eq_free ha hp
  obtain ⟨-,-,ha',hp',-⟩ := s.status.reserveUpdate_eq_some hreserve
  have hpartition := h.partition
  have hupload := h.upload
  rw [hs] at hpartition hupload
  rw [heq]
  exact ⟨.uploading rfl hd hr ha' hp',hpartition,hupload,h.download,trivial⟩

theorem safe_step {action : Action} (h : s.Safe partitionSize)
    (hstep : step errToName partitionSize s action = some s') : s'.Safe partitionSize := by
  cases action with
  | upload contentLen =>
    simp only [step] at hstep
    split at hstep
    · cases hstep
      exact safe_upload h contentLen
    · cases hstep
  | github =>
    simp only [step] at hstep
    split at hstep
    · cases hstep
      exact safe_github h
    · cases hstep
  | server answer =>
    obtain ⟨hpartition,hupload,hdownload⟩ := serverStep_owned h.partition h.upload hstep
    refine ⟨stands_server h.stands h.partition hstep,hpartition,hupload,?_,
      tally_server h.tally hstep⟩
    rw [hdownload, h.download]
    rcases serverStep_download hstep with hsame | ⟨hs,hstarted⟩
    · rw [hsame]
    · rw [hstarted, h.stands.download_of_holding (by rw [hs]; rfl)]
      rfl
  | download answer =>
    obtain ⟨hdownload,hpartition,hupload⟩ := downloadStep_owned h.download hstep
    obtain ⟨-,hserver,-⟩ := downloadStep_holding hstep
    have hidle := h.stands.server_of_holding (downloadStep_phase hstep)
    refine ⟨stands_download h.stands hstep,?_,?_,hdownload,tally_idle (hserver.trans hidle)⟩
    · rw [hpartition, hserver, h.partition]
    · rw [hupload, hserver, h.upload]

theorem safe_run {allowed : Device → Action → Prop} {slot : Bytes} {actions : List Action}
    (h : System.Trace (step errToName partitionSize) allowed (.initial partitionSize slot) actions
      s) : s.Safe partitionSize :=
  h.invariant (fun _ _ _ hs _ hstep => safe_step hs hstep) (safe_initial slot)

/-- A request for another update while one is at work, or a restart is to come, changes nothing. -/
theorem refused (h : s.status.active = true ∨ s.status.restartPending = true) (contentLen : ℕ) :
    s.upload partitionSize contentLen = s ∧ s.github = s := by
  refine ⟨?_,?_⟩
  · rcases @upload_cases partitionSize s contentLen with hsame | hnew
    · exact hsame
    · obtain ⟨-,-,ha,hp,-⟩ := hnew
      rcases h with h | h
      · cases ha.symm.trans h
      · cases hp.symm.trans h
  · rcases github_cases (s := s) with hsame | ⟨ha,hp,-⟩
    · exact hsame
    · rcases h with h | h
      · cases ha.symm.trans h
      · cases hp.symm.trans h

/-- In every state of every run the slot has one writer at most, the status says whether there is
one and whether a restart is to come, and then other updates are refused. -/
theorem update_exclusive {slot : Bytes} {actions : List Action}
    (h : System.Trace (step errToName partitionSize) (fun _ _ => True)
      (.initial partitionSize slot) actions s) :
    (s.uploadHandle = true → s.downloadHandle = false) ∧
    (s.status.active = true ↔ s.server.phase = .holding ∨ s.download.phase = .holding) ∧
    (s.status.restartPending = true ↔
      s.server.phase = .pending ∨ s.download.phase = .pending ∨ s.restartTask = true) ∧
    (s.status.active = true ∨ s.status.restartPending = true →
      ∀ contentLen, s.upload partitionSize contentLen = s ∧ s.github = s) := by
  have hsafe := safe_run h
  refine ⟨?_,?_,?_,refused⟩
  · intro hupload
    have hholding := Server.holding_of_writes (hsafe.upload.symm.trans hupload)
    rw [hsafe.download, hsafe.stands.download_of_holding hholding]
    rfl
  · cases hsafe.stands with
    | free hs hd hr ha hp | announced hs hd hr ha hp | scheduled hs hd hr ha hp
    | restarting hs hd hr ha hp | uploading hs hd hr ha hp | downloading hs hd hr ha hp =>
      simp [hs, hd, ha]
  · cases hsafe.stands with
    | free hs hd hr ha hp | announced hs hd hr ha hp | scheduled hs hd hr ha hp
    | restarting hs hd hr ha hp | uploading hs hd hr ha hp | downloading hs hd hr ha hp =>
      simp [hs, hd, hr, hp]

/-! ### The boot record -/

/-- The task that is to restart the device can be created. -/
def Restarts (s : Device) (action : Action) : Prop :=
  ¬ (s.server = .ready ∧ action = .server (.granted false))

instance (s : Device) (action : Action) : Decidable (Restarts s action) := by
  unfold Restarts; infer_instance

/-- What is booted next: a validated image, and of an upload all of it. -/
structure Device.Bootable (s : Device) : Prop where
  image : s.image = some s.slot
  whole : s.uploaded = true → s.slot = s.received ∧ s.slot.length = s.status.totalBytes

/-- The boot record has been written, and the restart is all that is to come. -/
structure Device.Booting (s : Device) : Prop where
  bootable : s.Bootable
  last : s.status.restartPending = true ∨ (∃ version, s.server = .selected version) ∨
    ∃ version, s.download = .finished version

structure Device.Sound (partitionSize : UInt32) (s : Device) : Prop where
  safe : s.Safe partitionSize
  restarts : s.server ≠ .restartFailed
  boot : s.boot = true → s.Booting

/-- A step of the server task that writes the boot record, follows it or leaves it alone. -/
inductive Device.BootStepped (s s' : Device) : Prop
  | writes (version : Bytes) (hs : s.server = .described version)
    (hs' : s'.server = .selected version) (hstatus : s'.status = s.status)
    (hslot : s'.slot = s.slot) (himage : s'.image = s.image) (hreceived : s'.received = s.received)
  | follows (version : Bytes) (hs : s.server = .selected version)
    (hs' : s'.status = s.status.setReady version) (hboot : s'.boot = s.boot)
    (hslot : s'.slot = s.slot) (himage : s'.image = s.image) (hreceived : s'.received = s.received)
    (huploaded : s'.uploaded = s.uploaded)
  | schedules (hs : s.server = .ready) (hs' : s'.status = s.status) (hboot : s'.boot = s.boot)
    (hslot : s'.slot = s.slot) (himage : s'.image = s.image) (hreceived : s'.received = s.received)
    (huploaded : s'.uploaded = s.uploaded)
  | other (hs : s.server.phase = .holding) (hselected : ∀ version, s.server ≠ .selected version)
    (hboot : s'.boot = s.boot)

theorem serverStep_boot (hrestarts : s.server ≠ .restartFailed)
    (hallowed : ¬ (s.server = .ready ∧ a = .granted false))
    (h : s.serverStep errToName s.server a = some s') :
    s.BootStepped s' ∧ s'.server ≠ .restartFailed := by
  generalize hserver : s.server = pc at h hrestarts hallowed
  unfold Device.serverStep at h
  split at h
  all_goals try split_ifs at h
  all_goals cases h
  all_goals first
    | exact ⟨.writes _ hserver rfl rfl rfl rfl rfl,Server.noConfusion⟩
    | exact ⟨.follows _ hserver rfl rfl rfl rfl rfl rfl,Server.noConfusion⟩
    | exact ⟨.schedules hserver rfl rfl rfl rfl rfl rfl,Server.noConfusion⟩
    | exact absurd ⟨rfl,rfl⟩ hallowed
    | exact absurd rfl hrestarts
    | refine ⟨.other (by rw [hserver]; rfl) (by rw [hserver]; exact fun _ => Server.noConfusion)
        rfl,?_⟩
  all_goals first
    | exact Server.noConfusion
    | (rw [hserver]; exact Server.noConfusion)

/-- A step of the download that writes the boot record, follows it or leaves it alone. -/
inductive Device.DownloadBoot (s s' : Device) : Prop
  | writes (version : Bytes) (hd' : s'.download = .finished version)
    (himage : s'.image = some s'.slot) (huploaded : s'.uploaded = false)
  | follows (version : Bytes) (hs' : s'.status = s.status.setReady version)
    (hboot : s'.boot = s.boot) (hslot : s'.slot = s.slot) (himage : s'.image = s.image)
    (hreceived : s'.received = s.received) (huploaded : s'.uploaded = s.uploaded)
  | other (hd : ∀ version, s.download ≠ .finished version) (hboot : s'.boot = s.boot)

theorem downloadStep_boot (h : s.downloadStep errToName s.download a = some s') :
    s.DownloadBoot s' := by
  generalize hdownload : s.download = pc at h
  unfold Device.downloadStep at h
  split at h
  all_goals try split_ifs at h
  all_goals cases h
  all_goals first
    | exact .writes _ rfl rfl rfl
    | exact .follows _ rfl rfl rfl rfl rfl rfl
    | exact .other (by rw [hdownload]; exact fun _ => Download.noConfusion) rfl

/-- Where everything is free, or a task is about something else, the boot record has not been
written. -/
theorem Device.Sound.boot_eq_false (h : s.Sound partitionSize)
    (hp : s.status.restartPending = false) (hs : ∀ version, s.server ≠ .selected version)
    (hd : ∀ version, s.download ≠ .finished version) : s.boot = false := by
  rw [← Bool.not_eq_true]
  intro hboot
  rcases (h.boot hboot).last with hp' | ⟨version,hs'⟩ | ⟨version,hd'⟩
  · cases hp.symm.trans hp'
  · exact hs version hs'
  · exact hd version hd'

theorem sound_idle (h : s.Sound partitionSize) (ha : s.status.active = false)
    (hp : s.status.restartPending = false) : s.boot = false := by
  obtain ⟨hs,hd,-⟩ := h.safe.stands.eq_free ha hp
  exact h.boot_eq_false hp (fun _ hs' => by cases hs.symm.trans hs')
    fun _ hd' => by cases hd.symm.trans hd'

theorem sound_server (h : s.Sound partitionSize)
    (hallowed : ¬ (s.server = .ready ∧ a = .granted false))
    (hstep : s.serverStep errToName s.server a = some s') :
    s'.server ≠ .restartFailed ∧ (s'.boot = true → s'.Booting) := by
  obtain ⟨hstepped,hrestarts⟩ := serverStep_boot h.restarts hallowed hstep
  refine ⟨hrestarts,fun hboot => ?_⟩
  cases hstepped with
  | writes version hs hs' hstatus hslot himage hreceived =>
    have htally := h.safe.tally
    unfold Device.Tally at htally
    rw [hs] at htally
    obtain ⟨hcopied,hvalid⟩ := htally
    have hall := hcopied.received
    have hlength := hcopied.whole
    rw [List.append_nil] at hall
    refine ⟨⟨himage.trans (hvalid.trans (congrArg some hslot.symm)),fun _ => ?_⟩,
      .inr (.inl ⟨version,hs'⟩)⟩
    rw [hslot, hreceived, hstatus]
    exact ⟨hall.symm,hlength⟩
  | follows version hs hs' hboot' hslot himage hreceived huploaded =>
    have hbefore := (h.boot (hboot'.symm.trans hboot)).bootable
    refine ⟨⟨by rw [himage, hslot]; exact hbefore.image,fun huploaded' => ?_⟩,.inl ?_⟩
    · rw [hslot, hreceived, hs']
      exact hbefore.whole (huploaded.symm.trans huploaded')
    · rw [hs']
      rfl
  | schedules hs hs' hboot' hslot himage hreceived huploaded =>
    have hbefore := h.boot (hboot'.symm.trans hboot)
    refine ⟨⟨by rw [himage, hslot]; exact hbefore.bootable.image,fun huploaded' => ?_⟩,.inl ?_⟩
    · rw [hslot, hreceived, hs']
      exact hbefore.bootable.whole (huploaded.symm.trans huploaded')
    · rw [hs']
      cases h.safe.stands with
      | announced _ _ _ _ hp => exact hp
      | uploading hs'' => rw [hs] at hs''; cases hs''
      | free hs'' | downloading hs'' | scheduled hs'' | restarting hs'' =>
        cases hs.symm.trans hs''
  | other hs hselected hboot' =>
    have hdownload := h.safe.stands.download_of_holding hs
    have hpending : s.status.restartPending = false := by
      cases h.safe.stands with
      | uploading _ _ _ _ hp => exact hp
      | announced hs' => cases hs.symm.trans hs'
      | free hs' | downloading hs' | scheduled hs' | restarting hs' =>
        rw [hs'] at hs
        cases hs
    have hnot := h.boot_eq_false hpending hselected fun _ hd => by cases hdownload.symm.trans hd
    rw [hboot', hnot] at hboot
    cases hboot

theorem sound_download (h : s.Sound partitionSize)
    (hstep : s.downloadStep errToName s.download a = some s') :
    s'.boot = true → s'.Booting := by
  intro hboot
  have hholding := downloadStep_phase hstep
  have hidle := h.safe.stands.server_of_holding hholding
  cases downloadStep_boot hstep with
  | writes version hd' himage huploaded =>
    exact ⟨⟨himage,fun huploaded' => by cases huploaded.symm.trans huploaded'⟩,
      .inr (.inr ⟨version,hd'⟩)⟩
  | follows version hs' hboot' hslot himage hreceived huploaded =>
    have hbefore := (h.boot (hboot'.symm.trans hboot)).bootable
    refine ⟨⟨by rw [himage, hslot]; exact hbefore.image,fun huploaded' => ?_⟩,.inl ?_⟩
    · rw [hslot, hreceived, hs']
      exact hbefore.whole (huploaded.symm.trans huploaded')
    · rw [hs']
      rfl
  | other hd hboot' =>
    have hpending : s.status.restartPending = false := by
      cases h.safe.stands with
      | downloading _ _ _ _ hp => exact hp
      | free _ hd' | uploading _ hd' | announced _ hd' | scheduled _ hd' | restarting _ hd' =>
        rw [hd'] at hholding
        cases hholding
    have hnot := h.boot_eq_false hpending (fun _ hs => by cases hidle.symm.trans hs) hd
    rw [hboot', hnot] at hboot
    cases hboot

theorem sound_step {action : Action} (h : s.Sound partitionSize) (hallowed : Restarts s action)
    (hstep : step errToName partitionSize s action = some s') : s'.Sound partitionSize := by
  have hsafe := safe_step h.safe hstep
  cases action with
  | upload contentLen =>
    simp only [step] at hstep
    split at hstep
    · cases hstep
      rcases @upload_cases partitionSize s contentLen with hsame | hnew
      · rw [hsame]
        exact h
      · obtain ⟨-,-,ha,hp,status,-,heq⟩ := hnew
        have hnot := sound_idle h ha hp
        rw [heq] at hsafe ⊢
        exact ⟨hsafe,Server.noConfusion,fun hboot => by cases hnot.symm.trans hboot⟩
    · cases hstep
  | github =>
    simp only [step] at hstep
    split at hstep
    · cases hstep
      rcases github_cases (s := s) with hsame | ⟨ha,hp,status,-,heq⟩
      · rw [hsame]
        exact h
      · have hnot := sound_idle h ha hp
        rw [heq] at hsafe ⊢
        exact ⟨hsafe,Server.noConfusion,fun hboot => by cases hnot.symm.trans hboot⟩
    · cases hstep
  | server answer =>
    have hanswer : ¬ (s.server = .ready ∧ answer = .granted false) :=
      fun ⟨hs,ha⟩ => hallowed ⟨hs,congrArg Action.server ha⟩
    obtain ⟨hrestarts,hboot⟩ := sound_server h hanswer hstep
    exact ⟨hsafe,hrestarts,hboot⟩
  | download answer =>
    obtain ⟨-,hserver,-⟩ := downloadStep_holding hstep
    exact ⟨hsafe,by rw [hserver]; exact h.restarts,sound_download h hstep⟩

/-- As long as restarts can be scheduled, the boot record never points to anything but a validated
image, of an upload the whole of what was announced, and the slot is not written any more. -/
theorem boot_whole {slot : Bytes} {actions : List Action}
    (h : System.Trace (step errToName partitionSize) Restarts (.initial partitionSize slot) actions
      s) (hboot : s.boot = true) :
    s.image = some s.slot ∧
    (s.uploaded = true → s.slot = s.received ∧ s.slot.length = s.status.totalBytes) ∧
    s.uploadHandle = false ∧ s.downloadHandle = false ∧
    ∀ contentLen, s.upload partitionSize contentLen = s ∧ s.github = s := by
  have hsound : s.Sound partitionSize := h.invariant (fun _ _ _ hs ha hstep => sound_step hs ha hstep)
    ⟨safe_initial slot,Server.noConfusion,fun hboot => by cases hboot⟩
  obtain ⟨⟨himage,hwhole⟩,hlast⟩ := hsound.boot hboot
  have hstates : s.server.writes = false ∧ s.download.writes = false ∧
      (s.status.active = true ∨ s.status.restartPending = true) := by
    cases hsound.safe.stands with
    | announced hs hd _ _ hp =>
      refine ⟨?_,by rw [hd]; rfl,.inr hp⟩
      by_contra hwrites
      have hholding := Server.holding_of_writes (Bool.not_eq_false _ ▸ hwrites)
      cases hs.symm.trans hholding
    | scheduled hs hd _ _ hp | restarting hs hd _ _ hp =>
      exact ⟨by rw [hs]; rfl,by rw [hd]; rfl,.inr hp⟩
    | free hs hd _ _ hp =>
      rcases hlast with hp' | ⟨version,hs'⟩ | ⟨version,hd'⟩
      · cases hp.symm.trans hp'
      · cases hs.symm.trans hs'
      · cases hd.symm.trans hd'
    | uploading hs hd _ ha hp =>
      rcases hlast with hp' | ⟨version,hs'⟩ | ⟨version,hd'⟩
      · cases hp.symm.trans hp'
      · exact ⟨by rw [hs']; rfl,by rw [hd]; rfl,.inl ha⟩
      · cases hd.symm.trans hd'
    | downloading hs hd _ ha hp =>
      rcases hlast with hp' | ⟨version,hs'⟩ | ⟨version,hd'⟩
      · cases hp.symm.trans hp'
      · cases hs.symm.trans hs'
      · exact ⟨by rw [hs]; rfl,by rw [hd']; rfl,.inl ha⟩
  obtain ⟨hserver,hdownload,hbusy⟩ := hstates
  exact ⟨himage,hwhole,hsound.safe.upload.trans hserver,hsound.safe.download.trans hdownload,
    refused hbusy⟩

end

/-! ### An upload, and what a restart that cannot be scheduled leads to -/

def someErrorName : EspError → Bytes := fun _ => octets "ESP_FAIL"

/-- Three octets are uploaded, and installed. -/
def uploadActions : List Action :=
  [.upload 3,.server (.result none),.server (.granted true),.server (.received (some [1,2])),
    .server (.result none),.server .go,.server .go,.server .timedOut,
    .server (.received (some [3])),.server (.result none),.server .go,.server .go,.server .go,
    .server (.result none),.server (.described (octets "1.2")),.server (.result none)]

/-- A second update is begun after a restart could not be scheduled: what is booted next is not
validated any more. -/
theorem boot_overwritten : ∃ s,
    System.execute (step someErrorName 4096) (.initial 4096 [])
      (uploadActions ++ [.server .go,.server (.granted false),.server .go,.upload 2,
        .server (.result none)]) = some s ∧
    s.boot = true ∧ s.image = none ∧ s.uploadHandle = true := by
  refine ⟨_,rfl,?_⟩
  decide +kernel

theorem uploadActions_run : ∃ s,
    System.Trace (step someErrorName 4096) Restarts (.initial 4096 []) uploadActions s ∧
      s.boot = true ∧ s.status.active = true := by
  obtain ⟨s,hrun,hstate⟩ : ∃ s, System.execute
      (System.supervise (step someErrorName 4096) Restarts) (.initial 4096 []) uploadActions =
        some s ∧ s.boot = true ∧ s.status.active = true := ⟨_,rfl,by decide +kernel⟩
  exact ⟨s,.of_execute hrun,hstate⟩

theorem boot_whole_upload : ∃ s,
    System.Trace (step someErrorName 4096) Restarts (.initial 4096 []) uploadActions s ∧
      s.boot = true ∧ s.image = some s.slot ∧ s.downloadHandle = false := by
  obtain ⟨s,hrun,hboot,-⟩ := uploadActions_run
  obtain ⟨himage,-,-,hdownload,-⟩ := boot_whole hrun hboot
  exact ⟨s,hrun,hboot,himage,hdownload⟩

theorem update_exclusive_upload : ∃ s,
    System.Trace (step someErrorName 4096) (fun _ _ => True) (.initial 4096 []) uploadActions s ∧
      s.status.active = true ∧ ∀ contentLen, s.upload 4096 contentLen = s := by
  obtain ⟨s,hrestarts,-,ha⟩ := uploadActions_run
  have hrun : System.Trace (step someErrorName 4096) (fun _ _ => True) (.initial 4096 [])
      uploadActions s := hrestarts.mono fun _ _ _ => trivial
  obtain ⟨-,-,-,hrefused⟩ := update_exclusive hrun
  exact ⟨s,hrun,ha,fun contentLen => (hrefused (.inl ha) contentLen).1⟩

end Espresso.Ota
