import P4Key.Library.Memory

/-! p4_ctaphid_wire.h: reports, commands and error codes. -/

namespace P4Key.Ctaphid

open Memory

abbrev reportBytes : Nat := 64
def initDataBytes : Nat := 57
def contDataBytes : Nat := 59
abbrev maxPayload : Nat := 2048
abbrev channelCount : Nat := 4
def messageTimeoutMs : UInt32 := 500
def keepaliveMs : UInt32 := 100

def broadcastCid : UInt32 := 0xffffffff

def cmdPing : UInt8 := 0x81
def cmdInit : UInt8 := 0x86
def cmdCbor : UInt8 := 0x90
def cmdCancel : UInt8 := 0x91
def cmdKeepalive : UInt8 := 0xbb
def cmdError : UInt8 := 0xbf

def errInvalidCmd : UInt8 := 0x01
def errInvalidLen : UInt8 := 0x03
def errInvalidSeq : UInt8 := 0x04
def errMsgTimeout : UInt8 := 0x05
def errChannelBusy : UInt8 := 0x06
def errInvalidChannel : UInt8 := 0x0b
def errOther : UInt8 := 0x7f

def protocolVersion : UInt8 := 2
def capabilities : UInt8 := 0x0c

def versionMajor : UInt8 := 0
def versionMinor : UInt8 := 1
def versionBuild : UInt8 := 0

def keepaliveCancelStatus : UInt8 := 0x2d

abbrev Report : Type := Bytes reportBytes
abbrev Payload : Type := Bytes maxPayload

def loadU32 (raw : List UInt8) : UInt32 := UInt32.ofNat (loadBE raw)

def storeU32 (value : UInt32) : List UInt8 := storeBE 4 value.toNat

theorem loadU32_storeU32 (value : UInt32) : loadU32 (storeU32 value) = value := by
  rw [loadU32, storeU32, loadBE_storeBE 4 _ value.toNat_lt, UInt32.ofNat_toNat]

/-! The fields of a report. The length is a `uint16_t`. -/

def Report.cid (report : Report) : UInt32 := loadU32 (slice report.toList 0 4)

def Report.command (report : Report) : UInt8 := report.get 4

def Report.declaredLen (report : Report) : Nat := loadBE (slice report.toList 5 2)

def Report.initData (report : Report) : List UInt8 := report.toList.drop 7

def Report.contData (report : Report) : List UInt8 := report.toList.drop 5

def Report.isInitial (report : Report) : Bool := report.command &&& 0x80 != 0

@[simp] theorem Report.length_initData (report : Report) : report.initData.length = initDataBytes := by
  simp [Report.initData, initDataBytes, reportBytes]

@[simp] theorem Report.length_contData (report : Report) : report.contData.length = contDataBytes := by
  simp [Report.contData, contDataBytes, reportBytes]

/-- `p4_ctaphid_time_expired`, on a clock that wraps. -/
def timeExpired (nowMs thenMs timeoutMs : UInt32) : Bool := decide (nowMs - thenMs ≥ timeoutMs)

end P4Key.Ctaphid
