import TpmLink.Register.Field

/-!
# Bit fields of the interface registers

The access and status registers of the FIFO interface are one byte wide, its capability register and
the interface identifier four.
-/

namespace TpmLink.Register

namespace Access

/-- The access register of a locality. -/
def layout : Layout where
  name := "TpmAccess"
  fields :=
    [.flag "tpm_reg_validsts" 7, .control "active_locality" 5, .control "been_seized" 4,
      .control "seize" 3, .flag "pending_request" 2, .control "request_use" 1,
      .flag "tpm_establishment" 0]

end Access

namespace Status

def valid : Field := .control "sts_valid" 7
def commandReady : Field := .control "command_ready" 6
def go : Field := .control "tpm_go" 5
def dataAvailable : Field := .control "data_avail" 4
def expect : Field := .flag "expect" 3

/-- The first byte of the status register. -/
def layout : Layout where
  name := "TpmStatus"
  fields :=
    [valid, commandReady, go, dataAvailable, expect, .flag "selftest_done" 2,
      .control "response_retry" 1]

/-- Bit of the 32-bit view of the status register that asks the chip to drop its command. -/
def commandCancel : UInt32 := (1 : UInt32) <<< 24

end Status

namespace Capability

def interfaceVersion : Field := .range "iface_ver" 30 28

/-- The FIFO capability register. -/
def layout : Layout where
  name := "TpmIntfCap"
  fields :=
    [interfaceVersion, .range "data_xfer_size" 10 9, .flag "burst_count_static" 8,
      .flag "cmd_ready_int" 7, .flag "locality_change_int" 2, .flag "sts_valid_int" 1,
      .flag "data_avail_int" 0]

def versionTis12 : UInt32 := 0
def versionTis13 : UInt32 := 2
def versionPtp : UInt32 := 3

end Capability

namespace InterfaceId

def interfaceType : Field := .range "interface_type" 3 0
def version : Field := .range "interface_version" 7 4
def idleBypass : Field := .flag "cap_crb_idle_bypass" 9
def fifo : Field := .flag "cap_fifo" 13
def commandBuffer : Field := .flag "cap_crb" 14

/-- The interface identifier, which both register layouts place at the same offset. -/
def layout : Layout where
  name := "TpmInterfaceId"
  fields :=
    [interfaceType, version, .flag "cap_locality" 8, idleBypass,
      .range "cap_data_xfer_size" 12 11, fifo, commandBuffer,
      .range "interface_selector" 18 17, .flag "intf_sel_lock" 19, .range "rid" 31 24]

def typeFifo : UInt32 := 0x0
def typeCommandBuffer : UInt32 := 0x1
def typeTis : UInt32 := 0xF
def versionFifo : UInt32 := 0x0
def versionCommandBuffer : UInt32 := 0x1

end InterfaceId

end TpmLink.Register
