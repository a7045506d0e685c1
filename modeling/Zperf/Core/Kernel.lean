/-!
The tick conversions of the kernel shim, at the C widths.

`configTICK_RATE_HZ` is not part of this repository, so the rate is an argument
`hz`. The functions named `ceil` divide and truncate, as their sources do.
-/

namespace Zperf

def usecPerMsec : UInt32 := 1000

def msecPerSec : UInt32 := 1000

def usecPerSec : UInt32 := usecPerMsec * msecPerSec

def kTicksToUsCeil32 (hz : UInt64) (ticks : UInt32) : UInt32 :=
  (ticks.toUInt64 * usecPerSec.toUInt64 / hz).toUInt32

def kUsToTicksCeil32 (hz : UInt64) (us : UInt32) : UInt32 :=
  (us.toUInt64 * hz / usecPerSec.toUInt64).toUInt32

def kTicksToMsCeil32 (hz : UInt64) (ticks : UInt32) : UInt32 :=
  (ticks.toUInt64 * usecPerMsec.toUInt64 / hz).toUInt32

def kMsToTicksCeil32 (hz : UInt64) (ms : UInt32) : UInt32 :=
  (ms.toUInt64 * hz / usecPerMsec.toUInt64).toUInt32

def kTicksToUsCeil64 (hz ticks : UInt64) : UInt64 :=
  ticks * usecPerSec.toUInt64 / hz

def kMsToTicksCeil64 (hz ms : UInt64) : UInt64 :=
  ms * hz / usecPerMsec.toUInt64

def kTicksToUsFloor64 (hz ticks : UInt64) : UInt64 :=
  kTicksToUsCeil64 hz ticks

/-- `k_uptime_ticks`: FreeRTOS' 32-bit tick count, widened where it is stored. -/
def kUptimeTicks (tick : UInt32) : Int64 :=
  tick.toUInt64.toInt64

def sysTimepointCalc (tick ticks : UInt32) : UInt64 :=
  tick.toUInt64 + ticks.toUInt64

def sysTimepointExpired (timepoint : UInt64) (tick : UInt32) : Bool :=
  tick.toUInt64 ≥ timepoint

/-- An `int64_t` number of ticks passed as a `uint32_t`. -/
def ticksArg (ticks : Int64) : UInt32 :=
  ticks.toUInt64.toUInt32

end Zperf
