import Mathlib

/-! Operation identifiers and the operations that may be offered for a given printer. -/
namespace Espresso.Codec

namespace Operation
abbrev printJob : ℕ := 0x0002
abbrev printUri : ℕ := 0x0003
abbrev validateJob : ℕ := 0x0004
abbrev createJob : ℕ := 0x0005
abbrev sendDocument : ℕ := 0x0006
abbrev sendUri : ℕ := 0x0007
abbrev cancelJob : ℕ := 0x0008
abbrev getJobAttributes : ℕ := 0x0009
abbrev getJobs : ℕ := 0x000a
abbrev getPrinterAttributes : ℕ := 0x000b
abbrev cancelMyJobs : ℕ := 0x0039
abbrev closeJob : ℕ := 0x003b
abbrev identifyPrinter : ℕ := 0x003c
end Operation

/-- Operations that can be relayed whatever else the printer supports. -/
def individuallySafe : ℕ :=
  1 <<< Operation.printJob ||| 1 <<< Operation.printUri ||| 1 <<< Operation.validateJob |||
  1 <<< Operation.sendUri ||| 1 <<< Operation.cancelJob ||| 1 <<< Operation.getJobAttributes |||
  1 <<< Operation.getJobs ||| 1 <<< Operation.getPrinterAttributes |||
  1 <<< Operation.cancelMyJobs ||| 1 <<< Operation.closeJob ||| 1 <<< Operation.identifyPrinter

/-- Create-Job and Send-Document are offered together or not at all. -/
def ippCodecRelayOperations (upstreamOperations : ℕ) : ℕ :=
  let relay := upstreamOperations &&& individuallySafe ||| 1 <<< Operation.getPrinterAttributes
  if upstreamOperations.testBit Operation.createJob ∧
      upstreamOperations.testBit Operation.sendDocument then
    relay ||| (1 <<< Operation.createJob ||| 1 <<< Operation.sendDocument)
  else relay

end Espresso.Codec
