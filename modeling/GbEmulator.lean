import GbEmulator.Verification.BusDiscipline
import GbEmulator.Verification.Conditionals
import GbEmulator.Verification.Counters
import GbEmulator.Verification.Dump
import GbEmulator.Verification.Errors
import GbEmulator.Verification.Execution
import GbEmulator.Verification.Fields
import GbEmulator.Verification.Footprint
import GbEmulator.Verification.Frame
import GbEmulator.Verification.Interference
import GbEmulator.Verification.Interrupts
import GbEmulator.Verification.Inverses
import GbEmulator.Verification.Loops
import GbEmulator.Verification.LowNibble
import GbEmulator.Verification.MultiPrecision
import GbEmulator.Verification.Offsets
import GbEmulator.Verification.Ownership
import GbEmulator.Verification.Process
import GbEmulator.Verification.Registers
import GbEmulator.Verification.Rom
import GbEmulator.Verification.RomHeader
import GbEmulator.Verification.Scratch
import GbEmulator.Verification.Stack
import GbEmulator.Verification.StubPrograms
import GbEmulator.Verification.Subroutines
import GbEmulator.Verification.Substitution
import GbEmulator.Verification.Timing
import GbEmulator.Verification.Transfers
import GbEmulator.InstructionSet.CallFlow
import GbEmulator.Verification.ControlFlow
