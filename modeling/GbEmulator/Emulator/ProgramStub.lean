import GbEmulator.Emulator.AddressBus
import Mathlib.Algebra.Group.Nat.Defs

/-! `ProgramStub`, which the instruction tests read their programs from: bytes from an
offset on, 0 elsewhere, and nothing is written. -/
namespace GbEmulator

structure ProgramStub where
  offset : BitVec 64
  program : List Byte := []

namespace ProgramStub

def writeProgram (stub : ProgramStub) (program : List Byte) : ProgramStub :=
  { stub with program := program }

def writeToAddress (stub : ProgramStub) (_address : Word) (_data : Byte) : ProgramStub := stub

/-- `address - m_offset`, which wraps below the offset. -/
def index (stub : ProgramStub) (address : Word) : BitVec 64 := address.setWidth 64 - stub.offset

def readFromAddress (stub : ProgramStub) (address : Word) : Byte :=
  if outside : (stub.index address).toNat ≥ stub.program.length then 0
  else
    have := Nat.lt_of_not_le outside
    stub.program[(stub.index address).toNat]

instance : AddressBusAddressable ProgramStub := ⟨writeToAddress, readFromAddress⟩

/-- The addresses of the program. -/
def Owns (stub : ProgramStub) (address : Word) : Prop :=
  stub.offset.toNat ≤ address.toNat ∧ address.toNat < stub.offset.toNat + stub.program.length

variable {stub : ProgramStub} {address : Word}

theorem index_behind (behind : stub.offset.toNat ≤ address.toNat) :
    (stub.index address).toNat = address.toNat - stub.offset.toNat := by
  have bound := address.isLt
  rw [index, BitVec.toNat_sub, BitVec.toNat_setWidth]
  omega

theorem read_outside (fits : stub.offset.toNat + stub.program.length ≤ 2 ^ 64)
    (outside : ¬stub.Owns address) : stub.readFromAddress address = 0 := by
  apply dif_pos
  by_cases behind : stub.offset.toNat ≤ address.toNat
  · rw [index_behind behind]
    simp only [Owns, not_and] at outside
    have beyond := outside behind
    omega
  · have bound := address.isLt
    rw [index, BitVec.toNat_sub, BitVec.toNat_setWidth]
    omega

theorem read_inside (behind : stub.offset.toNat ≤ address.toNat)
    (inside : address.toNat - stub.offset.toNat < stub.program.length) :
    stub.readFromAddress address = stub.program[address.toNat - stub.offset.toNat] := by
  have position := index_behind behind
  rw [readFromAddress, dif_neg (by omega)]
  simp only [position]

end ProgramStub
end GbEmulator
