import Mathlib.Logic.Basic

/-! The arithmetic of utilitylib, at every width. -/
namespace GbEmulator.UtilityLib

structure MathematicalResult (w : Nat) where
  result : BitVec w
  carryBits : BitVec w
  deriving DecidableEq, Repr

def addWithCarry (left right : BitVec w) : MathematicalResult w :=
  let result := left + right
  let carryBits := (left &&& right) ||| ((left ||| right) &&& ~~~result)
  ⟨result, carryBits⟩

def addWithCarryIn (left right : BitVec w) (carryIn : Bool) : MathematicalResult w :=
  let ⟨result, carryBits⟩ := addWithCarry left right
  if !carryIn then ⟨result, carryBits⟩
  else
    let ⟨resultWithCarry, carryBitsWithCarry⟩ := addWithCarry result 1
    ⟨resultWithCarry, carryBits ||| carryBitsWithCarry⟩

def subWithBorrow (left right : BitVec w) : MathematicalResult w :=
  let result := left - right
  let gamma := ~~~left &&& right
  let pi := ~~~left ||| right
  let borrowBits := gamma ||| (pi &&& result)
  ⟨result, borrowBits⟩

def subWithBorrowIn (left right : BitVec w) (borrowIn : Bool) : MathematicalResult w :=
  let ⟨result, borrowBits⟩ := subWithBorrow left right
  if !borrowIn then ⟨result, borrowBits⟩
  else
    let ⟨resultWithBorrow, borrowBitsWithBorrow⟩ := subWithBorrow result 1
    ⟨resultWithBorrow, borrowBits ||| borrowBitsWithBorrow⟩

/-- `BitMask<mask>`. -/
def bitMask (mask : Nat) : BitVec 8 := (1 : BitVec 8) <<< mask

end GbEmulator.UtilityLib
