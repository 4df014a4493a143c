import GbEmulator.Handlers.Helpers

/-! Jumps, calls, returns and the interrupt switches. -/
namespace GbEmulator
open CpuRegisters UtilityLib

def executeNoop : Handler Unit := do
  return

/-! `jump_a16.h`, `jump_hl.h` -/

def executeJump (predicate : CpuRegisterPredicate) : Handler Unit := do
  modify (zRegister.assign (← readFromAddress (← increment programCounter)))
  coYield
  modify (wRegister.assign (← readFromAddress (← increment programCounter)))
  coYield
  if !predicate (← get) then
    return
  modify (programCounter.assign (← valueOf wzRegister))
  coYield

def executeJumpA16 := executeJump alwaysTrue
def executeJumpNzA16 := executeJump nonZero
def executeJumpNcA16 := executeJump nonCarry
def executeJumpZA16 := executeJump zero
def executeJumpCA16 := executeJump carry

def executeJumpRelative (predicate : CpuRegisterPredicate) : Handler Unit := do
  modify (zRegister.assign (← readFromAddress (← increment programCounter)))
  coYield
  if !predicate (← get) then
    return
  let zSign : Bool := (← valueOf zRegister) &&& bitMask 7 != 0
  let ⟨result, carryPerBit⟩ :=
    addWithCarry (← valueOf zRegister) (Word.lower (0xFF &&& (← valueOf programCounter)))
  modify (zRegister.assign result)
  let adj : Byte :=
    if carryPerBit &&& bitMask 7 > 0 && !zSign then 1
    else if carryPerBit &&& bitMask 7 == 0 && zSign then -1
    else 0
  modify (wRegister.assign (Word.lower (0xFF &&& ((← valueOf programCounter) >>> 8)) + adj))
  coYield
  modify (programCounter.assign (← valueOf wzRegister))

def executeJumpRelativeE8 := executeJumpRelative alwaysTrue
def executeJumpRelativeNzE8 := executeJumpRelative nonZero
def executeJumpRelativeNcE8 := executeJumpRelative nonCarry
def executeJumpRelativeZE8 := executeJumpRelative zero
def executeJumpRelativeCE8 := executeJumpRelative carry

def executeJumpHl : Handler Unit := do
  modify (programCounter.assign (← valueOf hlRegister))

/-! `call_a16.h`, `rst.h` -/

def executeCall (predicate : CpuRegisterPredicate) : Handler Unit := do
  modify (zRegister.assign (← readFromAddress (← increment programCounter)))
  coYield
  modify (wRegister.assign (← readFromAddress (← increment programCounter)))
  coYield
  if !predicate (← get) then
    return
  let _ ← decrement stackPointer
  coYield
  writeToAddress (← loadOf stackPointer) (Word.upper (← valueOf programCounter))
  let _ ← decrement stackPointer
  coYield
  writeToAddress (← loadOf stackPointer) (Word.lower (← valueOf programCounter))
  modify (programCounter.assign (← valueOf wzRegister))
  coYield

def executeCallA16 := executeCall alwaysTrue
def executeCallNzA16 := executeCall nonZero
def executeCallNcA16 := executeCall nonCarry
def executeCallZA16 := executeCall zero
def executeCallCA16 := executeCall carry

def executeRst (targetAddress : Word) : Handler Unit := do
  let _ ← decrement stackPointer
  coYield
  writeToAddress (← loadOf stackPointer) (Word.upper (← valueOf programCounter))
  let _ ← decrement stackPointer
  coYield
  writeToAddress (← loadOf stackPointer) (Word.lower (← valueOf programCounter))
  modify (programCounter.assign targetAddress)
  coYield

def executeRst00 := executeRst 0x00
def executeRst08 := executeRst 0x08
def executeRst10 := executeRst 0x10
def executeRst18 := executeRst 0x18
def executeRst20 := executeRst 0x20
def executeRst28 := executeRst 0x28
def executeRst30 := executeRst 0x30
def executeRst38 := executeRst 0x38

/-! `ret.h`, `ret_conditional.h`, `reti.h` -/

def executeRet : Handler Unit := do
  modify (zRegister.assign (← readFromAddress (← increment stackPointer)))
  coYield
  modify (wRegister.assign (← readFromAddress (← increment stackPointer)))
  coYield
  modify (programCounter.assign (← valueOf wzRegister))
  coYield

def executeRetConditional (predicate : CpuRegisterPredicate) : Handler Unit := do
  if !predicate (← get) then
    coYield
    return
  coYield
  modify (zRegister.assign (← readFromAddress (← increment stackPointer)))
  coYield
  modify (wRegister.assign (← readFromAddress (← increment stackPointer)))
  coYield
  modify (programCounter.assign (← valueOf wzRegister))
  coYield

def executeRetNz := executeRetConditional nonZero
def executeRetNc := executeRetConditional nonCarry
def executeRetZ := executeRetConditional zero
def executeRetC := executeRetConditional carry

def executeRetI : Handler Unit := do
  modify (zRegister.assign (← readFromAddress (← increment stackPointer)))
  coYield
  modify (wRegister.assign (← readFromAddress (← increment stackPointer)))
  coYield
  modify (programCounter.assign (← valueOf wzRegister))
  modify fun registers => { registers with masterInterruptState := .enabled }
  coYield

/-! `disable_interrupts.h`, `enable_interrupts.h` -/

def executeDi : Handler Unit := do
  modify fun registers => { registers with masterInterruptState := .disabled }

def executeEi : Handler Unit := do
  if (← get).masterInterruptState = .disabled then
    modify fun registers => { registers with masterInterruptState := .pending }

end GbEmulator
