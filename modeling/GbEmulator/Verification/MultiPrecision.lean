import GbEmulator.Bits.RippleCarry
import GbEmulator.InstructionSet.Digits
import GbEmulator.Refinement.Completion
import GbEmulator.Verification.StubPrograms
import Mathlib.Logic.Relation

/-! Multi-precision arithmetic composed of complete instructions: load a digit,
combine it with the carry flag, store it through HL and go on. -/
namespace GbEmulator
open CpuRegisters Sm83 RippleCarry
open Relation (ReflTransGen)

/-! HL never comes back to an address while it stays in work memory. -/
section Addresses

def Sm83.Direction.Before (direction : Direction) (left right : Word) : Prop :=
  match direction with
  | .up => left.toNat < right.toNat
  | .down => right.toNat < left.toNat

theorem before_next (direction : Direction) (owned : Ram.Owns base) :
    direction.Before base (direction.next base) := by
  simp only [Ram.Owns, Ram.startAddress, Ram.endAddress] at owned
  cases direction <;> simp only [Direction.Before, Direction.next] <;> bv_omega

theorem before_addresses (direction : Direction) (owned : Ram.Owns base)
    (inside : ∀ address ∈ direction.addresses (direction.next base) count, Ram.Owns address) :
    ∀ address ∈ direction.addresses (direction.next base) count,
      direction.Before base address := by
  induction count generalizing base with
  | zero => exact nofun
  | succ count ih =>
    have further := before_next direction owned
    intro address member
    rcases List.mem_cons.mp member with rfl | later
    · exact further
    · have beyond := ih (inside _ List.mem_cons_self)
        (fun other listed => inside other (List.mem_cons_of_mem _ listed)) address later
      cases direction with
      | up => exact Nat.lt_trans further beyond
      | down => exact Nat.lt_trans beyond further

theorem base_notMem (direction : Direction) (owned : Ram.Owns base)
    (inside : ∀ address ∈ direction.addresses (direction.next base) count, Ram.Owns address) :
    base ∉ direction.addresses (direction.next base) count := by
  intro member
  have beyond := before_addresses direction owned inside base member
  cases direction <;> exact Nat.lt_irrefl _ beyond

end Addresses

section Blocks
variable {δ : Type u}

/-- HL, the carry flag and the bus are as they were. -/
structure Cpu.Undisturbed (cpu next : Cpu δ) : Prop where
  hl : next.registers.visible.hl = cpu.registers.visible.hl
  carryFlag : next.registers.visible.carryFlag = cpu.registers.visible.carryFlag
  bus : next.bus = cpu.bus

theorem Cpu.Undisturbed.trans {cpu middle next : Cpu δ} (first : cpu.Undisturbed middle)
    (second : middle.Undisturbed next) : cpu.Undisturbed next where
  hl := second.hl.trans first.hl
  carryFlag := second.carryFlag.trans first.carryFlag
  bus := second.bus.trans first.bus

variable [AddressBusAddressable δ]

/-- `LD r,n` into B, C, D or E. -/
def Cpu.SetsUp (cpu next : Cpu δ) : Prop :=
  ∃ target ∈ [Register8.b, .c, .d, .e], cpu.Completes (.loadImmediate target) next

/-- `LD A,n` and `LD A,r`. -/
inductive LoadsA : Instruction → Prop where
  | immediate : LoadsA (.loadImmediate .a)
  | register (source : Register8) : LoadsA (.load .a source)

theorem LoadsA.undisturbed {cpu next : Cpu δ} (loads : LoadsA instruction)
    (completes : cpu.Completes instruction next) : cpu.Undisturbed next := by
  cases loads with
  | immediate => exact ⟨completes.registers.hl, completes.registers.carryFlag, completes.bus⟩
  | register source => exact ⟨completes.registers.hl, completes.registers.carryFlag, completes.bus⟩

theorem Cpu.SetsUp.undisturbed {cpu next : Cpu δ} (setsUp : cpu.SetsUp next) :
    cpu.Undisturbed next ∧ next.registers.visible.a = cpu.registers.visible.a := by
  obtain ⟨target, listed, completes⟩ := setsUp
  have same := completes.registers
  have bus := completes.bus
  simp only [List.mem_cons, List.not_mem_nil, or_false] at listed
  rcases listed with rfl | rfl | rfl | rfl <;>
    exact ⟨⟨same.hl, same.carryFlag, bus⟩, same.registers .a⟩

theorem setUps_undisturbed {cpu next : Cpu δ} (setUps : ReflTransGen Cpu.SetsUp cpu next) :
    cpu.Undisturbed next ∧ next.registers.visible.a = cpu.registers.visible.a := by
  induction setUps with
  | refl => exact ⟨⟨rfl, rfl, rfl⟩, rfl⟩
  | tail _ setsUp ih =>
    obtain ⟨undisturbed, a⟩ := setsUp.undisturbed
    exact ⟨ih.1.trans undisturbed, a.trans ih.2⟩

/-- The instructions for one digit; operand registers may be set up at any point. -/
inductive DigitBlock (pass : Pass ι (AddressBus δ)) (direction : Direction) :
    Cpu δ → ι → Cpu δ → Prop where
  | block {cpu ready loaded prepared computed finished next : Cpu δ}
      (before : ReflTransGen Cpu.SetsUp cpu ready)
      (loads : LoadsA load) (loading : ready.Completes load loaded)
      (accumulator : loaded.registers.visible.a = pass.accumulator digit)
      (between : ReflTransGen Cpu.SetsUp loaded prepared)
      (operates : pass.operates digit operation prepared.registers.visible prepared.bus)
      (operating : prepared.Completes operation computed)
      (after : ReflTransGen Cpu.SetsUp computed finished)
      (storing : finished.Completes (.storeIndirect direction.pointer) next) :
      DigitBlock pass direction cpu digit next

theorem DigitBlock.leaves {pass : Pass ι (AddressBus δ)} {cpu next : Cpu δ}
    (block : DigitBlock pass direction cpu digit next) :
    ∃ result, pass.law digit result cpu.registers.visible.carryFlag
        next.registers.visible.carryFlag ∧
      next.bus = cpu.bus.writeToAddress cpu.registers.visible.hl result ∧
      next.registers.visible.hl = direction.next cpu.registers.visible.hl := by
  obtain ⟨before, loads, loading, accumulator, between, operates, operating, after, storing⟩ := block
  rename_i prepared computed finished
  have prepares := ((setUps_undisturbed before).1.trans (loads.undisturbed loading)).trans
    (setUps_undisturbed between).1
  have a := (setUps_undisturbed between).2.trans accumulator
  have law := pass.lawful operates a
  obtain ⟨hl, bus⟩ := pass.frame operates
  obtain ⟨finishes, kept⟩ := setUps_undisturbed after
  obtain ⟨carryFlag, moved, stored⟩ :=
    storeIndirect_finished finished.registers.visible finished.bus direction
  have computedHl := operating.registers.hl.trans hl
  have computedBus := operating.bus.trans bus
  refine ⟨computed.registers.visible.a, ?_, ?_, ?_⟩
  · rw [storing.registers.carryFlag, carryFlag, finishes.carryFlag, operating.registers.carryFlag,
      ← prepares.carryFlag]
    have result : computed.registers.visible.a = _ := operating.registers.registers .a
    rw [result]
    exact law
  · rw [storing.bus, stored, finishes.bus, computedBus, prepares.bus, finishes.hl, computedHl,
      prepares.hl, kept]
    rfl
  · rw [storing.registers.hl, moved, finishes.hl, computedHl, prepares.hl]

/-- One block for each digit, in the order they are processed. -/
inductive DigitLoop (pass : Pass ι (AddressBus δ)) (direction : Direction) :
    Cpu δ → List ι → Cpu δ → Prop where
  | done : DigitLoop pass direction cpu [] cpu
  | digit (block : DigitBlock pass direction cpu digit next)
      (rest : DigitLoop pass direction next digits last) :
      DigitLoop pass direction cpu (digit :: digits) last

end Blocks

section Loops
variable {δ : Type u} [AddressBusAddressable δ]

/-- The results of a loop stay in work memory, one behind the other, and the carry
has been handed on through all of them. -/
theorem DigitLoop.results {pass : Pass ι (AddressBus (δ ⊕ Ram))} {cpu last : Cpu (δ ⊕ Ram)}
    (loop : DigitLoop pass direction cpu digits last) (ram : WithRam cpu.bus)
    (inside : ∀ address ∈ direction.addresses cpu.registers.visible.hl digits.length,
      Ram.Owns address) :
    (∃ items : List (ι × Byte), items.map Prod.fst = digits ∧
      items.map Prod.snd = (direction.addresses cpu.registers.visible.hl digits.length).map
        last.bus.readFromAddress ∧
      Threads (fun item => pass.law item.1 item.2) items cpu.registers.visible.carryFlag
        last.registers.visible.carryFlag) ∧
      ∀ address, Ram.Owns address →
        address ∉ direction.addresses cpu.registers.visible.hl digits.length →
          last.bus.readFromAddress address = cpu.bus.readFromAddress address := by
  induction loop with
  | done => exact ⟨⟨[], rfl, rfl, .nil⟩, fun _ _ _ => rfl⟩
  | @digit cpu digit next digits last block rest ih =>
    obtain ⟨result, law, bus, hl⟩ := block.leaves
    have owned := inside _ List.mem_cons_self
    have insideRest := fun other listed => inside other (List.mem_cons_of_mem _ listed)
    have apart := base_notMem direction owned insideRest
    rw [← hl] at insideRest apart
    obtain ⟨⟨items, fst, snd, threads⟩, frame⟩ := ih (bus ▸ ram.write _ result) insideRest
    have read (address : Word) (ownedAddress : Ram.Owns address) :
        next.bus.readFromAddress address =
          if address = cpu.registers.visible.hl then result else cpu.bus.readFromAddress address :=
      bus ▸ ram.read_write owned result ownedAddress
    rw [List.length_cons, Direction.addresses, ← hl]
    refine ⟨⟨(digit, result) :: items, ?_, ?_, .cons law threads⟩, ?_⟩
    · rw [List.map_cons, fst]
    · rw [List.map_cons, List.map_cons, snd, frame _ owned apart, read _ owned, if_pos rfl]
    · intro address inRam other
      obtain ⟨distinct, untouched⟩ := not_or.mp (mt List.mem_cons.mpr other)
      rw [frame address inRam untouched, read address inRam, if_neg distinct]

/-- The bytes HL has run through. -/
def Sm83.Direction.bytes (direction : Direction) (bus : AddressBus δ) (base : Word) (count : Nat) :
    List Byte :=
  (direction.addresses base count).map bus.readFromAddress

/-- HL stays in work memory. -/
def Sm83.Direction.InRam (direction : Direction) (base : Word) (count : Nat) : Prop :=
  ∀ address ∈ direction.addresses base count, Ram.Owns address

instance (direction : Direction) (base : Word) (count : Nat) :
    Decidable (direction.InRam base count) :=
  List.decidableBAll _ _

theorem pow_halves (positive : count ≠ 0) : 256 ^ count = 2 * 2 ^ (8 * count - 1) := by
  rw [← pow_succ', show 256 = 2 ^ 8 from rfl, ← pow_mul]
  congr 1
  omega

theorem bytes_lt (direction : Direction) (bus : AddressBus δ) (base : Word) (count : Nat) :
    digitsValue (direction.bytes bus base count) < 256 ^ count := by
  have bounded := digitsValue_lt (direction.bytes bus base count)
  rwa [Direction.bytes, List.length_map, direction.addresses_length] at bounded

section Passes
variable {cpu last : Cpu (δ ⊕ Ram)} (ram : WithRam cpu.bus)
include ram

theorem adc_loop (inRam : Direction.up.InRam cpu.registers.visible.hl digits.length)
    (loop : DigitLoop Pass.adc .up cpu digits last) :
    let total := digitsValue (digits.map Prod.fst) + digitsValue (digits.map Prod.snd) +
      cpu.registers.visible.carryFlag.toNat
    digitsValue (Direction.up.bytes last.bus cpu.registers.visible.hl digits.length) =
        total % 256 ^ digits.length ∧
      last.registers.visible.carryFlag.toNat = total / 256 ^ digits.length := by
  have bound := bytes_lt .up last.bus cpu.registers.visible.hl digits.length
  obtain ⟨⟨items, rfl, stored, threads⟩, -⟩ := loop.results ram inRam
  refine sum_exact ?_ bound
  rw [Direction.bytes, ← stored, List.map_map, List.map_map, List.length_map]
  exact digits_ascend _ _ _ (fun _ _ _ law => law) threads

theorem sbc_loop (inRam : Direction.up.InRam cpu.registers.visible.hl digits.length)
    (loop : DigitLoop Pass.sbc .up cpu digits last) :
    let x := digitsValue (digits.map Prod.fst)
    let y := digitsValue (digits.map Prod.snd)
    let borrow := cpu.registers.visible.carryFlag.toNat
    (digitsValue (Direction.up.bytes last.bus cpu.registers.visible.hl digits.length) : Int) =
        ((x : Int) - y - borrow) % (256 ^ digits.length : Nat) ∧
      (last.registers.visible.carryFlag = true ↔ x < y + borrow) := by
  have bound := bytes_lt .up last.bus cpu.registers.visible.hl digits.length
  obtain ⟨⟨items, rfl, stored, threads⟩, -⟩ := loop.results ram inRam
  have borrowed : last.registers.visible.carryFlag = true ↔
      0 < last.registers.visible.carryFlag.toNat := by
    rw [← Bool.toNat_eq_one]
    have := last.registers.visible.carryFlag.toNat_lt
    omega
  rw [borrowed]
  refine difference_exact ?_ bound
  rw [Direction.bytes, ← stored, List.map_map, List.map_map, List.length_map]
  exact digits_ascend _ _ _ (fun _ _ _ law => law) threads

theorem rla_loop (positive : digits ≠ [])
    (inRam : Direction.up.InRam cpu.registers.visible.hl digits.length)
    (loop : DigitLoop Pass.rla .up cpu digits last) :
    let x := digitsValue digits
    digitsValue (Direction.up.bytes last.bus cpu.registers.visible.hl digits.length) =
        (2 * x + cpu.registers.visible.carryFlag.toNat) % 256 ^ digits.length ∧
      last.registers.visible.carryFlag = x.testBit (8 * digits.length - 1) := by
  have bound := bytes_lt .up last.bus cpu.registers.visible.hl digits.length
  obtain ⟨⟨items, rfl, stored, threads⟩, -⟩ := loop.results ram inRam
  have conserved := digits_ascend Prod.fst Prod.fst Prod.snd (fun _ _ _ law => law) threads
  rw [stored, ← List.length_map Prod.fst] at conserved
  obtain ⟨doubled, out⟩ := sum_exact conserved bound
  rw [pow_halves (mt List.length_eq_zero_iff.mp positive), double_carry] at out
  constructor
  · rw [two_mul]
    exact doubled
  · rw [Nat.testBit_eq_decide_div_mod_eq, ← out]
    cases last.registers.visible.carryFlag <;> rfl

theorem rra_loop (positive : digits ≠ [])
    (inRam : Direction.down.InRam cpu.registers.visible.hl digits.length)
    (loop : DigitLoop Pass.rra .down cpu digits.reverse last) :
    let x := digitsValue digits
    digitsValue (Direction.down.bytes last.bus cpu.registers.visible.hl digits.length).reverse =
        x / 2 + cpu.registers.visible.carryFlag.toNat * 2 ^ (8 * digits.length - 1) ∧
      last.registers.visible.carryFlag.toNat = x % 2 := by
  have length : digits.reverse.length = digits.length := List.length_reverse
  obtain ⟨⟨items, fst, stored, threads⟩, -⟩ := loop.results ram (length ▸ inRam)
  have count : items.length = digits.length := by
    rw [← List.length_map Prod.fst, fst, length]
  have conserved := digits_descend Prod.snd Prod.snd Prod.fst (fun _ _ _ law => law) threads
  rw [stored, fst, List.reverse_reverse, length, count,
    pow_halves (mt List.length_eq_zero_iff.mp positive)] at conserved
  rw [Nat.mul_comm (Bool.toNat _)]
  exact half_exact conserved (Bool.toNat_lt _)

end Passes

/-- Sum, difference, double and half of numbers of any length, from any carry. -/
theorem multi_precision {cpu last : Cpu (δ ⊕ Ram)} (ram : WithRam cpu.bus) :
    let base := cpu.registers.visible.hl
    let carry := cpu.registers.visible.carryFlag.toNat
    let carryOut := last.registers.visible.carryFlag
    (∀ digits, Direction.up.InRam base digits.length → DigitLoop Pass.adc .up cpu digits last →
      let x := digitsValue (digits.map Prod.fst)
      let y := digitsValue (digits.map Prod.snd)
      digitsValue (Direction.up.bytes last.bus base digits.length) =
          (x + y + carry) % 256 ^ digits.length ∧
        carryOut.toNat = (x + y + carry) / 256 ^ digits.length) ∧
    (∀ digits, Direction.up.InRam base digits.length → DigitLoop Pass.sbc .up cpu digits last →
      let x := digitsValue (digits.map Prod.fst)
      let y := digitsValue (digits.map Prod.snd)
      (digitsValue (Direction.up.bytes last.bus base digits.length) : Int) =
          ((x : Int) - y - carry) % (256 ^ digits.length : Nat) ∧
        (carryOut = true ↔ x < y + carry)) ∧
    (∀ digits, digits ≠ [] → Direction.up.InRam base digits.length →
      DigitLoop Pass.rla .up cpu digits last →
      let x := digitsValue digits
      digitsValue (Direction.up.bytes last.bus base digits.length) =
          (2 * x + carry) % 256 ^ digits.length ∧
        carryOut = x.testBit (8 * digits.length - 1)) ∧
    ∀ digits, digits ≠ [] → Direction.down.InRam base digits.length →
      DigitLoop Pass.rra .down cpu digits.reverse last →
      let x := digitsValue digits
      digitsValue (Direction.down.bytes last.bus base digits.length).reverse =
          x / 2 + carry * 2 ^ (8 * digits.length - 1) ∧
        carryOut.toNat = x % 2 := by
  refine ⟨?_, ?_, ?_, ?_⟩
  · intro digits inRam loop
    exact adc_loop ram inRam loop
  · intro digits inRam loop
    exact sbc_loop ram inRam loop
  · intro digits positive inRam loop
    exact rla_loop ram positive inRam loop
  · intro digits positive inRam loop
    exact rra_loop ram positive inRam loop

end Loops

/-! Loops spelled out in memory, one digit behind the other. -/
section Spelled
variable {ι : Type} {μ : Type u} [Store μ Word Byte]

/-- The opcode that stores a digit. -/
def Sm83.Direction.opcode : Direction → Byte
  | .up => 0x22
  | .down => 0x32

theorem opcode_stores (direction : Direction) :
    decode direction.opcode = .implemented (.storeIndirect direction.pointer) := by
  cases direction <;> decide

/-- The bytes of the instruction that computes a digit. -/
def Sm83.Pass.Encodes (pass : Pass ι μ) (encode : ι → List Byte) : Prop :=
  ∀ digit {state : State} {memory : μ} {address : Word}, state.pc = address + 1 →
    Code memory address (encode digit) →
    ∃ instruction, decode (Store.load memory address) = .implemented instruction ∧
      pass.operates digit instruction state memory ∧
      (instruction.finished state memory).1.pc = address + BitVec.ofNat 16 (encode digit).length

theorem arithmetic_encodes {operation : AluOperation}
    {law : Byte × Byte → Byte → Bool → Bool → Prop}
    {lawful : ∀ (state : State) operand, law (state.a, operand) (state.alu operation operand).a
      state.carryFlag (state.alu operation operand).carryFlag} {opcode : Byte}
    (computes : decode opcode = .implemented (Operand.immediate.instruction operation)) :
    (Pass.arithmetic operation law lawful : Pass _ μ).Encodes fun digits => [opcode, digits.2] := by
  intro digit state memory address pc code
  refine ⟨Operand.immediate.instruction operation, ?_, ⟨.immediate, rfl, ?_⟩, ?_⟩
  · rw [code.head]
    exact computes
  · rw [Operand.value, immediate, pc]
    exact code.tail.head
  · refine (congrArg (· + 1) pc).trans ?_
    exact BitVec.add_assoc address 1 1

theorem rotation_encodes {rotation : Rotation} {law : Byte → Byte → Bool → Bool → Prop}
    {lawful : ∀ state : State, law state.a (state.rotated rotation).a state.carryFlag
      (state.rotated rotation).carryFlag} {opcode : Byte}
    (computes : decode opcode = .implemented (.rotate rotation)) :
    (Pass.rotation rotation law lawful : Pass _ μ).Encodes fun _ => [opcode] := by
  intro digit state memory address pc code
  refine ⟨.rotate rotation, ?_, rfl, pc⟩
  rw [code.head]
  exact computes

/-- `LD A,n`, the instruction for a digit, and the store. -/
def digitCode (pass : Pass ι μ) (encode : ι → List Byte) (direction : Direction) (digit : ι) :
    List Byte :=
  [0x3E, pass.accumulator digit] ++ (encode digit ++ [direction.opcode])

section Blocks
variable {δ : Type u} [AddressBusAddressable δ]

/-- What is at an address comes next, if it is an instruction. -/
structure Cpu.Arrives (cpu : Cpu δ) (address : Word) : Prop where
  located : Configuration.At address ⟨cpu.registers.visible, cpu.bus⟩
  boundary : ∀ instruction, decode cpu.registers.visible.opcode = .implemented instruction →
    cpu.AtBoundary

theorem Cpu.Completes.arrives {cpu next : Cpu δ} (completes : cpu.Completes instruction next) :
    next.Arrives (instruction.finished cpu.registers.visible cpu.bus).1.pc where
  located := ⟨completes.opcode, completes.pc⟩
  boundary _ decoded := completes.next_boundary decoded

theorem Cpu.Arrives.executes {cpu : Cpu δ} (arrives : cpu.Arrives address)
    (decoded : decode (cpu.bus.readFromAddress address) = .implemented instruction) :
    ∃ next, cpu.Completes instruction next := by
  have opcode : cpu.registers.visible.opcode = cpu.bus.readFromAddress address :=
    arrives.located.opcode
  rw [← opcode] at decoded
  exact (arrives.boundary instruction decoded).completes decoded

variable {pass : Pass ι (AddressBus δ)} {encode : ι → List Byte} (encodes : pass.Encodes encode)
include encodes

theorem digit_block {cpu : Cpu δ} (arrives : cpu.Arrives address)
    (code : Code cpu.bus address (digitCode pass encode direction digit)) :
    ∃ next, DigitBlock pass direction cpu digit next ∧
      next.Arrives
        (address + BitVec.ofNat 16 (digitCode pass encode direction digit).length) := by
  obtain ⟨loadCode, rest⟩ := code.append
  have loads : decode (cpu.bus.readFromAddress address) = .implemented (.loadImmediate .a) :=
    (congrArg decode loadCode.head).trans (by decide)
  obtain ⟨loaded, loading⟩ := arrives.executes loads
  have operand : immediate cpu.registers.visible cpu.bus = pass.accumulator digit := by
    rw [immediate, arrives.located.pc]
    exact loadCode.tail.head
  have accumulator : loaded.registers.visible.a = pass.accumulator digit :=
    (loading.registers.registers .a).trans operand
  have behindLoad : (Instruction.finished cpu.registers.visible cpu.bus (.loadImmediate .a)).1.pc =
      address + 2 :=
    (congrArg (· + 1) arrives.located.pc).trans (BitVec.add_assoc address 1 1)
  have loadedAt := loading.arrives
  rw [behindLoad] at loadedAt
  have same : loaded.bus = cpu.bus := loading.bus
  rw [← same] at rest
  obtain ⟨operationCode, storeCode⟩ := Code.append rest
  obtain ⟨operation, decoded, operates, lands⟩ := encodes digit loadedAt.located.pc operationCode
  obtain ⟨computed, operating⟩ := loadedAt.executes decoded
  have computedAt := operating.arrives
  rw [lands] at computedAt
  rw [← operating.bus.trans (pass.frame operates).2] at storeCode
  obtain ⟨next, storing⟩ := computedAt.executes
    ((congrArg decode storeCode.head).trans (opcode_stores direction))
  refine ⟨next, .block .refl .immediate loading accumulator .refl operates operating .refl storing,
    ?_⟩
  have behind : (Instruction.finished computed.registers.visible computed.bus
      (.storeIndirect direction.pointer)).1.pc =
        address + BitVec.ofNat 16 (digitCode pass encode direction digit).length := by
    have kept : (Instruction.finished computed.registers.visible computed.bus
        (.storeIndirect direction.pointer)).1.pc = computed.registers.visible.pc := by
      cases direction <;> rfl
    have length : (digitCode pass encode direction digit).length = 2 + (encode digit).length + 1 := by
      simp only [digitCode, List.length_append, List.length_cons, List.length_nil]
      omega
    rw [kept, length, BitVec.ofNat_add, BitVec.ofNat_add, ← BitVec.add_assoc, ← BitVec.add_assoc]
    exact computedAt.located.pc
  exact behind ▸ storing.arrives

end Blocks

/-- The code of a number makes the loop over its digits, as long as the results do not reach
the code. -/
theorem digits_loop {δ : Type u} [AddressBusAddressable δ] {pass : Pass ι (AddressBus (δ ⊕ Ram))}
    {encode : ι → List Byte} (encodes : pass.Encodes encode)
    {valid : AddressBus (δ ⊕ Ram) → Prop} (remembers : Remembers valid Ram.Owns)
    {cpu : Cpu (δ ⊕ Ram)} {digits : List ι} (start : valid cpu.bus) (arrives : cpu.Arrives address)
    (inRam : direction.InRam cpu.registers.visible.hl digits.length)
    (code : Code cpu.bus address (digits.flatMap (digitCode pass encode direction)))
    (apart : ∀ offset < (digits.flatMap (digitCode pass encode direction)).length,
      ¬Ram.Owns (address + BitVec.ofNat 16 offset)) :
    ∃ last, DigitLoop pass direction cpu digits last := by
  induction digits generalizing cpu address with
  | nil => exact ⟨cpu, .done⟩
  | cons digit digits ih =>
    rw [List.flatMap_cons] at code apart
    obtain ⟨first, rest⟩ := code.append
    obtain ⟨next, block, behind⟩ := digit_block encodes arrives first
    obtain ⟨result, -, bus, hl⟩ := block.leaves
    have beyond : ∀ offset < (digits.flatMap (digitCode pass encode direction)).length,
        ¬Ram.Owns (address + BitVec.ofNat 16 (digitCode pass encode direction digit).length +
          BitVec.ofNat 16 offset) := by
      intro offset inside
      rw [BitVec.add_assoc, ← BitVec.ofNat_add]
      exact apart _ (by rw [List.length_append]; omega)
    generalize address + BitVec.ofNat 16 (digitCode pass encode direction digit).length = further
      at rest behind beyond
    have owned : Ram.Owns cpu.registers.visible.hl := inRam _ List.mem_cons_self
    have kept : Code next.bus further (digits.flatMap (digitCode pass encode direction)) := by
      intro offset inside
      have other : further + BitVec.ofNat 16 offset ≠ cpu.registers.visible.hl :=
        fun same => beyond offset inside (same ▸ owned)
      rw [bus]
      refine (remembers.load start owned result _).trans ?_
      rw [if_neg other]
      exact rest offset inside
    have insideRest : direction.InRam next.registers.visible.hl digits.length := by
      rw [hl]
      exact fun other listed => inRam other (List.mem_cons_of_mem _ listed)
    obtain ⟨last, loop⟩ := ih (bus ▸ remembers.store start _ result) behind insideRest kept beyond
    exact ⟨last, .digit block loop⟩

end Spelled

section Witness
variable {ι : Type} {pass : Pass ι (AddressBus StubDevice)} {encode : ι → List Byte}

/-- At the first digit of a program, with HL at `base`. -/
def digitsCpu (program : List Byte) (base : Word) : Cpu StubDevice :=
  stubCpu program (.loadImmediate .a) { Cpu.powerUp {} with backingHlRegister := base }

theorem digitsCpu_start (program : List Byte) (base : Word) :
    (digitsCpu program base).registers.visible.hl = base ∧
      (digitsCpu program base).registers.visible.carryFlag = false :=
  ⟨Word.ofBytes_halves base, (by decide : (Cpu.powerUp {}).visible.carryFlag = false)⟩

theorem digitsCpu_ram {program : List Byte} (low : ProgramStub.Low ⟨0x0100, program⟩)
    (base : Word) : WithRam (digitsCpu program base).bus :=
  (stubBus_onStub program).withRam low

theorem digitsCpu_loop (encodes : pass.Encodes encode) {digits : List ι} {program : List Byte}
    (spelled : digits.flatMap (digitCode pass encode direction) = program)
    (nonempty : program ≠ []) (low : ProgramStub.Low ⟨0x0100, program⟩)
    (inRam : direction.InRam base digits.length) :
    ∃ last, DigitLoop pass direction (digitsCpu program base) digits last := by
  have onStub := stubBus_onStub program
  have code := onStub.code low
  have opcode : decode (program.headD 0) = .implemented (.loadImmediate .a) := by
    cases digits with
    | nil => exact absurd spelled.symm nonempty
    | cons digit digits =>
      subst spelled
      exact (by decide : decode 0x3E = .implemented (.loadImmediate .a))
  subst spelled
  refine digits_loop encodes (onStub_remembers low) onStub ⟨?_, fun _ _ => ?_⟩ ?_ code ?_
  · exact stubCpu_located _ low nonempty
  · exact stubCpu_boundary _ opcode
  · rw [(digitsCpu_start _ base).1]
    exact inRam
  · intro offset inside
    simp only [ProgramStub.Low, Ram.startAddress] at low
    have small : 0x0100 + offset < 0xC000 := by
      have bound : (0x0100 : BitVec 64).toNat = 0x0100 := rfl
      omega
    simp only [Ram.Owns, Ram.startAddress]
    bv_omega

/-- 0xFF + 0x02 and 0x01 + 0x00. -/
def addingProgram : List Byte := [0x3E, 0xFF, 0xCE, 0x02, 0x22, 0x3E, 0x01, 0xCE, 0x00, 0x22]

/-- 0x03 and 0x00, from the high digit down. -/
def halvingProgram : List Byte := [0x3E, 0x03, 0x1F, 0x32, 0x3E, 0x00, 0x1F, 0x32]

theorem addingProgram_loop :
    ∃ last, DigitLoop Pass.adc .up (digitsCpu addingProgram 0xC000) [(0xFF, 0x02), (0x01, 0x00)]
      last :=
  digitsCpu_loop (arithmetic_encodes (by decide : decode 0xCE = _)) rfl (List.cons_ne_nil _ _)
    (by decide) (by decide)

theorem halvingProgram_loop :
    ∃ last, DigitLoop Pass.rra .down (digitsCpu halvingProgram 0xC001) [0x03, 0x00] last :=
  digitsCpu_loop (rotation_encodes (by decide : decode 0x1F = _)) rfl (List.cons_ne_nil _ _)
    (by decide) (by decide)

/-- 0x01FF + 0x0002 with a carry into the second digit, and half of 0x0300 with one into
the first. -/
theorem multi_precision_twoDigits :
    (∃ last, DigitLoop Pass.adc .up (digitsCpu addingProgram 0xC000)
        [(0xFF, 0x02), (0x01, 0x00)] last ∧
      digitsValue (Direction.up.bytes last.bus 0xC000 2) = 0x0201 ∧
      last.registers.visible.carryFlag.toNat = 0) ∧
    ∃ last, DigitLoop Pass.rra .down (digitsCpu halvingProgram 0xC001) [0x03, 0x00] last ∧
      digitsValue (Direction.down.bytes last.bus 0xC001 2).reverse = 0x0180 ∧
      last.registers.visible.carryFlag.toNat = 0 := by
  constructor
  · obtain ⟨last, loop⟩ := addingProgram_loop
    obtain ⟨hl, carry⟩ := digitsCpu_start addingProgram 0xC000
    have inRam : Direction.up.InRam 0xC000 2 := by decide
    obtain ⟨sum, out⟩ := (multi_precision (digitsCpu_ram (by decide) _)).1 _ (hl ▸ inRam) loop
    rw [hl, carry] at sum
    rw [carry] at out
    exact ⟨last, loop, sum.trans (by decide), out.trans (by decide)⟩
  · obtain ⟨last, loop⟩ := halvingProgram_loop
    obtain ⟨hl, carry⟩ := digitsCpu_start halvingProgram 0xC001
    have inRam : Direction.down.InRam 0xC001 2 := by decide
    obtain ⟨half, out⟩ := (multi_precision (digitsCpu_ram (by decide) _)).2.2.2 [0x00, 0x03]
      (List.cons_ne_nil _ _) (hl ▸ inRam) loop
    rw [hl, carry] at half
    exact ⟨last, loop, half.trans (by decide), out.trans (by decide)⟩

end Witness
end GbEmulator
