import GbEmulator.InstructionSet.ControlFlow

/-! Control flow through the stack. A word that a call has pushed is a place in the code to
return to; a run leaves the code only where such a word is not what a return finds. -/
namespace GbEmulator.Sm83

/-- A word on the stack, and whether a call has pushed it. -/
structure StackEntry where
  word : Word
  back : Bool
  deriving DecidableEq, Repr

namespace Instruction

def calls : Instruction → Bool
  | .call _ | .restart _ => true
  | _ => false

variable {state : State} {instruction : Instruction}

theorem indirect_cases (indirect : instruction.indirect state = true) :
    instruction = .jumpHl ∨ instruction.returns state = true := by
  cases instruction with
  | jumpHl => exact .inl rfl
  | ret => exact .inr rfl
  | reti => exact .inr rfl
  | retIf condition => exact .inr indirect
  | _ => cases indirect

theorem returns_destination {μ : Type u} [Store μ Word Byte] (memory : μ)
    (returns : instruction.returns state = true) :
    instruction.destination state memory = stackTop state memory := by
  cases instruction with
  | ret => rfl
  | reti => rfl
  | retIf condition => rfl
  | _ => cases returns

/-- The word that a call pushes is the address behind it. -/
theorem calls_back {word address : Word} (pushes : instruction.pushes state = some word)
    (calls : instruction.calls = true) (located : state.pc = address + 1) :
    word = address + BitVec.ofNat 16 instruction.length := by
  cases instruction with
  | call condition =>
    rw [Instruction.pushes] at pushes
    split at pushes
    · cases pushes
      rw [located]
      exact BitVec.add_assoc _ _ _
    · cases pushes
  | restart vector =>
    cases pushes
    exact located
  | _ => cases calls

end Instruction

/-- What an instruction makes of the words on the stack. -/
def Instruction.tracks (state : State) (entries : List StackEntry) (instruction : Instruction) :
    List StackEntry :=
  match instruction.pushes state with
  | some word => ⟨word, instruction.calls⟩ :: entries
  | none => if instruction.pops state then entries.tail else entries

/-- The code goes on behind its calls. -/
structure Program.Structured (program : Program) : Prop extends program.Closed where
  returns : ∀ {address instruction}, program.code address →
    decode (program.image address) = .implemented instruction → instruction.calls = true →
    program.code (address + BitVec.ofNat 16 instruction.length)

section
variable {μ : Type u} [Store μ Word Byte]

/-- In the code, with a stack whose calls return to it. -/
structure Configuration.Nested (program : Program) (region : StackRegion) (valid : μ → Prop)
    (entries : List StackEntry) (configuration : Configuration μ) : Prop where
  inside : configuration.InCode program
  holds : configuration.Holds region valid (entries.map StackEntry.word)
  returns : ∀ entry ∈ entries, entry.back = true → program.code entry.word

/-- The ways to break the structure of calls: a jump through HL out of the code, a push out
of the region, a pop from an empty stack, a return to a word that no call pushed, and
anything but a push or a pop that changes SP or the words on the stack. -/
inductive Configuration.Breaks (program : Program) (region : StackRegion)
    (configuration : Configuration μ) : List StackEntry → Instruction → Prop
  | jump (outside : ¬program.code configuration.state.hl) :
      configuration.Breaks program region entries .jumpHl
  | overflow (pushes : instruction.pushes configuration.state = some word)
      (outside : ¬(region.Owns (configuration.state.sp - 1) ∧
        region.Owns (configuration.state.sp - 2))) :
      configuration.Breaks program region entries instruction
  | underflow (pops : instruction.pops configuration.state = true) :
      configuration.Breaks program region [] instruction
  | data (returns : instruction.returns configuration.state = true)
      (pushed : entry.back = false) (outside : ¬program.code entry.word) :
      configuration.Breaks program region (entry :: entries) instruction
  | clobbers (pushes : instruction.pushes configuration.state = none)
      (pops : instruction.pops configuration.state = false)
      (touched : ¬configuration.Spares (entry :: entries).length
        (instruction.execute configuration)) :
      configuration.Breaks program region (entry :: entries) instruction

variable {program : Program} {region : StackRegion} {valid : μ → Prop}
  {configuration : Configuration μ} {instruction : Instruction} {entries : List StackEntry}

/-- To leave the code through HL or the stack breaks the structure. -/
theorem Configuration.Leaves.breaks (leaves : configuration.Leaves program instruction)
    (nested : configuration.Nested program region valid entries) :
    configuration.Breaks program region entries instruction := by
  have outside := leaves.outside
  rcases Instruction.indirect_cases leaves.indirect with rfl | returns
  · exact .jump outside
  · rw [Instruction.returns_destination configuration.memory returns] at outside
    cases entries with
    | nil => exact .underflow (returns_pops returns)
    | cons entry entries =>
      rw [stackTop, nested.holds.stored.top_word] at outside
      cases back : entry.back with
      | false => exact .data returns back outside
      | true => exact absurd (nested.returns entry (List.mem_cons_self ..) back) outside

namespace Program.Structured
variable (structured : program.Structured) (ram : RamAt valid region.Owns)
  (store : ∀ {memory : μ}, program.Shown memory → ∀ address data,
    program.Shown (Store.store memory address data))

include structured in
/-- A call leaves an address of the code on the stack. -/
theorem pushed_back {word : Word} (inside : configuration.InCode program)
    (decoded : configuration.decoded = .implemented instruction)
    (pushes : instruction.pushes configuration.state = some word)
    (calls : instruction.calls = true) : program.code word := by
  obtain ⟨shown, address, code, located⟩ := inside
  rw [structured.decoded_image code shown located] at decoded
  rw [Instruction.calls_back pushes calls located.pc]
  exact structured.returns code decoded calls

include structured ram in
/-- An instruction after which the code goes on keeps the structure or breaks it. -/
theorem keeps (nested : configuration.Nested program region valid entries)
    (decoded : configuration.decoded = .implemented instruction)
    (stays : (instruction.execute configuration).InCode program) :
    (instruction.execute configuration).Nested program region valid
        (instruction.tracks configuration.state entries) ∨
      configuration.Breaks program region entries instruction := by
  obtain ⟨inside, holds, returns⟩ := nested
  unfold Instruction.tracks
  cases pushes : instruction.pushes configuration.state with
  | some word =>
    by_cases room : region.Owns (configuration.state.sp - 1) ∧
        region.Owns (configuration.state.sp - 2)
    · refine .inl ⟨stays, (holds.push ram pushes room.1 room.2).1, fun entry member back => ?_⟩
      rcases List.mem_cons.mp member with rfl | member
      · exact structured.pushed_back inside decoded pushes back
      · exact returns entry member back
    · exact .inr (.overflow pushes room)
  | none =>
    cases pops : instruction.pops configuration.state with
    | true =>
      cases entries with
      | nil => exact .inr (.underflow pops)
      | cons entry entries =>
        exact .inl ⟨stays, (holds.pop ram pops).1,
          fun other member => returns other (List.mem_cons_of_mem _ member)⟩
    | false =>
      cases entries with
      | nil =>
        have valid := finished_valid ram.store holds.valid instruction configuration.state
        exact .inl ⟨stays, ⟨valid, .inl rfl, trivial⟩, returns⟩
      | cons entry entries =>
        by_cases spares : configuration.Spares (entry :: entries).length
            (instruction.execute configuration)
        · have kept : configuration.Spares ((entry :: entries).map StackEntry.word).length _ :=
            (List.length_map _).symm ▸ spares
          exact .inl ⟨stays, holds.other ram kept, returns⟩
        · exact .inr (.clobbers pushes pops spares)

include structured ram store in
theorem step (nested : configuration.Nested program region valid entries)
    (decoded : configuration.decoded = .implemented instruction) :
    (instruction.execute configuration).Nested program region valid
        (instruction.tracks configuration.state entries) ∨
      configuration.Breaks program region entries instruction := by
  rcases structured.toClosed.step store nested.inside decoded with stays | leaves
  · exact structured.keeps ram nested decoded stays
  · exact .inr (leaves.breaks nested)

end Program.Structured

/-- Whole instructions, none of which breaks the structure, with the words on the stack
before and after them. -/
inductive UnbrokenRun (program : Program) (region : StackRegion) :
    Configuration μ → List StackEntry → Nat → Configuration μ → List StackEntry → Prop where
  | refl (configuration : Configuration μ) (entries : List StackEntry) :
      UnbrokenRun program region configuration entries 0 configuration entries
  | step {configuration last : Configuration μ} {entries final : List StackEntry}
      {instruction : Instruction} {time : Nat}
      (decoded : configuration.decoded = .implemented instruction)
      (unbroken : ¬configuration.Breaks program region entries instruction)
      (rest : UnbrokenRun program region (instruction.execute configuration)
        (instruction.tracks configuration.state entries) time last final) :
      UnbrokenRun program region configuration entries
        (instruction.mCycles configuration.state + time) last final

namespace UnbrokenRun
variable {last before : Configuration μ} {final stack : List StackEntry}

theorem executes (run : UnbrokenRun program region configuration entries time last final) :
    configuration.Executes time last := by
  induction run with
  | refl configuration entries => exact .refl configuration
  | step decoded unbroken rest ih => exact .step (Configuration.next_implemented decoded) ih

/-- The words that are carried along are those on the stack. -/
theorem nested (run : UnbrokenRun program region configuration entries time last final)
    (structured : program.Structured) (ram : RamAt valid region.Owns)
    (store : ∀ {memory : μ}, program.Shown memory → ∀ address data,
      program.Shown (Store.store memory address data))
    (start : configuration.Nested program region valid entries) :
    last.Nested program region valid final := by
  induction run with
  | refl configuration entries => exact start
  | step decoded unbroken rest ih =>
    rcases structured.step ram store start decoded with keeps | breaks
    · exact ih keeps
    · exact absurd breaks unbroken

/-- Nothing before the end of an unbroken run breaks the structure. -/
theorem earlier (early : UnbrokenRun program region configuration entries time before stack)
    (run : UnbrokenRun program region configuration entries total last final) (order : time < total)
    (decoded : before.decoded = .implemented instruction) :
    ¬before.Breaks program region stack instruction := by
  induction early generalizing total with
  | refl configuration entries =>
    cases run with
    | refl => exact absurd order (Nat.lt_irrefl 0)
    | step decodedSame unbroken rest =>
      obtain rfl := Decoded.implemented.inj (decoded.symm.trans decodedSame)
      exact unbroken
  | step decodedFirst unbroken rest ih =>
    cases run with
    | refl => exact absurd order (Nat.not_lt_zero _)
    | step decodedSame unbrokenSame restSame =>
      obtain rfl := Decoded.implemented.inj (decodedFirst.symm.trans decodedSame)
      exact ih restSame (Nat.lt_of_add_lt_add_left order) decoded

/-- Whole instructions make an unbroken run, up to the first that breaks the structure. -/
theorem of_executes (executes : configuration.Executes time last) (entries : List StackEntry) :
    (∃ final, UnbrokenRun program region configuration entries time last final) ∨
      ∃ earlier before stack instruction, earlier < time ∧
        UnbrokenRun program region configuration entries earlier before stack ∧
        before.decoded = .implemented instruction ∧
        before.Breaks program region stack instruction := by
  induction executes generalizing entries with
  | refl configuration => exact .inl ⟨entries, .refl configuration entries⟩
  | @step configuration cycles following more last taken rest ih =>
    obtain ⟨instruction, decoded⟩ | ⟨fault, faulty⟩ := configuration.decoded_cases
    · obtain ⟨rfl, rfl⟩ := Prod.mk.inj
        (Option.some.inj (taken.symm.trans (Configuration.next_implemented decoded)))
      have positive := mCycles_pos configuration instruction
      by_cases breaks : configuration.Breaks program region entries instruction
      · exact .inr ⟨0, configuration, entries, instruction, Nat.add_pos_left positive more,
          .refl configuration entries, decoded, breaks⟩
      · rcases ih (instruction.tracks configuration.state entries) with
          ⟨final, run⟩ | ⟨earlier, before, stack, breaking, early, run, ends, breaksThere⟩
        · exact .inl ⟨final, .step decoded breaks run⟩
        · exact .inr ⟨_, before, stack, breaking, Nat.add_lt_add_left early _,
            .step decoded breaks run, ends, breaksThere⟩
    · rw [Configuration.next_fault faulty] at taken
      cases taken

end UnbrokenRun
end

/-- The program of a disassembly. -/
def Program.listed (image : Word → Byte) (fixed : Word → Prop)
    (listing : List (Word × Instruction)) : Program :=
  ⟨image, fixed, fun address => address ∈ listing.map Prod.fst⟩

/-- A line of a disassembly that is right, with the lines it needs. -/
structure Program.Lists (image : Word → Byte) (fixed : Word → Prop) (lines : List Word)
    (address : Word) (instruction : Instruction) : Prop where
  decoded : decode (image address) = .implemented instruction
  fixed : ∀ offset < instruction.length, fixed (address + BitVec.ofNat 16 offset)
  successors : ∀ successor ∈ instruction.successors image address, successor ∈ lines
  returns : instruction.calls = true → address + BitVec.ofNat 16 instruction.length ∈ lines

-- Deciding the successors takes the list: a word has an instance of its own for `∀`.
instance (image : Word → Byte) (fixed : Word → Prop) [DecidablePred fixed] (lines : List Word)
    (address : Word) (instruction : Instruction) :
    Decidable (Program.Lists image fixed lines address instruction) :=
  have : Decidable (∀ successor ∈ instruction.successors image address,
      successor ∈ lines) := List.decidableBAll _ _
  decidable_of_iff (_ ∧ _ ∧ _ ∧ _)
    ⟨fun ⟨decoded, fixed, successors, returns⟩ => ⟨decoded, fixed, successors, returns⟩,
      fun ⟨decoded, fixed, successors, returns⟩ => ⟨decoded, fixed, successors, returns⟩⟩

section
variable {image : Word → Byte} {fixed : Word → Prop} {listing : List (Word × Instruction)}
  (right : ∀ line ∈ listing,
    Program.Lists image fixed (listing.map Prod.fst) line.1 line.2)
include right

theorem listed_line {address : Word} {instruction : Instruction}
    (member : address ∈ listing.map Prod.fst)
    (decoded : decode (image address) = .implemented instruction) :
    (address, instruction) ∈ listing := by
  obtain ⟨⟨_, other⟩, line, rfl⟩ := List.mem_map.mp member
  obtain rfl := Decoded.implemented.inj (decoded.symm.trans (right _ line).decoded)
  exact line

theorem listed_structured : (Program.listed image fixed listing).Structured where
  decoded member := by
    obtain ⟨line, listed, rfl⟩ := List.mem_map.mp member
    exact ⟨line.2, (right line listed).decoded⟩
  fixed member decoded := (right _ (listed_line right member decoded)).fixed
  successors member decoded := (right _ (listed_line right member decoded)).successors
  returns member decoded := (right _ (listed_line right member decoded)).returns

end
end GbEmulator.Sm83
