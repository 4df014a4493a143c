import GbEmulator.Refinement.Process

/-! What can be read off the report of `main`: every field has a fixed width, so the
text determines the error and every register it names. -/
namespace GbEmulator
open CpuRegisters Sm83

section Text

/-- Texts whose ends are of one length are equal part by part. -/
theorem append_inj_of_length {left right tail tailOther : String}
    (length : tail.length = tailOther.length) :
    left ++ tail = right ++ tailOther ↔ left = right ∧ tail = tailOther := by
  constructor
  · intro same
    have lists := congrArg String.toList same
    rw [String.toList_append, String.toList_append] at lists
    obtain ⟨front, back⟩ := List.append_inj' lists (by simpa [String.length_toList] using length)
    exact ⟨String.toList_inj.mp front, String.toList_inj.mp back⟩
  · rintro ⟨rfl, rfl⟩
    rfl

theorem hexDigit_inj {left right : Nat} (small : left < 16) (smallOther : right < 16) :
    hexDigit left = hexDigit right ↔ left = right := by
  constructor
  · intro same
    have every : ∀ left right : Fin 16, hexDigit left = hexDigit right → left = right := by decide
    exact congrArg Fin.val (every ⟨left, small⟩ ⟨right, smallOther⟩ same)
  · rintro rfl
    rfl

@[simp] theorem formatByte_length (byte : Byte) : (formatByte byte).length = 4 := by
  rw [formatByte, String.length_append, String.length_ofList, String.length_ofList]
  rfl

@[simp] theorem formatWord_length (word : Word) : (formatWord word).length = 6 := by
  rw [formatWord, String.length_append, String.length_ofList, String.length_ofList]
  rfl

@[simp] theorem formatByte_inj (left right : Byte) :
    formatByte left = formatByte right ↔ left = right := by
  have := left.isLt
  have := right.isLt
  constructor
  · intro same
    rw [formatByte, formatByte, String.append_right_inj, String.ofList_inj] at same
    simp only [List.cons.injEq, and_true] at same
    rw [hexDigit_inj (by omega) (by omega), hexDigit_inj (by omega) (by omega)] at same
    apply BitVec.eq_of_toNat_eq
    omega
  · rintro rfl
    rfl

@[simp] theorem formatWord_inj (left right : Word) :
    formatWord left = formatWord right ↔ left = right := by
  have := left.isLt
  have := right.isLt
  constructor
  · intro same
    rw [formatWord, formatWord, String.append_right_inj, String.ofList_inj] at same
    simp only [List.cons.injEq, and_true] at same
    rw [hexDigit_inj (by omega) (by omega), hexDigit_inj (by omega) (by omega),
      hexDigit_inj (by omega) (by omega), hexDigit_inj (by omega) (by omega)] at same
    apply BitVec.eq_of_toNat_eq
    omega
  · rintro rfl
    rfl

/-- One field of a dump behind what comes before it. -/
theorem byteField_inj (front frontOther label : String) (left right : Byte) :
    front ++ label ++ formatByte left = frontOther ++ label ++ formatByte right ↔
      front = frontOther ∧ left = right := by
  rw [append_inj_of_length (by simp), formatByte_inj, String.append_left_inj]

theorem wordField_inj (front frontOther label : String) (left right : Word) :
    front ++ label ++ formatWord left = frontOther ++ label ++ formatWord right ↔
      front = frontOther ∧ left = right := by
  rw [append_inj_of_length (by simp), formatWord_inj, String.append_left_inj]

end Text

/-- A dump determines every register in it. -/
theorem report_inj (left right : State) :
    left.report = right.report ↔ (∀ register, left.get register = right.get register) ∧
      left.f = right.f ∧ left.sp = right.sp ∧ left.pc = right.pc := by
  constructor
  · intro same
    unfold State.report at same
    rw [wordField_inj, wordField_inj, byteField_inj, byteField_inj,
      byteField_inj, byteField_inj, byteField_inj, byteField_inj, byteField_inj,
      String.append_right_inj, formatByte_inj] at same
    obtain ⟨⟨⟨⟨⟨⟨⟨⟨⟨a, f⟩, b⟩, c⟩, d⟩, e⟩, h⟩, l⟩, sp⟩, pc⟩ := same
    exact ⟨fun register => by cases register <;> assumption, f, sp, pc⟩
  · rintro ⟨registers, f, sp, pc⟩
    have a : left.a = right.a := registers .a
    have b : left.b = right.b := registers .b
    have c : left.c = right.c := registers .c
    have d : left.d = right.d := registers .d
    have e : left.e = right.e := registers .e
    have h : left.h = right.h := registers .h
    have l : left.l = right.l := registers .l
    unfold State.report
    rw [a, f, b, c, d, e, h, l, sp, pc]

theorem report_length (left right : State) : left.report.length = right.report.length := by
  unfold State.report
  simp only [String.length_append, formatByte_length, formatWord_length]

theorem text_inj (fault other : Fault) : fault.text = other.text ↔ fault = other := by
  have distinct (left right : Byte) :
      "Unimplemented opcode: " ++ formatByte left ≠ "Illegal opcode: " ++ formatByte right := by
    intro same
    have lengths := congrArg String.length same
    rw [String.length_append, String.length_append, formatByte_length, formatByte_length] at lengths
    exact absurd lengths (by decide)
  constructor
  · intro same
    cases fault with
    | unimplemented opcode =>
      cases other with
      | unimplemented opcodeOther =>
        exact congrArg _ ((formatByte_inj _ _).mp ((String.append_right_inj _).mp same))
      | illegal opcodeOther => exact absurd same (distinct opcode opcodeOther)
    | illegal opcode =>
      cases other with
      | unimplemented opcodeOther => exact absurd same.symm (distinct opcodeOther opcode)
      | illegal opcodeOther =>
        exact congrArg _ ((formatByte_inj _ _).mp ((String.append_right_inj _).mp same))
  · rintro rfl
    rfl

theorem output_inj (halt : Halt μ) (other : Halt ν) :
    halt.output = other.output ↔
      halt.fault = other.fault ∧ halt.state.report = other.state.report := by
  unfold Halt.output
  rw [String.append_left_inj, append_inj_of_length (report_length _ _), String.append_left_inj,
    String.append_left_inj, String.append_right_inj, text_inj]

/-- The registers of a dump, as the words they are kept in. -/
theorem dump_words (left right : CpuRegisters) :
    left.visible.report = right.visible.report ↔
      left.backingAfRegister = right.backingAfRegister ∧
      left.backingBcRegister = right.backingBcRegister ∧
      left.backingDeRegister = right.backingDeRegister ∧
      left.backingHlRegister = right.backingHlRegister ∧
      left.backingStackPointerRegister = right.backingStackPointerRegister ∧
      left.backingProgramCounterRegister = right.backingProgramCounterRegister := by
  rw [report_inj]
  constructor
  · rintro ⟨registers, f, sp, pc⟩
    exact ⟨Word.ext_halves (registers .a) f, Word.ext_halves (registers .b) (registers .c),
      Word.ext_halves (registers .d) (registers .e), Word.ext_halves (registers .h) (registers .l),
      sp, pc⟩
  · rintro ⟨af, bc, de, hl, sp, pc⟩
    refine ⟨fun register => ?_, congrArg Word.lower af, sp, pc⟩
    cases register with
    | a => exact congrArg Word.upper af
    | b => exact congrArg Word.upper bc
    | c => exact congrArg Word.lower bc
    | d => exact congrArg Word.upper de
    | e => exact congrArg Word.lower de
    | h => exact congrArg Word.upper hl
    | l => exact congrArg Word.lower hl

/-- The report of an opcode error determines the error with its opcode and every register
it names, down to the bits that the masks hide. -/
theorem caught_determines (fault other : Fault) (left right : CpuRegisters) :
    caught fault.error left = caught other.error right ↔ fault = other ∧
      left.backingAfRegister = right.backingAfRegister ∧
      left.backingBcRegister = right.backingBcRegister ∧
      left.backingDeRegister = right.backingDeRegister ∧
      left.backingHlRegister = right.backingHlRegister ∧
      left.backingStackPointerRegister = right.backingStackPointerRegister ∧
      left.backingProgramCounterRegister = right.backingProgramCounterRegister := by
  rw [caught_fault fault left (), caught_fault other right (), ← dump_words]
  have exits (halt other : Halt Unit) :
      processOf (some halt) = processOf (some other) ↔ halt.output = other.output := by
    constructor
    · intro same
      exact (ProcessOutcome.exited.inj same).2
    · intro same
      exact congrArg (ProcessOutcome.exited (-1)) same
  exact (exits _ _).trans (output_inj _ _)

end GbEmulator
