/-
This file gives the opcodes, each with the digits that its words share, and says which words spell
which instruction. The decoder finds just the instruction that a word spells.
-/

import ChipEight.Instruction

namespace ChipEight

/-- An opcode, by the hexadecimal digits that its words share: all of them, the first, the first and
the last, or the first and the two last. -/
inductive Opcode where
  | whole (number : Int)
  | family (first : Nat)
  | ending (first last : Nat)
  | closing (first low : Nat)
  deriving DecidableEq, Repr

namespace Opcode

/-- The words of an opcode. Where all digits are given, words count as whole numbers, and else their
sixteen low bits count. -/
def Covers (word : Int) : Opcode → Prop
  | whole number => word = number
  | family first => (Instruction.family word).val = first
  | ending first last =>
      (Instruction.family word).val = first ∧ (Instruction.lastNibble word).val = last
  | closing first low =>
      (Instruction.family word).val = first ∧ (Instruction.lowByte word).val = low

instance (word : Int) : (opcode : Opcode) → Decidable (opcode.Covers word)
  | whole number => inferInstanceAs (Decidable (word = number))
  | family first => inferInstanceAs (Decidable ((Instruction.family word).val = first))
  | ending _ _ => inferInstanceAs (Decidable (_ ∧ _))
  | closing _ _ => inferInstanceAs (Decidable (_ ∧ _))

/-- The word is of one of some opcodes. -/
def Listed (opcodes : List Opcode) (word : Int) : Prop :=
  ∃ opcode ∈ opcodes, opcode.Covers word

instance (opcodes : List Opcode) (word : Int) : Decidable (Listed opcodes word) :=
  inferInstanceAs (Decidable (∃ opcode ∈ opcodes, opcode.Covers word))

/-- The first digit of the words of an opcode. -/
def first : Opcode → Nat
  | whole number => (Instruction.family number).val
  | family digit => digit
  | ending digit _ => digit
  | closing digit _ => digit

theorem Covers.listed {word : Int} {opcode : Opcode} (covers : opcode.Covers word)
    {opcodes : List Opcode} (member : opcode ∈ opcodes) : Listed opcodes word :=
  ⟨opcode, member, covers⟩

theorem Covers.family_eq {word : Int} {opcode : Opcode} (covers : opcode.Covers word) :
    (Instruction.family word).val = opcode.first := by
  cases opcode with
  | whole number => exact congrArg (fun number => (Instruction.family number).val) covers
  | family digit => exact covers
  | ending digit last => exact covers.1
  | closing digit low => exact covers.1

/-- The table of opcodes as it is documented. -/
def documented : List Opcode := [
  .family 0x0, .family 0x1, .family 0x2, .family 0x3, .family 0x4, .ending 0x5 0x0, .family 0x6,
  .family 0x7,
  .ending 0x8 0x0, .ending 0x8 0x1, .ending 0x8 0x2, .ending 0x8 0x3, .ending 0x8 0x4,
  .ending 0x8 0x5, .ending 0x8 0x6, .ending 0x8 0x7, .ending 0x8 0xe,
  .ending 0x9 0x0, .family 0xa, .family 0xb, .family 0xc, .family 0xd,
  .closing 0xe 0x9e, .closing 0xe 0xa1,
  .closing 0xf 0x07, .closing 0xf 0x0a, .closing 0xf 0x15, .closing 0xf 0x18, .closing 0xf 0x1e,
  .closing 0xf 0x29, .closing 0xf 0x33, .closing 0xf 0x55, .closing 0xf 0x65]

end Opcode

/-- The last digit of the words that ask for an operation. -/
def Operation.digit : Operation → Nat
  | copy => 0x0
  | or => 0x1
  | and => 0x2
  | xor => 0x3
  | add => 0x4
  | subtract => 0x5
  | halve => 0x6
  | subtractFrom => 0x7
  | double => 0xe

namespace Instruction

/-- A word spells an instruction if it is of its opcode and names its operands. Comparisons of two
registers leave the last digit free. -/
inductive Spells (word : Int) : Instruction → Prop where
  | clearScreen (opcode : (Opcode.whole 0x00e0).Covers word) : Spells word .clearScreen
  | leave (opcode : (Opcode.whole 0x00ee).Covers word) : Spells word .leave
  | stop (opcode : (Opcode.whole 0x0000).Covers word) : Spells word .stop
  | callNative (opcode : (Opcode.family 0x0).Covers word)
      (other : ¬ Opcode.Listed [.whole 0x00e0, .whole 0x00ee, .whole 0x0000] word) :
      Spells word (.callNative word)
  | jump (opcode : (Opcode.family 0x1).Covers word) : Spells word (.jump (addressOf word))
  | call (opcode : (Opcode.family 0x2).Covers word) : Spells word (.call (addressOf word))
  | skipEqual (opcode : (Opcode.family 0x3).Covers word) :
      Spells word (.skipEqual (xOf word) (lowByte word))
  | skipUnequal (opcode : (Opcode.family 0x4).Covers word) :
      Spells word (.skipUnequal (xOf word) (lowByte word))
  | skipSame (opcode : (Opcode.family 0x5).Covers word) :
      Spells word (.skipSame (xOf word) (yOf word))
  | put (opcode : (Opcode.family 0x6).Covers word) : Spells word (.put (xOf word) (lowByte word))
  | add (opcode : (Opcode.family 0x7).Covers word) : Spells word (.add (xOf word) (lowByte word))
  | combine (operation : Operation) (opcode : (Opcode.ending 0x8 operation.digit).Covers word) :
      Spells word (.combine operation (xOf word) (yOf word))
  | skipDifferent (opcode : (Opcode.family 0x9).Covers word) :
      Spells word (.skipDifferent (xOf word) (yOf word))
  | setIndex (opcode : (Opcode.family 0xa).Covers word) : Spells word (.setIndex (addressOf word))
  | jumpFrom (opcode : (Opcode.family 0xb).Covers word) : Spells word (.jumpFrom (addressOf word))
  | random (opcode : (Opcode.family 0xc).Covers word) :
      Spells word (.random (xOf word) (lowByte word))
  | draw (opcode : (Opcode.family 0xd).Covers word) :
      Spells word (.draw (xOf word) (yOf word) (lastNibble word))
  | skipPressed (opcode : (Opcode.closing 0xe 0x9e).Covers word) :
      Spells word (.skipPressed (xOf word))
  | skipReleased (opcode : (Opcode.closing 0xe 0xa1).Covers word) :
      Spells word (.skipReleased (xOf word))
  | readDelay (opcode : (Opcode.closing 0xf 0x07).Covers word) : Spells word (.readDelay (xOf word))
  | awaitKey (opcode : (Opcode.closing 0xf 0x0a).Covers word) : Spells word (.awaitKey (xOf word))
  | setDelay (opcode : (Opcode.closing 0xf 0x15).Covers word) : Spells word (.setDelay (xOf word))
  | setSound (opcode : (Opcode.closing 0xf 0x18).Covers word) : Spells word (.setSound (xOf word))
  | addIndex (opcode : (Opcode.closing 0xf 0x1e).Covers word) : Spells word (.addIndex (xOf word))
  | findGlyph (opcode : (Opcode.closing 0xf 0x29).Covers word) : Spells word (.findGlyph (xOf word))
  | storeDigits (opcode : (Opcode.closing 0xf 0x33).Covers word) :
      Spells word (.storeDigits (xOf word))
  | storeRegisters (opcode : (Opcode.closing 0xf 0x55).Covers word) :
      Spells word (.storeRegisters (xOf word))
  | loadRegisters (opcode : (Opcode.closing 0xf 0x65).Covers word) :
      Spells word (.loadRegisters (xOf word))

/-- An operation is found by its digit, and no other digit has one. -/
theorem operation?_eq_some_iff (number : Fin 16) (operation : Operation) :
    operation? number.val = some operation ↔ number.val = operation.digit := by
  revert number
  cases operation <;> decide

/-- The words of the first family are told apart as whole numbers. -/
theorem ofSystemWord_spells {word : Int} (opcode : (Opcode.family 0x0).Covers word) :
    Spells word (ofSystemWord word) := by
  unfold ofSystemWord
  split
  case isTrue clears => exact .clearScreen (eq_of_beq clears)
  split
  case isTrue leaves => exact .leave (eq_of_beq leaves)
  split
  case isTrue stops => exact .stop (eq_of_beq stops)
  case isFalse clears leaves stops =>
    apply Spells.callNative opcode
    simp_all [Opcode.Listed, Opcode.Covers]

theorem keyInstruction_spells {word : Int} {instruction : Instruction}
    (family : (Instruction.family word).val = 0xe)
    (found : keyInstruction? (xOf word) (lowByte word).val = some instruction) :
    Spells word instruction := by
  unfold keyInstruction? at found
  split at found
  case h_1 low => cases found; exact .skipPressed ⟨family, low⟩
  case h_2 low => cases found; exact .skipReleased ⟨family, low⟩
  case h_3 => cases found

theorem deviceInstruction_spells {word : Int} {instruction : Instruction}
    (family : (Instruction.family word).val = 0xf)
    (found : deviceInstruction? (xOf word) (lowByte word).val = some instruction) :
    Spells word instruction := by
  unfold deviceInstruction? at found
  split at found
  case h_1 low => cases found; exact .readDelay ⟨family, low⟩
  case h_2 low => cases found; exact .awaitKey ⟨family, low⟩
  case h_3 low => cases found; exact .setDelay ⟨family, low⟩
  case h_4 low => cases found; exact .setSound ⟨family, low⟩
  case h_5 low => cases found; exact .addIndex ⟨family, low⟩
  case h_6 low => cases found; exact .findGlyph ⟨family, low⟩
  case h_7 low => cases found; exact .storeDigits ⟨family, low⟩
  case h_8 low => cases found; exact .storeRegisters ⟨family, low⟩
  case h_9 low => cases found; exact .loadRegisters ⟨family, low⟩
  case h_10 => cases found

/-- What the decoder finds, the word spells. -/
theorem decode_spells {word : Int} {instruction : Instruction}
    (decoded : decode word = some instruction) : Spells word instruction := by
  unfold decode at decoded
  split at decoded
  case h_1 digit => cases decoded; exact ofSystemWord_spells digit
  case h_2 digit => cases decoded; exact .jump digit
  case h_3 digit => cases decoded; exact .call digit
  case h_4 digit => cases decoded; exact .skipEqual digit
  case h_5 digit => cases decoded; exact .skipUnequal digit
  case h_6 digit => cases decoded; exact .skipSame digit
  case h_7 digit => cases decoded; exact .put digit
  case h_8 digit => cases decoded; exact .add digit
  case h_9 digit =>
    obtain ⟨operation, found, rfl⟩ := Option.map_eq_some_iff.mp decoded
    exact .combine operation ⟨digit, (operation?_eq_some_iff _ _).mp found⟩
  case h_10 digit => cases decoded; exact .skipDifferent digit
  case h_11 digit => cases decoded; exact .setIndex digit
  case h_12 digit => cases decoded; exact .jumpFrom digit
  case h_13 digit => cases decoded; exact .random digit
  case h_14 digit => cases decoded; exact .draw digit
  case h_15 digit => exact keyInstruction_spells digit decoded
  case h_16 =>
    -- The first digit is none of the fifteen others.
    have last : (family word).val = 0xf := by grind
    exact deviceInstruction_spells last decoded

/-- The decoder finds each instruction that a word spells. -/
theorem Spells.decoded {word : Int} {instruction : Instruction} (spells : Spells word instruction) :
    decode word = some instruction := by
  cases spells with
  | clearScreen opcode => cases opcode; rfl
  | leave opcode => cases opcode; rfl
  | stop opcode => cases opcode; rfl
  | callNative opcode other =>
      have native : ofSystemWord word = .callNative word := by
        simp [Opcode.Listed, Opcode.Covers] at other
        simp [ofSystemWord, other]
      unfold decode
      rw [opcode.family_eq]
      exact congrArg some native
  | combine operation opcode =>
      have found := (operation?_eq_some_iff (lastNibble word) operation).mpr opcode.2
      unfold decode
      rw [opcode.1]
      exact Option.map_eq_some_iff.mpr ⟨operation, found, rfl⟩
  | skipPressed opcode | skipReleased opcode | readDelay opcode | awaitKey opcode
  | setDelay opcode | setSound opcode | addIndex opcode | findGlyph opcode | storeDigits opcode
  | storeRegisters opcode | loadRegisters opcode =>
      unfold decode
      rw [opcode.1, opcode.2]
      rfl
  | jump opcode | call opcode | skipEqual opcode | skipUnequal opcode | skipSame opcode
  | put opcode | add opcode | skipDifferent opcode | setIndex opcode | jumpFrom opcode
  | random opcode | draw opcode =>
      unfold decode
      rw [opcode.family_eq]
      rfl

/-- The opcode of an instruction is documented, but for comparisons of two registers whose last digit
is not zero. -/
theorem Spells.listed {word : Int} {instruction : Instruction} (spells : Spells word instruction) :
    Opcode.Listed Opcode.documented word ∨ Opcode.Listed [.family 0x5, .family 0x9] word := by
  cases spells with
  | clearScreen opcode | leave opcode | stop opcode =>
      have system : (Opcode.family 0x0).Covers word := opcode.family_eq
      exact .inl (system.listed (by decide))
  | skipSame opcode | skipDifferent opcode => exact .inr (opcode.listed (by decide))
  | combine operation opcode =>
      have member : .ending 0x8 operation.digit ∈ Opcode.documented := by
        cases operation <;> decide
      exact .inl (opcode.listed member)
  | _ opcode => exact .inl (opcode.listed (by decide))

/-- The words of all documented opcodes spell instructions. -/
theorem spells_of_documented {word : Int} (listed : Opcode.Listed Opcode.documented word) :
    ∃ instruction, Spells word instruction := by
  obtain ⟨opcode, member, covers⟩ := listed
  simp only [Opcode.documented, List.mem_cons, List.not_mem_nil, or_false] at member
  rcases member with rfl | rfl | rfl | rfl | rfl | rfl | rfl | rfl | rfl | rfl | rfl | rfl | rfl |
    rfl | rfl | rfl | rfl | rfl | rfl | rfl | rfl | rfl | rfl | rfl | rfl | rfl | rfl | rfl | rfl |
    rfl | rfl | rfl | rfl
  · exact ⟨_, ofSystemWord_spells covers⟩
  · exact ⟨_, .jump covers⟩
  · exact ⟨_, .call covers⟩
  · exact ⟨_, .skipEqual covers⟩
  · exact ⟨_, .skipUnequal covers⟩
  · exact ⟨_, .skipSame covers.1⟩
  · exact ⟨_, .put covers⟩
  · exact ⟨_, .add covers⟩
  · exact ⟨_, .combine .copy covers⟩
  · exact ⟨_, .combine .or covers⟩
  · exact ⟨_, .combine .and covers⟩
  · exact ⟨_, .combine .xor covers⟩
  · exact ⟨_, .combine .add covers⟩
  · exact ⟨_, .combine .subtract covers⟩
  · exact ⟨_, .combine .halve covers⟩
  · exact ⟨_, .combine .subtractFrom covers⟩
  · exact ⟨_, .combine .double covers⟩
  · exact ⟨_, .skipDifferent covers.1⟩
  · exact ⟨_, .setIndex covers⟩
  · exact ⟨_, .jumpFrom covers⟩
  · exact ⟨_, .random covers⟩
  · exact ⟨_, .draw covers⟩
  · exact ⟨_, .skipPressed covers⟩
  · exact ⟨_, .skipReleased covers⟩
  · exact ⟨_, .readDelay covers⟩
  · exact ⟨_, .awaitKey covers⟩
  · exact ⟨_, .setDelay covers⟩
  · exact ⟨_, .setSound covers⟩
  · exact ⟨_, .addIndex covers⟩
  · exact ⟨_, .findGlyph covers⟩
  · exact ⟨_, .storeDigits covers⟩
  · exact ⟨_, .storeRegisters covers⟩
  · exact ⟨_, .loadRegisters covers⟩

/-- The words with an instruction are those of the documented opcodes and the comparisons of two
registers with any last digit. -/
theorem spells_iff (word : Int) :
    (∃ instruction, Spells word instruction) ↔
      Opcode.Listed Opcode.documented word ∨ Opcode.Listed [.family 0x5, .family 0x9] word := by
  constructor
  · rintro ⟨instruction, spells⟩
    exact spells.listed
  · rintro (documented | ⟨opcode, member, covers⟩)
    · exact spells_of_documented documented
    · simp only [List.mem_cons, List.not_mem_nil, or_false] at member
      rcases member with rfl | rfl
      · exact ⟨_, .skipSame covers⟩
      · exact ⟨_, .skipDifferent covers⟩

end Instruction

end ChipEight
