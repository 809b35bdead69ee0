import Mathlib.Data.List.Nodup
import Std.Data.String.ToInt
import SbfMachine.Isa.Disassembly
import SbfMachine.Proofs.Text.Numerals

/-!
# Reading disassembled instructions

The text of an instruction says everything about it that a machine looks at. It consists of a word
and of operands, with a comma between any two of them. The word tells the instruction, up to the
form of its second operand, and thereby of which kinds the operands are; the operands tell the rest.

## Main definitions

- `Operand` — what stands behind the word of an instruction
- `Slot.word`, `Slot.operands` — the parts of the text of an instruction
- `Opcode.base` — the instruction, regardless of the form of its second operand
- `Opcode.SameFields` — two slots that agree where the instruction reads them

## Main statements

- `Slot.disassemble_eq` — the text consists of its parts
- `Slot.base_eq_of_word` — the word tells the instruction
- `Operand.text_injective` — the text of an operand tells the operand, among those of its kind
- `Slot.sameFields_of_disassemble` — equal texts are of equal instructions
-/

namespace SbfMachine

-- ════════════════════════════════════════════════════════════════════════
-- Operands
-- ════════════════════════════════════════════════════════════════════════

inductive Operand
  | register (number : Nat)
  | immediate (value : Int)
  /-- A number in hexadecimal: a 64-bit constant, or the hash of a call. -/
  | constant (value : Nat)
  /-- Memory at a register plus an offset. -/
  | address (number : Nat) (off : Int16)
  /-- The offset of a jump. -/
  | jump (off : Int16)

namespace Operand

def text : Operand → String
  | .register number => registerName number
  | .immediate value => toString value
  | .constant value => Text.hex value
  | .address number off => addressText number off
  | .jump off => jumpText off

/-- The kinds of operands; one of the first kind is a register or an immediate. -/
inductive Kind
  | value
  | constant
  | address
  | jump

def kind : Operand → Kind
  | .register _ | .immediate _ => .value
  | .constant _ => .constant
  | .address .. => .address
  | .jump _ => .jump

end Operand

/-- Operands behind a word: a blank before each of them and a comma between any two. -/
def operandList : List String → String
  | [] => ""
  | operand :: rest => " " ++ operand ++ (if rest = [] then "" else "," ++ operandList rest)

namespace Slot

/-- The 64-bit constant of an instruction of two slots; a missing second slot counts as zero. -/
def constant (slot : Slot) (next : Option Slot) : UInt64 :=
  wideImmediate slot.uimm ((next.map uimm).getD 0)

/-- The second operand of the instruction. -/
def operand (slot : Slot) : OperandForm → Operand
  | .imm => .immediate slot.imm.toInt
  | .reg => .register slot.src

/-- The word at the start of the text; byte swaps append their width. -/
def word (slot : Slot) : Opcode → String
  | .swap order => (Opcode.swap order).mnemonic ++ toString slot.imm.toInt
  | opcode => opcode.mnemonic

def operands (slot : Slot) (next : Option Slot) : Opcode → List Operand
  | .wide => [.register slot.dst, .constant (slot.constant next).toNat]
  | .load _ => [.register slot.dst, .address slot.src slot.off]
  | .store _ form => [.address slot.dst slot.off, slot.operand form]
  | .alu _ _ form => [.register slot.dst, slot.operand form]
  | .neg _ | .swap _ => [.register slot.dst]
  | .jump => [.jump slot.off]
  | .branch _ form => [.register slot.dst, slot.operand form, .jump slot.off]
  | .call => [.constant slot.uimm.toNat]
  | .callRegister => [.register slot.uimm.toNat]
  | .exit => []

theorem operandText_eq (slot : Slot) (form : OperandForm) :
    slot.operandText form = (slot.operand form).text := by
  cases form <;> rfl

/-- The text of an instruction is its word, followed by its operands. -/
theorem disassemble_eq {slot : Slot} {opcode : Opcode} (next : Option Slot)
    (h : Opcode.ofByte? slot.opcode = some opcode) :
    slot.disassemble next =
      slot.word opcode ++ operandList ((slot.operands next opcode).map Operand.text) := by
  have hcomma (rest : String) : ", " ++ rest = "," ++ (" " ++ rest) := by
    rw [← String.append_assoc]
    rfl
  simp only [disassemble, h]
  cases opcode <;>
    simp [word, operands, operandList, Operand.text, constant, operandText_eq, toString, hcomma,
      String.append_assoc]

end Slot

-- ════════════════════════════════════════════════════════════════════════
-- The characters of operands
-- ════════════════════════════════════════════════════════════════════════

theorem toList_registerName (number : Nat) :
    (registerName number).toList = 'r' :: number.repr.toList :=
  String.toList_append

theorem toList_addressText (number : Nat) (off : Int16) :
    (addressText number off).toList =
      '[' :: 'r' :: (number.repr.toList ++ (if off.toInt < 0 then '-' else '+') ::
        ((Text.hex off.toInt.natAbs).toList ++ [']'])) := by
  have hbracket : "[r".toList = ['[', 'r'] := by decide
  unfold addressText
  split <;> simp [toString, hbracket]

theorem toList_jumpText (off : Int16) :
    (jumpText off).toList =
      if off.toInt < 0 then off.toInt.repr.toList else '+' :: off.toInt.repr.toList := by
  unfold jumpText
  split
  · rfl
  · exact String.toList_append

namespace Operand

theorem comma_not_mem_text (operand : Operand) : ',' ∉ operand.text.toList := by
  cases operand with
  | register number =>
    rw [text, toList_registerName, List.mem_cons, not_or]
    exact ⟨by decide, Text.not_mem_repr_nat rfl number⟩
  | immediate value => exact Text.not_mem_repr rfl (by decide) value
  | constant value => exact Text.not_mem_hex rfl value
  | address number off =>
    have hsign : ',' ≠ if off.toInt < 0 then '-' else '+' := by split <;> decide
    rw [text, toList_addressText]
    simp only [List.mem_cons, List.mem_append, not_or]
    exact ⟨by decide, by decide, Text.not_mem_repr_nat rfl number, hsign, Text.not_mem_hex rfl _,
      by decide, List.not_mem_nil⟩
  | jump off =>
    rw [text, toList_jumpText]
    split
    · exact Text.not_mem_repr rfl (by decide) _
    · rw [List.mem_cons, not_or]
      exact ⟨by decide, Text.not_mem_repr rfl (by decide) _⟩

theorem comma_not_mem_texts (operands : List Operand) :
    ∀ text ∈ operands.map Operand.text, ',' ∉ text.toList :=
  List.forall_mem_map.2 fun operand _ => operand.comma_not_mem_text

end Operand

theorem registerName_injective {a b : Nat} (h : registerName a = registerName b) : a = b :=
  Nat.repr_injective ((String.append_right_inj "r").1 h)

/-- An immediate is not a register, since no number has an `r` in it. -/
theorem repr_ne_registerName (value : Int) (number : Nat) : value.repr ≠ registerName number := by
  intro h
  have hmem : 'r' ∈ value.repr.toList := by
    rw [h, toList_registerName]
    exact List.mem_cons_self
  exact Text.not_mem_repr rfl (by decide) value hmem

/-- Offsets of jumps are read off their texts, the sign first. -/
theorem jumpText_injective {off other : Int16} (h : jumpText off = jumpText other) :
    off = other := by
  have hplus (value : Int) : '+' ∉ value.repr.toList := Text.not_mem_repr rfl (by decide) value
  have htext := congrArg String.toList h
  rw [toList_jumpText, toList_jumpText] at htext
  have hvalue : off.toInt.repr.toList = other.toInt.repr.toList := by
    split at htext <;> split at htext
    · exact htext
    · exact absurd (htext ▸ List.mem_cons_self) (hplus off.toInt)
    · exact absurd (htext ▸ List.mem_cons_self) (hplus other.toInt)
    · exact (List.cons.inj htext).2
  exact Int16.toInt_inj.1 (Int.repr_injective (String.toList_inj.1 hvalue))

/-- The register of an address ends at the sign of the offset. -/
theorem addressText_injective {a b : Nat} {off other : Int16}
    (h : addressText a off = addressText b other) : a = b ∧ off = other := by
  have htext := congrArg String.toList h
  rw [toList_addressText, toList_addressText] at htext
  obtain ⟨hregister, hrest⟩ := Text.eq_and_eq_of_append_eq
    (fun _ hc => Text.isDigit_of_mem_repr hc) (fun _ hc => Text.isDigit_of_mem_repr hc)
    (by intro c hc; obtain rfl := Option.some.inj hc; split <;> decide)
    (by intro c hc; obtain rfl := Option.some.inj hc; split <;> decide)
    (List.cons.inj (List.cons.inj htext).2).2
  obtain ⟨hsign, hoffset⟩ := List.cons.inj hrest
  have hmagnitude : off.toInt.natAbs = other.toInt.natAbs :=
    Text.hex_injective (String.toList_inj.1 ((List.append_left_inj [']']).1 hoffset))
  have hnegative : off.toInt < 0 ↔ other.toInt < 0 := by
    split at hsign <;> split at hsign
    · next hoff hother => exact iff_of_true hoff hother
    · cases hsign
    · cases hsign
    · next hoff hother => exact iff_of_false hoff hother
  exact ⟨Nat.repr_injective (String.toList_inj.1 hregister), Int16.toInt_inj.1 (by omega)⟩

/-- The text of an operand tells the operand, among those of its kind. -/
theorem Operand.text_injective {a b : Operand} (hkind : a.kind = b.kind) (h : a.text = b.text) :
    a = b := by
  cases a with
  | register number =>
    cases b with
    | register other => rw [registerName_injective h]
    | immediate value => exact absurd h.symm (repr_ne_registerName value number)
    | _ => cases hkind
  | immediate value =>
    cases b with
    | register number => exact absurd h (repr_ne_registerName value number)
    | immediate other => rw [Int.repr_injective h]
    | _ => cases hkind
  | constant value =>
    cases b with
    | constant other => rw [Text.hex_injective h]
    | _ => cases hkind
  | address number off =>
    cases b with
    | address other off' =>
      obtain ⟨rfl, rfl⟩ := addressText_injective h
      rfl
    | _ => cases hkind
  | jump off =>
    cases b with
    | jump other => rw [jumpText_injective h]
    | _ => cases hkind

theorem toList_operandList_cons (text : String) (rest : List String) :
    (operandList (text :: rest)).toList =
      ' ' :: (text.toList ++ if rest = [] then [] else ',' :: (operandList rest).toList) := by
  rw [operandList]
  split <;> simp

theorem head?_operandList (texts : List String) :
    ∀ c ∈ (operandList texts).toList.head?, ¬c ≠ ' ' := by
  intro c hc
  cases texts with
  | nil => cases hc
  | cons text rest =>
    rw [toList_operandList_cons] at hc
    exact not_not_intro (Option.some.inj hc).symm

/-- Operands without commas are told apart by the list of them. -/
theorem operandList_injective {texts others : List String}
    (htexts : ∀ text ∈ texts, ',' ∉ text.toList) (hothers : ∀ text ∈ others, ',' ∉ text.toList)
    (h : operandList texts = operandList others) : texts = others := by
  have hcomma (rest : List String) :
      ∀ c ∈ (if rest = [] then [] else ',' :: (operandList rest).toList).head?, ¬c ≠ ',' := by
    intro c hc
    split at hc
    · cases hc
    · exact not_not_intro (Option.some.inj hc).symm
  induction texts generalizing others with
  | nil =>
    cases others with
    | nil => rfl
    | cons other rest' =>
      have htext := congrArg String.toList h
      rw [toList_operandList_cons] at htext
      cases htext
  | cons text rest ih =>
    cases others with
    | nil =>
      have htext := congrArg String.toList h
      rw [toList_operandList_cons] at htext
      cases htext
    | cons other rest' =>
      have htext := congrArg String.toList h
      rw [toList_operandList_cons, toList_operandList_cons] at htext
      obtain ⟨hfirst, hrest⟩ := Text.eq_and_eq_of_append_eq (p := (· ≠ ','))
        (fun c hc heq => htexts text List.mem_cons_self (heq ▸ hc))
        (fun c hc heq => hothers other List.mem_cons_self (heq ▸ hc)) (hcomma rest) (hcomma rest')
        (List.cons.inj htext).2
      obtain rfl := String.toList_inj.1 hfirst
      congr 1
      split at hrest <;> split at hrest
      · next hnil hnil' => rw [hnil, hnil']
      · cases hrest
      · cases hrest
      · exact ih (fun text hmem => htexts text (List.mem_cons_of_mem _ hmem))
          (fun text hmem => hothers text (List.mem_cons_of_mem _ hmem))
          (String.toList_inj.1 (List.cons.inj hrest).2)

-- ════════════════════════════════════════════════════════════════════════
-- Words
-- ════════════════════════════════════════════════════════════════════════

namespace Opcode

/-- The instruction, regardless of the form of its second operand, which its name does not show. -/
def base : Opcode → Opcode
  | .alu width op _ => .alu width op .imm
  | .branch condition _ => .branch condition .imm
  | opcode => opcode

/-- All instructions, those with a second operand that the name does not show in one form. -/
def bases : List Opcode :=
  let widths : List Width := [.byte, .half, .word, .double]
  let operations : List AluOp :=
    [.add, .sub, .mul, .div, .or, .and, .lsh, .rsh, .mod, .xor, .mov, .arsh, .sdiv]
  let conditions : List Condition :=
    [.eq, .gt, .ge, .set, .ne, .sgt, .sge, .lt, .le, .slt, .sle]
  List.flatten
    [[wide, neg .w32, neg .w64, swap .little, swap .big, jump, call, callRegister, exit],
      widths.map load,
      widths.map (store · .imm),
      widths.map (store · .reg),
      operations.map (alu .w32 · .imm),
      operations.map (alu .w64 · .imm),
      conditions.map (branch · .imm)]

theorem base_mem_bases (opcode : Opcode) : opcode.base ∈ bases := by
  cases opcode with
  | wide | jump | call | callRegister | exit => decide
  | load width => cases width <;> decide
  | store width form => cases width <;> cases form <;> decide
  | alu width op form =>
    change alu width op .imm ∈ bases
    cases width <;> cases op <;> decide
  | neg width => cases width <;> decide
  | swap order => cases order <;> decide
  | branch condition form =>
    change branch condition .imm ∈ bases
    cases condition <;> decide

theorem mnemonic_base (opcode : Opcode) : opcode.base.mnemonic = opcode.mnemonic := by
  cases opcode <;> rfl

/-- The name tells the instruction, up to the form of its second operand. -/
theorem base_eq_of_mnemonic {opcode other : Opcode} (h : opcode.mnemonic = other.mnemonic) :
    opcode.base = other.base := by
  have hnodup : (bases.map mnemonic).Nodup := by decide +kernel
  rw [← mnemonic_base opcode, ← mnemonic_base other] at h
  exact List.inj_on_of_nodup_map hnodup opcode.base_mem_bases other.base_mem_bases h

theorem take_mnemonic_swap (order : ByteOrder) :
    (Opcode.swap order).mnemonic.toList.take 2 = (Opcode.swap order).mnemonic.toList := by
  cases order <;> decide

/-- The first two letters tell byte swaps, to whose names the width is appended. -/
theorem eq_swap_of_mnemonic {opcode : Opcode} {order : ByteOrder}
    (h : opcode.mnemonic.toList.take 2 = (Opcode.swap order).mnemonic.toList) :
    opcode = .swap order := by
  have hnames : ∀ other ∈ bases, ∀ order ∈ [ByteOrder.little, .big],
      other.mnemonic.toList.take 2 = (Opcode.swap order).mnemonic.toList → other = .swap order := by
    decide +kernel
  rw [← mnemonic_base] at h
  have hbase := hnames opcode.base opcode.base_mem_bases order (by cases order <;> decide) h
  cases opcode with
  | alu | branch => cases hbase
  | _ => exact hbase

end Opcode

namespace Slot

theorem blank_not_mem_word (slot : Slot) (opcode : Opcode) : ' ' ∉ (slot.word opcode).toList := by
  have hnames : ∀ opcode ∈ Opcode.bases, ' ' ∉ opcode.mnemonic.toList := by decide +kernel
  have hname : ' ' ∉ opcode.mnemonic.toList := by
    rw [← opcode.mnemonic_base]
    exact hnames _ opcode.base_mem_bases
  cases opcode with
  | swap order =>
    rw [word, String.toList_append, List.mem_append, not_or]
    exact ⟨hname, Text.not_mem_repr rfl (by decide) _⟩
  | _ => exact hname

theorem take_word (slot : Slot) (opcode : Opcode) :
    (slot.word opcode).toList.take 2 = opcode.mnemonic.toList.take 2 := by
  cases opcode with
  | swap order =>
    rw [word, String.toList_append]
    cases order <;> rfl
  | _ => rfl

/-- No word begins with the first letter of `invalid`, which stands for unknown instructions. -/
theorem exists_head?_word (slot : Slot) (opcode : Opcode) :
    ∃ c, (slot.word opcode).toList.head? = some c ∧ c ≠ 'i' := by
  have hnames : ∀ opcode ∈ Opcode.bases,
      opcode.mnemonic.toList.head? ≠ none ∧ opcode.mnemonic.toList.head? ≠ some 'i' := by
    decide +kernel
  obtain ⟨hsome, hne⟩ := hnames opcode.base opcode.base_mem_bases
  rw [opcode.mnemonic_base] at hsome hne
  have htake (text : List Char) : (text.take 2).head? = text.head? := by cases text <;> rfl
  have hhead : (slot.word opcode).toList.head? = opcode.mnemonic.toList.head? := by
    rw [← htake, take_word, htake]
  obtain ⟨c, hc⟩ := Option.ne_none_iff_exists'.1 hsome
  exact ⟨c, hhead.trans hc, fun heq => hne (heq ▸ hc)⟩

theorem word_of_ne_swap (slot : Slot) {opcode : Opcode} (h : ∀ order, opcode ≠ .swap order) :
    slot.word opcode = opcode.mnemonic := by
  cases opcode with
  | swap order => exact absurd rfl (h order)
  | _ => rfl

/-- The word tells the instruction, up to the form of its second operand, and the width of a byte
swap. -/
theorem base_eq_of_word {slot other : Slot} {opcode opcode' : Opcode}
    (h : slot.word opcode = other.word opcode') :
    opcode.base = opcode'.base ∧ ∀ order, opcode = .swap order → slot.imm = other.imm := by
  have htake : opcode.mnemonic.toList.take 2 = opcode'.mnemonic.toList.take 2 := by
    rw [← slot.take_word, h, take_word]
  by_cases hswap : ∃ order, opcode = .swap order
  · obtain ⟨order, rfl⟩ := hswap
    obtain rfl : opcode' = .swap order :=
      Opcode.eq_swap_of_mnemonic (htake.symm.trans (Opcode.take_mnemonic_swap order))
    have himm : toString slot.imm.toInt = toString other.imm.toInt :=
      (String.append_right_inj _).1 h
    exact ⟨rfl, fun _ _ => Int32.toInt_inj.1 (Int.repr_injective himm)⟩
  · have hswap' (order : ByteOrder) : opcode' ≠ .swap order := by
      rintro rfl
      exact hswap ⟨order, Opcode.eq_swap_of_mnemonic
        (htake.trans (Opcode.take_mnemonic_swap order))⟩
    rw [word_of_ne_swap slot fun order heq => hswap ⟨order, heq⟩,
      word_of_ne_swap other hswap'] at h
    exact ⟨Opcode.base_eq_of_mnemonic h, fun order heq => absurd ⟨order, heq⟩ hswap⟩

/-- The text of an instruction is not that of an unknown one. -/
theorem not_invalid_disassemble {slot : Slot} {opcode : Opcode} (next : Option Slot)
    (h : Opcode.ofByte? slot.opcode = some opcode) :
    ¬"invalid".toList <+: (slot.disassemble next).toList := by
  rintro ⟨rest, hrest⟩
  obtain ⟨c, hc, hne⟩ := slot.exists_head?_word opcode
  have hhead := congrArg List.head? hrest
  rw [disassemble_eq next h, String.toList_append, List.head?_append, List.head?_append,
    hc] at hhead
  exact hne (Option.some.inj hhead).symm

end Slot

-- ════════════════════════════════════════════════════════════════════════
-- Fields
-- ════════════════════════════════════════════════════════════════════════

/-- Different opcode bytes stand for different instructions. -/
theorem Opcode.byte_eq_of_ofByte? {byte byte' : UInt8} {opcode : Opcode}
    (h : ofByte? byte = some opcode) (h' : ofByte? byte' = some opcode) : byte = byte' := by
  have hbytes : ∀ n < 256, ∀ opcode ∈ ofByte? (UInt8.ofNat n), opcode.toByte = UInt8.ofNat n := by
    decide +kernel
  have hencode (byte : UInt8) (h : ofByte? byte = some opcode) : opcode.toByte = byte := by
    have hbyte := hbytes byte.toNat byte.toNat_lt opcode
    rw [UInt8.ofNat_toNat] at hbyte
    exact hbyte h
  rw [← hencode byte h, hencode byte' h']

/-- The slots have the same second operand, in this form. -/
def OperandForm.SameOperand : OperandForm → Slot → Slot → Prop
  | .imm, slot, other => slot.imm = other.imm
  | .reg, slot, other => slot.src = other.src

/-- The slots agree in all that the instruction reads from them, and from the slots after them. -/
def Opcode.SameFields (opcode : Opcode) (slot other : Slot) (next next' : Option Slot) : Prop :=
  match opcode with
  | .wide => slot.dst = other.dst ∧ slot.constant next = other.constant next'
  | .load _ => slot.dst = other.dst ∧ slot.src = other.src ∧ slot.off = other.off
  | .store _ form => slot.dst = other.dst ∧ slot.off = other.off ∧ form.SameOperand slot other
  | .alu _ _ form => slot.dst = other.dst ∧ form.SameOperand slot other
  | .neg _ => slot.dst = other.dst
  | .swap _ => slot.dst = other.dst ∧ slot.imm = other.imm
  | .jump => slot.off = other.off
  | .branch _ form => slot.dst = other.dst ∧ form.SameOperand slot other ∧ slot.off = other.off
  | .call | .callRegister => slot.imm = other.imm
  | .exit => True

/-- The kinds of the operands of an instruction. -/
def Opcode.kinds : Opcode → List Operand.Kind
  | .wide => [.value, .constant]
  | .load _ => [.value, .address]
  | .store .. => [.address, .value]
  | .alu .. => [.value, .value]
  | .neg _ | .swap _ | .callRegister => [.value]
  | .jump => [.jump]
  | .branch .. => [.value, .value, .jump]
  | .call => [.constant]
  | .exit => []

theorem Opcode.kinds_base (opcode : Opcode) : opcode.base.kinds = opcode.kinds := by
  cases opcode <;> rfl

theorem Operand.list_injective {operands others : List Operand}
    (hkinds : operands.map kind = others.map kind) (htexts : operands.map text = others.map text) :
    operands = others := by
  induction operands generalizing others with
  | nil => exact (List.map_eq_nil_iff.1 htexts.symm).symm
  | cons operand operands ih =>
    cases others with
    | nil => cases htexts
    | cons other others =>
      obtain ⟨hkind, hkinds⟩ := List.cons.inj hkinds
      obtain ⟨htext, htexts⟩ := List.cons.inj htexts
      rw [text_injective hkind htext, ih hkinds htexts]

namespace Slot

theorem kind_operand (slot : Slot) (form : OperandForm) : (slot.operand form).kind = .value := by
  cases form <;> rfl

theorem map_kind_operands (slot : Slot) (next : Option Slot) (opcode : Opcode) :
    (slot.operands next opcode).map Operand.kind = opcode.kinds := by
  cases opcode <;> simp only [operands, List.map, kind_operand] <;> rfl

/-- Equal second operands have the same form and come from equal fields. -/
theorem sameOperand_of_operand {slot other : Slot} {form form' : OperandForm}
    (h : slot.operand form = other.operand form') :
    form = form' ∧ form.SameOperand slot other := by
  cases form with
  | imm =>
    cases form' with
    | imm => exact ⟨rfl, Int32.toInt_inj.1 (Operand.immediate.inj h)⟩
    | reg => cases h
  | reg =>
    cases form' with
    | imm => cases h
    | reg => exact ⟨rfl, Fin.ext (Operand.register.inj h)⟩

theorem imm_eq_of_uimm {slot other : Slot} (h : slot.uimm.toNat = other.uimm.toNat) :
    slot.imm = other.imm :=
  congrArg UInt32.toInt32 (UInt32.toNat_inj.1 h)

variable {slot other : Slot} {next next' : Option Slot} {opcode opcode' : Opcode}

theorem dst_eq_of_register (h : Operand.register slot.dst = Operand.register other.dst) :
    slot.dst = other.dst :=
  Fin.ext (Operand.register.inj h)

/-- An instruction is told by its word and its operands, and these come from the fields that it
reads. -/
theorem sameFields_of_operands (hbase : opcode.base = opcode'.base)
    (himm : ∀ order, opcode = .swap order → slot.imm = other.imm)
    (h : slot.operands next opcode = other.operands next' opcode') :
    opcode = opcode' ∧ opcode.SameFields slot other next next' := by
  cases opcode with
  | wide =>
    cases opcode' <;> cases hbase
    obtain ⟨hdst, hrest⟩ := List.cons.inj h
    have hconstant := Operand.constant.inj (List.cons.inj hrest).1
    exact ⟨rfl, dst_eq_of_register hdst, UInt64.toNat_inj.1 hconstant⟩
  | load width =>
    cases opcode' <;> cases hbase
    obtain ⟨hdst, hrest⟩ := List.cons.inj h
    obtain ⟨hsrc, hoff⟩ := Operand.address.inj (List.cons.inj hrest).1
    exact ⟨rfl, dst_eq_of_register hdst, Fin.ext hsrc, hoff⟩
  | store width form =>
    cases opcode' <;> cases hbase
    obtain ⟨haddress, hrest⟩ := List.cons.inj h
    obtain ⟨hdst, hoff⟩ := Operand.address.inj haddress
    exact ⟨rfl, Fin.ext hdst, hoff, (sameOperand_of_operand (List.cons.inj hrest).1).2⟩
  | alu width op form =>
    cases opcode' <;> cases hbase
    obtain ⟨hdst, hrest⟩ := List.cons.inj h
    obtain ⟨rfl, hoperand⟩ := sameOperand_of_operand (List.cons.inj hrest).1
    exact ⟨rfl, dst_eq_of_register hdst, hoperand⟩
  | neg width =>
    cases opcode' <;> cases hbase
    exact ⟨rfl, dst_eq_of_register (List.cons.inj h).1⟩
  | swap order =>
    cases opcode' <;> cases hbase
    exact ⟨rfl, dst_eq_of_register (List.cons.inj h).1, himm order rfl⟩
  | jump =>
    cases opcode' <;> cases hbase
    exact ⟨rfl, Operand.jump.inj (List.cons.inj h).1⟩
  | branch condition form =>
    cases opcode' <;> cases hbase
    obtain ⟨hdst, hrest⟩ := List.cons.inj h
    obtain ⟨hoperand, hjump⟩ := List.cons.inj hrest
    obtain ⟨rfl, hsame⟩ := sameOperand_of_operand hoperand
    exact ⟨rfl, dst_eq_of_register hdst, hsame, Operand.jump.inj (List.cons.inj hjump).1⟩
  | call =>
    cases opcode' <;> cases hbase
    exact ⟨rfl, imm_eq_of_uimm (Operand.constant.inj (List.cons.inj h).1)⟩
  | callRegister =>
    cases opcode' <;> cases hbase
    exact ⟨rfl, imm_eq_of_uimm (Operand.register.inj (List.cons.inj h).1)⟩
  | exit =>
    cases opcode' <;> cases hbase
    exact ⟨rfl, trivial⟩

/-- Equal texts are of equal instructions. -/
theorem sameFields_of_disassemble (hopcode : Opcode.ofByte? slot.opcode = some opcode)
    (hopcode' : Opcode.ofByte? other.opcode = some opcode')
    (h : slot.disassemble next = other.disassemble next') :
    opcode = opcode' ∧ opcode.SameFields slot other next next' := by
  rw [disassemble_eq next hopcode, disassemble_eq next' hopcode'] at h
  have hchars := congrArg String.toList h
  rw [String.toList_append, String.toList_append] at hchars
  -- The word ends at the first blank, or it is the whole text.
  obtain ⟨hword, hoperands⟩ := Text.eq_and_eq_of_append_eq (p := (· ≠ ' '))
    (fun c hc heq => slot.blank_not_mem_word opcode (heq ▸ hc))
    (fun c hc heq => other.blank_not_mem_word opcode' (heq ▸ hc))
    (head?_operandList _) (head?_operandList _) hchars
  obtain ⟨hbase, himm⟩ := base_eq_of_word (String.toList_inj.1 hword)
  have htexts := operandList_injective (Operand.comma_not_mem_texts _)
    (Operand.comma_not_mem_texts _)
    (String.toList_inj.1 hoperands)
  refine sameFields_of_operands hbase himm (Operand.list_injective ?_ htexts)
  rw [map_kind_operands, map_kind_operands, ← opcode.kinds_base, hbase, opcode'.kinds_base]

end Slot

end SbfMachine
