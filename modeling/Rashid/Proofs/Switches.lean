import Rashid.Step

/-!
# The switches by number

The classes of opcodes again, by ranges of their numbers. Facts about all opcodes are decided on
these.
-/

namespace Rashid.Proofs

def opNo (n : Nat) : OpClass :=
  if n < 0x40 then
    if n % 8 < 4 then .aluRow else if n % 8 < 6 then .aluEax else if n = 0x0F then .twoByte else .none
  else if n < 0x80 then
    if n < 0x50 then .none
    else if n < 0x58 then .pushReg
    else if n < 0x60 then .popReg
    else if n = 0x63 then .movsxd
    else if n = 0x68 ∨ n = 0x6A then .pushImm
    else if n = 0x69 ∨ n = 0x6B then .imulImm
    else if n < 0x70 then .none
    else .jcc8
  else if n < 0xC0 then
    if n = 0x80 ∨ n = 0x81 ∨ n = 0x83 then .grp1
    else if n < 0x86 then (if n = 0x82 then .none else .aluRow)
    else if n = 0x87 then .xchg
    else if n < 0x8C then (if n = 0x86 then .none else .aluRow)
    else if n = 0x8D then .lea
    else if n = 0x8F then .popRm
    else if n = 0x90 then .nop
    else if n = 0x98 then .cwde
    else if n = 0x99 then .cdq
    else if n = 0x9C then .pushfq
    else if n = 0x9D then .popfq
    else if n = 0xA8 ∨ n = 0xA9 then .testEax
    else if n < 0xB0 then .none
    else if n < 0xB8 then .movRegImm8
    else .movRegImm
  else if n = 0xC0 ∨ n = 0xC1 ∨ 0xD0 ≤ n ∧ n < 0xD4 then .shift
  else if n = 0xC2 then .retImm
  else if n = 0xC3 then .ret
  else if n = 0xC6 ∨ n = 0xC7 then .movRmImm
  else if n = 0xC9 then .leave
  else if n = 0xE8 then .call
  else if n = 0xE9 ∨ n = 0xEB then .jmp
  else if n = 0xF6 ∨ n = 0xF7 then .grp3
  else if n = 0xFE ∨ n = 0xFF then .grp5
  else .none

def sseNo (n : Nat) : SseClass :=
  if n < 0x30 then
    if n = 0x10 ∨ n = 0x11 ∨ n = 0x28 ∨ n = 0x29 then .mov
    else if n = 0x14 ∨ n = 0x15 then .unpck
    else if n = 0x2A then .cvtFrom
    else if n = 0x2C ∨ n = 0x2D then .cvtTo
    else if n = 0x2E ∨ n = 0x2F then .comis
    else .none
  else if n < 0x60 then
    if n = 0x51 ∨ n = 0x58 ∨ n = 0x59 ∨ 0x5C ≤ n then .arith
    else if 0x54 ≤ n ∧ n < 0x58 then .bitwise
    else if n = 0x5A then .cvtFloat
    else .none
  else if n < 0x80 then
    if n = 0x6C ∨ n = 0x6D then .unpck
    else if n = 0x6E then .movdIn
    else if n = 0x6F ∨ n = 0x7F then .movdq
    else if n = 0x70 then .pshufd
    else if n = 0x74 ∨ n = 0x76 then .pcmpeq
    else if n = 0x7E then .movdOut
    else .none
  else if n < 0xC0 then .none
  else if n = 0xC2 then .cmp
  else if n = 0xC5 then .pextrw
  else if n = 0xD6 then .movq
  else if n = 0xD7 then .pmovmskb
  else if n = 0xDB ∨ n = 0xEB ∨ n = 0xEF then .bitwise
  else .none

def twoNo (n : Nat) : TwoClass :=
  if n < 0x80 then (if n = 0x1E ∨ n = 0x1F then .nop else if 0x40 ≤ n ∧ n < 0x50 then .cmov else .none)
  else if n < 0x90 then .jcc
  else if n < 0xA0 then .setcc
  else if n = 0xA4 ∨ n = 0xA5 ∨ n = 0xAC ∨ n = 0xAD then .shld
  else if n = 0xAF then .imul
  else if n = 0xB6 ∨ n = 0xB7 ∨ n = 0xBE ∨ n = 0xBF then .movx
  else .none

lemma opClass_eq : ∀ op : BitVec 8, opClass op = opNo op.toNat := by
  decide +kernel

lemma sseClass_eq : ∀ op : BitVec 8, sseClass op = sseNo op.toNat := by
  decide +kernel

lemma twoClass_eq : ∀ op : BitVec 8, twoClass op = twoNo op.toNat := by
  decide +kernel

end Rashid.Proofs
