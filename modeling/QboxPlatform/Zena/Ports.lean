import QboxPlatform.Foundation.Run
import QboxPlatform.Tlm

/-!
# The register ports of the safety units

What the fault management unit and the safety status unit have in common: reads of any length
are put together from words, only aligned words are written, and the identification registers
come from the parameters.
-/

namespace QboxPlatform.Zena

open Foundation

def sysKeyValue : BitVec 32 := 0xbe

/-- The identification registers as a unit is configured with them. -/
structure Identification where
  pidr4 : BitVec 32
  pidr0 : BitVec 32
  pidr1 : BitVec 32
  pidr2 : BitVec 32
  pidr3 : BitVec 32
  cidr0 : BitVec 32
  cidr1 : BitVec 32
  cidr2 : BitVec 32
  cidr3 : BitVec 32

/-- The registers lie at fixed offsets from the last page of the unit. -/
def Identification.pidcidValue (identification : Identification) (page reg : Nat) : BitVec 32 :=
  let registers : List (Nat × BitVec 32) :=
    [(page + 0xfd0, identification.pidr4), (page + 0xfe0, identification.pidr0),
      (page + 0xfe4, identification.pidr1), (page + 0xfe8, identification.pidr2),
      (page + 0xfec, identification.pidr3), (page + 0xff0, identification.cidr0),
      (page + 0xff4, identification.cidr1), (page + 0xff8, identification.cidr2),
      (page + 0xffc, identification.cidr3)]
  (registers.lookup reg).getD 0

/-- The address of the word that a byte lies in. -/
def wordBase (offset : BitVec 64) : BitVec 64 := BitVec.ofNat 64 (offset.toNat / 4 * 4)

/-- The bytes of a read.  Reading a word has no effect, so that every byte may be taken from a
read of its own; the address wraps around. -/
def readBytes (read32 : BitVec 64 → BitVec 32) (offset : BitVec 64) (len : Nat) : List Byte :=
  (List.range len).map fun index =>
    let cur := offset + BitVec.ofNat 64 index
    byteOf (read32 (wordBase cur)) (cur.toNat % 4)

/-- An aligned read of one word. -/
theorem readBytes_word (read32 : BitVec 64 → BitVec 32) {offset : BitVec 64}
    (aligned : offset.toNat % 4 = 0) :
    readBytes read32 offset 4 = toBytes 4 (read32 offset) := by
  apply List.map_congr_left
  intro index member
  have inside := List.mem_range.mp member
  have bounded := offset.isLt
  have sum : (offset + BitVec.ofNat 64 index).toNat = offset.toNat + index := by
    rw [BitVec.toNat_add, BitVec.toNat_ofNat, Nat.mod_eq_of_lt (by omega : index < 2 ^ 64),
      Nat.mod_eq_of_lt (by omega)]
  have base : wordBase (offset + BitVec.ofNat 64 index) = offset := by
    apply BitVec.eq_of_toNat_eq
    rw [wordBase, sum, BitVec.toNat_ofNat]
    omega
  have position : (offset.toNat + index) % 4 = index := by omega
  simp only [base, sum, position]

end QboxPlatform.Zena
