/-!
Bytes as the low eight bits of an integer of any sign and size.
-/

namespace Chip8.Byte

def ofInt (value : Int) : UInt8 :=
  UInt8.ofNat (value % 256).toNat

theorem toNat_ofInt (value : Int) : ((ofInt value).toNat : Int) = value % 256 := by
  unfold ofInt
  rw [UInt8.toNat_ofNat']
  have bound : (value % 256).toNat < 2 ^ 8 := by omega
  rw [Nat.mod_eq_of_lt bound]
  omega

theorem ofInt_toNat (byte : UInt8) : ofInt byte.toNat = byte := by
  apply UInt8.toNat.inj
  have value := toNat_ofInt byte.toNat
  have bound := byte.toNat_lt
  omega

end Chip8.Byte
