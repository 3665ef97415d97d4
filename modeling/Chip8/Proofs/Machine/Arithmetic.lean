import Chip8.Proofs.Machine.Reachable

/-!
Exact arithmetic.

Results wrap around at the size of a byte, but together with the flag nothing of them is lost:
each operation satisfies an equation between whole numbers. The flag is written after the
result, so in the flag register it is the flag that stays. No other register takes part, whichever
registers the operands came from.
-/

namespace Chip8

namespace Byte

/-- A sum is its byte and the carry. -/
theorem add_exact (first second : UInt8) :
    256 * (decide (first.toNat + second.toNat > 255)).toNat + (first + second).toNat =
      first.toNat + second.toNat := by
  have firstInside := first.toNat_lt
  have secondInside := second.toNat_lt
  rw [UInt8.toNat_add]
  by_cases carried : first.toNat + second.toNat > 255
  · rw [decide_eq_true carried, Bool.toNat_true]
    omega
  · rw [decide_eq_false carried, Bool.toNat_false]
    omega

/-- A difference is its byte less what was borrowed; the flag says that nothing was. -/
theorem sub_exact (first second : UInt8) :
    ((first - second).toNat : Int) - 256 * (1 - (decide (first ≥ second)).toNat) =
      first.toNat - second.toNat := by
  have firstInside := first.toNat_lt
  have secondInside := second.toNat_lt
  rw [UInt8.toNat_sub]
  by_cases covered : first ≥ second
  · have := UInt8.le_iff_toNat_le.mp covered
    rw [decide_eq_true covered, Bool.toNat_true]
    omega
  · have := mt UInt8.le_iff_toNat_le.mpr covered
    rw [decide_eq_false covered, Bool.toNat_false]
    omega

theorem shiftRight_exact (byte : UInt8) :
    2 * (byte >>> 1).toNat + (decide (byte.toNat % 2 = 1)).toNat = byte.toNat := by
  rw [UInt8.toNat_shiftRight]
  change 2 * (byte.toNat >>> 1) + _ = _
  rw [Nat.shiftRight_eq_div_pow]
  by_cases odd : byte.toNat % 2 = 1
  · rw [decide_eq_true odd, Bool.toNat_true]
    omega
  · rw [decide_eq_false odd, Bool.toNat_false]
    omega

theorem shiftLeft_exact (byte : UInt8) :
    256 * (decide (byte ≥ 128)).toNat + (byte <<< 1).toNat = 2 * byte.toNat := by
  have inside := byte.toNat_lt
  rw [UInt8.toNat_shiftLeft]
  change _ + (byte.toNat <<< 1) % 256 = _
  rw [Nat.shiftLeft_eq]
  by_cases high : byte ≥ 128
  · have : 128 ≤ byte.toNat := UInt8.le_iff_toNat_le.mp high
    rw [decide_eq_true high, Bool.toNat_true]
    omega
  · have : ¬ 128 ≤ byte.toNat := fun upper => high (UInt8.le_iff_toNat_le.mpr upper)
    rw [decide_eq_false high, Bool.toNat_false]
    omega

end Byte

/-- What the result and the flag of an operation have to satisfy, given its two operands and the
one of them that a shift takes. -/
def Operation.Exact (first second shifted result flag : Nat) : Operation → Prop
  | copy => result = second
  | or => result = first ||| second
  | and => result = first &&& second
  | xor => result = first ^^^ second
  | add => 256 * flag + result = first + second
  | subtract => (result : Int) - 256 * (1 - flag) = first - second
  | shiftRight => 2 * result + flag = shifted
  | subtractFrom => (result : Int) - 256 * (1 - flag) = second - first
  | shiftLeft => 256 * flag + result = 2 * shifted

namespace Core

variable (core : Core)

/-- The operand that a shift takes. -/
def shiftOperand (x y : RegisterIndex) : UInt8 :=
  if core.shiftsSecond then core.byte y else core.byte x

theorem combine_exact (operation : Operation) (x y : RegisterIndex) :
    ∃ (result : UInt8) (flag : Bool),
      operation.Exact (core.byte x).toNat (core.byte y).toNat (core.shiftOperand x y).toNat
          result.toNat flag.toNat ∧
        core.combine operation x y =
          if operation.flags then core.putFlagged x result flag else core.put x result := by
  cases operation with
  | copy => exact ⟨_, false, rfl, rfl⟩
  | or => exact ⟨_, false, UInt8.toNat_or .., rfl⟩
  | and => exact ⟨_, false, UInt8.toNat_and .., rfl⟩
  | xor => exact ⟨_, false, UInt8.toNat_xor .., rfl⟩
  | add => exact ⟨_, _, Byte.add_exact _ _, rfl⟩
  | subtract => exact ⟨_, _, Byte.sub_exact _ _, rfl⟩
  | shiftRight => exact ⟨_, _, Byte.shiftRight_exact _, rfl⟩
  | subtractFrom => exact ⟨_, _, Byte.sub_exact _ _, rfl⟩
  | shiftLeft => exact ⟨_, _, Byte.shiftLeft_exact _, rfl⟩

/-! ### Writing a result and a flag -/

/-- One core comes from another by an instruction that writes to a register and to the flag at
most. -/
structure Written (before after : Core) (x : RegisterIndex) : Prop where
  bytes : ∀ z, z ≠ x → z ≠ Layout.flagRegister → after.byte z = before.byte z
  rest : after = { before with
    registers := { before.registers with
      v := after.registers.v
      counter := before.registers.counter + 2 } }

variable {core} {x : RegisterIndex}

theorem byte_put_self (value : UInt8) : (core.put x value).byte x = value :=
  Registers.byte_put_self ..

theorem put_written (value : UInt8) : core.Written (core.put x value).advance x where
  bytes _ other _ := Registers.byte_put_of_ne core.registers value other.symm
  rest := rfl

theorem byte_putFlagged_flag (value : UInt8) (flag : Bool) :
    ((core.putFlagged x value flag).byte Layout.flagRegister).toNat = flag.toNat := by
  unfold putFlagged
  rw [byte_put_self]
  cases flag <;> rfl

theorem byte_putFlagged_self (value : UInt8) (flag : Bool) (other : x ≠ Layout.flagRegister) :
    (core.putFlagged x value flag).byte x = value :=
  (Registers.byte_put_of_ne _ _ other.symm).trans (byte_put_self value)

theorem putFlagged_written (value : UInt8) (flag : Bool) :
    core.Written (core.putFlagged x value flag).advance x where
  bytes z other notFlag := by
    change (core.putFlagged x value flag).byte z = core.byte z
    exact (Registers.byte_put_of_ne _ _ notFlag.symm).trans
      (Registers.byte_put_of_ne _ _ other.symm)
  rest := rfl

/-- Combining two registers leaves an exact result. Where there is a flag, it is written behind
the result, and where there is none, the flag register is a register like any other. -/
theorem combine_result (core : Core) (operation : Operation) (x y : RegisterIndex) :
    ∃ (result : UInt8) (flag : Bool),
      operation.Exact (core.byte x).toNat (core.byte y).toNat (core.shiftOperand x y).toNat
          result.toNat flag.toNat ∧
        (operation.flags = true →
          (x ≠ Layout.flagRegister → (core.combine operation x y).byte x = result) ∧
            ((core.combine operation x y).byte Layout.flagRegister).toNat = flag.toNat) ∧
        (operation.flags = false →
          (core.combine operation x y).byte x = result ∧
            (x ≠ Layout.flagRegister → (core.combine operation x y).byte Layout.flagRegister =
              core.byte Layout.flagRegister)) ∧
        core.Written (core.combine operation x y).advance x := by
  obtain ⟨result, flag, exact, combined⟩ := core.combine_exact operation x y
  refine ⟨result, flag, exact, ?_, ?_, ?_⟩
  · intro flags
    rw [combined, flags, if_pos rfl]
    exact ⟨byte_putFlagged_self result flag, byte_putFlagged_flag result flag⟩
  · intro silent
    rw [combined, silent, if_neg Bool.false_ne_true]
    exact ⟨byte_put_self result, fun other => Registers.byte_put_of_ne _ _ other⟩
  · rw [combined]
    cases operation.flags with
    | true => exact putFlagged_written result flag
    | false => exact put_written result

end Core

variable {Time : Type}

/-- Whatever state a machine is in and whichever registers it is about, combining two registers
leaves an exact result, and beside an operation that flags, the flag that makes up for what does
not fit. In the flag register the flag is what is left. Nothing but the register and the flag
changes, and an operation without a flag leaves the flag register alone unless it is the target;
so does adding a byte. -/
theorem Machine.arithmetic_exact (machine : Machine Time) (x y : RegisterIndex) :
    let core := machine.core
    let first := (core.byte x).toNat
    let second := (core.byte y).toNat
    let shifted := if core.shiftsSecond then second else first
    (∀ operation : Operation, ∃ next result flag,
      (machine.execute (nibbleWord 0x8 x y operation.nibble)).attempt = .ok () next ∧
        operation.Exact first second shifted result flag ∧ result ≤ 255 ∧ flag ≤ 1 ∧
        (operation.flags = true →
          (x ≠ Layout.flagRegister → (next.core.byte x).toNat = result) ∧
            (next.core.byte Layout.flagRegister).toNat = flag) ∧
        (operation.flags = false →
          (next.core.byte x).toNat = result ∧
            (x ≠ Layout.flagRegister →
              next.core.byte Layout.flagRegister = core.byte Layout.flagRegister)) ∧
        core.Written next.core x ∧ next = machine.withCore next.core) ∧
      ∀ value : UInt8, ∃ next,
        (machine.execute (byteWord 0x7 x value)).attempt = .ok () next ∧
          (next.core.byte x).toNat = (first + value.toNat) % 256 ∧
          (x ≠ Layout.flagRegister →
            next.core.byte Layout.flagRegister = core.byte Layout.flagRegister) ∧
          core.Written next.core x ∧ next = machine.withCore next.core := by
  intro core first second shifted
  constructor
  · intro operation
    obtain ⟨result, flag, exact, flagged, silent, written⟩ := core.combine_result operation x y
    have performed : core.perform (.combine operation x y) =
        .ok () (core.combine operation x y).advance := rfl
    have operand : (core.shiftOperand x y).toNat = shifted := apply_ite UInt8.toNat ..
    have executed := Machine.attempt_of_perform performed
    rw [operand] at exact
    refine ⟨machine.withCore (core.combine operation x y).advance, result.toNat, flag.toNat,
      executed, exact, Nat.le_of_lt_succ result.toNat_lt, Bool.toNat_le flag, ?_, ?_, written,
      rfl⟩
    · intro flags
      obtain ⟨here, told⟩ := flagged flags
      exact ⟨fun other => congrArg UInt8.toNat (here other), told⟩
    · intro flagless
      obtain ⟨here, kept⟩ := silent flagless
      exact ⟨congrArg UInt8.toNat here, kept⟩
  · intro value
    have performed : core.perform (.addByte x value) =
        .ok () (core.put x (core.byte x + value)).advance := rfl
    have executed := Machine.attempt_of_perform performed
    refine ⟨_, executed, ?_,
      fun other => Registers.byte_put_of_ne _ _ other, Core.put_written _, rfl⟩
    exact (congrArg UInt8.toNat (Core.byte_put_self _)).trans (UInt8.toNat_add ..)

end Chip8
