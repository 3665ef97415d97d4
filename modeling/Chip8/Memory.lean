import Chip8.Attempt
import Chip8.Byte
import Chip8.Capacity
import Chip8.Layout
import Chip8.Log
import Chip8.Span

/-!
Memory: flat, byte-addressable storage.

The low 512 bytes belong to the interpreter, which keeps the glyphs of the
hexadecimal digits there. Programs are copied in behind them. Addresses are
never cut down here: an address outside the declared size is a fault, and a
caller that computes one reduces it first.

The font and programs are stored as spans, so an image whose position lies
before the start of memory lands where the rule of spans puts it, and the array
may then hold more cells than the declared size.
-/

namespace Chip8

structure Memory where
  size : Nat
  bytes : Array UInt8
deriving DecidableEq, Repr

namespace Memory

/-- Memory of a given size that holds the font and is otherwise zero. -/
def ofSize (size : Nat) : Memory where
  size := size
  bytes :=
    Span.replace (Array.replicate size 0) Layout.fontStart
      (Layout.fontStart + Layout.font.length) Layout.font.toArray

def ofSize? (size : Int) : Except Fault Memory :=
  (Capacity.cells? size).map ofSize

def creationRecords (size : Nat) : List Record :=
  [.debug ("Main memory " ++ toString size ++ " bytes initalised"),
   .debug ("Fonts loaded to " ++ Text.hex 4 Layout.fontStart)]

def Holds (memory : Memory) (address : Int) : Prop :=
  0 ≤ address ∧ address < memory.size

instance (memory : Memory) (address : Int) : Decidable (memory.Holds address) :=
  inferInstanceAs (Decidable (_ ∧ _))

def byteAt (memory : Memory) (address : Int) : UInt8 :=
  memory.bytes.getD address.toNat 0

def read (memory : Memory) (address : Int) : Except Fault UInt8 :=
  if memory.Holds address then .ok (memory.byteAt address)
  else .error (.memoryOutOfBounds address)

def write (memory : Memory) (address value : Int) : Except Fault Memory :=
  if memory.Holds address then
    .ok { memory with bytes := memory.bytes.setIfInBounds address.toNat (Byte.ofInt value) }
  else .error (.memoryOutOfBounds address)

def readWord (memory : Memory) (address : Int) : Except Fault Nat := do
  let high ← memory.read address
  let low ← memory.read (address + 1)
  return high.toNat * 256 + low.toNat

def wrap (address : Int) : Int :=
  address % 4096

/-- `count` bytes from an address on, each address reduced, behind those that `earlier`
holds in reverse. The first address that does not exist ends the reading. -/
def readBehind (memory : Memory) (earlier : List UInt8) (address : Int) :
    Nat → Except Fault (List UInt8)
  | 0 => .ok earlier.reverse
  | count + 1 => do
      let byte ← memory.read (wrap address)
      memory.readBehind (byte :: earlier) (address + 1) count

def readBlock (memory : Memory) (address : Int) (count : Nat) : Except Fault (List UInt8) :=
  memory.readBehind [] address count

def writeBlock (memory : Memory) (address : Int) : List UInt8 → Except Fault Memory
  | [] => .ok memory
  | value :: rest => do
      let written ← memory.write (wrap address) value.toNat
      written.writeBlock (address + 1) rest

/-- Store bytes from an address on, each at its address as it stands. Bytes in front of
the first that has no place are stored. -/
def writeAll (memory : Memory) (address : Int) (values : List UInt8) : Attempt Memory Unit :=
  Attempt.forEach
    (fun reached (value, offset) =>
      match reached.write (address + (offset : Nat)) value.toNat with
      | .ok written => .ok () written
      | .error fault => .error fault reached)
    memory values.zipIdx

def glyphAddress (digit : Int) : Except Fault Int :=
  if 0 ≤ digit ∧ digit ≤ 0xF then .ok (Layout.fontStart + Layout.glyphSize * digit)
  else .error (.noSuchGlyph digit)

def glyphOf (byte : UInt8) : Int :=
  Layout.fontStart + Layout.glyphSize * (byte.toNat % 16)

/-- Copy a program in, if it is no longer than what lies from the position to the
end of memory. -/
def load (memory : Memory) (program : List UInt8) (position : Int) (name : String) :
    Except Fault Memory :=
  let available := memory.size - position
  if program.length > available then
    .error (.unusableProgram name
      ("program is " ++ toString program.length ++ " bytes, only " ++ toString available
        ++ " available"))
  else
    .ok { memory with
      bytes := Span.replace memory.bytes position (position + program.length) program.toArray }

def loadRecord (program : List UInt8) (position : Int) : Record :=
  .info ("Program length " ++ toString program.length ++ " bytes loaded at 0x"
    ++ Text.hex 4 position)

/-! ### Single cells -/

theorem wrap_nonneg (address : Int) : 0 ≤ wrap address := by
  unfold wrap
  omega

theorem wrap_lt (address : Int) : wrap address < 4096 := by
  unfold wrap
  omega

theorem read_eq_ok_iff {memory : Memory} {address : Int} {byte : UInt8} :
    memory.read address = .ok byte ↔ memory.Holds address ∧ memory.byteAt address = byte := by
  unfold read
  split
  · next holds => simp only [Except.ok.injEq, holds, true_and]
  · next lacks => simp only [reduceCtorEq, lacks, false_and]

theorem read_eq_error_iff {memory : Memory} {address : Int} {fault : Fault} :
    memory.read address = .error fault ↔
      ¬ memory.Holds address ∧ fault = .memoryOutOfBounds address := by
  unfold read
  split
  · next holds => simp only [reduceCtorEq, holds, not_true_eq_false, false_and]
  · next lacks => simp only [Except.error.injEq, lacks, not_false_eq_true, true_and, eq_comm]

/-- A byte that was written is read back from its cell and from no other one. -/
theorem byteAt_write {memory written : Memory} {address other value : Int}
    (sized : memory.size ≤ memory.bytes.size) (stored : memory.write address value = .ok written)
    (nonneg : 0 ≤ other) :
    written.byteAt other = if other = address then Byte.ofInt value else memory.byteAt other := by
  unfold write at stored
  split at stored
  · next holds =>
      cases stored
      obtain ⟨lower, upper⟩ := holds
      unfold byteAt
      by_cases same : other = address
      · subst same
        rw [if_pos rfl, Array.getD_eq_getD_getElem?, Array.getElem?_setIfInBounds_self_of_lt]
        · rfl
        · omega
      · rw [if_neg same, Array.getD_eq_getD_getElem?, Array.getElem?_setIfInBounds_ne (by omega),
          Array.getD_eq_getD_getElem?]
  · cases stored

/-! ### Blocks -/

@[simp] theorem readBlock_zero (memory : Memory) (address : Int) :
    memory.readBlock address 0 = .ok [] := rfl

theorem readBehind_eq (memory : Memory) (earlier : List UInt8) (address : Int) (count : Nat) :
    memory.readBehind earlier address count =
      (memory.readBlock address count).map (earlier.reverse ++ ·) := by
  unfold readBlock
  induction count generalizing earlier address with
  | zero => simp only [readBehind, Except.map, List.reverse_nil, List.append_nil]
  | succ count shorter =>
      simp only [readBehind]
      cases memory.read (wrap address) with
      | error fault => rfl
      | ok byte =>
          simp only [bind, Except.bind]
          rw [shorter (byte :: earlier), shorter [byte]]
          cases memory.readBehind [] (address + 1) count <;>
            simp only [Except.map, List.reverse_cons, List.reverse_nil, List.nil_append,
              List.append_assoc]

theorem readBlock_succ (memory : Memory) (address : Int) (count : Nat) :
    memory.readBlock address (count + 1) = do
      let byte ← memory.read (wrap address)
      let rest ← memory.readBlock (address + 1) count
      return byte :: rest := by
  unfold readBlock
  simp only [readBehind]
  cases memory.read (wrap address) with
  | error fault => rfl
  | ok byte =>
      simp only [bind, Except.bind, pure, Except.pure]
      rw [readBehind_eq]
      unfold readBlock
      cases memory.readBehind [] (address + 1) count <;>
        simp only [Except.map, List.reverse_cons, List.reverse_nil, List.nil_append,
          List.cons_append]

/-! ### The dump: sixteen bytes to a row, each row after its address -/

def dumpRow (memory : Memory) (start stop : Int) : String :=
  Text.hex 4 start ++ ": "
    ++ " ".intercalate ((Span.read memory.bytes start stop).toList.map Text.byteHex)

/-- The rows of a dump of `length` bytes, cut off at the end of memory. -/
def dumpRows (memory : Memory) (start length : Int) : List String :=
  let stop := min (start + length) memory.size
  let count := ((stop - start + 15) / 16).toNat
  (List.range count).map fun (row : Nat) =>
    let first := start + 16 * row
    memory.dumpRow first (min (first + 16) stop)

def dump (memory : Memory) (start length : Int) : String :=
  "\n".intercalate (memory.dumpRows start length)

end Memory

end Chip8
