import Chip8.Proofs.Memory.Sized

/-!
Memory under any calls.

Whatever is asked of memory of a given size, with any integers for addresses and positions, a
call that fails changes nothing, a write changes its own byte, and a load changes the bytes that
its program takes the place of. Only the length of the array is not safe from every call. A
program that begins in front of the first address is taken as one that begins so many places in
front of the end, and where it reaches the first address again, the array grows to hold it.
-/

namespace Chip8

namespace Span

variable {Cell : Type} {cells content : Array Cell} {start stop : Int}

theorem size_replace_eq :
    (replace cells start stop content).size = bound cells.size start + content.size +
      (cells.size - max (bound cells.size start) (bound cells.size stop)) := by
  have inside := bound_le cells.size start
  unfold replace
  simp only [Array.size_append, Array.size_extract]
  omega

/-- No array gets shorter when as many cells as a span asks for take its place. -/
theorem size_le_size_replace (fits : stop = start + content.size) :
    cells.size ≤ (replace cells start stop content).size := by
  rw [size_replace_eq]
  unfold bound
  split <;> split <;> omega

/-- The array stays as long as it was in three cases alone: the span begins at a position that
exists, it is empty, or both its ends are counted from the end of the array. -/
theorem size_replace_eq_iff (fits : stop = start + content.size) (upper : stop ≤ cells.size)
    (filled : 0 < cells.size) :
    (replace cells start stop content).size = cells.size ↔
      0 ≤ start ∨ content.size = 0 ∨ -cells.size ≤ start ∧ stop < 0 := by
  rw [size_replace_eq]
  unfold bound
  split <;> split <;> omega

/-- A position that is counted from the end is the one that many places further on. -/
theorem bound_of_neg {length : Nat} {position : Int} (negative : position < 0)
    (inside : 0 ≤ position + length) :
    bound length position = bound length (position + length) := by
  rw [bound_of_le inside (by omega), bound, if_pos negative]

theorem replace_of_neg (negative : stop < 0) (ordered : start ≤ stop)
    (inside : 0 ≤ start + cells.size) :
    replace cells start stop content =
      replace cells (start + cells.size) (stop + cells.size) content := by
  unfold replace
  rw [bound_of_neg (show start < 0 by omega) inside, bound_of_neg negative (by omega)]

end Span

namespace Memory

/-! ### Calls -/

inductive Call
  | read (address : Int)
  | write (address value : Int)
  | readWord (address : Int)
  | readBlock (address count : Int)
  | load (program : List UInt8) (position : Int) (name : String)

inductive Answer
  | done
  | byte (value : UInt8)
  | word (value : Nat)
  | block (values : List UInt8)

def perform (memory : Memory) : Call → Attempt Memory Answer
  | .read address =>
      .ofExcept memory ((memory.read address).map fun value => (.byte value, memory))
  | .write address value =>
      .ofExcept memory ((memory.write address value).map fun written => (.done, written))
  | .readWord address =>
      .ofExcept memory ((memory.readWord address).map fun value => (.word value, memory))
  | .readBlock address count =>
      .ofExcept memory
        ((memory.readBlock address count.toNat).map fun values => (.block values, memory))
  | .load program position name =>
      .ofExcept memory
        ((memory.load program position name).map fun loaded => (.done, loaded))

/-- Memory after some calls, whether or not they fail. -/
def after (memory : Memory) (calls : List Call) : Memory :=
  calls.foldl (fun reached call => (reached.perform call).state) memory

namespace Call

/-- What a call that does not fail changes. A program goes where its position says, which counts
from the end of the array if the program begins and ends in front of the first address. -/
def Changes (call : Call) (before after : Memory) : Prop :=
  match call with
  | .write address value =>
      ∃ (place : Nat) (byte : UInt8), address = place ∧ (byte.toNat : Int) = value % 256 ∧
        after.bytes[place]? = some byte ∧
          ∀ other ≠ place, after.bytes[other]? = before.bytes[other]?
  | .load program position _ =>
      ∀ first : Nat,
        (first = position ∨
          first = position + before.bytes.size ∧ position + program.length < 0) →
        (∀ (offset : Nat) (byte : UInt8), program[offset]? = some byte →
          after.bytes[first + offset]? = some byte) ∧
          ∀ place, place < first ∨ first + program.length ≤ place →
            after.bytes[place]? = before.bytes[place]?
  | .read _ | .readWord _ | .readBlock .. => after = before

/-- A call that leaves memory of a size as long as it is. Only a load may not: it is refused, it
begins at an address, it holds no program, or it lies within the addresses counted from the end. -/
def Stays (size : Nat) : Call → Prop
  | .load program position _ =>
      program.length ≤ size - position →
        0 ≤ position ∨ program = [] ∨ -size ≤ position ∧ position + program.length < 0
  | _ => True

end Call

/-! ### One call -/

/-- Memory that has a cell for each of its addresses, and maybe more. -/
structure Covers (length : Nat) (memory : Memory) : Prop where
  declared : memory.size = length
  cells : length ≤ memory.bytes.size

theorem ofSize_covers {length : Nat} (room : 160 ≤ length) : (ofSize length).Covers length where
  declared := rfl
  cells := Nat.le_of_eq (ofSize_length room).symm

section Performing

variable {memory left : Memory}

theorem perform_load_of_fits {program : List UInt8} {position : Int} (name : String)
    (fits : program.length ≤ memory.size - position) :
    memory.perform (.load program position name) =
      .ok .done { memory with
        bytes := Span.replace memory.bytes position (position + program.length)
          program.toArray } := by
  have taken : memory.load program position name = .ok _ := load_eq_ok_iff.mpr ⟨fits, rfl⟩
  rw [perform, taken]
  rfl

theorem perform_load_of_long {program : List UInt8} {position : Int} (name : String)
    (long : ¬ program.length ≤ memory.size - position) :
    ∃ fault, memory.perform (.load program position name) = .error fault memory := by
  cases refused : memory.load program position name with
  | error fault =>
      refine ⟨fault, ?_⟩
      rw [perform, refused]
      rfl
  | ok loaded => exact absurd (load_eq_ok_iff.mp refused).1 long

theorem perform_write_of_holds {address : Int} (value : Int) (holds : memory.Holds address) :
    memory.perform (.write address value) =
      .ok .done { memory with
        bytes := memory.bytes.setIfInBounds address.toNat (Byte.ofInt value) } := by
  rw [perform, write, if_pos holds]
  rfl

theorem perform_write_of_lacks {address : Int} (value : Int) (lacks : ¬ memory.Holds address) :
    memory.perform (.write address value) = .error (.memoryOutOfBounds address) memory := by
  rw [perform, write, if_neg lacks]
  rfl

/-- A call that fails leaves memory as it was. -/
theorem eq_of_perform_error {call : Call} {fault : Fault}
    (failed : memory.perform call = .error fault left) : left = memory := by
  cases call with
  | read | write | readWord | readBlock | load => exact Attempt.eq_of_ofExcept_error failed

/-! ### What a call changes -/

theorem Covers.load_changes {length : Nat} (covers : memory.Covers length) {program : List UInt8}
    {position : Int} {name : String} (fits : program.length ≤ memory.size - position) :
    (Call.load program position name).Changes memory
      { memory with
        bytes := Span.replace memory.bytes position (position + program.length)
          program.toArray } := by
  have declared := covers.declared
  have cells := covers.cells
  intro first starts
  have found : Span.replace memory.bytes position (position + program.length) program.toArray =
      Span.replace memory.bytes first (first + program.length) program.toArray := by
    rcases starts with same | ⟨counted, negative⟩
    · rw [same]
    · rw [Span.replace_of_neg negative (by omega) (by omega), counted,
        Int.add_right_comm position]
  have inside : first + program.length ≤ memory.bytes.size := by omega
  rw [found]
  constructor
  · intro offset byte there
    obtain ⟨within, _⟩ := List.getElem?_eq_some_iff.mp there
    rw [← there, ← List.getElem?_toArray]
    exact Span.getElem?_replace (Int.natCast_nonneg first) (by omega)
      (by rw [List.size_toArray]; exact within)
  · intro place outside
    exact Span.getElem?_replace_outside (Int.natCast_nonneg first) (by rw [List.size_toArray])
      (by omega) (by omega)

theorem Covers.write_changes {length : Nat} (covers : memory.Covers length) {address : Int}
    (value : Int) (holds : memory.Holds address) :
    (Call.write address value).Changes memory
      { memory with
        bytes := memory.bytes.setIfInBounds address.toNat (Byte.ofInt value) } := by
  obtain ⟨nonneg, inside⟩ := holds
  have declared := covers.declared
  have cells := covers.cells
  refine ⟨address.toNat, Byte.ofInt value, (Int.toNat_of_nonneg nonneg).symm,
    Byte.toNat_ofInt value, ?_, ?_⟩
  · exact Array.getElem?_setIfInBounds_self_of_lt (by omega)
  · intro other different
    exact Array.getElem?_setIfInBounds_ne different.symm

/-- A call that does not fail changes what it is for and nothing else. -/
theorem Covers.changes {length : Nat} (covers : memory.Covers length) {call : Call}
    {answer : Answer} (went : memory.perform call = .ok answer left) :
    call.Changes memory left := by
  cases call with
  | read | readWord | readBlock => exact Attempt.eq_of_ofExcept_map_ok went
  | write address value =>
      by_cases holds : memory.Holds address
      · rw [perform_write_of_holds value holds] at went
        cases went
        exact covers.write_changes value holds
      · rw [perform_write_of_lacks value holds] at went
        cases went
  | load program position name =>
      by_cases fits : program.length ≤ memory.size - position
      · rw [perform_load_of_fits name fits] at went
        cases went
        exact covers.load_changes fits
      · obtain ⟨fault, refused⟩ := perform_load_of_long name fits
        rw [refused] at went
        cases went

/-! ### How long memory is after a call -/

/-- What a call makes of the length of memory: memory never gets shorter, and if it had no cells
beyond its addresses, then it has none now exactly if the call is one that leaves it so. -/
structure Lengthens (length : Nat) (call : Call) (before after : Memory) : Prop where
  covers : after.Covers length
  grows : before.bytes.size ≤ after.bytes.size
  stays_iff : before.bytes.size = length → (after.bytes.size = length ↔ call.Stays length)

theorem Covers.lengthens_of_same {length : Nat} (covers : memory.Covers length) {call : Call}
    (stays : call.Stays length) (declared : left.size = memory.size)
    (same : left.bytes.size = memory.bytes.size) : Lengthens length call memory left where
  covers := ⟨declared.trans covers.declared, same ▸ covers.cells⟩
  grows := Nat.le_of_eq same.symm
  stays_iff := fun exact => ⟨fun _ => stays, fun _ => same.trans exact⟩

theorem Covers.lengthens_of_eq {length : Nat} (covers : memory.Covers length) {call : Call}
    (stays : call.Stays length) (same : left = memory) : Lengthens length call memory left :=
  covers.lengthens_of_same stays (congrArg Memory.size same)
    (congrArg (fun reached => reached.bytes.size) same)

theorem Covers.load_lengthens {length : Nat} (covers : memory.Covers length)
    (room : 0 < length) {program : List UInt8} {position : Int} (name : String)
    (fits : program.length ≤ memory.size - position) :
    Lengthens length (.load program position name) memory
      { memory with
        bytes := Span.replace memory.bytes position (position + program.length)
          program.toArray } := by
  have declared := covers.declared
  have cells := covers.cells
  have ends : position + program.length = position + program.toArray.size := by
    rw [List.size_toArray]
  have empty : program.toArray.size = 0 ↔ program = [] := by
    rw [List.size_toArray, List.length_eq_zero_iff]
  have grows : memory.bytes.size ≤ (Span.replace memory.bytes position
      (position + program.length) program.toArray).size := Span.size_le_size_replace ends
  refine ⟨⟨declared, Nat.le_trans cells grows⟩, grows, ?_⟩
  intro exact
  have kept : (Span.replace memory.bytes position (position + program.length)
      program.toArray).size = memory.bytes.size ↔ _ :=
    Span.size_replace_eq_iff ends (by omega) (by omega)
  rw [empty, exact] at kept
  rw [declared] at fits
  exact kept.trans ⟨fun within _ => within, fun stays => stays fits⟩

theorem Covers.lengthens {length : Nat} (covers : memory.Covers length) (room : 0 < length)
    (call : Call) : Lengthens length call memory (memory.perform call).state := by
  cases call with
  | read | readWord | readBlock =>
      exact covers.lengthens_of_eq trivial (Attempt.state_ofExcept_map memory _ _)
  | write address value =>
      by_cases holds : memory.Holds address
      · rw [perform_write_of_holds value holds]
        exact covers.lengthens_of_same trivial rfl Array.size_setIfInBounds
      · rw [perform_write_of_lacks value holds]
        exact covers.lengthens_of_eq trivial rfl
  | load program position name =>
      by_cases fits : program.length ≤ memory.size - position
      · rw [perform_load_of_fits name fits]
        exact covers.load_lengthens room name fits
      · obtain ⟨fault, refused⟩ := perform_load_of_long name fits
        have stays : (Call.load program position name).Stays length := by
          rw [covers.declared] at fits
          exact fun taken => absurd taken fits
        rw [refused]
        exact covers.lengthens_of_eq stays rfl

end Performing

/-! ### Many calls -/

theorem Covers.after {length : Nat} {memory : Memory} (covers : memory.Covers length)
    (room : 0 < length) (calls : List Call) :
    (memory.after calls).Covers length ∧ memory.bytes.size ≤ (memory.after calls).bytes.size := by
  induction calls generalizing memory with
  | nil => exact ⟨covers, Nat.le_refl _⟩
  | cons call later ih =>
      have first := covers.lengthens room call
      have rest := ih first.covers
      exact ⟨rest.1, Nat.le_trans first.grows rest.2⟩

/-- Memory never gets shorter, so it is as long as it was exactly if no call made it longer. -/
theorem Covers.after_length_iff {length : Nat} {memory : Memory} (covers : memory.Covers length)
    (room : 0 < length) (exact : memory.bytes.size = length) (calls : List Call) :
    (memory.after calls).bytes.size = length ↔ ∀ call ∈ calls, call.Stays length := by
  induction calls generalizing memory with
  | nil => exact ⟨fun _ _ member => absurd member List.not_mem_nil, fun _ => exact⟩
  | cons call later ih =>
      have first := covers.lengthens room call
      rw [List.forall_mem_cons, ← first.stays_iff exact]
      constructor
      · intro same
        have grows := (first.covers.after room later).2
        have reached : (memory.perform call).state.bytes.size = length := by
          have lower := first.covers.cells
          change ((memory.perform call).state.after later).bytes.size = length at same
          omega
        exact ⟨reached, (ih first.covers reached).mp same⟩
      · intro both
        exact (ih first.covers both.1).mpr both.2

/-- Memory of any size that holds the font, after any calls with any arguments. It has just the
cells it was made with, unless a load was taken that begins in front of the first address and is
not empty nor within the addresses that count from the end. Whatever is asked of it next, a call
that fails leaves it as it was, and one that does not changes what it is for and nothing else. -/
theorem calls_keep_memory {length : Nat} (room : 160 ≤ length) (calls : List Call) :
    let memory := (ofSize length).after calls
    memory.size = length ∧
      (memory.bytes.size = length ↔ ∀ call ∈ calls, call.Stays length) ∧
      (∀ call fault left, memory.perform call = .error fault left → left = memory) ∧
      ∀ call answer left, memory.perform call = .ok answer left → call.Changes memory left := by
  have positive : 0 < length := by omega
  have covers := (ofSize_covers room).after positive calls
  refine ⟨covers.1.declared, ?_, ?_, ?_⟩
  · exact (ofSize_covers room).after_length_iff positive (ofSize_length room) calls
  · intro call fault left failed
    exact eq_of_perform_error failed
  · intro call answer left went
    exact covers.1.changes went

/-- Eight bytes that begin five places in front of the first address make memory longer. -/
theorem calls_lengthen_memory_in_front :
    160 ≤ 160 ∧
      ((ofSize 160).after [.load [1, 2, 3, 4, 5, 6, 7, 8] (-5) "tail"]).bytes.size ≠ 160 := by
  obtain ⟨_, kept, _⟩ :=
    calls_keep_memory (Nat.le_refl 160) [.load [1, 2, 3, 4, 5, 6, 7, 8] (-5) "tail"]
  refine ⟨Nat.le_refl 160, ?_⟩
  intro same
  have stays := kept.mp same _ List.mem_cons_self
  rcases stays (by decide) with nonneg | empty | within
  · revert nonneg
    decide
  · cases empty
  · revert within
    decide

end Memory

end Chip8
