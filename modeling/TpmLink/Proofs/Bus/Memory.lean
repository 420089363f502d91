import TpmLink.Bus.Window
import TpmLink.Proofs.Bus.Numerals
import TpmLink.Proofs.Bus.Trace

/-!
# A window is flat memory

A window moves bytes on several paths: at once or one by one, and eight of them as two halves.
Behind all of them lies one flat row of bytes. A script on the window sees what it would see on that
row, and leaves behind what it would leave there, so accesses of all widths and alignments see each
other's bytes.
-/

namespace TpmLink

/-- Bytes in a row, the first of them at the address `base`. -/
structure Memory where
  base : Nat
  size : Nat
  byteAt : Nat → UInt8

namespace Memory

/-- The access lies wholly inside the memory. -/
def Covers (memory : Memory) (addr : Nat) (width : Width) : Prop :=
  memory.base ≤ addr ∧ addr - memory.base + width.bytes ≤ memory.size

instance (memory : Memory) (addr : Nat) (width : Width) : Decidable (memory.Covers addr width) :=
  inferInstanceAs (Decidable (_ ∧ _))

/-- The number in so many bytes from `offset` on, low byte first. -/
def number (memory : Memory) (offset : Nat) : Nat → Nat
  | 0 => 0
  | count + 1 => (memory.byteAt offset).toNat + 256 * memory.number (offset + 1) count

/-- The memory with the low bytes of a number put in from `offset` on. All other bytes stay. -/
def put (memory : Memory) (offset count value : Nat) : Memory where
  base := memory.base
  size := memory.size
  byteAt index :=
    if offset ≤ index ∧ index < offset + count then UInt8.ofNat (value / 256 ^ (index - offset))
    else memory.byteAt index

/-- Memory that is accessed. An access that it does not cover fails and changes nothing. -/
def port : Device Memory where
  read addr width memory :=
    if memory.Covers addr width then
      (.ok (UInt64.ofNat (memory.number (addr - memory.base) width.bytes)), memory)
    else (.error (.outOfRange addr), memory)
  write addr width value memory :=
    if memory.Covers addr width then
      (.ok (), memory.put (addr - memory.base) width.bytes value.toNat)
    else (.error (.outOfRange addr), memory)
  stall _ memory := memory
  note _ memory := memory

end Memory

namespace Window

/-- A window that is accessed. It stays as it is where a write fails. -/
def port : Device Window where
  read addr width window := (window.read addr width, window)
  write addr width value window :=
    match window.write addr width value with
    | .ok after => (.ok (), after)
    | .error fault => (.error fault, window)
  stall _ window := window
  note _ window := window

/-- The row of bytes behind a window. -/
def memory (window : Window) : Memory where
  base := window.base
  size := window.cells.size
  byteAt index := window.cells.getD index 0

variable {cells : Array UInt8} {offset : Nat}

/-! ### Loads -/

theorem length_loadCells (cells : Array UInt8) (offset count : Nat) :
    (loadCells cells offset count).length = count := by
  induction count generalizing offset with
  | zero => rfl
  | succ count ih => rw [loadCells, List.length_cons, ih]

theorem loadCells_add (cells : Array UInt8) (offset low high : Nat) :
    loadCells cells offset (low + high) =
      loadCells cells offset low ++ loadCells cells (offset + low) high := by
  induction low generalizing offset with
  | zero => simp [loadCells]
  | succ low ih =>
    rw [Nat.add_right_comm, loadCells, ih, loadCells, List.cons_append, Nat.add_assoc offset 1 low,
      Nat.add_comm 1 low]

theorem leValue_loadCells_lt (cells : Array UInt8) (offset count : Nat) :
    leValue (loadCells cells offset count) < 256 ^ count := by
  have hlt := leValue_lt (loadCells cells offset count)
  rwa [length_loadCells] at hlt

/-- Eight bytes that are loaded as two halves come out in order. -/
theorem loadAligned_eq (cells : Array UInt8) (offset : Nat) (width : Width) :
    loadAligned cells offset width = loadNumber cells offset width.bytes := by
  cases width with
  | qword =>
    have hlow := leValue_loadCells_lt cells offset 4
    have hhigh := leValue_loadCells_lt cells (offset + 4) 4
    have hbytes : Width.qword.bytes = 4 + 4 := rfl
    rw [hbytes, loadNumber, loadCells_add, leValue_append, length_loadCells, loadAligned,
      loadNumber, loadNumber]
    exact ofNat_halves hlow hhigh
  | _ => rfl

theorem loadBytewise_eq (cells : Array UInt8) (offset : Nat) (width : Width) :
    loadBytewise cells offset width = loadNumber cells offset width.bytes := by
  have hlength := length_loadCells cells offset width.bytes
  rw [loadBytewise, Width.decode?, if_neg (by omega), List.take_of_length_le (Nat.le_of_eq hlength)]
  rfl

theorem loadNumber_eq (window : Window) (offset count : Nat) :
    loadNumber window.cells offset count = UInt64.ofNat (window.memory.number offset count) := by
  have hvalue : leValue (loadCells window.cells offset count) =
      window.memory.number offset count := by
    induction count generalizing offset with
    | zero => rfl
    | succ count ih => rw [loadCells, leValue, ih, Memory.number, memory]
  rw [loadNumber, hvalue]

/-! ### Stores -/

theorem size_storeCells (bytes : Bytes) :
    (storeCells cells offset bytes).size = cells.size := by
  induction bytes generalizing cells offset with
  | nil => rfl
  | cons byte rest ih => rw [storeCells, ih, Array.size_setIfInBounds]

theorem storeCells_append (low high : Bytes) :
    storeCells cells offset (low ++ high) =
      storeCells (storeCells cells offset low) (offset + low.length) high := by
  induction low generalizing cells offset with
  | nil => rfl
  | cons byte rest ih =>
    rw [List.cons_append, storeCells, ih, storeCells, List.length_cons, Nat.add_assoc offset 1,
      Nat.add_comm 1]

theorem getD_setIfInBounds_self {byte : UInt8} (h : offset < cells.size) :
    (cells.setIfInBounds offset byte).getD offset 0 = byte := by
  rw [Array.getD_eq_getD_getElem?, Array.getElem?_setIfInBounds_self_of_lt h, Option.getD_some]

theorem getD_setIfInBounds_ne {byte : UInt8} {index : Nat} (h : offset ≠ index) :
    (cells.setIfInBounds offset byte).getD index 0 = cells.getD index 0 := by
  rw [Array.getD_eq_getD_getElem?, Array.getElem?_setIfInBounds_ne h,
    ← Array.getD_eq_getD_getElem?]

/-- A store changes the cells that it is for and no other. -/
theorem getD_storeCells {bytes : Bytes} (h : offset + bytes.length ≤ cells.size) (index : Nat) :
    (storeCells cells offset bytes).getD index 0 =
      if offset ≤ index ∧ index < offset + bytes.length then bytes.getD (index - offset) 0
      else cells.getD index 0 := by
  induction bytes generalizing cells offset with
  | nil =>
    have hnone : ¬ (offset ≤ index ∧ index < offset) := by omega
    exact (if_neg hnone).symm
  | cons byte rest ih =>
    rw [List.length_cons] at h ⊢
    have hinside : offset < cells.size := by omega
    rw [storeCells, ih (by rw [Array.size_setIfInBounds]; omega)]
    rcases Nat.lt_trichotomy index offset with hbefore | rfl | hbehind
    · rw [if_neg (by omega), if_neg (by omega), getD_setIfInBounds_ne (by omega)]
    · rw [if_neg (by omega), if_pos (by omega), getD_setIfInBounds_self hinside, Nat.sub_self]
      rfl
    · have hindex : index - offset = index - (offset + 1) + 1 := by omega
      rw [getD_setIfInBounds_ne (by omega), hindex, List.getD_cons_succ]
      exact if_congr (by omega) rfl rfl

theorem storeAligned_eq (cells : Array UInt8) (offset : Nat) (value : UInt64) (width : Width) :
    storeAligned cells offset value width = storeNumber cells offset width.bytes value := by
  cases width with
  | qword =>
    have hbytes : Width.qword.bytes = 4 + 4 := rfl
    have hshift : (value >>> 32).toNat = value.toNat / 256 ^ 4 := by
      rw [UInt64.toNat_shiftRight, Nat.shiftRight_eq_div_pow]
      rfl
    rw [hbytes, storeNumber, leBytes_add, storeCells_append, length_leBytes, storeAligned,
      storeNumber, storeNumber, hshift]
  | _ => rfl

theorem storeBytewise_eq (cells : Array UInt8) (offset : Nat) (value : UInt64) (width : Width) :
    storeBytewise cells offset value width = storeNumber cells offset width.bytes value := by
  have hlength : (List.replicate width.bytes (0 : UInt8)).length = width.bytes :=
    List.length_replicate
  rw [storeBytewise, Width.encode?, if_neg (by omega), Option.getD_some, Width.leBytes_and_mask,
    List.drop_of_length_le (Nat.le_of_eq hlength), List.append_nil, storeNumber]

/-- A store inside the window puts the number into the row behind it. -/
theorem memory_storeNumber (window : Window) {count : Nat} (value : UInt64)
    (h : offset + count ≤ window.cells.size) :
    memory { window with cells := storeNumber window.cells offset count value } =
      window.memory.put offset count value.toNat := by
  have hlength := length_leBytes count value.toNat
  simp only [memory, Memory.put, storeNumber, size_storeCells, Memory.mk.injEq, true_and]
  funext index
  rw [getD_storeCells (by omega), hlength]
  split
  · exact getD_leBytes _ (by omega)
  · rfl

/-! ### Accesses -/

theorem locate_eq (window : Window) (addr : Nat) (width : Width) :
    window.locate addr width =
      if window.memory.Covers addr width then .ok (addr - window.base)
      else .error (.outOfRange addr) := by
  unfold locate
  by_cases hbelow : addr < window.base
  · have hout : ¬ window.memory.Covers addr width := fun hcovers => Nat.not_le.2 hbelow hcovers.1
    rw [if_pos hbelow, if_neg hout]
  · rw [if_neg hbelow]
    exact if_congr ⟨fun hend => ⟨Nat.not_lt.1 hbelow, hend⟩, fun hcovers => hcovers.2⟩ rfl rfl

theorem port_read_eq (window : Window) (addr : Nat) (width : Width) :
    (port.read addr width window).1 = (Memory.port.read addr width window.memory).1 ∧
      (port.read addr width window).2.memory =
        (Memory.port.read addr width window.memory).2 := by
  simp only [port, Memory.port, read, locate_eq, loadAligned_eq, loadBytewise_eq, ite_self,
    loadNumber_eq]
  by_cases hcovers : window.memory.Covers addr width
  · rw [if_pos hcovers, if_pos hcovers]
    exact ⟨rfl, rfl⟩
  · rw [if_neg hcovers, if_neg hcovers]
    exact ⟨rfl, rfl⟩

theorem port_write_eq (window : Window) (addr : Nat) (width : Width) (value : UInt64) :
    (port.write addr width value window).1 =
        (Memory.port.write addr width value window.memory).1 ∧
      (port.write addr width value window).2.memory =
        (Memory.port.write addr width value window.memory).2 := by
  simp only [port, Memory.port, write, locate_eq, storeAligned_eq, storeBytewise_eq, ite_self]
  by_cases hcovers : window.memory.Covers addr width
  · rw [if_pos hcovers, if_pos hcovers]
    exact ⟨rfl, memory_storeNumber window value hcovers.2⟩
  · rw [if_neg hcovers, if_neg hcovers]
    exact ⟨rfl, rfl⟩

end Window

/-- On a window a script runs as on the row of bytes behind it: it gets the same answers, ends the
same and leaves the same bytes. The aligned and the bytewise path do the same to any cells. -/
theorem window_runs_as_memory {α : Type} (window : Window) (script : Script α) :
    (script.trace Window.port window = script.trace Memory.port window.memory ∧
      (script.run Window.port window).1 = (script.run Memory.port window.memory).1 ∧
      (script.run Window.port window).2.memory = (script.run Memory.port window.memory).2) ∧
    ∀ offset width value,
      Window.loadAligned window.cells offset width =
          Window.loadBytewise window.cells offset width ∧
        Window.storeAligned window.cells offset value width =
          Window.storeBytewise window.cells offset value width := by
  refine ⟨?_, fun offset width value => ⟨?_, ?_⟩⟩
  -- Behind each access lies the row that the access leaves, so both runs go on in step.
  · induction script generalizing window with
    | done result => exact ⟨rfl, rfl, rfl⟩
    | read addr width next ih =>
      obtain ⟨hanswer, hafter⟩ := Window.port_read_eq window addr width
      obtain ⟨htrace, hresult, hmemory⟩ :=
        ih (Window.port.read addr width window).1 (Window.port.read addr width window).2
      rw [hanswer, hafter] at htrace hresult hmemory
      simp only [Script.trace, Script.run, hanswer]
      exact ⟨congrArg _ htrace, hresult, hmemory⟩
    | write addr width value next ih =>
      obtain ⟨hanswer, hafter⟩ := Window.port_write_eq window addr width value
      obtain ⟨htrace, hresult, hmemory⟩ :=
        ih (Window.port.write addr width value window).1
          (Window.port.write addr width value window).2
      rw [hanswer, hafter] at htrace hresult hmemory
      simp only [Script.trace, Script.run, hanswer]
      exact ⟨congrArg _ htrace, hresult, hmemory⟩
    | stall micros next ih =>
      obtain ⟨htrace, hrun⟩ := ih window
      exact ⟨congrArg _ htrace, hrun⟩
    | note notice next ih => exact ih window
  · rw [Window.loadAligned_eq, Window.loadBytewise_eq]
  · rw [Window.storeAligned_eq, Window.storeBytewise_eq]

end TpmLink
