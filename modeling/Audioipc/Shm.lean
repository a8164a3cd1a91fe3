import Audioipc.Basic

/-!
# Shared memory

`shm.rs`: an area of memory that two processes see, each through a view with
its own idea of the size. The memory goes on behind the end of a view, as in
the code: that nobody gets there is what the checks of a view are for.
-/

namespace Audioipc

/-- The bytes behind the pointer of a view. -/
abbrev Memory := Nat → UInt8

namespace Memory

def read (m : Memory) (n : Nat) : Bytes := (List.range n).map m

def write (m : Memory) (bs : Bytes) : Memory := fun i => bs[i]?.getD (m i)

@[simp] theorem length_read (m : Memory) (n : Nat) : (m.read n).length = n := by
  simp [read]

theorem getElem?_read {m : Memory} {n i : Nat} (h : i < n) : (m.read n)[i]? = some (m i) := by
  simp [read, h]

theorem write_of_lt {m : Memory} {bs : Bytes} {i : Nat} (h : i < bs.length) :
    (m.write bs) i = bs[i] := by
  simp [write, h]

/-- What was written is what is read. -/
@[simp] theorem read_write (m : Memory) (bs : Bytes) : (m.write bs).read bs.length = bs := by
  refine List.ext_getElem (length_read ..) fun i _ hi => ?_
  simp [read, write_of_lt hi]

end Memory

/-- Why a data callback can panic: the `unwrap` of a slice that is longer than
the view, `copy_from_slice` between different lengths, a slice index past the
end, and the assertions that there is input and room for it. -/
inductive ShmPanic where
  | slice
  | copyLength
  | index
  | emptyInput
  | duplexCapacity
deriving Repr, DecidableEq

/-- `SharedMem`, of which only the size is a value here. -/
structure SharedMem where
  size : UInt64
deriving Repr, DecidableEq

namespace SharedMem

/-- `get_slice(size).unwrap()`. -/
def getSlice (view : SharedMem) (m : Memory) (size : Nat) : Except ShmPanic Bytes :=
  if size ≤ view.size.toNat then return m.read size else throw .slice

/-- `get_mut_slice(size).unwrap().copy_from_slice(src)`. -/
def copyIn (view : SharedMem) (m : Memory) (size : Nat) (src : Bytes) : Except ShmPanic Memory :=
  if size ≤ view.size.toNat then
    if src.length = size then return m.write src else throw .copyLength
  else throw .slice

variable {view : SharedMem} {m : Memory}

theorem getSlice_ok {n : Nat} (h : n ≤ view.size.toNat) : view.getSlice m n = .ok (m.read n) :=
  if_pos h

theorem copyIn_ok {src : Bytes} (h : src.length ≤ view.size.toNat) :
    view.copyIn m src.length src = .ok (m.write src) := by
  simp [copyIn, h, pure, Except.pure]

end SharedMem

/-- `dst[..n].copy_from_slice(src)`. -/
def copyPrefix (dst : Bytes) (n : Nat) (src : Bytes) : Except ShmPanic Bytes :=
  if n ≤ dst.length then
    if src.length = n then return src ++ dst.drop n else throw .copyLength
  else throw .index

theorem copyPrefix_ok {dst src : Bytes} (h : src.length ≤ dst.length) :
    copyPrefix dst src.length src = .ok (src ++ dst.drop src.length) := by
  simp [copyPrefix, h, pure, Except.pure]

end Audioipc
