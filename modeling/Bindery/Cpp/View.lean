/-
# Array views

An array view is a class template instance `Kokkos::View<data, ...>` whose arguments fix an
element type, a rank from 1 to 7, a layout, a memory space and a memory trait.

Writing (`View.spelling`) is canonical: the data type comes first, a layout and a trait are left
out when they are the default, the memory space is always there. Reading (`View.parse`) takes any
order of the arguments after the first, the aliases under which compilers report spaces and
traits, and `Kokkos::Device<E,M>` for the space `M`, nested to any depth.
-/

import Bindery.Cpp.Spelling
import Bindery.Cpp.Scalar
import Bindery.Text.Digits

namespace Bindery

/-- Why a value or a name has no place in a call. -/
inductive TypeError where
  /-- A type object stands for a class and holds no value. -/
  | typeObject (name : String)
  /-- There is no value of type `void`. -/
  | void
  /-- Views have between one and seven dimensions. -/
  | rank (n : Nat)
  /-- The name is not that of an array view. -/
  | notView (name : String)
  /-- Text is passed up to its first NUL, so it must hold none. -/
  | interiorNul
  deriving DecidableEq

/-- The wording of a type error. -/
def TypeError.message : TypeError → String
  | typeObject name => "type object `" ++ name ++ "` cannot be passed as a call argument"
  | void => "`void` cannot be passed as a call argument"
  | rank n => "View rank " ++ Text.natText n ++ " is not allowed"
  | notView name => "unrecognized view type `" ++ name ++ "`"
  | interiorNul => "text argument contains an interior NUL byte"

/-- The order in which the elements of a view lie in memory. -/
inductive Layout where
  | default | left | right
  deriving DecidableEq

/-- Where the elements of a view lie. -/
inductive Space where
  | default | host
  /-- Host memory paired with the OpenMP execution space. -/
  | hostDevice
  | cuda | cudaUvm | hip
  deriving DecidableEq

/-- How the elements of a view may be accessed. -/
inductive Trait where
  | default | unmanaged | randomAccess | atomic | restrict
  deriving DecidableEq

namespace Layout

/-- The argument that is written; the default layout is not. -/
def cppName? : Layout → Option String
  | default => none
  | left => some "Kokkos::LayoutLeft"
  | right => some "Kokkos::LayoutRight"

/-- The layout named by an argument. -/
def ofArgument? (arg : List Char) : Option Layout :=
  match String.ofList arg with
  | "Kokkos::LayoutLeft" => some left
  | "Kokkos::LayoutRight" => some right
  | _ => none

end Layout

namespace Space

open Text Spelling

/-- The argument that is written. -/
def cppName : Space → String
  | default => "Kokkos::DefaultExecutionSpace::memory_space"
  | host => "Kokkos::HostSpace"
  | hostDevice => "Kokkos::Device<Kokkos::OpenMP,Kokkos::HostSpace>"
  | cuda => "Kokkos::CudaSpace"
  | cudaUvm => "Kokkos::CudaUVMSpace"
  | hip => "Kokkos::HIPSpace"

/-- The space known under a fixed name. -/
def named? (arg : List Char) : Option Space :=
  match String.ofList arg with
  | "Kokkos::DefaultExecutionSpace::memory_space" => some default
  | "Kokkos::Device<Kokkos::OpenMP,Kokkos::HostSpace>" => some hostDevice
  | "Kokkos::HostSpace" | "Kokkos::OpenMP" | "Kokkos::Serial" | "Kokkos::Threads" => some host
  | "Kokkos::CudaSpace" | "Kokkos::Cuda" => some cuda
  | "Kokkos::CudaUVMSpace" => some cudaUvm
  | "Kokkos::HIPSpace" | "Kokkos::HIP" => some hip
  | _ => none

/-- What stands between a `start` and an `end`. -/
def between? (start stop arg : List Char) : Option (List Char) :=
  (afterStart? start arg).bind (beforeEnd? stop)

/-- The memory space `M` of a device `Kokkos::Device<E,M>`. -/
def deviceMemory? (arg : List Char) : Option (List Char) :=
  match between? "Kokkos::Device<".toList ['>'] arg with
  | none => none
  | some inner =>
    match arguments inner with
    | [_, memory] => some memory
    | _ => none

theorem length_lt_of_deviceMemory? {arg memory : List Char} (h : deviceMemory? arg = some memory) :
    memory.length < arg.length := by
  unfold deviceMemory? at h
  split at h
  · cases h
  · rename_i inner hi
    unfold between? at hi
    obtain ⟨rest, hr, hb⟩ := Option.bind_eq_some_iff.1 hi
    have h1 : rest.length < arg.length := by
      unfold afterStart? at hr
      split at hr
      · rename_i hp
        cases hr
        have hp := List.isPrefixOf_iff_prefix.1 hp
        have hl := hp.length_le
        have h0 : "Kokkos::Device<".toList.length = 15 := by decide
        rw [h0] at hl
        simp only [List.length_drop, h0]
        omega
      · cases hr
    have h2 : inner.length ≤ rest.length := by
      unfold beforeEnd? at hb
      split at hb
      · cases hb
        simp only [List.length_take]
        omega
      · cases hb
    split at h
    · rename_i a b hm
      cases h
      have : memory.length ≤ inner.length := length_le_of_mem_arguments (by simp [hm])
      omega
    · cases h

/-- The space named by an argument; a device stands for its memory space. -/
def ofArgument? (arg : List Char) : Option Space :=
  match named? arg with
  | some space => some space
  | none =>
    match _h : deviceMemory? arg with
    | some memory => ofArgument? memory
    | none => none
termination_by arg.length
decreasing_by exact length_lt_of_deviceMemory? _h

end Space

namespace Trait

open Text

/-- The argument that is written; the default trait is not. -/
def cppName? : Trait → Option String
  | default => none
  | unmanaged => some "Kokkos::MemoryTraits<Kokkos::Unmanaged>"
  | randomAccess => some "Kokkos::MemoryTraits<Kokkos::RandomAccess>"
  | atomic => some "Kokkos::MemoryTraits<Kokkos::Atomic>"
  | restrict => some "Kokkos::MemoryTraits<Kokkos::Restrict>"

/-- The trait named by an argument. Compilers also report a trait as the number of its flag, with
any number of `u` or `U` behind it. -/
def ofArgument? (arg : List Char) : Option Trait :=
  match Space.between? "Kokkos::MemoryTraits<".toList ['>'] arg with
  | none => none
  | some inner =>
    let inner := (afterStart? "Kokkos::".toList inner).getD inner
    let flag := dropEndWhile (fun c => c == 'u' || c == 'U') inner
    let name := String.ofList inner
    if flag = ['0'] then some default
    else if name = "Unmanaged" ∨ flag = ['1'] then some unmanaged
    else if name = "RandomAccess" ∨ flag = ['2'] then some randomAccess
    else if name = "Atomic" ∨ flag = ['4'] then some atomic
    else if name = "Restrict" ∨ flag = ['8'] then some restrict
    else none

end Trait

/-- The configuration of an array view. -/
structure View where
  scalar : Scalar
  rank : Nat
  isConst : Bool := false
  layout : Layout := .default
  space : Space := .default
  trait : Trait := .default
  deriving DecidableEq

namespace View

open Text Spelling

/-- The greatest rank. -/
def maxRank : Nat := 7

/-- The first argument: the element type, `const` and one `*` for each dimension. -/
def dataName (v : View) : String :=
  v.scalar.cppName ++ (if v.isConst then " const" else "") ++
    String.ofList (List.replicate v.rank '*')

/-- The canonical spelling of a view type. -/
def spelling (v : View) : Except TypeError String :=
  if 1 ≤ v.rank ∧ v.rank ≤ maxRank then
    let args := [v.dataName] ++ v.layout.cppName?.toList ++ [v.space.cppName] ++
      v.trait.cppName?.toList
    .ok ("Kokkos::View<" ++ ",".intercalate args ++ ">")
  else .error (.rank v.rank)

/-- Applies one argument after the first: a layout, a space or a trait. -/
def withArgument? (v : View) (arg : List Char) : Option View :=
  match Layout.ofArgument? arg with
  | some layout => some { v with layout }
  | none =>
    match Space.ofArgument? arg with
    | some space => some { v with space }
    | none =>
      match Trait.ofArgument? arg with
      | some trait => some { v with trait }
      | none => none

/-- Reads the element type and `const` out of the first argument without its stars. -/
def ofData? (rank : Nat) (base : List Char) : Option View :=
  let words := words base
  let kept := words.filter (· ≠ "const".toList)
  (Scalar.ofSpelling? (" ".intercalate (kept.map String.ofList))).map fun scalar =>
    { scalar, rank, isConst := words.contains "const".toList }

/-- Reads a view type in any spelling. -/
def parse (name : String) : Except TypeError View :=
  match Space.between? "Kokkos::View<".toList ['>'] (normalize name).toList with
  | none => .error (.notView name)
  | some inner =>
    match arguments inner with
    | [] => .error (.notView name)
    | data :: rest =>
      let base := dropEndWhile (· == '*') data
      let rank := data.length - base.length
      if 1 ≤ rank ∧ rank ≤ maxRank then
        match (ofData? rank base).bind fun v => rest.foldlM withArgument? v with
        | some v => .ok v
        | none => .error (.notView name)
      else .error (.rank rank)

end View
end Bindery
