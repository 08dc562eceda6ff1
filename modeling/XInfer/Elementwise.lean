import XInfer.AttentionKernels

/-!
`ops/elementwise.cpp`. Each operation takes vectors of 4 `float` or of 8 `half` elements where they come out even,
and else single elements; an item reads and stores at its own indices, so the buffers may be one.
-/

namespace XInfer.Elementwise

open AttentionKernels Launches
open DeviceExp (exp)

variable {F : Type}

def elementwise (width numElements : Nat) (value : Nat → F) (out : Nat → F) : Nat → F :=
  if numElements = 0 then out
  else if numElements % width = 0 then
    launch (numElements / width) (fun i => (List.range width).map fun k => (i * width + k, value (i * width + k))) out
  else launch numElements (fun i => [(i, value i)]) out

/-- Which of the two paths is taken does not show. -/
theorem elementwise_eq {width : Nat} (filled : 0 < width) (numElements : Nat) (value out : Nat → F) :
    elementwise width numElements value out = fun i => if i < numElements then value i else out i := by
  funext i
  unfold elementwise
  by_cases empty : numElements = 0
  · rw [if_pos empty, if_neg (by omega)]
  rw [if_neg empty]
  by_cases even : numElements % width = 0
  · -- the vectors end with the last element
    have whole : numElements / width * width = numElements := Nat.div_mul_cancel (Nat.dvd_of_mod_eq_zero even)
    rw [if_pos even]
    by_cases inside : i < numElements
    · have vector : i / width < numElements / width := Nat.div_lt_of_lt_mul (by rwa [Nat.mul_comm, whole])
      have place := vector_here (fun item k => value (item * width + k)) (fun _ _ => rfl) vector
        (Nat.mod_lt i filled) out
      rw [Nat.div_add_mod'] at place
      rw [if_pos inside, place]
    · rw [if_neg inside, launch_other]
      intro item vector store member
      obtain ⟨k, within, rfl⟩ := List.mem_map.1 member
      have before := flat_lt vector (List.mem_range.1 within)
      dsimp only
      omega
  · rw [if_neg even]
    by_cases inside : i < numElements
    · rw [if_pos inside, each_here inside]
    · rw [if_neg inside, launch_other]
      intro item before store member
      cases List.mem_singleton.1 member
      dsimp only
      omega

/-- The elements of a vector of `float`, and of one of `half`. -/
def FLOAT_VEC : Nat := 4
def HALF_VEC : Nat := 8

variable [DeviceMath F] (width : Nat) (cast : F → F) (numElements : Nat)

def silu (out input : Nat → F) : Nat → F :=
  elementwise width numElements (fun i => cast (input i / (1 + exp (-input i)))) out

def swiglu (out gate up : Nat → F) : Nat → F :=
  elementwise width numElements (fun i => cast (gate i / (1 + exp (-gate i)) * up i)) out

def add (out a b : Nat → F) : Nat → F := elementwise width numElements (fun i => cast (a i + b i)) out

def addInplace (a b : Nat → F) : Nat → F := elementwise width numElements (fun i => cast (a i + b i)) a

def mul (out a b : Nat → F) : Nat → F := elementwise width numElements (fun i => cast (a i * b i)) out

end XInfer.Elementwise
