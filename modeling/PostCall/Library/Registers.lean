import Mathlib.Data.List.Nodup
import Mathlib.Logic.Function.Basic
import Mathlib.Tactic.Common

/-!
# Registers

A bank of registers holds a value for each label, and each register keeps what was last written to it.
Writes with distinct labels may come in any order: a register has the value that was written to it, or
is as it was.
-/

namespace PostCall.Library

universe u v

variable {κ : Type u} {ν : Type v} [DecidableEq κ] {registers : κ → ν} {writes : List (κ × ν)}
  {label : κ} {value : ν}

/-- Write to registers, one after the other. -/
def writeAll (registers : κ → ν) (writes : List (κ × ν)) : κ → ν :=
  writes.foldl (fun r w => Function.update r w.1 w.2) registers

/-- A register that nothing is written to is left alone. -/
lemma writeAll_of_not_mem (out : label ∉ writes.map Prod.fst) :
    writeAll registers writes label = registers label := by
  induction writes generalizing registers with
  | nil => rfl
  | cons w writes ih =>
    simp only [List.map_cons, List.mem_cons, not_or] at out
    exact (ih out.2).trans (Function.update_of_ne out.1 _ _)

/-- A register that is written to once has what was written. -/
lemma writeAll_of_mem (nodup : (writes.map Prod.fst).Nodup) (mem : (label, value) ∈ writes) :
    writeAll registers writes label = value := by
  induction writes generalizing registers with
  | nil => cases mem
  | cons w writes ih =>
    simp only [List.map_cons, List.nodup_cons] at nodup
    rcases List.mem_cons.1 mem with rfl | mem
    · exact (writeAll_of_not_mem nodup.1).trans (Function.update_self _ _ _)
    · exact ih nodup.2 mem

end PostCall.Library
