import Mathlib.Data.List.Basic
import Mathlib.Tactic.Common

/-!
# Replacing a file

A file is written anew beside the old one, which it then takes the place of. Wherever the writing
is stopped, the file is the old one or all of the new one (`file_overwrite`), and what a stopped
writing leaves beside it is cut away by the next one.
-/

namespace Chatbit.Lib

variable {α : Type}

/-- What a file holds, and whether it is readable by its owner alone. -/
structure FileCopy (α : Type) where
  data : List α
  ownerOnly : Bool
deriving DecidableEq

/-- The file at a path and the one at the temporary path beside it, if they exist. -/
structure FilePair (α : Type) where
  file : Option (FileCopy α)
  temporary : Option (FileCopy α)
deriving DecidableEq

/-- What is done to the two files. -/
inductive FileOp (α : Type) where
  /-- `open(tmp, "w")` -/
  | create
  | write (a : α)
  /-- `os.chmod(tmp, 0o600)` -/
  | chmod
  /-- `os.replace(tmp, path)` -/
  | replace

namespace FilePair

def apply (files : FilePair α) : FileOp α → FilePair α
  -- a file that exists is cut to nothing and keeps its mode
  | .create => { files with temporary := some ⟨[], files.temporary.any FileCopy.ownerOnly⟩ }
  | .write a => { files with
      temporary := files.temporary.map fun copy => { copy with data := copy.data ++ [a] } }
  | .chmod => { files with
      temporary := files.temporary.map fun copy => { copy with ownerOnly := true } }
  | .replace => ⟨files.temporary, none⟩

end FilePair

/-- The steps of writing a file anew, up to the one that puts it in its place. -/
def prepareOps (data : List α) : List (FileOp α) := .create :: (data.map .write ++ [.chmod])

/-- All the steps. -/
def overwriteOps (data : List α) : List (FileOp α) := prepareOps data ++ [.replace]

/-- Whether a writing that is stopped after so many steps, or not at all, is over by then. -/
def completes (data : List α) (stop : Option ℕ) : Bool :=
  stop.all fun steps => (overwriteOps data).length ≤ steps

namespace FilePair

/-- A writing that is stopped after so many steps, or not at all. -/
def overwrite (data : List α) (stop : Option ℕ) (files : FilePair α) : FilePair α :=
  match stop with
  | none => (overwriteOps data).foldl apply files
  | some steps => ((overwriteOps data).take steps).foldl apply files

variable {files : FilePair α} {data : List α} {stop : Option ℕ}

/-- Only the last step touches the file. -/
lemma file_foldl {ops : List (FileOp α)} (h : FileOp.replace ∉ ops) (files : FilePair α) :
    (ops.foldl apply files).file = files.file := by
  induction ops generalizing files with
  | nil => rfl
  | cons op ops ih =>
    obtain ⟨hop, hops⟩ := List.ne_and_not_mem_of_not_mem_cons h
    rw [List.foldl_cons, ih hops]
    cases op with
    | replace => exact absurd rfl hop
    | create | write _ | chmod => rfl

lemma replace_not_mem_prepareOps (data : List α) : FileOp.replace ∉ prepareOps data := by
  simp [prepareOps]

lemma foldl_write {copy : FileCopy α} (data : List α) (h : files.temporary = some copy) :
    ((data.map .write).foldl apply files).temporary =
      some { copy with data := copy.data ++ data } := by
  induction data generalizing files copy with
  | nil => simpa using h
  | cons a data ih =>
    have hwrite : (files.apply (.write a)).temporary =
        some { copy with data := copy.data ++ [a] } := by
      show files.temporary.map _ = _
      rw [h]
      rfl
    rw [List.map_cons, List.foldl_cons, ih hwrite]
    simp

/-- The new file is whole before it is put in its place. -/
lemma temporary_prepareOps (data : List α) (files : FilePair α) :
    ((prepareOps data).foldl apply files).temporary = some ⟨data, true⟩ := by
  have hcreate : (files.apply .create).temporary =
      some ⟨[], files.temporary.any FileCopy.ownerOnly⟩ := rfl
  have hwrite := foldl_write data hcreate
  rw [prepareOps, List.foldl_cons, List.foldl_append]
  show Option.map _ _ = _
  rw [hwrite]
  rfl

/-- The file is the old one, or all of the new one with the mode it is given. -/
theorem file_overwrite (data : List α) (stop : Option ℕ) (files : FilePair α) :
    (files.overwrite data stop).file =
      if completes data stop then some ⟨data, true⟩ else files.file := by
  have hall : ((overwriteOps data).foldl apply files).file = some ⟨data, true⟩ := by
    rw [overwriteOps, List.foldl_append]
    exact temporary_prepareOps data files
  cases stop with
  | none => exact hall
  | some steps =>
    show (((overwriteOps data).take steps).foldl apply files).file =
      if decide ((overwriteOps data).length ≤ steps) then _ else _
    by_cases hsteps : (overwriteOps data).length ≤ steps
    · rw [List.take_of_length_le hsteps, decide_eq_true hsteps, if_pos rfl, hall]
    · -- the last step is not reached
      have hprepare : (overwriteOps data).take steps = (prepareOps data).take steps := by
        rw [overwriteOps, List.length_append, List.length_singleton] at hsteps
        exact List.take_append_of_le_length (by omega)
      rw [hprepare, decide_eq_false hsteps, if_neg Bool.false_ne_true]
      exact file_foldl (fun h => replace_not_mem_prepareOps data (List.mem_of_mem_take h)) files

end FilePair

end Chatbit.Lib
