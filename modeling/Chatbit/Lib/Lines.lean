import Mathlib.Data.List.Basic

/-!
# Lines

A stream that comes in pieces, cut at a delimiter. The lines that are complete do not depend on the
pieces: what is left of one piece goes before the next.
-/

namespace Chatbit.Lib

variable {α : Type} [DecidableEq α] (d : α)

/-- What comes before the first delimiter, and what comes after it. -/
def cutLine : List α → Option (List α × List α)
  | [] => none
  | a :: s => if a = d then some ([], s) else (cutLine s).map fun (line, rest) => (a :: line, rest)

/-- The complete lines, without their delimiters, and what is left. -/
def splitLines : List α → List (List α) × List α
  | [] => ([], [])
  | a :: s =>
    let (lines, tail) := splitLines s
    if a = d then ([] :: lines, tail)
    else match lines with
      | [] => ([], a :: tail)
      | line :: lines => ((a :: line) :: lines, tail)

/-- The stream of these lines. -/
def joinLines (lines : List (List α)) : List α := lines.flatMap fun line => line ++ [d]

variable {d} {s line rest tail : List α} {lines : List (List α)}

omit [DecidableEq α] in
@[simp] lemma joinLines_nil : joinLines d ([] : List (List α)) = [] := rfl

omit [DecidableEq α] in
@[simp] lemma joinLines_cons : joinLines d (line :: lines) = line ++ d :: joinLines d lines := by
  simp [joinLines]

lemma cutLine_append (h : d ∉ line) (rest : List α) :
    cutLine d (line ++ d :: rest) = some (line, rest) := by
  induction line with
  | nil => simp [cutLine]
  | cons a line ih =>
    obtain ⟨hne, hline⟩ := List.ne_and_not_mem_of_not_mem_cons h
    rw [List.cons_append, cutLine, if_neg (Ne.symm hne), ih hline]
    rfl

lemma cutLine_eq_none (h : d ∉ s) : cutLine d s = none := by
  induction s with
  | nil => rfl
  | cons a s ih =>
    obtain ⟨hne, hs⟩ := List.ne_and_not_mem_of_not_mem_cons h
    rw [cutLine, if_neg (Ne.symm hne), ih hs]
    rfl

/-- A stream has a first line, or no delimiter. -/
lemma mem_or_exists_line (d : α) (s : List α) :
    d ∉ s ∨ ∃ line rest, s = line ++ d :: rest ∧ d ∉ line := by
  by_cases h : d ∈ s
  · obtain ⟨line, rest, hs, hline⟩ := List.eq_append_cons_of_mem h
    exact Or.inr ⟨line, rest, hs, hline⟩
  · exact Or.inl h

lemma length_of_cutLine (h : cutLine d s = some (line, rest)) : rest.length < s.length := by
  rcases mem_or_exists_line d s with hs | ⟨line', rest', rfl, hline⟩
  · rw [cutLine_eq_none hs] at h
    cases h
  · rw [cutLine_append hline] at h
    obtain ⟨rfl, rfl⟩ := Prod.mk.inj (Option.some.inj h)
    rw [List.length_append, List.length_cons]
    omega

lemma splitLines_eq_nil (h : d ∉ s) : splitLines d s = ([], s) := by
  induction s with
  | nil => rfl
  | cons a s ih =>
    obtain ⟨hne, hs⟩ := List.ne_and_not_mem_of_not_mem_cons h
    rw [splitLines, ih hs]
    exact if_neg (Ne.symm hne)

lemma splitLines_append_cons (h : d ∉ line) (rest : List α) :
    splitLines d (line ++ d :: rest) =
      (line :: (splitLines d rest).1, (splitLines d rest).2) := by
  induction line with
  | nil => simp [splitLines]
  | cons a line ih =>
    obtain ⟨hne, hline⟩ := List.ne_and_not_mem_of_not_mem_cons h
    rw [List.cons_append, splitLines, ih hline]
    exact if_neg (Ne.symm hne)

/-- Lines that are complete stay as they are. -/
lemma splitLines_joinLines_append (h : ∀ line ∈ lines, d ∉ line) (s : List α) :
    splitLines d (joinLines d lines ++ s) =
      (lines ++ (splitLines d s).1, (splitLines d s).2) := by
  induction lines with
  | nil => rfl
  | cons line lines ih =>
    obtain ⟨hline, hlines⟩ := List.forall_mem_cons.mp h
    rw [joinLines_cons, List.append_assoc, List.cons_append, splitLines_append_cons hline,
      ih hlines, List.cons_append]

lemma splitLines_joinLines (h : ∀ line ∈ lines, d ∉ line) (htail : d ∉ tail) :
    splitLines d (joinLines d lines ++ tail) = (lines, tail) := by
  rw [splitLines_joinLines_append h, splitLines_eq_nil htail, List.append_nil]

/-- Every stream consists of its lines and of what is left. -/
lemma exists_joinLines (d : α) (s : List α) :
    ∃ lines tail, s = joinLines d lines ++ tail ∧ (∀ line ∈ lines, d ∉ line) ∧ d ∉ tail := by
  -- by the length of the stream, which each line makes shorter
  induction hn : s.length using Nat.strongRecOn generalizing s with
  | ind n ih =>
    rcases mem_or_exists_line d s with hs | ⟨line, rest, rfl, hline⟩
    · exact ⟨[], s, rfl, fun _ h => absurd h List.not_mem_nil, hs⟩
    · have hlt : rest.length < n := by
        rw [← hn, List.length_append, List.length_cons]
        omega
      obtain ⟨lines, tail, rfl, hlines, htail⟩ := ih _ hlt rest rfl
      refine ⟨line :: lines, tail, ?_, List.forall_mem_cons.mpr ⟨hline, hlines⟩, htail⟩
      rw [joinLines_cons, List.append_assoc, List.cons_append]

/-- The lines of a stream that comes in two pieces. -/
theorem splitLines_append (d : α) (s t : List α) :
    splitLines d (s ++ t) =
      ((splitLines d s).1 ++ (splitLines d ((splitLines d s).2 ++ t)).1,
        (splitLines d ((splitLines d s).2 ++ t)).2) := by
  obtain ⟨lines, tail, rfl, hlines, htail⟩ := exists_joinLines d s
  rw [splitLines_joinLines hlines htail, List.append_assoc, splitLines_joinLines_append hlines]

end Chatbit.Lib
