import Chatbit.Lib.BoundedLog
import Chatbit.Mesh.Router

/-!
# What the dedup cache remembers

A call of `seen` returns whether the frame is among the newest `capacity` that were new, and was new
at most `ttl` seconds ago: the cache is the live part of the log of its insertions (`Run.live`), and
so its answers depend on the history of the calls alone (`seen_iff`).
-/

namespace Chatbit

open Lib

namespace DedupCache

variable {β : Type} [Alphabet β] [DecidableEq β] {capacity : ℕ} {ttl now : ℚ} {cache cache' : DedupCache β}
  {key : Bytes β × ℕ}

/-- A call of `seen` that has returned. -/
structure Lookup (β : Type) where
  key : Bytes β × ℕ
  now : ℚ
  found : Bool

/-- The calls on a new cache, in the order of time, and what they leave. -/
inductive Run (capacity : ℕ) (ttl : ℚ) : List (Lookup β) → DedupCache β → Prop
  | start : Run capacity ttl [] { capacity, ttl }
  | call {log : List (Lookup β)} {cache cache' : DedupCache β} {key : Bytes β × ℕ} {now : ℚ}
      {found : Bool} (run : Run capacity ttl log cache) (hnow : ∀ l ∈ log, l.now ≤ now)
      (hcall : checkSeen key now cache = (.ok found, cache')) :
      Run capacity ttl (log ++ [⟨key, now, found⟩]) cache'

/-- The frame was new in one of the calls, at most `ttl` seconds before `now`, and fewer than
`capacity` others were new after that. -/
def Remembered (capacity : ℕ) (ttl : ℚ) (log : List (Lookup β)) (key : Bytes β × ℕ) (now : ℚ) :
    Prop :=
  ∃ earlier insertion later, log = earlier ++ insertion :: later ∧ insertion.key = key ∧
    insertion.found = false ∧ now - ttl ≤ insertion.now ∧
    (later.filter fun l => ! l.found).length < capacity

/-! ## The log of insertions -/

/-- What a call inserts. -/
def Lookup.entry (l : Lookup β) : Option ((Bytes β × ℕ) × ℚ) :=
  if l.found then none else some (l.key, l.now)

def insertions (log : List (Lookup β)) : List ((Bytes β × ℕ) × ℚ) := log.filterMap Lookup.entry

/-- `timestamp < now - ttl` -/
def outdated (ttl now : ℚ) (entry : (Bytes β × ℕ) × ℚ) : Bool := decide (entry.2 < now - ttl)

variable {log : List (Lookup β)}

omit [Alphabet β] [DecidableEq β] in
lemma length_insertions (log : List (Lookup β)) :
    (insertions log).length = (log.filter fun l => ! l.found).length := by
  induction log with
  | nil => rfl
  | cons l log ih =>
    unfold insertions at ih ⊢
    rcases hfound : l.found
    · rw [List.filterMap_cons_some (b := (l.key, l.now)) (by simp [Lookup.entry, hfound]),
        List.filter_cons_of_pos (by simp [hfound]), List.length_cons, List.length_cons, ih]
    · rw [List.filterMap_cons_none (by simp [Lookup.entry, hfound]),
        List.filter_cons_of_neg (by simp [hfound]), ih]

omit [Alphabet β] [DecidableEq β] in
lemma remembered_iff : Remembered capacity ttl log key now ↔
    ∃ entry ∈ live capacity (outdated ttl now) (insertions log), entry.1 = key := by
  constructor
  · rintro ⟨earlier, l, later, rfl, rfl, hfound, hage, hlater⟩
    refine ⟨(l.key, l.now), mem_live_iff.mpr ⟨by simpa [outdated] using hage, insertions earlier,
      insertions later, ?_, ?_⟩, rfl⟩
    · rw [insertions, List.filterMap_append, List.filterMap_cons_some (b := (l.key, l.now))
        (by simp [Lookup.entry, hfound])]
      rfl
    · rwa [length_insertions]
  · rintro ⟨entry, hentry, rfl⟩
    obtain ⟨hage, earlier, later, hsplit, hlater⟩ := mem_live_iff.mp hentry
    obtain ⟨before, rest, rfl, -, hrest⟩ := List.filterMap_eq_append_iff.mp hsplit
    obtain ⟨skipped, l, after, rfl, -, hl, rfl⟩ := List.filterMap_eq_cons_iff.mp hrest
    rcases hfound : l.found
    · obtain rfl : (l.key, l.now) = entry := by simpa [Lookup.entry, hfound] using hl
      refine ⟨before ++ skipped, l, after, by simp, rfl, hfound, ?_, ?_⟩
      · simpa [outdated] using hage
      · rwa [← length_insertions]
    · simp [Lookup.entry, hfound] at hl

/-! ## Runs -/

omit [Alphabet β] in
lemma Run.sorted (run : Run capacity ttl log cache) :
    (insertions log).Pairwise fun e e' => e.2 ≤ e'.2 := by
  induction run with
  | start => exact .nil
  | @call log cache cache' key now found run hnow hcall ih =>
    rw [insertions, List.filterMap_append, List.pairwise_append]
    refine ⟨ih, ?_, ?_⟩
    · cases found
      · exact List.pairwise_singleton _ _
      · exact .nil
    · intro e he e' he'
      obtain ⟨l, hl, hentry⟩ := List.mem_filterMap.mp he
      obtain ⟨l', hl', hentry'⟩ := List.mem_filterMap.mp he'
      obtain rfl := List.mem_singleton.mp hl'
      have hle := hnow l hl
      unfold Lookup.entry at hentry hentry'
      split_ifs at hentry hentry'
      obtain rfl := Option.some.inj hentry
      obtain rfl := Option.some.inj hentry'
      exact hle

omit [Alphabet β] in
lemma Run.expires (run : Run capacity ttl log cache) (now : ℚ) :
    Expires (outdated ttl now) (insertions log) := by
  refine run.sorted.imp ?_
  intro e e' hle hold
  simp only [outdated, decide_eq_true_eq] at hold ⊢
  exact hle.trans_lt hold

omit [Alphabet β] in
lemma Run.settings (run : Run capacity ttl log cache) :
    cache.capacity = capacity ∧ cache.ttl = ttl := by
  induction run with
  | start => exact ⟨rfl, rfl⟩
  | @call log cache cache' key now found run hnow hcall ih =>
    by_cases h : key ∈ (cache.expire now).seen.keys
    · rw [checkSeen_of_mem h] at hcall
      obtain ⟨-, rfl⟩ := Prod.mk.inj hcall
      exact ih
    · rw [checkSeen_of_not_mem h] at hcall
      obtain ⟨-, rfl⟩ := Prod.mk.inj hcall
      exact ih

omit [Alphabet β] in
/-- What the cache has once it has expired its entries is what is live of the log. -/
lemma Run.live (httl : 0 ≤ ttl) (run : Run capacity ttl log cache)
    (hnow : ∀ l ∈ log, l.now ≤ now) :
    (cache.expire now).seen.entries = Lib.live capacity (outdated ttl now) (insertions log) := by
  induction run generalizing now with
  | start => simp [expire, OrderedDict.dropWhile, OrderedDict.empty, insertions, Lib.live]
  | @call log cache cache' key before found run hbefore hcall ih =>
    have hle : before ≤ now := hnow _ (List.mem_append_right _ List.mem_cons_self)
    have hexpires := (run.call hbefore hcall).expires now
    obtain ⟨hcapacity, hsettings⟩ := run.settings
    -- the later cutoff takes what the earlier one took
    have holder : ∀ e : (Bytes β × ℕ) × ℚ, outdated ttl before e = true →
        outdated ttl now e = true := by
      intro e he
      simp only [outdated, decide_eq_true_eq] at he ⊢
      exact he.trans_le (sub_le_sub_right hle ttl)
    have hkept := ih hbefore
    by_cases h : key ∈ (cache.expire before).seen.keys
    · rw [checkSeen_of_mem h] at hcall
      obtain ⟨hfound, rfl⟩ := Prod.mk.inj hcall
      obtain rfl := Except.ok.inj hfound
      have hsame : insertions (log ++ [⟨key, before, true⟩]) = insertions log := by
        rw [insertions, List.filterMap_append]
        exact List.append_nil _
      rw [hsame] at hexpires ⊢
      rw [← dropWhile_live hexpires fun e _ => holder e, ← hkept, ← hsettings]
      rfl
    · rw [checkSeen_of_not_mem h] at hcall
      obtain ⟨hfound, rfl⟩ := Prod.mk.inj hcall
      obtain rfl := Except.ok.inj hfound
      have hmore : insertions (log ++ [⟨key, before, false⟩]) =
          insertions log ++ [(key, before)] := List.filterMap_append
      have hnew : outdated ttl before (key, before) = false := by
        simpa [outdated] using httl
      rw [hmore] at hexpires ⊢
      rw [← dropWhile_live hexpires fun e _ => holder e,
        ← drop_live_append (run.expires before) hnew, ← hkept, ← hcapacity, ← hsettings]
      show List.dropWhile _ (((cache.expire before).seen.set key before).entries.drop
        (((cache.expire before).seen.set key before).length - cache.capacity)) = _
      rw [OrderedDict.length_set, if_neg h, OrderedDict.entries_set_of_not_mem h]
      rfl

/-! ## The specification -/

omit [Alphabet β] in
/-- A call of `seen`, after any others, returns what the history of the calls says, and leaves no
more entries than the capacity. -/
theorem seen_iff (httl : 0 ≤ ttl) (run : Run capacity ttl log cache)
    (hnow : ∀ l ∈ log, l.now ≤ now) (key : Bytes β × ℕ) :
    ∃ found cache', checkSeen key now cache = (.ok found, cache') ∧
      (found = true ↔ Remembered capacity ttl log key now) ∧ cache'.seen.length ≤ capacity := by
  have hlive := run.live httl hnow
  have hmem : key ∈ (cache.expire now).seen.keys ↔ Remembered capacity ttl log key now := by
    rw [remembered_iff, OrderedDict.keys, hlive, List.mem_map]
  by_cases h : key ∈ (cache.expire now).seen.keys
  · refine ⟨true, _, checkSeen_of_mem h, iff_of_true rfl (hmem.mp h), ?_⟩
    rw [OrderedDict.length, hlive]
    exact length_live_le _ _ _
  · refine ⟨false, _, checkSeen_of_not_mem h, iff_of_false (by simp) (mt hmem.mpr h), ?_⟩
    rw [← run.settings.1]
    exact OrderedDict.length_evictOldest_le _ _

/-- Two more frames have been new since the first one, whose entry has not expired. -/
theorem seen_iff_evicted :
    let a : Lookup UInt8 := ⟨([1], 0), 0, false⟩
    let b : Lookup UInt8 := ⟨([2], 0), 1, false⟩
    let c : Lookup UInt8 := ⟨([1], 0), 2, true⟩
    let d : Lookup UInt8 := ⟨([3], 0), 3, false⟩
    ∃ cache, Run 2 10 [a, b, c, d] cache ∧ ∃ found cache',
      checkSeen ([1], 0) 4 cache = (.ok found, cache') ∧
      (found = true ↔ Remembered 2 10 [a, b, c, d] ([1], 0) 4) ∧ cache'.seen.length ≤ 2 := by
  intro a b c d
  have h₁ : Run 2 10 ([] ++ [a]) _ :=
    Run.start.call (by decide) (checkSeen_of_not_mem (by decide +kernel))
  have h₂ : Run 2 10 ([a] ++ [b]) _ :=
    h₁.call (by decide) (checkSeen_of_not_mem (by decide +kernel))
  have h₃ : Run 2 10 ([a, b] ++ [c]) _ :=
    h₂.call (by decide) (checkSeen_of_mem (by decide +kernel))
  have h₄ : Run 2 10 ([a, b, c] ++ [d]) _ :=
    h₃.call (by decide) (checkSeen_of_not_mem (by decide +kernel))
  exact ⟨_, h₄, seen_iff (by decide) h₄ (by decide) _⟩

end DedupCache

end Chatbit
